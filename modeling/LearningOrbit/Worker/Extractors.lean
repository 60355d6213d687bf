import LearningOrbit.Reference.Validity
import LearningOrbit.Worker.RoomEvent

/-!
# From room events to chat events

`MessageLineageIndex` maps message roots to the room event that currently
speaks for them; `toChatEvent` resolves replies, revisions and retractions
against it and only then advances it.
-/

namespace LearningOrbit.Worker

open LearningOrbit (Host Dict)
open LearningOrbit.Reference

structure MessageLineageIndex where
  activeByMessage : Dict String String
  deriving DecidableEq

structure ResolvedLineage where
  replyEventId : Option String
  targetEventId : Option String
  deriving DecidableEq

/-- Python truthiness of an optional string. -/
def truthy (s : Option String) : Option String := s.filter (· ≠ "")

namespace MessageLineageIndex

def init : MessageLineageIndex := ⟨.empty⟩

def resolveBefore (index : MessageLineageIndex) (event : RoomEvent) :
    Except String ResolvedLineage :=
  let reply := (truthy event.payload.replyTo).bind index.activeByMessage.get?
  let target := (truthy event.payload.messageId).bind index.activeByMessage.get?
  if (truthy event.payload.replyTo).isSome ∧ reply = none then
    .error "reply message root has no active event"
  else if event.operation ≠ .add ∧ target = none then
    .error "revision target has no active event"
  else .ok ⟨reply, target⟩

def advance (index : MessageLineageIndex) (event : RoomEvent) : MessageLineageIndex :=
  match truthy event.payload.messageId with
  | none => index
  | some root =>
    if event.operation = .retract ∨ event.operation = .delete then
      ⟨index.activeByMessage.erase root⟩
    else ⟨index.activeByMessage.set root event.eventId⟩

end MessageLineageIndex

/-- The wire role `socratic_facilitator` is the reference role `summary`. -/
def agentRoleOf (event : RoomEvent) : Option ActorRole :=
  if event.actorKind = .agent then
    if event.actorRole = some .summary ∨ event.actorRole = some .socraticFacilitator
    then some .summary else event.actorRole
  else none

/-- The chat event of a room event whose lineage and text have been resolved. -/
def chatFields (event : RoomEvent) (eventTime ingestTime : Int) (composite : Composite)
    (before : ResolvedLineage) : ChatEventFields :=
  { eventId := event.eventId
    sessionId := event.roomId
    eventTime
    ingestTime
    actorId := event.actorId
    actorKind := event.actorKind
    modality := composite.modality
    text := composite.text
    sourceConfidence := composite.sourceConfidence
    revision := event.revision
    operation := event.operation
    replyTo := before.replyEventId
    mentions := event.payload.mentions
    supersedes := if event.operation = .revise then before.targetEventId else none
    retracts := if event.operation = .retract ∨ event.operation = .delete
      then before.targetEventId else none
    agentRole := agentRoleOf event }

def emptyComposite : Composite := ⟨"", .text, 1, []⟩

/-- `to_chat_event` as `_apply_one` calls it: no composite is supplied and the lineage index
is the projector's. A rejected event leaves the index alone. -/
def toChatEvent (h : Host) (index : MessageLineageIndex) (event : RoomEvent)
    (eventTime ingestTime : Int) : Except String (ChatEvent × MessageLineageIndex) := do
  let before ← index.resolveBefore event
  let composite ← buildCompositeArtifact h event .empty
  let chat ← ChatEvent.create
    (chatFields event eventTime ingestTime (composite.getD emptyComposite) before)
  return (chat, index.advance event)

/-- Everything an accepted adaptation says about its chat event. -/
theorem toChatEvent_eq_ok {h : Host} {index next : MessageLineageIndex} {event : RoomEvent}
    {eventTime ingestTime : Int} {chat : ChatEvent}
    (ha : toChatEvent h index event eventTime ingestTime = .ok (chat, next)) :
    ∃ before composite, index.resolveBefore event = .ok before ∧
      chat.toChatEventFields = chatFields event eventTime ingestTime composite before ∧
      next = index.advance event := by
  obtain ⟨before, hb, ha⟩ := bind_eq_ok.mp ha
  obtain ⟨composite, -, ha⟩ := bind_eq_ok.mp ha
  obtain ⟨created, hc, ha⟩ := bind_eq_ok.mp ha
  cases ha
  exact ⟨before, _, hb, ChatEvent.create_ok hc, rfl⟩

/-- The last context event with a given id, as `{item.event_id: item for item in context}`. -/
def byId (context : List ChatEvent) (id : Option String) : Option ChatEvent :=
  (context.reverse.find? fun item => item.eventId = id.getD "")

/-- The human turn a summary replied to, kept as provenance of uptake through the agent. -/
def agentSource (context : List ChatEvent) (parent : ChatEvent) : Option ChatEvent :=
  if parent.actorKind = .agent then
    (byId context parent.replyTo).filter (·.actorKind = .human)
  else none

def relationOf (event : ChatEvent) (sourceId targetId objectId basis : String) (layer : Layer)
    (provenance : List SourceRef) : EdgeEvidence :=
  { sourceId, targetId, layer, polarity := .positive, magnitude := 1
    confidence := event.sourceConfidence, basis, objectId, provenance }

/-- A turn that takes up its parent credits the parent, or the human behind an agent, and
keeps the agent's facilitation edge. -/
def uptakeEvidence (h : Host) (event : ChatEvent) (context : List ChatEvent) (p : ChatEvent) :
    List EdgeEvidence :=
  let source := agentSource context p
  let provenance := (source.map fun s => StreamingInteractionNetwork.sourceOf s .human).toList
  if uptakeLanguage h event.text then
    relationOf event ((source.map (·.actorId)).getD p.actorId) event.actorId p.eventId
      "semantic_uptake" .uptake provenance ::
    if p.actorKind = .agent then
      [relationOf event p.actorId event.actorId p.eventId "summary_facilitation" .facilitation
        provenance]
    else []
  else []

def facilitatorEvidence (event p : ChatEvent) : List EdgeEvidence :=
  if event.actorKind = .agent ∧
      (event.agentRole = some .socraticFacilitator ∨ event.agentRole = some .summary) ∧
      p.actorKind = .human then
    [relationOf event event.actorId p.actorId event.eventId "facilitator_reply" .facilitation []]
  else []

/-- `extract_trace_evidence`: typed relations from causal context. -/
def extractTraceEvidence (h : Host) (event : ChatEvent) (context : List ChatEvent) :
    Except String (List EdgeEvidence) := do
  let parent := byId context event.replyTo
  let communication ← communicationEvidence event parent
  match parent with
  | none => return communication
  | some p =>
    let uptake ← (uptakeEvidence h event context p).mapM EdgeEvidence.create
    let facilitation ← (facilitatorEvidence event p).mapM EdgeEvidence.create
    return communication ++ uptake ++ facilitation

theorem relationOf_valid (event : ChatEvent) {sourceId targetId objectId basis : String}
    (layer : Layer) {provenance : List SourceRef} (hs : sourceId ≠ "") (ht : targetId ≠ "")
    (ho : objectId ≠ "") (hb : basis ≠ "") (hp : ∀ s ∈ provenance, s.Valid) :
    (relationOf event sourceId targetId objectId basis layer provenance).Valid :=
  ⟨hs, ht, ho, hb, by simp [relationOf], event.probability, hp⟩

theorem uptakeEvidence_valid (h : Host) (event : ChatEvent) (context : List ChatEvent)
    (p : ChatEvent) : ∀ e ∈ uptakeEvidence h event context p, e.Valid := by
  have hprov : ∀ s ∈ ((agentSource context p).map fun s =>
      StreamingInteractionNetwork.sourceOf s .human).toList, s.Valid := by
    intro s hs
    obtain ⟨t, -, rfl⟩ := Option.map_eq_some_iff.mp (Option.mem_toList.mp hs)
    exact sourceOf_valid t (by decide)
  have hsource : ((agentSource context p).map (·.actorId)).getD p.actorId ≠ "" := by
    cases agentSource context p with
    | none => exact p.required.2.2
    | some s => exact s.required.2.2
  intro e he
  unfold uptakeEvidence at he
  split_ifs at he
  · rcases List.mem_cons.mp he with rfl | he
    · exact relationOf_valid _ _ hsource event.required.2.2 p.required.1 (by decide) hprov
    · rw [List.mem_singleton.mp he]
      exact relationOf_valid _ _ p.required.2.2 event.required.2.2 p.required.1 (by decide) hprov
  · rw [List.mem_singleton.mp he]
    exact relationOf_valid _ _ hsource event.required.2.2 p.required.1 (by decide) hprov
  · cases he

theorem facilitatorEvidence_valid (event p : ChatEvent) :
    ∀ e ∈ facilitatorEvidence event p, e.Valid := by
  intro e he
  unfold facilitatorEvidence at he
  split_ifs at he
  · rw [List.mem_singleton.mp he]
    exact relationOf_valid _ _ event.required.2.2 p.required.2.2 event.required.1 (by decide)
      (by simp)
  · cases he

theorem extractTraceEvidence_ok (h : Host) {event : ChatEvent} (context : List ChatEvent)
    (hm : "" ∉ event.mentions) :
    ∃ l, extractTraceEvidence h event context = .ok l ∧ ∀ e ∈ l, e.Valid := by
  unfold extractTraceEvidence
  obtain ⟨communication, hcomm, hcv⟩ := communicationEvidence_ok (byId context event.replyTo) hm
  cases hp : byId context event.replyTo with
  | none =>
    rw [hp] at hcomm
    exact ⟨communication, bind_eq_ok.mpr ⟨_, hcomm, rfl⟩, hcv⟩
  | some p =>
    rw [hp] at hcomm
    have huv := uptakeEvidence_valid h event context p
    have hfv := facilitatorEvidence_valid event p
    refine ⟨_, bind_eq_ok.mpr ⟨_, hcomm, bind_eq_ok.mpr ⟨_, createAll_ok huv,
      bind_eq_ok.mpr ⟨_, createAll_ok hfv, rfl⟩⟩⟩, ?_⟩
    intro e he
    rcases List.mem_append.mp he with he | he
    · rcases List.mem_append.mp he with he | he
      · exact hcv e he
      · exact huv e he
    · exact hfv e he

end LearningOrbit.Worker
