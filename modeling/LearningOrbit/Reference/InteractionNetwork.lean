import LearningOrbit.Dict
import LearningOrbit.Reference.Events

/-!
# TRACE: the streaming interaction network

The second reducer. It normalises typed evidence per source and layer, keeps the
provenance of summaries, and shares the ledger rules of the concept map.
-/

namespace LearningOrbit.Reference

open LearningOrbit (Host Dict)
open LearningOrbit.Text (Pattern)

structure NetworkContribution where
  contributionId : String
  eventId : String
  revision : Nat
  eventTime : Int
  sourceId : String
  targetId : String
  layer : Layer
  polarity : Polarity
  magnitude : ℚ
  confidence : ℚ
  basis : String
  objectId : String
  provenance : List SourceRef
  active : Bool
  deriving DecidableEq

structure NetworkInput where
  event : ChatEvent
  evidence : List EdgeEvidence
  sources : List SourceRef
  context : Option (List ChatEvent)
  deriveEventRelations : Bool
  deriving DecidableEq

/-- A `self_loop_excluded` audit record. -/
structure SelfLoopAudit where
  eventId : String
  sourceId : String
  targetId : String
  layer : Layer
  deriving DecidableEq

abbrev RelationExtractor := ChatEvent → List ChatEvent → Except String (List EdgeEvidence)

structure StreamingInteractionNetwork where
  allowedLateness : Lateness
  history : List NetworkInput
  eventLedger : Dict String (List EventLedgerEntry)
  perEventDeltas : Dict String (List String)
  contributions : Dict String NetworkContribution
  activeEvents : Dict String ChatEvent
  actorKinds : Dict String ActorKind
  agentRoles : Dict String (Option ActorRole)
  summarySources : Dict String (List SourceRef)
  seen : List (String × Nat × Operation)
  requiresReplay : List String
  audit : List SelfLoopAudit
  watermark : Option Int
  deriving DecidableEq

/-- The wording both adapters read as uptake of an earlier turn. -/
def uptakePattern : Pattern :=
  Pattern.oneOf ["building on", "build on", "agree", "because", "based on",
    "延續", "接著", "承接", "同意", "因為", "根據", "補充"]

def uptakeLanguage (h : Host) (text : String) : Bool := (uptakePattern.search h text).isSome

/-- The typed relations one message has with the actors it replies to and mentions. -/
def communicationTargets (parent : Option ChatEvent) (mentions : List String) :
    Dict String String :=
  let replied : Dict String String :=
    match parent with
    | some p => Dict.empty.set p.actorId "reply"
    | none => .empty
  mentions.foldl (fun targets mention => targets.setDefault mention "mention") replied

def communicationEvidence (event : ChatEvent) (parent : Option ChatEvent) :
    Except String (List EdgeEvidence) :=
  let targets := communicationTargets parent event.mentions
  let item (target : String) (magnitude : ℚ) (basis : String) : EdgeEvidence :=
    { sourceId := event.actorId, targetId := target, layer := .communication
      polarity := .positive, magnitude, confidence := event.sourceConfidence
      basis, objectId := event.eventId, provenance := [] }
  if targets.size = 0 then ([(item "ROOM" 1 "broadcast")].mapM EdgeEvidence.create)
  else (targets.keys.insertionSort (· ≤ ·)).mapM fun target =>
    EdgeEvidence.create (item target (1 / targets.size) ((targets.get? target).getD ""))

namespace StreamingInteractionNetwork

def init : StreamingInteractionNetwork where
  allowedLateness := .within (seconds 5)
  history := []
  eventLedger := .empty
  perEventDeltas := .empty
  contributions := .empty
  activeEvents := .empty
  actorKinds := .empty
  agentRoles := .empty
  summarySources := .empty
  seen := []
  requiresReplay := []
  audit := []
  watermark := none

/-- Assign `allowed_lateness`. -/
def withLateness (n : StreamingInteractionNetwork) (allowed : Lateness) :
    StreamingInteractionNetwork :=
  { n with allowedLateness := allowed }

theorem withLateness_eq {n : StreamingInteractionNetwork} {allowed : Lateness}
    (h : n.allowedLateness = allowed) : n.withLateness allowed = n := by
  cases n
  cases h
  rfl

def patch (h : Host) (event : ChatEvent) (nodes added removed : List String)
    (duplicate requiresReplay accepted : Bool) (reason : String) : MapPatch :=
  let added := Text.sortedSet added
  let removed := Text.sortedSet removed
  { patchId := stableId h "sna"
      [event.eventId, toString event.revision, event.operation.str, Text.strTuple h added,
       Text.strTuple h removed, Text.strBool duplicate, Text.strBool requiresReplay,
       Text.strBool accepted, reason]
    eventId := event.eventId
    operation := event.operation
    addedNodes := Text.sortedSet nodes
    addedEdges := added
    updatedEdges := []
    removedEdges := removed
    requiresReplay, duplicate, accepted, reason }

def edgeId (h : Host) (c : NetworkContribution) : String :=
  stableId h "sna-edge" [c.sourceId, c.targetId, c.layer.str]

def ledger (n : StreamingInteractionNetwork) (event : ChatEvent) (active requiresReplay : Bool) :
    StreamingInteractionNetwork :=
  { n with eventLedger := n.eventLedger.modify event.eventId [] (· ++ [⟨event, active, requiresReplay⟩]) }

def advance (n : StreamingInteractionNetwork) (eventTime : Int) : StreamingInteractionNetwork :=
  { n with watermark := raiseWatermark n.watermark eventTime }

/-- The state half of `_deactivate`. -/
def deactivate (n : StreamingInteractionNetwork) (eventId : String) :
    StreamingInteractionNetwork :=
  { n with
    eventLedger := n.eventLedger.mapValues fun id entries =>
      if id = eventId then entries.map ({ · with active := false }) else entries
    contributions := n.contributions.mapValues fun _ c =>
      if c.eventId = eventId then { c with active := false } else c
    activeEvents := n.activeEvents.erase eventId
    summarySources := n.summarySources.erase eventId }

/-- The edges `_deactivate` reports. -/
def deactivated (h : Host) (n : StreamingInteractionNetwork) (eventId : String) : List String :=
  (n.contributions.values.filter fun c => c.eventId = eventId && c.active).map (edgeId h)

def activeEntries (n : StreamingInteractionNetwork) (id : String) : List EventLedgerEntry :=
  ((n.eventLedger.get? id).getD []).filter (·.active)

def highestActive (n : StreamingInteractionNetwork) (id : String) : Option Nat :=
  ((n.activeEntries id).map (·.event.revision)).max?

def replySource (event : ChatEvent) (activeEvents : Dict String ChatEvent) : Option ChatEvent :=
  (event.replyTo.filter (· ≠ "")).bind activeEvents.get?

def sourceOf (parent : ChatEvent) (kind : ActorKind) : SourceRef :=
  { sourceId := "source:" ++ parent.eventId, eventId := parent.eventId
    actorId := parent.actorId, actorKind := kind, confidence := parent.sourceConfidence }

/-- `_derive_event_evidence`. -/
def deriveEventEvidence (h : Host) (event : ChatEvent) (activeEvents : Dict String ChatEvent)
    (summarySources : Dict String (List SourceRef)) : Except String (List EdgeEvidence) := do
  let parent := replySource event activeEvents
  let evidence ← communicationEvidence event parent
  match parent with
  | none => return evidence
  | some p =>
    if uptakeLanguage h event.text then
      let provenance := if p.actorKind = .agent then (summarySources.get? p.eventId).getD []
        else [sourceOf p p.actorKind]
      let item (layer : Layer) (basis : String) : EdgeEvidence :=
        { sourceId := p.actorId, targetId := event.actorId, layer, polarity := .positive
          magnitude := 1, confidence := event.sourceConfidence, basis
          objectId := p.eventId, provenance }
      let uptake ← EdgeEvidence.create (item .uptake "semantic_uptake")
      if p.actorKind = .agent ∧ p.agentRole = some .summary then
        let facilitation ← EdgeEvidence.create (item .facilitation "summary_facilitation")
        return evidence ++ [uptake, facilitation]
      else return evidence ++ [uptake]
    else return evidence

/-- The budget a source has already claimed on a layer. -/
def total (items : List EdgeEvidence) (item : EdgeEvidence) : ℚ :=
  ((items.filter fun i => i.sourceId = item.sourceId && i.layer = item.layer).map
    (·.magnitude)).sum

def normalizeItem (items : List EdgeEvidence) (item : EdgeEvidence) : EdgeEvidence :=
  let total := total items item
  { item with magnitude := item.magnitude * if 1 < total then 1 / total else 1 }

/-- `_normalize_evidence`: self-loops are audited, the rest share a budget of one. -/
def normalizeEvidence (event : ChatEvent) (items : List EdgeEvidence) :
    Except String (List EdgeEvidence × List SelfLoopAudit) := do
  items.forM validateEdgeEvidence
  let loops := items.filter fun i => i.sourceId = i.targetId
  let kept := items.filter fun i => i.sourceId ≠ i.targetId
  return (kept.map (normalizeItem items),
    loops.map fun i => ⟨event.eventId, i.sourceId, i.targetId, i.layer⟩)

def pairLe (a b : String × String) : Prop := a.1 < b.1 ∨ (a.1 = b.1 ∧ a.2 ≤ b.2)

instance : DecidableRel pairLe := fun _ _ => inferInstanceAs (Decidable (_ ∨ _))

/-- `_summary_sources_for_event`: the best source per event and actor. -/
def summarySourcesForEvent (event : ChatEvent) (sources : List SourceRef)
    (activeEvents : Dict String ChatEvent) : Option (List SourceRef) :=
  if event.actorKind ≠ .agent ∨ event.agentRole ≠ some .summary then none
  else
    let gathered : List SourceRef := match replySource event activeEvents with
      | some parent => if parent.actorKind = .human then sources ++ [sourceOf parent .human]
        else sources
      | none => sources
    let unique : Dict (String × String) SourceRef := gathered.foldl (fun unique source =>
      match unique.get? (source.eventId, source.actorId) with
      | none => unique.set (source.eventId, source.actorId) source
      | some current => if current.confidence < source.confidence
        then unique.set (source.eventId, source.actorId) source else unique) .empty
    some ((unique.keys.insertionSort pairLe).filterMap unique.get?)

def stage (h : Host) (event : ChatEvent) (index : Nat) (item : EdgeEvidence) :
    NetworkContribution :=
  { contributionId := stableId h "nc"
      [event.eventId, toString event.revision, toString index, item.sourceId, item.targetId,
       item.layer.str, item.polarity.str, item.objectId]
    eventId := event.eventId
    revision := event.revision
    eventTime := event.eventTime
    sourceId := item.sourceId
    targetId := item.targetId
    layer := item.layer
    polarity := item.polarity
    magnitude := item.magnitude
    confidence := item.confidence
    basis := item.basis
    objectId := item.objectId
    provenance := item.provenance
    active := true }

/-- The optional arguments of `apply`. -/
structure Supplied where
  evidence : List EdgeEvidence
  sources : List SourceRef
  context : Option (List ChatEvent)
  deriveEventRelations : Bool
  recordHistory : Bool

def commitIdentity (n : StreamingInteractionNetwork) (event : ChatEvent) (args : Supplied)
    (context : Option (List ChatEvent)) : StreamingInteractionNetwork :=
  { n with
    seen := n.seen ++ [event.key]
    history := if args.recordHistory
      then n.history ++ [⟨event, args.evidence, args.sources, context, args.deriveEventRelations⟩]
      else n.history }

def applyLate (n : StreamingInteractionNetwork) (event : ChatEvent) (args : Supplied) :
    StreamingInteractionNetwork :=
  let n := (n.commitIdentity event args args.context).ledger event false true
  { n with
    requiresReplay :=
      if event.eventId ∈ n.requiresReplay then n.requiresReplay
      else n.requiresReplay ++ [event.eventId] }

/-- The context recorded with an accepted event: the supplied one, else the live events. -/
def contextOf (args : Supplied) (prospective : Dict String ChatEvent) : List ChatEvent :=
  args.context.getD prospective.values

/-- The evidence of one event: derived relations, then the extractor's, then the supplied. -/
def relations (h : Host) (extractor : Option RelationExtractor) (n : StreamingInteractionNetwork)
    (event : ChatEvent) (args : Supplied) (prospective : Dict String ChatEvent) :
    Except String (List EdgeEvidence) := do
  if args.deriveEventRelations then
    let derived ← deriveEventEvidence h event prospective n.summarySources
    let extracted ← match extractor with
      | some extract => extract event (contextOf args prospective)
      | none => pure []
    return derived ++ extracted ++ args.evidence
  else return args.evidence

/-- Commit staged contributions, deactivating the superseded event first. -/
def applyStaged (n : StreamingInteractionNetwork) (event : ChatEvent) (args : Supplied)
    (context : List ChatEvent) (deactivateTarget : Bool) (audits : List SelfLoopAudit)
    (summary : Option (List SourceRef)) (staged : List NetworkContribution) :
    StreamingInteractionNetwork :=
  let n := (n.commitIdentity event args (some context)).advance event.eventTime
  let n := if deactivateTarget then n.deactivate event.target else n
  let n : StreamingInteractionNetwork := { n with
    audit := audits.foldl (fun acc a => if a ∈ acc then acc else acc ++ [a]) n.audit
    summarySources := match summary with
      | some sources => n.summarySources.set event.eventId sources
      | none => n.summarySources
    contributions := staged.foldl (fun d c => d.set c.contributionId c) n.contributions
    perEventDeltas := n.perEventDeltas.set (event.eventId ++ ":" ++ toString event.revision)
      ((staged.map (·.contributionId)).insertionSort (· ≤ ·))
    activeEvents := n.activeEvents.set event.eventId event
    actorKinds := n.actorKinds.set event.actorId event.actorKind
    agentRoles := n.agentRoles.set event.actorId event.agentRole }
  n.ledger event true false

/-- The part of `apply` after the lateness and staleness checks; `prospective` is the set of
live events the new one is read against. -/
def applyAccepted (h : Host) (extractor : Option RelationExtractor)
    (n : StreamingInteractionNetwork) (event : ChatEvent) (args : Supplied)
    (prospective : Dict String ChatEvent) (deactivateTarget : Bool) :
    StreamingInteractionNetwork × Except String MapPatch :=
  if event.operation = .delete ∨ event.operation = .retract then
    ((((n.commitIdentity event args (some (contextOf args prospective))).advance
        event.eventTime).deactivate event.target).ledger event false false,
      .ok (patch h event [] [] (n.deactivated h event.target) false false true "retracted"))
  else
    match n.relations h extractor event args prospective >>= normalizeEvidence event with
    | .error e => (n, .error e)
    | .ok (normalized, audits) =>
      let staged := normalized.zipIdx.map fun (item, index) => stage h event index item
      (n.applyStaged event args (contextOf args prospective) deactivateTarget audits
          (summarySourcesForEvent event args.sources prospective) staged,
        .ok (patch h event [event.actorId] (staged.map (edgeId h))
          (if deactivateTarget then n.deactivated h event.target else []) false false true
          "applied"))

/-- Apply one event and its already-extracted relations. -/
def apply (h : Host) (extractor : Option RelationExtractor) (n : StreamingInteractionNetwork)
    (event : ChatEvent) (args : Supplied) :
    StreamingInteractionNetwork × Except String MapPatch :=
  if event.key ∈ n.seen then
    (n, .ok (patch h event [] [] [] true false true "duplicate"))
  else if tooLate n.watermark n.allowedLateness event.eventTime then
    (n.applyLate event args,
      .ok (patch h event [] [] [] false true false "beyond_allowed_lateness"))
  else if event.operation = .add then
    match n.highestActive event.eventId with
    | some highest =>
      if event.revision ≤ highest then
        ((n.commitIdentity event args (some (contextOf args n.activeEvents))).advance
            event.eventTime,
          .ok (patch h event [] [] [] true false true "stale_revision"))
      else n.applyAccepted h extractor event args (n.activeEvents.erase event.eventId) true
    | none => n.applyAccepted h extractor event args n.activeEvents false
  else n.applyAccepted h extractor event args (n.activeEvents.erase event.target) true

end StreamingInteractionNetwork

end LearningOrbit.Reference
