import LearningOrbit.Reference.ConceptMap
import LearningOrbit.Worker.Extractors

/-!
# The streaming projector

Events are consumed once by room sequence. `Projection` is the part of the
state that `_apply_one` writes; the cursor, the history and the buffer of
out-of-order events are the projector's own.
-/

namespace LearningOrbit.Worker

open LearningOrbit (Host Dict)
open LearningOrbit.Reference

def ALLOWED_LATENESS : Int := seconds 5

def FUTURE_CLOCK_WARNING : Int := seconds 30

/-- The server-time-bounded decision for one immutable room event. -/
structure CursorDecision where
  effectiveEventTime : Int
  maxSeenEventTime : Int
  watermarkEventTime : Int
  tooLate : Bool
  warnings : List String
  deriving DecidableEq

/-- Clamp client time and advance a monotonic event-time watermark. No previous watermark
stands for the least instant. -/
def advanceWatermark (eventTime ingestTime previousMaxSeen : Int)
    (previousWatermark : Option Int) : CursorDecision :=
  let effective := min eventTime ingestTime
  let maxSeen := max previousMaxSeen effective
  { effectiveEventTime := effective
    maxSeenEventTime := maxSeen
    watermarkEventTime := match previousWatermark with
      | some w => max w (maxSeen - ALLOWED_LATENESS)
      | none => maxSeen - ALLOWED_LATENESS
    tooLate := match previousWatermark with
      | some w => effective < w
      | none => false
    warnings := if eventTime - ingestTime > FUTURE_CLOCK_WARNING
      then ["client_time_future_clamped"] else [] }

inductive SequenceDecision
  | duplicate | next | roomSeqGap
  deriving DecidableEq

/-- Classify a room sequence without mutating cursor state. -/
def sequenceDecision (roomSeq completeThrough : Nat) : SequenceDecision :=
  if roomSeq ≤ completeThrough then .duplicate
  else if roomSeq = completeThrough + 1 then .next
  else .roomSeqGap

structure Projection where
  echo : StreamingConceptMap
  trace : StreamingInteractionNetwork
  lineage : MessageLineageIndex
  chatHistory : List ChatEvent
  maxSeenEventTime : Option Int
  watermarkEventTime : Option Int
  warnings : List String
  requiresReplay : Bool
  deriving DecidableEq

def Projection.init : Projection where
  echo := .init
  trace := .init
  lineage := .init
  chatHistory := []
  maxSeenEventTime := none
  watermarkEventTime := none
  warnings := []
  requiresReplay := false

/-- What `_apply_one` returns. -/
structure Applied where
  semanticNoop : Bool
  reasonCode : Option String
  requiresReplay : Bool
  warnings : List String
  deriving DecidableEq

/-- The cursor decision of an event whose ingest time parsed; an event time that does not
parse falls back to the ingest time. -/
def Projection.decide (p : Projection) (event : RoomEvent) (ingest : Int) : CursorDecision :=
  let eventTime := event.eventTime.getD ingest
  advanceWatermark eventTime ingest
    (p.maxSeenEventTime.getD (min eventTime ingest)) p.watermarkEventTime

def Projection.observe (p : Projection) (decision : CursorDecision) : Projection :=
  { p with
    maxSeenEventTime := some decision.maxSeenEventTime
    watermarkEventTime := some decision.watermarkEventTime
    warnings := decision.warnings.foldl (fun acc w => if w ∈ acc then acc else acc ++ [w])
      p.warnings }

/-- The relations of a chat event go to TRACE as supplied evidence. -/
def suppliedEvidence (evidence : List EdgeEvidence) : StreamingInteractionNetwork.Supplied :=
  { evidence, sources := [], context := none, deriveEventRelations := false
    recordHistory := true }

/-- Run a reducer under the lateness gate of the call and put its own gate back. -/
def gate (replaying : Bool) (lateness : Lateness) : Lateness :=
  if replaying then .inf else lateness

def echoApply (h : Host) (replaying : Bool) (m : StreamingConceptMap) (chat : ChatEvent) :
    StreamingConceptMap × Except String MapPatch :=
  let result := (m.withLateness (gate replaying m.allowedLateness)).apply h
    (DeterministicEcosystemExtractor.extract h) chat [] true
  (result.1.withLateness m.allowedLateness, result.2)

def traceApply (h : Host) (replaying : Bool) (n : StreamingInteractionNetwork)
    (chat : ChatEvent) (evidence : List EdgeEvidence) :
    StreamingInteractionNetwork × Except String MapPatch :=
  let result := (n.withLateness (gate replaying n.allowedLateness)).apply h
    none chat (suppliedEvidence evidence)
  (result.1.withLateness n.allowedLateness, result.2)

/-- Both reducers on one chat event, ECHO first. -/
def Projection.reduce (h : Host) (replaying late : Bool) (warnings : List String)
    (p : Projection) (chat : ChatEvent) : Projection × Except String Applied :=
  let echo := echoApply h replaying p.echo chat
  match echo.2, extractTraceEvidence h chat p.chatHistory with
  | .error e, _ => ({ p with echo := echo.1 }, .error e)
  | .ok _, .error e => ({ p with echo := echo.1 }, .error e)
  | .ok echoPatch, .ok evidence =>
    let trace := traceApply h replaying p.trace chat evidence
    match trace.2 with
    | .error e => ({ p with echo := echo.1, trace := trace.1 }, .error e)
    | .ok tracePatch =>
      let requires := echoPatch.requiresReplay || tracePatch.requiresReplay || (late && !replaying)
      ({ p with
          echo := echo.1
          trace := trace.1
          requiresReplay := p.requiresReplay || requires
          chatHistory := p.chatHistory ++ [chat] },
        .ok ⟨false, none, requires, warnings⟩)

/-- With nonempty mentions neither reducer raises, and both see the same chat event. -/
theorem Projection.reduce_eq (h : Host) (replaying late : Bool) (warnings : List String)
    (p : Projection) {chat : ChatEvent} (hm : "" ∉ chat.mentions) :
    ∃ echoPatch evidence tracePatch,
      (echoApply h replaying p.echo chat).2 = .ok echoPatch ∧
      extractTraceEvidence h chat p.chatHistory = .ok evidence ∧
      (∀ e ∈ evidence, e.Valid) ∧
      (traceApply h replaying p.trace chat evidence).2 = .ok tracePatch ∧
      p.reduce h replaying late warnings chat =
        ({ p with
            echo := (echoApply h replaying p.echo chat).1
            trace := (traceApply h replaying p.trace chat evidence).1
            requiresReplay := p.requiresReplay ||
              (echoPatch.requiresReplay || tracePatch.requiresReplay || (late && !replaying))
            chatHistory := p.chatHistory ++ [chat] },
          .ok ⟨false, none,
            echoPatch.requiresReplay || tracePatch.requiresReplay || (late && !replaying),
            warnings⟩) := by
  obtain ⟨echoPatch, he⟩ : ∃ q, (echoApply h replaying p.echo chat).2 = .ok q :=
    StreamingConceptMap.apply_ok ..
  obtain ⟨evidence, hev, hval⟩ := extractTraceEvidence_ok h p.chatHistory hm
  obtain ⟨tracePatch, ht⟩ :
      ∃ q, (traceApply h replaying p.trace chat evidence).2 = .ok q :=
    StreamingInteractionNetwork.apply_ok h _ chat _ rfl hval
  refine ⟨echoPatch, evidence, tracePatch, he, hev, hval, ht, ?_⟩
  simp only [Projection.reduce, he, hev, ht]

/-- `_apply_one`: apply one contiguous event and return semantic cursor metadata. -/
def Projection.applyOne (h : Host) (replaying : Bool) (p : Projection) (event : RoomEvent) :
    Projection × Except String Applied :=
  match event.ingestTime with
  | none => (p, .error "invalid room event timestamp")
  | some ingest =>
    let decision := p.decide event ingest
    let q := p.observe decision
    if event.type.semantic then
      match toChatEvent h q.lineage event decision.effectiveEventTime ingest with
      | .error _ => (q, .ok ⟨true, some "invalid_event_adapter", false, []⟩)
      | .ok (chat, lineage) =>
        { q with lineage }.reduce h replaying decision.tooLate decision.warnings chat
    else (q, .ok ⟨true, some ("semantic_noop:" ++ event.type.str),
      decision.tooLate && !replaying, []⟩)

structure StreamingProjector where
  roomId : String
  completeThroughRoomSeq : Nat
  history : List RoomEvent
  pending : Dict Nat RoomEvent
  state : Projection
  deriving DecidableEq

inductive Outcome
  | duplicate (completeThrough : Nat)
  | late (completeThrough : Nat)
  | blocked (completeThrough : Nat)
  | applied (result : Applied) (completeThrough : Nat) (requiresReplay : Bool)
  deriving DecidableEq

/-- `(roomSeq, eventId)` order of the history. -/
def historyLe (a b : RoomEvent) : Prop :=
  a.roomSeq < b.roomSeq ∨ (a.roomSeq = b.roomSeq ∧ a.eventId ≤ b.eventId)

instance : DecidableRel historyLe := fun _ _ => inferInstanceAs (Decidable (_ ∨ _))

namespace StreamingProjector

def init (roomId : String) : StreamingProjector := ⟨roomId, 0, [], .empty, .init⟩

/-- The loop of `consume`. Each round takes one buffered event, so the size of the buffer
bounds the rounds. -/
def drain (h : Host) : Nat → StreamingProjector → Applied → StreamingProjector × Except String Applied
  | 0, s, last => (s, .ok last)
  | fuel + 1, s, last =>
    match s.pending.get? (s.completeThroughRoomSeq + 1) with
    | none => (s, .ok last)
    | some event =>
      let pending := s.pending.erase (s.completeThroughRoomSeq + 1)
      match s.state.applyOne h false event with
      | (state, .error e) => ({ s with pending, state }, .error e)
      | (state, .ok result) =>
        drain h fuel { s with
          pending, state, completeThroughRoomSeq := s.completeThroughRoomSeq + 1 } result

/-- Enter an event into the history and place it against the cursor. -/
def place (h : Host) (s : StreamingProjector) (event : RoomEvent) :
    StreamingProjector × Except String Outcome :=
  let s := { s with history := (s.history ++ [event]).insertionSort historyLe }
  match sequenceDecision event.roomSeq s.completeThroughRoomSeq with
  | .duplicate =>
    ({ s with state := { s.state with requiresReplay := true } },
      .ok (.late s.completeThroughRoomSeq))
  | .roomSeqGap =>
    ({ s with pending := s.pending.set event.roomSeq event },
      .ok (.blocked s.completeThroughRoomSeq))
  | .next =>
    let s := { s with pending := s.pending.set event.roomSeq event }
    match s.drain h s.pending.size ⟨false, none, false, []⟩ with
    | (t, .error e) => (t, .error e)
    | (t, .ok result) =>
      (t, .ok (.applied result t.completeThroughRoomSeq t.state.requiresReplay))

def consume (h : Host) (s : StreamingProjector) (event : RoomEvent) :
    StreamingProjector × Except String Outcome :=
  if event.roomId ≠ s.roomId then (s, .error "event belongs to another room")
  else if event.roomSeq < 1 then (s, .error "roomSeq must be a positive integer")
  else if event.revision < 1 then (s, .error "revision must be a positive integer")
  else if s.history.any fun item => item.eventId = event.eventId && item.revision = event.revision
  then (s, .ok (.duplicate s.completeThroughRoomSeq))
  else s.place h event

/-- Feed events one after another; the first raise ends the feed. -/
def feed (h : Host) (s : StreamingProjector) : List RoomEvent → Except String StreamingProjector
  | [] => .ok s
  | event :: rest =>
    match s.consume h event with
    | (_, .error e) => .error e
    | (t, .ok _) => feed h t rest

/-- The loop of `replay` over the ordered history. -/
def replayFrom (h : Host) : StreamingProjector → List RoomEvent → StreamingProjector × Except String Unit
  | s, [] => (s, .ok ())
  | s, event :: rest =>
    match s.state.applyOne h true event with
    | (state, .error e) => ({ s with state }, .error e)
    | (state, .ok _) =>
      replayFrom h { s with
        state, completeThroughRoomSeq := max s.completeThroughRoomSeq event.roomSeq } rest

/-- `replay`: rebuild from the history with the lateness gate lifted. -/
def replay (h : Host) (s : StreamingProjector) : StreamingProjector × Except String Nat :=
  let fresh := { s with
    pending := .empty
    completeThroughRoomSeq := 0
    state := { Projection.init with requiresReplay := s.state.requiresReplay } }
  match replayFrom h fresh (s.history.insertionSort historyLe) with
  | (t, .error e) => (t, .error e)
  | (t, .ok _) =>
    ({ t with state := { t.state with requiresReplay := false } }, .ok t.completeThroughRoomSeq)

end StreamingProjector

end LearningOrbit.Worker
