import Mathlib.Data.List.DropRight
import Mathlib.Data.List.Sort
import LearningOrbit.Worker.RoomEvent

/-!
# The conversation an agent is shown

`build_context`, and `DurableAgentExecutor` up to the provider request. Every stored
message event has a text, so the test for a missing one is not repeated here.
-/

namespace LearningOrbit.Agent

open LearningOrbit (Dict)
open LearningOrbit.Worker LearningOrbit.Reference

structure ContextEvent where
  eventId : String
  roomSeq : Nat
  actorId : String
  actorKind : ActorKind
  text : String
  sourceEventId : String
  deriving DecidableEq

/-- A row of `approved_artifacts`. -/
structure Artifact where
  artifactId : String
  sourceEventId : String
  text : String
  derivation : String
  reviewStatus : String
  deriving DecidableEq

structure AgentContext where
  roomId : String
  sourceRange : Nat × Nat
  events : List ContextEvent
  approvedArtifacts : List Artifact
  deriving DecidableEq

/-- The three types of events that the loop looks at. -/
def isMessage (e : RoomEvent) : Bool :=
  e.type = .messageAdded || e.type = .messageRevised || e.type = .messageRetracted

def retracts (e : RoomEvent) : Bool :=
  isMessage e && (e.operation = .retract || e.type = .messageRetracted)

def writes (e : RoomEvent) : Bool :=
  isMessage e && !retracts e && (e.operation = .add || e.operation = .revise)

/-- `active_message_ids` and `latest`. -/
structure Selection where
  active : List String
  latest : Dict String RoomEvent

def Selection.take (s : Selection) (item : RoomEvent) : Selection :=
  if retracts item then
    ⟨s.active.filter (· ≠ item.messageId), s.latest.erase item.messageId⟩
  else if writes item then
    ⟨if item.messageId ∈ s.active then s.active else s.active ++ [item.messageId],
      s.latest.set item.messageId item⟩
  else s

/-- The loop; events out of room, range or type are skipped. -/
def select (roomId : String) (throughSeq : Nat) (parsed : List RoomEvent) : Selection :=
  (parsed.filter fun item => item.roomId = roomId && item.roomSeq ≤ throughSeq && isMessage item)
    |>.foldl Selection.take ⟨[], .empty⟩

/-- `_event`: what `RoomEvent.from_dict` refuses. -/
def parseEvent (e : RoomEvent) : Except String RoomEvent :=
  if e.roomSeq < 1 then .error "roomSeq must be a positive integer"
  else if e.revision < 1 then .error "revision must be a positive integer"
  else .ok e

def bySeq (events : List RoomEvent) : List RoomEvent :=
  events.insertionSort (·.roomSeq ≤ ·.roomSeq)

/-- The active revisions in order. -/
def Selection.events (s : Selection) : List RoomEvent :=
  bySeq ((s.latest.entries.filter fun entry => entry.1 ∈ s.active).map Prod.snd)

def contextEvent (item : RoomEvent) : ContextEvent :=
  ⟨item.eventId, item.roomSeq, item.actorId, item.actorKind, item.payload.text, item.eventId⟩

/-- The context over the selected events, with the approved artifacts derived from them. -/
def contextOf (roomId : String) (selected : List RoomEvent) (approvedArtifacts : List Artifact) :
    AgentContext where
  roomId := roomId
  sourceRange :=
    ((selected.head?.map RoomEvent.roomSeq).getD 0, (selected.getLast?.map RoomEvent.roomSeq).getD 0)
  events := selected.map contextEvent
  approvedArtifacts := approvedArtifacts.filter fun artifact =>
    artifact.sourceEventId ∈ selected.map RoomEvent.eventId && artifact.reviewStatus = "approved"

def buildContext (roomId : String) (events : List RoomEvent) (throughSeq maxEvents : Nat)
    (approvedArtifacts : List Artifact) : Except String AgentContext :=
  if throughSeq < 1 || maxEvents < 1 then .error "INVALID_CONTEXT_BOUNDS"
  else do
    let parsed ← events.mapM parseEvent
    let selected := (select roomId throughSeq (bySeq parsed)).events.rtake maxEvents
    if selected.isEmpty then .error "NO_ACTIVE_CONTEXT"
    else .ok (contextOf roomId selected approvedArtifacts)

/-- `_events`. -/
def runEvents (ledger : List RoomEvent) (roomId : String) (throughSeq : Nat) : List RoomEvent :=
  bySeq (ledger.filter fun e => e.roomId = roomId && e.roomSeq ≤ throughSeq)

/-- The rows of `agent_run` that the executor reads. -/
structure RunRow where
  roomId : String
  inputThroughRoomSeq : Nat

/-- The context of the provider request. -/
def executorContext (ledger : List RoomEvent) (run : RunRow) (maxContextEvents : Nat) :
    Except String AgentContext :=
  match buildContext run.roomId (runEvents ledger run.roomId run.inputThroughRoomSeq)
      run.inputThroughRoomSeq maxContextEvents [] with
  | .ok context => .ok context
  | .error code => .error ("AGENT_CONTEXT_" ++ code)

end LearningOrbit.Agent
