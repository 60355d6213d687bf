import LearningOrbit.Dict
import LearningOrbit.Raise
import LearningOrbit.Text

/-!
# The coordinator in memory

`AgentTriggerCoordinator` keeps the runs of the shadow agent twice, by their id and by their
trigger. A run is requested by a trigger, takes any state it is told to, and stays in a final one.
-/

namespace LearningOrbit.Shadow

open LearningOrbit (Dict Host)

inductive AgentRunState
  | queued | running | streaming | completed | blockedByPolicy | cancelled | failed
  deriving DecidableEq

def AgentRunState.active : AgentRunState → Bool
  | .queued | .running | .streaming => true
  | _ => false

structure TriggerEvent where
  eventId : String
  roomId : String
  roomSeq : Int
  actorId : String
  actorKind : String
  mentions : List String
  active : Bool
  deriving DecidableEq

structure AgentTrigger where
  roomId : String
  triggerEventId : String
  requestedByActorId : String
  requestedByRole : String
  deriving DecidableEq

def AgentTrigger.key (t : AgentTrigger) : String × String := (t.roomId, t.triggerEventId)

structure AgentRun where
  agentRunId : String
  roomId : String
  triggerEventId : String
  requestedByActorId : String
  requestedByRole : String
  inputFromRoomSeq : Int
  inputThroughRoomSeq : Int
  state : AgentRunState
  sourceEventIds : List String
  warningCodes : List String
  failureCode : Option String
  version : Nat
  deriving DecidableEq

def AgentRun.key (run : AgentRun) : String × String := (run.roomId, run.triggerEventId)

def AgentRun.active (run : AgentRun) : Bool := run.state.active

/-- `replace` with the version counted up. -/
def AgentRun.moved (run : AgentRun) (state : AgentRunState) (failureCode : Option String) : AgentRun :=
  { run with state, failureCode, version := run.version + 1 }

/-- `uuid.NAMESPACE_URL`. -/
def NAMESPACE_URL : String := "6ba7b811-9dad-11d1-80b4-00c04fd430c8"

/-- What the id of a run is hashed from. -/
def runName (key : String × String) : String := "learning-orbit:agent:" ++ key.1 ++ ":" ++ key.2

def runId (h : Host) (key : String × String) : String := h.uuid5 NAMESPACE_URL (runName key)

structure AgentTriggerCoordinator where
  novaActorId : String
  events : Dict String TriggerEvent
  runsByTrigger : Dict (String × String) AgentRun
  runs : Dict String AgentRun
  enabled : Dict String Bool
  roomStatus : Dict String String
  deriving DecidableEq

namespace AgentTriggerCoordinator

def init (novaActorId : String) : AgentTriggerCoordinator where
  novaActorId
  events := .empty
  runsByTrigger := .empty
  runs := .empty
  enabled := .empty
  roomStatus := .empty

/-- Put a run into both indexes. -/
def store (c : AgentTriggerCoordinator) (run : AgentRun) : AgentTriggerCoordinator :=
  { c with runs := c.runs.set run.agentRunId run, runsByTrigger := c.runsByTrigger.set run.key run }

def registerEvent (c : AgentTriggerCoordinator) (event : TriggerEvent) : AgentTriggerCoordinator :=
  { c with events := c.events.set event.eventId event }

/-- The active runs of a room. -/
def activeRuns (c : AgentTriggerCoordinator) (roomId : String) : List AgentRun :=
  c.runs.values.filter fun run => run.roomId = roomId && run.active

def setEnabled (c : AgentTriggerCoordinator) (roomId : String) (enabled : Bool) :
    AgentTriggerCoordinator × List String :=
  let next := { c with enabled := c.enabled.set roomId enabled }
  if enabled then (next, [])
  else
    ((c.activeRuns roomId).foldl (fun c run => c.store (run.moved .cancelled (some "AGENT_DISABLED")))
        next,
      (c.activeRuns roomId).map (·.agentRunId))

def setRoomStatus (c : AgentTriggerCoordinator) (roomId status : String) :
    Except String AgentTriggerCoordinator :=
  if status ∈ ["scheduled", "open", "paused", "closed"] then
    .ok { c with roomStatus := c.roomStatus.set roomId status }
  else .error "ROOM_STATUS_INVALID"

/-- `self._enabled.get(room_id, True)`. -/
def isEnabled (c : AgentTriggerCoordinator) (roomId : String) : Bool :=
  (c.enabled.get? roomId).getD true

def newRun (h : Host) (trigger : AgentTrigger) (event : TriggerEvent) : AgentRun where
  agentRunId := runId h trigger.key
  roomId := trigger.roomId
  triggerEventId := event.eventId
  requestedByActorId := trigger.requestedByActorId
  requestedByRole := trigger.requestedByRole
  inputFromRoomSeq := 1
  inputThroughRoomSeq := event.roomSeq
  state := .queued
  sourceEventIds := []
  warningCodes := []
  failureCode := none
  version := 1

/-- The event a trigger may ask about. -/
def triggerEvent (c : AgentTriggerCoordinator) (trigger : AgentTrigger) :
    Except String TriggerEvent :=
  match c.events.get? trigger.triggerEventId with
  | none => .error "TRIGGER_EVENT_NOT_FOUND"
  | some event =>
    if event.roomId ≠ trigger.roomId ∨ event.active = false then .error "TRIGGER_EVENT_NOT_FOUND"
    else if (c.roomStatus.get? trigger.roomId).getD "open" ≠ "open" then .error "ROOM_NOT_OPEN"
    else if event.actorKind = "agent" then .error "AGENT_CANNOT_TRIGGER_AGENT"
    else if c.isEnabled trigger.roomId = false then .error "AGENT_DISABLED"
    else if trigger.requestedByRole ≠ "teacher" ∧ c.novaActorId ∉ event.mentions then
      .error "EXPLICIT_TRIGGER_REQUIRED"
    else .ok event

def request (h : Host) (c : AgentTriggerCoordinator) (trigger : AgentTrigger) :
    Except String (AgentTriggerCoordinator × AgentRun) := do
  let event ← c.triggerEvent trigger
  match c.runsByTrigger.get? trigger.key with
  | some existing => return (c, existing)
  | none =>
    if c.activeRuns trigger.roomId ≠ [] then .error "AGENT_RUN_ALREADY_ACTIVE"
    else
      -- both dictionaries are assigned under the trigger's own key
      let run := newRun h trigger event
      return ({ c with
        runsByTrigger := c.runsByTrigger.set trigger.key run
        runs := c.runs.set (runId h trigger.key) run }, run)

def get (c : AgentTriggerCoordinator) (agentRunId : String) : Except String AgentRun :=
  match c.runs.get? agentRunId with
  | some run => .ok run
  | none => .error "AGENT_RUN_NOT_FOUND"

def transition (c : AgentTriggerCoordinator) (agentRunId : String) (state : AgentRunState)
    (failureCode : Option String) : Except String (AgentTriggerCoordinator × AgentRun) :=
  match c.runs.get? agentRunId with
  | none => .error "AGENT_RUN_NOT_FOUND"
  | some run =>
    if run.state ∈ [.completed, .blockedByPolicy, .cancelled, .failed] then .ok (c, run)
    else
      let updated := if state = .completed ∧ c.isEnabled run.roomId = false then
          run.moved .cancelled (some "AGENT_DISABLED")
        else run.moved state failureCode
      .ok ({ c with
        runs := c.runs.set agentRunId updated
        runsByTrigger := c.runsByTrigger.set run.key updated }, updated)

def cancel (c : AgentTriggerCoordinator) (agentRunId reason : String) :
    Except String (AgentTriggerCoordinator × AgentRun) :=
  match c.runs.get? agentRunId with
  | none => .error "AGENT_RUN_NOT_FOUND"
  | some run =>
    if run.state ∈ [.completed, .blockedByPolicy, .failed] then .ok (c, run)
    else c.transition agentRunId .cancelled (some reason)

end AgentTriggerCoordinator

/-- A call on the coordinator, which holds its lock throughout. -/
inductive Call
  | registerEvent (event : TriggerEvent)
  | setEnabled (roomId : String) (enabled : Bool)
  | setRoomStatus (roomId status : String)
  | request (trigger : AgentTrigger)
  | transition (agentRunId : String) (state : AgentRunState) (failureCode : Option String)
  | cancel (agentRunId reason : String)
  deriving DecidableEq

/-- The trigger a call asks a run for. -/
def Call.asks : Call → Option (String × String)
  | .request trigger => some trigger.key
  | _ => none

/-- The coordinator after a call; one that raises changes nothing. -/
def AgentTriggerCoordinator.after (h : Host) (c : AgentTriggerCoordinator) :
    Call → AgentTriggerCoordinator
  | .registerEvent event => c.registerEvent event
  | .setEnabled roomId enabled => (c.setEnabled roomId enabled).1
  | .setRoomStatus roomId status => ((c.setRoomStatus roomId status).toOption).getD c
  | .request trigger => (((c.request h trigger).toOption).map (·.1)).getD c
  | .transition agentRunId state failureCode =>
    (((c.transition agentRunId state failureCode).toOption).map (·.1)).getD c
  | .cancel agentRunId reason => (((c.cancel agentRunId reason).toOption).map (·.1)).getD c

end LearningOrbit.Shadow
