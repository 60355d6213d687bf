import Mathlib.Data.List.Sort
import LearningOrbit.Media.Assets
import LearningOrbit.Rooms.Messages

/-!
# Runs of the agent

The tables of the agent and their writers: a trigger creates a run and its job, a teacher
cancels a run or disables the agent, the worker reports what a run said, and a reconciler
ends the runs nobody will finish. Each writer is one transaction under the room lock.
-/

namespace LearningOrbit.Agent

open LearningOrbit (Dict)
open Jobs (Queue JobClaim JobRow NewJob)
open Media (Assertion typedKey)
open Rooms (Draft Drawn Envelope EventPayloadRegistry OutboxRow RoomMember RoomRow Tx column
  uuidFormat uuidPattern)

/-! ## The tables -/

/-- `agent_run_state`. -/
inductive RunState
  | queued | running | streaming | completed | blockedByPolicy | cancelled | failed
  deriving DecidableEq

def RunState.active : RunState → Bool
  | .queued | .running | .streaming => true
  | _ => false

/-- `agent_run`. -/
structure AgentRun where
  roomId : String
  state : RunState
  triggerEventId : String
  requestedByTeacherId : Option String
  requestedByRoomMemberId : Option String
  inputFromRoomSeq : Nat
  inputThroughRoomSeq : Nat
  correlationId : String
  modelProvider : String
  modelId : String
  promptVersion : String
  policyVersion : String
  failureCode : Option String
  createdAt : Int
  deriving DecidableEq

/-- `agent_run_transition`. -/
structure Transition where
  transitionId : String
  agentRunId : String
  fromState : Option RunState
  toState : RunState
  reasonCode : String
  causationId : String
  deriving DecidableEq

/-- `agent_control_event`. -/
structure ControlEvent where
  controlEventId : String
  roomId : String
  teacherId : String
  action : String
  agentRunId : Option String
  causationId : String
  deriving DecidableEq

/-- The members only a message of the agent has. -/
structure Spoken where
  agentRunId : String
  sourceEventIds : List String
  warningCodes : Option (List String)
  deriving DecidableEq

structure Payload where
  core : Rooms.Payload
  spoken : Option Spoken
  deriving DecidableEq

def Spoken.valid (s : Spoken) : Bool :=
  uuidFormat s.agentRunId && Rooms.uuidSet 30 s.sourceEventIds
    && s.warningCodes.all fun codes => codes.length ≤ 20 && decide codes.Nodup
      && codes.all fun code => 1 ≤ code.length && code.length ≤ 100

/-- The core catalog, with the members of the agent. -/
def payloads : EventPayloadRegistry Payload where
  validators type := (Rooms.corePayloads.validators type).map fun valid p =>
    valid p.core && p.spoken.all fun s => type = "message.added" && s.valid

/-- The rows of one room. -/
structure Room where
  row : RoomRow
  agentEnabled : Bool
  members : List RoomMember
  events : List (Envelope Payload)
  outbox : List (OutboxRow Payload)

/-- The tables. Transitions and controls stand in the order of their commits. -/
structure AgentDb where
  rooms : Dict String Room
  /-- The rooms with a deletion job that has not succeeded. -/
  deleting : List String
  queue : Queue
  runs : Dict String AgentRun
  transitions : List Transition
  controls : List ControlEvent

/-- What a `uuid` parameter is cast to. -/
def uuid (text : String) : Except String String :=
  match Uuid.canonical text with
  | some id => .ok id
  | none => .error "22P02"

def insertTransition (transitions : List Transition) (t : Transition) :
    Except String (List Transition) :=
  if t.transitionId ∈ transitions.map (·.transitionId) then .error "agent_run_transition_pkey"
  else if t.causationId ∈ transitions.map (·.causationId) then
    .error "agent_run_transition_causation_id_key"
  else .ok (transitions ++ [t])

/-- `ON CONFLICT (causation_id) DO NOTHING`. -/
def insertTransitionOnce (transitions : List Transition) (t : Transition) :
    Except String (List Transition) :=
  if t.causationId ∈ transitions.map (·.causationId) then .ok transitions
  else insertTransition transitions t

/-- `ON CONFLICT (causation_id) DO NOTHING`. -/
def insertControlOnce (controls : List ControlEvent) (c : ControlEvent) :
    Except String (List ControlEvent) :=
  if c.causationId ∈ controls.map (·.causationId) then .ok controls
  else if c.controlEventId ∈ controls.map (·.controlEventId) then .error "agent_control_event_pkey"
  else .ok (controls ++ [c])

def executeKey (agentRunId : String) : String := "agent.execute.v1:" ++ agentRunId

/-- The oldest active run of a room; `one_active_agent_run_per_room` leaves no second. -/
def AgentDb.activeRun (db : AgentDb) (roomId : String) : Option (String × AgentRun) :=
  ((db.runs.entries.filter fun (_, run) => run.roomId = roomId && run.state.active).insertionSort
    fun a b => a.2.createdAt ≤ b.2.createdAt).head?

/-! ## The checks every writer starts with -/

def assertNotDeleting (db : AgentDb) (roomId : String) : Except String Unit :=
  if roomId ∈ db.deleting then .error "ROOM_DELETION_IN_PROGRESS" else .ok ()

/-- The session of a request, and whether the rows still have it for this principal. -/
structure Session where
  sessionId : Option String
  active : Bool

def requireActiveSession (session : Session) : Except String Unit :=
  match session.sessionId with
  | none | some "" => .ok ()
  | some sessionId =>
    if !uuidPattern sessionId then .error "ROOM_NOT_FOUND"
    else if session.active then .ok () else .error "ROOM_NOT_FOUND"

/-! ## `getOrCreateRunAndJob` -/

/-- `AgentRunOwner`. -/
structure AgentRunOwner where
  teacherId : Option String
  roomMemberId : Option String
  teacher : Bool

/-- `AgentRunRequest`; `beforeCreate` is what the hook throws. -/
structure AgentRunRequest where
  roomId : String
  triggerEventId : String
  owner : AgentRunOwner
  session : Session
  beforeCreate : Option String

/-- What one attempt draws from outside. -/
structure RunDrawn where
  agentRunId : String
  jobId : String
  transitionId : String
  clock : Int

/-- The latest revision of a message. -/
def latestRevision (room : Room) (messageId : String) : Option (Envelope Rooms.Payload) :=
  Rooms.latest (Rooms.messageEvents
    ((room.events.filter fun e =>
      e.type ∈ ["message.added", "message.revised", "message.retracted"]).map fun e =>
        { e with payload := e.payload.core }) messageId)

def mentions : Rooms.Payload → List String
  | .message _ _ _ mentions _ => mentions
  | _ => []

/-- What the checks of a trigger find: its event, and the message as it is now. -/
def activeTrigger (room : Room) (triggerEventId : String) :
    Except String (Envelope Payload × Envelope Rooms.Payload) :=
  match room.events.find? fun e => e.eventId = triggerEventId with
  | none => .error "TRIGGER_EVENT_NOT_FOUND"
  | some trigger =>
    if trigger.actorKind = .agent then .error "AGENT_CANNOT_TRIGGER_AGENT"
    else if trigger.type ∉ ["message.added", "message.revised"] || trigger.operation = .retract then
      .error "TRIGGER_EVENT_NOT_ACTIVE"
    else
      match trigger.payload.core.messageId? with
      | none => .error "TRIGGER_EVENT_NOT_ACTIVE"
      | some messageId =>
        if !uuidPattern messageId then .error "TRIGGER_EVENT_NOT_ACTIVE"
        else
          match latestRevision room messageId with
          | none => .error "TRIGGER_EVENT_NOT_ACTIVE"
          | some latest =>
            if latest.operation = .retract then .error "TRIGGER_EVENT_NOT_ACTIVE"
            else .ok (trigger, latest)

/-- `INSERT INTO agent_run`. -/
def insertRun (runs : Dict String AgentRun) (agentRunId : String) (run : AgentRun) :
    Except String (Dict String AgentRun) :=
  if run.requestedByTeacherId.isSome = run.requestedByRoomMemberId.isSome then
    .error "agent_run_check"
  else if run.inputThroughRoomSeq < run.inputFromRoomSeq then .error "agent_run_check1"
  else if runs.contains agentRunId then .error "agent_run_pkey"
  else if run.state.active && runs.values.any (fun r => r.roomId = run.roomId && r.state.active) then
    .error "one_active_agent_run_per_room"
  else if runs.values.any (fun r => r.roomId = run.roomId && r.triggerEventId = run.triggerEventId)
  then .error "one_agent_run_per_trigger"
  else .ok (runs.set agentRunId run)

def newRun (roomId triggerEventId : String) (owner : AgentRunOwner) (seq : Nat)
    (correlationId : String) (now : Int) : AgentRun where
  roomId
  state := .queued
  triggerEventId
  requestedByTeacherId := owner.teacherId
  requestedByRoomMemberId := owner.roomMemberId
  inputFromRoomSeq := 1
  inputThroughRoomSeq := seq
  correlationId
  modelProvider := "fixture"
  modelId := "fixture-socratic-v1"
  promptVersion := "socratic-facilitator-v1"
  policyVersion := "socratic-policy-v1"
  failureCode := none
  createdAt := now

def executeJob (jobId agentRunId roomId triggerEventId correlationId : String) (now : Int) :
    NewJob where
  jobId
  jobType := "agent.execute.v1"
  roomId := some roomId
  sourceEventId := some triggerEventId
  dedupeKey := executeKey agentRunId
  correlationId
  payload := Dict.empty.set "agentRunId" (.text agentRunId)
  runAfter := now
  createdAt := now

/-- The three inserts. -/
def insertRunAndJob (db : AgentDb) (drawn : RunDrawn) (run : AgentRun) : Except String AgentDb := do
  let runs ← insertRun db.runs drawn.agentRunId run
  let queue ← Jobs.insertJob db.queue
    (executeJob drawn.jobId drawn.agentRunId run.roomId run.triggerEventId run.correlationId
      drawn.clock)
  let transitions ← insertTransition db.transitions {
    transitionId := drawn.transitionId
    agentRunId := drawn.agentRunId
    fromState := none
    toState := .queued
    reasonCode := "TRIGGERED"
    causationId := run.triggerEventId }
  return { db with runs, queue, transitions }

/-- `AgentRunCreation`. -/
structure AgentRunCreation where
  agentRunId : String
  run : AgentRun
  created : Bool
  deriving DecidableEq

/-- The transaction of `getOrCreateRunAndJob`. -/
def createInTransaction (db : AgentDb) (request : AgentRunRequest) (drawn : RunDrawn) :
    Except String (AgentRunCreation × AgentDb) := do
  let roomId ← uuid request.roomId
  assertNotDeleting db roomId
  match db.rooms.get? roomId with
  | none => .error "ROOM_NOT_FOUND"
  | some room =>
    requireActiveSession request.session
    let triggerEventId ← uuid request.triggerEventId
    match db.runs.entries.find? fun (_, run) =>
        run.roomId = roomId && run.triggerEventId = triggerEventId with
    | some (agentRunId, run) => return (⟨agentRunId, run, false⟩, db)
    | none =>
      if room.row.status ≠ .open then .error "ROOM_NOT_OPEN"
      else if !room.agentEnabled then .error "AGENT_DISABLED"
      else
        let (trigger, latest) ← activeTrigger room triggerEventId
        if !request.owner.teacher && room.row.novaActorId ∉ mentions latest.payload then
          .error "EXPLICIT_TRIGGER_REQUIRED"
        else if (db.activeRun roomId).isSome then .error "AGENT_RUN_ALREADY_ACTIVE"
        else
          match request.beforeCreate with
          | some error => .error error
          | none =>
            let run := newRun roomId triggerEventId request.owner latest.roomSeq
              trigger.correlationId drawn.clock
            let db ← insertRunAndJob db drawn run
            return (⟨drawn.agentRunId, run, true⟩, db)

/-- What a caller is told of a conflict. -/
def toldConflict (error : String) : String :=
  if error = "one_active_agent_run_per_room" then "AGENT_RUN_ALREADY_ACTIVE" else error

/-- `getOrCreateRunAndJob`; `again` is drawn by the one retry. -/
def getOrCreateRunAndJob (db : AgentDb) (request : AgentRunRequest) (drawn again : RunDrawn) :
    Except String (AgentRunCreation × AgentDb) :=
  match createInTransaction db request drawn with
  | .ok result => .ok result
  | .error error =>
    if error = "one_agent_run_per_trigger" then
      (createInTransaction db request again).mapError toldConflict
    else .error (toldConflict error)

/-! ## `cancelRun` and `setEnabled` -/

def cancelExecuteJob (q : Queue) (agentRunId : String) : Queue :=
  { q with
    jobs := q.jobs.mapValues fun _ row =>
      if row.dedupeKey = executeKey agentRunId then { row with status := .cancelled } else row }

/-- The statements that end a run: its row, and the transition if its causation is new. -/
def endRun (db : AgentDb) (agentRunId : String) (run : AgentRun) (toState : RunState)
    (failureCode : Option String) (reasonCode causationId transitionId : String) :
    Except String AgentDb := do
  let transitions ← insertTransitionOnce db.transitions {
    transitionId
    agentRunId
    fromState := some run.state
    toState
    reasonCode
    causationId }
  return { db with
    runs := db.runs.set agentRunId { run with state := toState, failureCode }
    transitions }

def cancelLocked (db : AgentDb) (agentRunId : String) (run : AgentRun)
    (causationId reasonCode transitionId : String) : Except String AgentDb := do
  let causationId ← uuid causationId
  endRun { db with queue := cancelExecuteJob db.queue agentRunId } agentRunId run .cancelled
    (some reasonCode) reasonCode causationId transitionId

/-- The checks of `cancelRun`: the run it then cancels. -/
def cancellable (db : AgentDb) (roomId runId teacherId : String) (session : Session) :
    Except String (String × AgentRun) := do
  let roomId ← uuid roomId
  assertNotDeleting db roomId
  requireActiveSession session
  let runId ← uuid runId
  let teacherId ← uuid teacherId
  match db.runs.get? runId with
  | none => .error "AGENT_RUN_NOT_FOUND"
  | some run =>
    if run.roomId ≠ roomId || !((db.rooms.get? roomId).any fun room => room.row.teacherId = teacherId)
    then .error "AGENT_RUN_NOT_FOUND"
    else if !run.state.active then .error "AGENT_RUN_NOT_ACTIVE"
    else .ok (runId, run)

/-- `cancelRun`, with the run as it is then. -/
def cancelRun (db : AgentDb) (roomId runId teacherId causationId : String) (session : Session)
    (transitionId : String) : Except String (Option AgentRun × AgentDb) := do
  let (runId, run) ← cancellable db roomId runId teacherId session
  let db ← cancelLocked db runId run causationId "CANCEL_REQUESTED" transitionId
  return (db.runs.get? runId, db)

/-- `AgentSettingsResponse`. -/
structure AgentSettingsResponse where
  enabled : Bool
  cancelledRunId : Option String
  deriving DecidableEq

/-- The checks of `setEnabled`: the room, and the run it then cancels. -/
def settable (db : AgentDb) (roomId teacherId : String) (enabled : Bool) (session : Session) :
    Except String (String × Room × Option (String × AgentRun)) := do
  let roomId ← uuid roomId
  assertNotDeleting db roomId
  requireActiveSession session
  let teacherId ← uuid teacherId
  match db.rooms.get? roomId with
  | none => .error "ROOM_NOT_FOUND"
  | some room =>
    if room.row.teacherId ≠ teacherId then .error "ROOM_NOT_FOUND"
    else .ok (roomId, room, if enabled then none else db.activeRun roomId)

def setEnabled (db : AgentDb) (roomId teacherId : String) (enabled : Bool) (causationId : String)
    (session : Session) (transitionId controlEventId : String) :
    Except String (AgentSettingsResponse × AgentDb) := do
  let (roomId, room, active) ← settable db roomId teacherId enabled session
  let db := { db with rooms := db.rooms.set roomId { room with agentEnabled := enabled } }
  let db ← match active with
    | none => .ok db
    | some (runId, run) => cancelLocked db runId run causationId "AGENT_DISABLED" transitionId
  let cancelledRunId := active.map (·.1)
  let causationId ← uuid causationId
  let controls ← insertControlOnce db.controls {
    controlEventId
    roomId
    teacherId := room.row.teacherId
    action := if enabled then "enable" else "disable"
    agentRunId := cancelledRunId
    causationId }
  return (⟨enabled, cancelledRunId⟩, { db with controls })

/-! ## `InternalAgentCompleteRoute` -/

/-- `AgentInternalCommandRequest`: the claim, and what the run said. Uuids are written as their
columns print them. -/
structure CompleteRequest where
  claim : JobClaim
  agentRunId : String
  text : String
  outputSha256 : String
  sourceEventIds : List String
  warningCodes : List String

inductive CompleteResponse
  | applied (eventId : String)
  | alreadyApplied (eventId : String)
  | rejected (code : String)
  deriving DecidableEq

/-- `parses` leaves no request without one. -/
def CompleteRequest.roomId (r : CompleteRequest) : String := r.claim.roomId.getD ""

/-- `agentContract.parseInternalRequest`. -/
def CompleteRequest.parses (r : CompleteRequest) : Bool :=
  uuidFormat r.claim.jobId && r.claim.jobType = "agent.execute.v1"
    && r.claim.roomId.any uuidFormat && r.claim.sourceEventId.any uuidFormat
    && typedKey "agent.execute.v1" r.claim.dedupeKey && uuidFormat r.agentRunId
    && uuidFormat r.claim.correlationId
    && 1 ≤ r.claim.claimGeneration && r.claim.claimGeneration < 10 ^ 19
    && uuidFormat r.claim.claimToken && 1 ≤ r.claim.workerId.length
    && r.claim.workerId.length ≤ 128 && 1 ≤ r.text.length && r.text.length ≤ 4000
    && r.outputSha256.length = 64 && r.outputSha256.toList.all Uuid.isHex
    && r.sourceEventIds ≠ [] && Rooms.uuidSet 30 r.sourceEventIds
    && r.warningCodes.length ≤ 10 && decide r.warningCodes.Nodup
    && r.warningCodes.all Jobs.validCode

/-- The checks before the transaction. -/
def CompleteRequest.refused (r : CompleteRequest) (assertion : Assertion) : Option String :=
  if !assertion.envelope then some "SERVICE_ASSERTION_INVALID"
  else if !r.parses then some "AGENT_OUTPUT_INVALID"
  else if !assertion.authorized then some "SERVICE_ASSERTION_INVALID"
  else if Digest.sha256Hex r.text ≠ r.outputSha256 then some "AGENT_OUTPUT_INVALID"
  else none

/-- What the checks under the lock find. -/
inductive Admission
  | rejected (code : String)
  | already (eventId : String)
  /-- The run may speak. -/
  | speaks (run : AgentRun)

/-- The checks of the callback. -/
def examine (db : AgentDb) (r : CompleteRequest) (t : Tx Payload) : Except String Admission :=
  if !((t.db.queue.jobs.get? r.claim.jobId).any fun row =>
      Jobs.identityOf row r.claim && row.payload.get? "agentRunId" = some (.text r.agentRunId)) then
    .ok (.rejected "AGENT_OUTPUT_INVALID")
  else
    match Jobs.requireCurrent "JOB_CLAIM_STALE" t.db.queue r.claim with
    | .error _ => .ok (.rejected "JOB_CLAIM_STALE")
    | .ok _ =>
      match (db.runs.get? r.agentRunId).filter fun run => run.roomId = r.roomId with
      | none => .ok (.rejected "AGENT_OUTPUT_INVALID")
      | some run =>
        if r.claim.sourceEventId ≠ some run.triggerEventId
            || run.correlationId ≠ r.claim.correlationId then
          .ok (.rejected "AGENT_OUTPUT_INVALID")
        else do
          match ← Rooms.findOneByCausation payloads t.db r.claim.jobId with
          | some existing => return .already existing.eventId
          | none =>
            if !run.state.active then return .rejected "AGENT_RUN_NOT_ACTIVE"
            else if t.room.status ≠ .open && t.room.status ≠ .paused then
              return .rejected "ROOM_NOT_OPEN"
            else return .speaks run

def completeDraft (r : CompleteRequest) (novaActorId : String) (clock : Int) : Draft Payload where
  type := "message.added"
  actorId := novaActorId
  actorKind := .agent
  actorRole := .socraticFacilitator
  revision := 1
  operation := .add
  eventTime := clock
  causationId := r.claim.jobId
  correlationId := r.claim.correlationId
  payload := {
    core := .message r.agentRunId r.text none [] []
    spoken := some {
      agentRunId := r.agentRunId
      sourceEventIds := r.sourceEventIds
      warningCodes := if r.warningCodes = [] then none else some r.warningCodes } }

def completeClaim (t : Tx Payload) (claim : JobClaim) : Except String (Tx Payload) := do
  let queue ← Jobs.completeBusiness t.db.queue claim "AGENT_EXECUTION_TERMINAL"
  return { t with db := { t.db with queue } }

/-- The callback of the route. -/
def completeInContext (db : AgentDb) (r : CompleteRequest) (clock now : Int) (drawn : Drawn)
    (t : Tx Payload) : Except String ((CompleteResponse × AgentDb) × Tx Payload) := do
  match ← examine db r t with
  | .rejected code => return ((.rejected code, db), t)
  | .already eventId =>
    let t ← completeClaim t r.claim
    return ((.alreadyApplied eventId, db), t)
  | .speaks run =>
    let (appended, t) ← Rooms.appendOne payloads now drawn none
      (some (completeDraft r t.room.novaActorId clock)) t
    let causationId ← uuid r.claim.jobId
    let db ← endRun db r.agentRunId run .completed none "AGENT_EXECUTION_TERMINAL" causationId
      appended.eventId
    let t ← completeClaim t r.claim
    return ((.applied appended.eventId, db), t)

/-- The rows of a room as a transaction on it has them. -/
def Room.database (room : Room) (queue : Queue) (deletionActive : Bool) : Rooms.Database Payload where
  room := room.row
  members := room.members
  deletionActive
  events := room.events
  outbox := room.outbox
  queue

def AgentDb.withDatabase (db : AgentDb) (roomId : String) (room : Room)
    (d : Rooms.Database Payload) : AgentDb :=
  { db with
    rooms := db.rooms.set roomId { room with row := d.room, events := d.events, outbox := d.outbox }
    queue := d.queue }

/-- `InternalAgentCompleteRoute.handle`. -/
def handleComplete (db : AgentDb) (assertion : Assertion) (r : CompleteRequest) (clock now : Int)
    (drawn : Drawn) : Except String (CompleteResponse × AgentDb) :=
  match r.refused assertion with
  | some code => .ok (.rejected code, db)
  | none =>
    match db.rooms.get? (column r.roomId) with
    | none => .error "FORBIDDEN"
    | some room =>
      match Rooms.transact (room.database db.queue (column r.roomId ∈ db.deleting)) r.roomId
          (completeInContext db r clock now drawn) with
      | .error "JOB_CLAIM_STALE" => .ok (.rejected "JOB_CLAIM_STALE", db)
      | .error error => .error error
      | .ok ((response, db), d) => .ok (response, db.withDatabase (column r.roomId) room d)

/-! ## `AgentRunReconciler` -/

inductive OrphanReason
  | jobDead | jobCancelled | roomNotOpen
  deriving DecidableEq

structure OrphanRun where
  agentRunId : String
  roomId : String
  reason : OrphanReason
  deriving DecidableEq

/-- The join of one run with its room and its job. -/
def orphan? (db : AgentDb) (agentRunId : String) (run : AgentRun) : Option OrphanRun :=
  match db.rooms.get? run.roomId with
  | none => none
  | some room =>
    let job := db.queue.jobs.values.find? fun row => row.dedupeKey = executeKey agentRunId
    let stopped := match job with
      | none => true
      | some row => row.status = .dead || row.status = .cancelled
    if run.state.active && (room.row.status = .closed || stopped) then
      some {
        agentRunId
        roomId := run.roomId
        reason :=
          if room.row.status = .closed then .roomNotOpen
          else if job.any fun row => row.status = .dead then .jobDead
          else .jobCancelled }
    else none

/-- `#orphans`. -/
def orphans (db : AgentDb) (batchSize : Nat) : List OrphanRun :=
  (((db.runs.entries.filter fun (id, run) => (orphan? db id run).isSome).insertionSort
    fun a b => a.2.createdAt ≤ b.2.createdAt).filterMap fun (id, run) => orphan? db id run).take
      batchSize

def OrphanReason.terminal : OrphanReason → RunState
  | .jobDead => .failed
  | .jobCancelled | .roomNotOpen => .cancelled

def OrphanReason.code : OrphanReason → String
  | .jobDead => "AGENT_EXECUTION_EXHAUSTED"
  | .roomNotOpen => "ROOM_NOT_OPEN"
  | .jobCancelled => "AGENT_RUN_CANCELLED"

def OrphanReason.terminalText : OrphanReason → String
  | .jobDead => "failed"
  | .jobCancelled | .roomNotOpen => "cancelled"

/-- One causation for a run and its outcome: a SHA-1 in the form of a UUID. -/
def reconcileCausation (agentRunId terminal : String) : String :=
  let digest := Digest.hex (Digest.Sha1.digest
    (Digest.bytes ("agent-run-reconcile:" ++ agentRunId ++ ":" ++ terminal)))
  let variant := Digest.hexDigit ((Digest.hexValue (digest.getD 16 '0') &&& 3) ||| 8)
  String.ofList (digest.take 8 ++ '-' :: (digest.drop 8).take 4
    ++ '-' :: '5' :: (digest.drop 13).take 3
    ++ '-' :: variant :: (digest.drop 17).take 3 ++ '-' :: (digest.drop 20).take 12)

/-- One transaction of `reconcile`: the run is read again under the lock. -/
def settle (db : AgentDb) (orphan : OrphanRun) (transitionId : String) :
    Except String (Option RunState × AgentDb) :=
  match db.runs.get? orphan.agentRunId with
  | none => .ok (none, db)
  | some run =>
    if !run.state.active then .ok (none, db)
    else do
      let causationId ← uuid (reconcileCausation orphan.agentRunId orphan.reason.terminalText)
      let db ← endRun db orphan.agentRunId run orphan.reason.terminal (some orphan.reason.code)
        orphan.reason.code causationId transitionId
      return (some orphan.reason.terminal, db)

end LearningOrbit.Agent
