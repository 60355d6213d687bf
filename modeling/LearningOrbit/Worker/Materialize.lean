import LearningOrbit.Worker.Adapted
import LearningOrbit.Worker.ReplayJobs

/-!
# The analytics handlers

`analytics.consume.v1` rebuilds a room from its first event behind the online
lateness gate and asks for a replay when an event was late;
`analytics.replay-room.v1` rebuilds it with the gate lifted under a new epoch.
Each runs in one transaction: a raise leaves the store as it was.

The stages of `_materialize` between the rebuild and the enqueue (snapshots,
windows, extractions, `persist_and_advance`) enter only through their raise and
through the head they leave.
-/

namespace LearningOrbit.Worker

open LearningOrbit (Host Dict)
open LearningOrbit.Reference

/-- A room ledger whose identifiers come from uuid columns. -/
structure StoredLedger extends RoomLedger where
  roomUuid : Uuid.Stored roomId
  eventUuid : ∀ e ∈ events, Uuid.Stored e.eventId
  correlationUuid : ∀ e ∈ events, Uuid.Stored e.correlationId

/-- What the reviews say when a job runs: the events whose evidence is retracted, and the
corrected text by source event. -/
structure Overlay where
  suppressed : List String
  corrected : Dict String String

def effectiveEvent (overlay : Overlay) (event : RoomEvent) : RoomEvent :=
  if event.eventId ∈ overlay.suppressed then
    { event with
      type := .other "analytics.evidence.retracted.v1"
      payload := ⟨none, "", none, [], []⟩ }
  else match overlay.corrected.get? event.eventId with
    | some text => { event with payload := { event.payload with text } }
    | none => event

/-- `_effective_events`: lay the reviews over the canonical events. -/
def effectiveEvents (overlay : Overlay) (events : List RoomEvent) : List RoomEvent :=
  events.map (effectiveEvent overlay)

/-- `_canonical_events`; the ledger is contiguous, so its sequence check passes. -/
def canonicalEvents (L : RoomLedger) (through : Nat) : List RoomEvent :=
  L.events.filter (·.roomSeq ≤ through)

/-- The projector part of `_materialize`. -/
def buildProjector (h : Host) (roomId : String) (replaying : Bool) (events : List RoomEvent) :
    Except String StreamingProjector := do
  let projector ← (StreamingProjector.init roomId).feed h events
  if replaying then
    match projector.replay h with
    | (_, .error e) => .error e
    | (replayed, .ok _) => .ok replayed
  else .ok projector

structure Head where
  analysisEpoch : String
  completeThroughSeq : Nat
  deriving DecidableEq

/-- The rows the handlers read and write: the consumer checkpoint, the head the four
projection keys share, and the replay tables. -/
structure Store where
  checkpoint : Nat
  head : Option Head
  tables : ReplayTables

def Store.init : Store := ⟨0, none, .empty⟩

/-- What one execution of a job meets: the reviews in force, and the raise of a stage that is
not modelled, if there is one. -/
structure Attempt where
  overlay : Overlay
  fault : Option String

/-- Where a raise comes from. -/
inductive Raised
  | stage (message : String)
  | projector (message : String)
  | enqueue (code : String)
  | handler (code : String)
  deriving DecidableEq

/-- `_enqueue_replay` for a late event. -/
def lateArgs (roomId : String) (source : RoomEvent) (requestedThrough : Nat) : ReplayArgs where
  roomId
  sourceEventId := some source.eventId
  requestedThroughRoomSeq := requestedThrough
  reason := .lateEvent
  dedupeToken := source.eventId
  correlationId := source.correlationId

def lateIds (p : Projection) : List String :=
  if p.echo.requiresReplay = [] then p.trace.requiresReplay else p.echo.requiresReplay

/-- `_materialize`: the projector it builds, and the store it leaves or its raise. -/
def materialize (h : Host) (L : StoredLedger) (s : Store) (attempt : Attempt) (through : Nat)
    (epoch : String) (enqueueReplay replaying : Bool) :
    Option StreamingProjector × Except Raised Store :=
  let canonical := canonicalEvents L.toRoomLedger through
  match canonical.getLast? with
  | none => (none, .error (.handler "ANALYTICS_EVENT_SEQUENCE_INVALID"))
  | some last =>
    if last.roomSeq ≠ through then (none, .error (.handler "ANALYTICS_EVENT_SEQUENCE_INVALID"))
    else
      let events := effectiveEvents attempt.overlay canonical
      match buildProjector h L.roomId replaying events with
      | .error e => (none, .error (.projector e))
      | .ok projector => (some projector,
        match attempt.fault with
        | some message => .error (.stage message)
        | none =>
          let late := lateIds projector.state
          let s := { s with
            head := some ⟨epoch, through⟩
            checkpoint := max s.checkpoint through }
          if late ≠ [] ∧ enqueueReplay then
            let source := (events.find? (·.eventId ∈ late)).getD (events.getLastD last)
            match enqueueAnalyticsReplay h s.tables (lateArgs L.roomId source through) with
            | .error code => .error (.enqueue code)
            | .ok (tables, _) => .ok { s with tables }
          else .ok s)

def ANALYSIS_NAMESPACE : String := "f2d0ce55-6c06-5b8f-a6b0-4a6b08cbf8af"

/-- `_current_or_initial_epoch`, for heads written by this version of the algorithms. -/
def currentOrInitialEpoch (h : Host) (roomId : String) (s : Store) : String :=
  match s.head with
  | none => h.uuid5 ANALYSIS_NAMESPACE roomId
  | some head => head.analysisEpoch

/-- `analytics_consume_handler` for the job of one room sequence number. -/
def analyticsConsumeHandler (h : Host) (L : StoredLedger) (s : Store) (attempt : Attempt)
    (targetSeq : Nat) : Option StreamingProjector × Except Raised Store :=
  if L.events.all (·.roomSeq ≠ targetSeq) then
    (none, .error (.handler "ANALYTICS_EVENT_NOT_FOUND"))
  else if targetSeq ≤ s.checkpoint then (none, .ok s)
  else if s.checkpoint + 1 ≠ targetSeq then (none, .error (.handler "ANALYTICS_CURSOR_GAP"))
  else materialize h L s attempt targetSeq (currentOrInitialEpoch h L.roomId s) true false

/-- `_validate_replay_job`. -/
def validateReplayJob (job : ReplayJob) : Except String Unit :=
  let digest := job.dedupeKey.toList.drop 25
  if job.jobType ≠ "analytics.replay-room.v1" ∨ (Uuid.canonical job.roomId).isNone ∨
      (job.sourceEventId.any fun id => (Uuid.canonical id).isNone) ∨
      (Uuid.canonical job.correlationId).isNone then
    .error "ANALYTICS_REPLAY_PAYLOAD_INVALID"
  else if job.analyticsOrderSeq ≠ job.payload.requestedThroughRoomSeq ∨
      job.analyticsOrderKind ≠ 1 then .error "ANALYTICS_REPLAY_ORDER_INVALID"
  else if job.dedupeKey.toList.take 25 ≠ "analytics.replay-room.v1:".toList ∨
      digest.length ≠ 64 ∨ !digest.all Uuid.isHex then .error "ANALYTICS_REPLAY_IDENTITY_INVALID"
  else .ok ()

/-- The authority row agrees with the job, and its source event precedes the request. -/
def replayAuthority (L : RoomLedger) (s : Store) (job : ReplayJob) : Except String Unit :=
  match s.tables.requests.find? (·.jobId = job.jobId) with
  | none => .error "ANALYTICS_REPLAY_AUTHORITY_MISSING"
  | some authority =>
    if authority.roomId ≠ job.roomId ∨ authority.sourceEventId ≠ job.sourceEventId ∨
        authority.reason ≠ job.payload.reason ∨
        authority.requestedThroughRoomSeq ≠ job.payload.requestedThroughRoomSeq ∨
        authority.dedupeKey ≠ job.dedupeKey ∨ authority.correlationId ≠ job.correlationId then
      .error "ANALYTICS_REPLAY_AUTHORITY_INVALID"
    else match job.sourceEventId with
      | none => .ok ()
      | some id =>
        match L.events.find? (·.eventId = id) with
        | none => .error "ANALYTICS_REPLAY_AUTHORITY_INVALID"
        | some source =>
          if source.roomId ≠ job.roomId ∨
              job.payload.requestedThroughRoomSeq < source.roomSeq then
            .error "ANALYTICS_REPLAY_AUTHORITY_INVALID"
          else .ok ()

def replayEpoch (h : Host) (job : ReplayJob) : String := h.uuid5 ANALYSIS_NAMESPACE job.jobId

/-- `analytics_replay_handler` for a job of the replay table. -/
def analyticsReplayHandler (h : Host) (L : StoredLedger) (s : Store) (attempt : Attempt)
    (job : ReplayJob) : Option StreamingProjector × Except Raised Store :=
  match validateReplayJob job, replayAuthority L.toRoomLedger s job with
  | .error code, _ => (none, .error (.handler code))
  | .ok _, .error code => (none, .error (.handler code))
  | .ok _, .ok _ =>
    let through := s.checkpoint
    if through < job.payload.requestedThroughRoomSeq then
      (none, .error (.handler "ANALYTICS_REPLAY_CURSOR_BEHIND"))
    else if s.head.any fun head =>
        head.analysisEpoch = replayEpoch h job ∧ through ≤ head.completeThroughSeq then
      (none, .ok s)
    else materialize h L s attempt through (replayEpoch h job) false true

/-! ## Runs -/

inductive Job
  | consume (targetSeq : Nat)
  | replay (job : ReplayJob)
  deriving DecidableEq

/-- One execution of a job: the store before and after it, the projector `_materialize` built,
and how it ended. -/
structure Execution where
  before : Store
  job : Job
  attempt : Attempt
  built : Option StreamingProjector
  result : Except Raised Unit
  after : Store

/-- The handler of a job. A replay runs only for a job that was enqueued. -/
def handle (h : Host) (L : StoredLedger) (s : Store) (attempt : Attempt) :
    Job → Option StreamingProjector × Except Raised Store
  | .consume targetSeq => analyticsConsumeHandler h L s attempt targetSeq
  | .replay row =>
    if row ∈ s.tables.jobs then analyticsReplayHandler h L s attempt row
    else (none, .error (.handler "ANALYTICS_REPLAY_AUTHORITY_MISSING"))

/-- Run one handler; a raise rolls the transaction back. -/
def execute (h : Host) (L : StoredLedger) (s : Store) (job : Job) (attempt : Attempt) :
    Execution where
  before := s
  job := job
  attempt := attempt
  built := (handle h L s attempt job).1
  result := (handle h L s attempt job).2.map fun _ => ()
  after := ((handle h L s attempt job).2.toOption).getD s

/-- The executions of a sequence of jobs. -/
def executions (h : Host) (L : StoredLedger) : Store → List (Job × Attempt) → List Execution
  | _, [] => []
  | s, (job, attempt) :: rest =>
    execute h L s job attempt :: executions h L (execute h L s job attempt).after rest

end LearningOrbit.Worker
