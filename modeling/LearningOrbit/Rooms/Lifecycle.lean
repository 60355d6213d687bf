import LearningOrbit.Rooms.Payloads

/-!
# Opening, pausing and closing a room

`RoomLifecycleService` and `InternalAutoCloseRoute`. Each transaction is a
function of its own, since `pause`, `resume` and `close` are up to three
transactions with others in between. A caller's room id is kept as the caller
spelled it.
-/

namespace LearningOrbit.Rooms

open LearningOrbit (Dict)
open Jobs (Queue JobRow NewJob JobClaim)

/-- `ROOM_DURATION_MS`. -/
def roomDuration : Int := 2700000

/-- What a transaction draws from outside: its own time, the clock of the server, which may be
invalid, `randomUUID()` for a correlation and `gen_random_uuid()` for the job of `open`. -/
structure Ambient where
  now : Int
  clock : Option Int
  correlationId : String
  autoCloseJobId : String
  drawn : Drawn
  stored : Uuid.Stored correlationId ∧ Uuid.Stored autoCloseJobId

/-- Who asks: the owner's id and whether the session, when one is given, is still good. -/
structure Owner where
  teacherId : String
  session : Bool

def validNow (ambient : Ambient) : Except String Int :=
  match ambient.clock with
  | some now => .ok now
  | none => .error "INVALID_CLOCK"

/-- `context.append`. -/
def append (ambient : Ambient) (draft : Draft Payload) (t : Tx Payload) :
    Except String (Envelope Payload × Tx Payload) :=
  appendOne corePayloads ambient.now ambient.drawn none (some draft) t

/-- `#requireOwner` and `#assertTeacherSession`. -/
def requireOwner (owner : Owner) (t : Tx Payload) : Except String Unit :=
  if t.room.teacherId ≠ owner.teacherId then .error "FORBIDDEN"
  else if !owner.session then .error "FORBIDDEN"
  else .ok ()

def assertManualRetry (event : Envelope Payload) (expectedType roomId teacherId : String) :
    Except String (Envelope Payload) :=
  if event.roomId ≠ roomId || event.type ≠ expectedType || event.actorId ≠ teacherId
      || event.actorKind ≠ .human || event.actorRole ≠ .teacher || event.revision ≠ 1
      || event.operation ≠ .add then
    .error "INVALID_COMMAND"
  else .ok event

def existingManualRetry (t : Tx Payload) (causationId expectedType roomId teacherId : String) :
    Except String (Option (Envelope Payload)) := do
  let existing ← findOneByCausation corePayloads t.db causationId
  match existing with
  | none => .ok none
  | some event => (assertManualRetry event expectedType roomId teacherId).map some

def Tx.updateRoom (t : Tx Payload) (f : RoomRow → RoomRow) : Tx Payload :=
  { t with db := { t.db with room := f t.db.room } }

def Tx.cancelRoomJobs (t : Tx Payload) (preserve : Option String) : Tx Payload :=
  { t with db := { t.db with
      queue := Jobs.cancelRoomJobs t.db.queue t.db.room.roomId preserve } }

def teacherDraft (type teacherId causationId correlationId : String) (now : Int)
    (payload : Payload) : Draft Payload where
  type
  actorId := teacherId
  actorKind := .human
  actorRole := .teacher
  revision := 1
  operation := .add
  eventTime := now
  causationId
  correlationId
  payload

/-- The job that closes the room; `roomId` is the caller's spelling. -/
def autoCloseJob (roomId : String) (event : Envelope Payload) (closesAt : Int) (jobId : String)
    (now : Int) : NewJob where
  jobId
  jobType := "room.auto-close.v1"
  roomId := some (column roomId)
  sourceEventId := some (column event.eventId)
  dedupeKey := "room.auto-close.v1:" ++ roomId
  correlationId := column event.correlationId
  payload := (Dict.empty.set "roomId" (.text roomId)).set "closesAt" (.number closesAt)
  runAfter := closesAt * 1000
  createdAt := now

def enqueueAutoClose (job : NewJob) (t : Tx Payload) : Except String (Tx Payload) :=
  match Jobs.insertJob t.db.queue job with
  | .ok queue => .ok { t with db := { t.db with queue } }
  | .error _ => .error "ROOM_AUTO_CLOSE_ENQUEUE_FAILED"

/-- `open`. -/
def openRoom (db : Database Payload) (roomId : String) (owner : Owner) (causationId : String)
    (ambient : Ambient) : Except String (Envelope Payload × Database Payload) :=
  transact db roomId fun t => do
    requireOwner owner t
    let retry ← existingManualRetry t causationId "room.opened" roomId owner.teacherId
    match retry with
    | some event => return (event, t)
    | none =>
      if t.room.status ≠ .scheduled then .error "INVALID_COMMAND"
      else do
        let now ← validNow ambient
        let closesAt := now + roomDuration
        let t := t.updateRoom fun room =>
          { room with status := .open, startsAt := some now, closesAt := some closesAt }
        let (event, t) ← append ambient
          (teacherDraft "room.opened" owner.teacherId causationId ambient.correlationId now
            (.opened now closesAt)) t
        let t ← enqueueAutoClose
          (autoCloseJob roomId event closesAt ambient.autoCloseJobId ambient.now) t
        return (event, t)

/-- `#ownerRetry`. -/
def ownerRetry (db : Database Payload) (roomId : String) (owner : Owner) (causationId : String)
    (type : String) : Except String (Option (Envelope Payload) × Database Payload) :=
  transact db roomId fun t => do
    requireOwner owner t
    let retry ← existingManualRetry t causationId type roomId owner.teacherId
    return (retry, t)

def appendAutomaticClose (jobId : String) (closesAt : Int) (correlationId : String)
    (preserve : Option String) (ambient : Ambient) (t : Tx Payload) :
    Except String (Envelope Payload × Tx Payload) := do
  let _ ← validNow ambient
  let t := t.updateRoom fun room => { room with status := .closed, closedAt := some closesAt }
  let t := t.cancelRoomJobs preserve
  append ambient {
    type := "room.closed"
    actorId := jobId
    actorKind := .system
    actorRole := .roomClock
    revision := 1
    operation := .add
    eventTime := closesAt
    causationId := jobId
    correlationId
    payload := .closed closesAt } t

/-- `ORDER BY created_at, job_id`. -/
def jobBefore (a b : String × JobRow) : Bool :=
  a.2.createdAt < b.2.createdAt || (a.2.createdAt = b.2.createdAt && a.1 < b.1)

def firstJob : List (String × JobRow) → Option (String × JobRow)
  | [] => none
  | a :: rest =>
    match firstJob rest with
    | none => some a
    | some b => if jobBefore b a then some b else some a

/-- The rows of `room.auto-close.v1` of the room. -/
def autoCloseJobs (q : Queue) (roomId : String) : List (String × JobRow) :=
  q.jobs.entries.filter fun (_, row) =>
    row.roomId = some roomId && row.jobType = "room.auto-close.v1"

/-- `run_after.toISOString()`: a `Date` has milliseconds. -/
def toMillis (t : Int) : Int := t / 1000

/-- The event that the job names opened this room until `closesAt`, under this correlation. -/
def opensUntil (db : Database Payload) (sourceEventId : Option String) (roomId : String)
    (correlationId : String) (closesAt : Int) : Bool :=
  (db.events.find? fun e => some e.eventId = sourceEventId).any fun e =>
    e.roomId = roomId && e.type = "room.opened" && e.actorKind = .human && e.actorRole = .teacher
      && e.revision = 1 && e.operation = .add && e.correlationId = correlationId
      && e.payload.closesAt? = some closesAt

def live : Jobs.Status → Bool
  | .queued | .running _ => true
  | _ => false

/-- The evidence `#closeDueInContext` asks of the job. -/
def closesRoom (db : Database Payload) (room : RoomRow) (closesAt : Int) (job : JobRow) : Bool :=
  live job.status
    && job.dedupeKey = "room.auto-close.v1:" ++ room.roomId
    && toMillis job.runAfter = closesAt
    && job.payload.get? "roomId" = some (.text room.roomId)
    && job.payload.get? "closesAt" = some (.number closesAt)
    && opensUntil db job.sourceEventId room.roomId job.correlationId closesAt

/-- The instant at which an open or paused room closes. -/
def RoomRow.due? (room : RoomRow) : Option Int :=
  if room.status = .open || room.status = .paused then room.closesAt else none

/-- `#closeDueInContext`. -/
def closeDueInContext (ambient : Ambient) (t : Tx Payload) :
    Except String (Option (Envelope Payload) × Tx Payload) :=
  match t.room.due? with
  | none => .ok (none, t)
  | some closesAt => do
    let now ← validNow ambient
    if now < closesAt then return (none, t)
    else
      match firstJob (autoCloseJobs t.db.queue t.room.roomId) with
      | none => return (none, t)
      | some (jobId, job) =>
        if closesRoom t.db t.room closesAt job then do
          let (event, t) ← appendAutomaticClose jobId closesAt job.correlationId none ambient t
          return (some event, t)
        else return (none, t)

def closeIfDue (db : Database Payload) (roomId : String) (ambient : Ambient) :
    Except String (Option (Envelope Payload) × Database Payload) :=
  transact db roomId (closeDueInContext ambient)

def closeIfDueForOwner (db : Database Payload) (roomId : String) (owner : Owner)
    (ambient : Ambient) : Except String (Option (Envelope Payload) × Database Payload) :=
  transact db roomId fun t => do
    requireOwner owner t
    closeDueInContext ambient t

/-- The two transitions of `#simpleTransition`. -/
inductive Simple
  | pause
  | resume
  deriving DecidableEq

def Simple.type : Simple → String
  | .pause => "room.paused"
  | .resume => "room.resumed"

def Simple.required : Simple → RoomStatus
  | .pause => .open
  | .resume => .paused

def Simple.next : Simple → RoomStatus
  | .pause => .paused
  | .resume => .open

def Simple.payload (now : Int) : Simple → Payload
  | .pause => .paused now
  | .resume => .resumed now

/-- `#simpleTransition`. -/
def simpleTransition (kind : Simple) (db : Database Payload) (roomId : String) (owner : Owner)
    (causationId : String) (ambient : Ambient) :
    Except String (Envelope Payload × Database Payload) :=
  transact db roomId fun t => do
    requireOwner owner t
    let retry ← existingManualRetry t causationId kind.type roomId owner.teacherId
    match retry with
    | some event => return (event, t)
    | none =>
      if t.room.status ≠ kind.required then .error "ROOM_NOT_OPEN"
      else do
        let now ← validNow ambient
        let t := t.updateRoom fun room => { room with status := kind.next }
        append ambient
          (teacherDraft kind.type owner.teacherId causationId ambient.correlationId now
            (kind.payload now)) t

/-- The last transaction of `close`. -/
def closeRoom (db : Database Payload) (roomId : String) (owner : Owner) (causationId : String)
    (ambient : Ambient) : Except String (Envelope Payload × Database Payload) :=
  transact db roomId fun t => do
    requireOwner owner t
    let retry ← existingManualRetry t causationId "room.closed" roomId owner.teacherId
    match retry with
    | some event => return (event, t)
    | none =>
      if t.room.status ≠ .open && t.room.status ≠ .paused then .error "ROOM_NOT_OPEN"
      else do
        let now ← validNow ambient
        let t := t.updateRoom fun room => { room with status := .closed, closedAt := some now }
        let t := t.cancelRoomJobs none
        append ambient
          (teacherDraft "room.closed" owner.teacherId causationId ambient.correlationId now
            (.closed now)) t

/-- `pause`, `resume` and `close`: look for the retry, converge an expired room, transit. The two
functions are what other transactions do in between. -/
def inThreeSteps (type roomId : String) (owner : Owner) (causationId : String) (ambient : Ambient)
    (transition : Database Payload → Except String (Envelope Payload × Database Payload))
    (between between' : Database Payload → Database Payload) (db : Database Payload) :
    Except String (Envelope Payload) × Database Payload :=
  match ownerRetry db roomId owner causationId type with
  | .error error => (.error error, db)
  | .ok (some event, db) => (.ok event, db)
  | .ok (none, db) =>
    let db := between db
    match closeIfDueForOwner db roomId owner ambient with
    | .error error => (.error error, db)
    | .ok (some _, db) => (.error "ROOM_NOT_OPEN", db)
    | .ok (none, db) =>
      let db := between' db
      match transition db with
      | .error error => (.error error, db)
      | .ok (event, db) => (.ok event, db)

def pause (roomId : String) (owner : Owner) (causationId : String) (ambient : Ambient) :=
  inThreeSteps "room.paused" roomId owner causationId ambient fun db =>
    simpleTransition .pause db roomId owner causationId ambient

def resume (roomId : String) (owner : Owner) (causationId : String) (ambient : Ambient) :=
  inThreeSteps "room.resumed" roomId owner causationId ambient fun db =>
    simpleTransition .resume db roomId owner causationId ambient

def close (roomId : String) (owner : Owner) (causationId : String) (ambient : Ambient) :=
  inThreeSteps "room.closed" roomId owner causationId ambient fun db =>
    closeRoom db roomId owner causationId ambient

/-- `RoomInternalAutoCloseRequest`: the claim and the time of the payload. -/
structure AutoCloseRequest where
  claim : JobClaim
  closesAt : Int

/-- The dedupe key of the schema: thirty-six small digits and hyphens after the type. -/
def autoCloseKey (key : String) : Bool :=
  let rest := key.toList.drop 19
  key.toList.take 19 = "room.auto-close.v1:".toList && rest.length = 36
    && rest.all fun c => Uuid.isHex c || c = '-'

def parseAutoCloseRequest (request : AutoCloseRequest) : Bool :=
  uuidFormat request.claim.jobId && request.claim.jobType = "room.auto-close.v1"
    && request.claim.roomId.any uuidFormat && request.claim.sourceEventId.any uuidFormat
    && autoCloseKey request.claim.dedupeKey && uuidFormat request.claim.correlationId
    && 1 ≤ request.claim.claimGeneration && request.claim.claimGeneration < 10 ^ 19
    && uuidFormat request.claim.claimToken && 1 ≤ request.claim.workerId.length
    && request.claim.workerId.length ≤ 128 && dateTime request.closesAt

inductive AutoCloseResponse
  | completed (code : String)
  | retryable (code : String)
  | rejected (code : String)
  deriving DecidableEq

/-- `identityOk`. -/
def autoCloseIdentity (db : Database Payload) (request : AutoCloseRequest) (roomId : String)
    (row : JobRow) : Bool :=
  request.claim.claimGeneration ≤ 9223372036854775807
    && row.jobType = request.claim.jobType && row.roomId = some roomId
    && row.sourceEventId = request.claim.sourceEventId
    && row.dedupeKey = request.claim.dedupeKey
    && row.correlationId = request.claim.correlationId
    && toMillis row.runAfter = request.closesAt
    && opensUntil db row.sourceEventId roomId request.claim.correlationId request.closesAt
    && row.payload.size = 2 && row.payload.get? "roomId" = some (.text roomId)
    && row.payload.get? "closesAt" = some (.number request.closesAt)

/-- The callback of the route. A response commits; only `completeBusiness` and the append
throw. -/
def autoCloseInContext (request : AutoCloseRequest) (roomId : String) (ambient : Ambient)
    (t : Tx Payload) : Except String (AutoCloseResponse × Tx Payload) :=
  if !((t.db.queue.jobs.get? request.claim.jobId).any
      (autoCloseIdentity t.db request roomId)) then
    .ok (.rejected "JOB_FAMILY_IDENTITY_INVALID", t)
  else
    match Jobs.requireCurrent "JOB_CLAIM_STALE" t.db.queue request.claim with
    | .error _ => .ok (.rejected "JOB_CLAIM_STALE", t)
    | .ok _ =>
      -- An invalid clock compares as not early; the automatic close then refuses it.
      if ambient.clock.any (· < request.closesAt) then .ok (.retryable "ROOM_CLOSE_NOT_DUE", t)
      else if t.db.room.status = .open || t.db.room.status = .paused then do
        let (_, t) ← appendAutomaticClose request.claim.jobId request.closesAt
          request.claim.correlationId (some request.claim.jobId) ambient t
        let queue ← Jobs.completeBusiness t.db.queue request.claim "ROOM_AUTO_CLOSE_COMPLETED"
        return (.completed "ROOM_CLOSED", { t with db := { t.db with queue } })
      else if t.db.room.status = .closed then do
        let queue ← Jobs.completeBusiness t.db.queue request.claim "ROOM_AUTO_CLOSE_COMPLETED"
        return (.completed "ALREADY_CLOSED", { t with db := { t.db with queue } })
      else .ok (.rejected "ROOM_DELETION_IN_PROGRESS", t)

/-- `InternalAutoCloseRoute.handle`; `assertion` is what `authorizeServiceAssertion` found. -/
def handleAutoClose (db : Database Payload) (assertion : Bool) (request : AutoCloseRequest)
    (ambient : Ambient) : Except String (AutoCloseResponse × Database Payload) :=
  match request.claim.roomId with
  | none => .ok (.rejected "JOB_FAMILY_IDENTITY_INVALID", db)
  | some roomId =>
    if !parseAutoCloseRequest request then .ok (.rejected "JOB_FAMILY_IDENTITY_INVALID", db)
    else if !assertion then .ok (.rejected "SERVICE_ASSERTION_INVALID", db)
    else
      match transact db roomId (autoCloseInContext request roomId ambient) with
      | .error "JOB_CLAIM_STALE" => .ok (.rejected "JOB_CLAIM_STALE", db)
      | result => result

end LearningOrbit.Rooms
