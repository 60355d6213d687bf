import LearningOrbit.Jobs.Queue
import LearningOrbit.Uuid

/-!
# The room ledger

`RoomEventRepository`: the row of one room, its `room_event` and `outbox_event`
rows and the queue, and what one transaction does to them. The ledger does not
look into payloads, so it is generic in them. Event times are milliseconds, as
`Date` has them; the times of the queue are microseconds.
-/

namespace LearningOrbit.Rooms

open LearningOrbit (Dict)
open Jobs (Queue NewJob)

/-- What a `uuid` column prints for this text. -/
def column (text : String) : String := String.ofList (text.toList.map Char.toLower)

/-- Groups of 8, 4, 4, 4 and 12 digits in either case: the `uuid` format of the schemas. -/
def uuidFormat (text : String) : Bool := Uuid.canonical text = some (column text)

/-- `UUID_PATTERN`, which is not case sensitive. -/
def uuidPattern (text : String) : Bool :=
  uuidFormat text && (text.toList[14]?.any fun c => '1' ≤ c && c ≤ '8')
    && (text.toList[19]?.any fun c => c.toLower ∈ ['8', '9', 'a', 'b'])

inductive ActorKind
  | human
  | agent
  | system
  deriving DecidableEq

inductive ActorRole
  | teacher
  | student
  | socraticFacilitator
  | roomClock
  | systemWorker
  deriving DecidableEq

/-- The `oneOf` of the envelope schema. -/
def ActorKind.plays : ActorKind → ActorRole → Bool
  | .human, .teacher | .human, .student => true
  | .agent, .socraticFacilitator => true
  | .system, .roomClock | .system, .systemWorker => true
  | _, _ => false

inductive Operation
  | add
  | revise
  | retract
  deriving DecidableEq

/-- `RoomEventEnvelope`. -/
structure Envelope (α : Type) where
  eventId : String
  roomId : String
  roomSeq : Nat
  type : String
  actorId : String
  actorKind : ActorKind
  actorRole : ActorRole
  revision : Nat
  operation : Operation
  eventTime : Int
  ingestTime : Int
  causationId : String
  correlationId : String
  payload : α
  deriving DecidableEq

/-- The record with the ten keys of `DRAFT_KEYS`. -/
structure Draft (α : Type) where
  type : String
  actorId : String
  actorKind : ActorKind
  actorRole : ActorRole
  revision : Nat
  operation : Operation
  eventTime : Int
  causationId : String
  correlationId : String
  payload : α
  deriving DecidableEq

inductive RoomStatus
  | scheduled
  | open
  | paused
  | closed
  deriving DecidableEq

/-- `classroom_room`. -/
structure RoomRow where
  roomId : String
  teacherId : String
  novaActorId : String
  status : RoomStatus
  startsAt : Option Int
  closesAt : Option Int
  closedAt : Option Int
  nextRoomSeq : Nat
  deriving DecidableEq

/-- `outbox_event`; every row takes the default topic. -/
structure OutboxRow (α : Type) where
  eventId : String
  roomId : String
  roomSeq : Nat
  envelope : Envelope α
  deriving DecidableEq

/-- `room_member`. -/
structure RoomMember where
  roomMemberId : String
  actorId : String
  deriving DecidableEq

/-- The rows of one room, in the order of their inserts, and the queue. A `room_event` row is
written as the envelope of its columns. -/
structure Database (α : Type) where
  room : RoomRow
  members : List RoomMember
  deletionActive : Bool
  events : List (Envelope α)
  outbox : List (OutboxRow α)
  queue : Queue

def lowerLetter (c : Char) : Bool := 'a' ≤ c && c ≤ 'z'

def wordLetter (c : Char) : Bool := lowerLetter c || c.isDigit || c = '_'

/-- `^[a-z][a-z0-9_]*\.[a-z][a-z0-9_.]*$`. -/
def eventType (text : String) : Bool :=
  match text.toList with
  | [] => false
  | c :: rest =>
    lowerLetter c && match rest.dropWhile wordLetter with
      | '.' :: d :: tail => lowerLetter d && tail.all fun c => wordLetter c || c = '.'
      | _ => false

/-- `EventPayloadRegistry`. -/
structure EventPayloadRegistry (α : Type) where
  validators : String → Option (α → Bool)

def EventPayloadRegistry.assert {α : Type} (payloads : EventPayloadRegistry α) (type : String)
    (payload : α) : Bool :=
  (payloads.validators type).any (· payload)

/-- The years `0000` to `9999`, for which `toISOString` has the format of the schemas. -/
def dateTime (t : Int) : Bool := -62167219200000 ≤ t && t ≤ 253402300799999

/-- What one append draws from outside: `randomUUID()`, `gen_random_uuid()` and the clock, which
may be invalid. -/
structure Drawn where
  eventId : String
  jobId : String
  ingestTime : Option Int
  stored : Uuid.Stored eventId ∧ Uuid.Stored jobId

variable {α β : Type}

def parseRoomEventEnvelope (e : Envelope α) : Bool :=
  uuidFormat e.eventId && uuidFormat e.roomId && 1 ≤ e.roomSeq && eventType e.type
    && uuidFormat e.actorId && e.actorKind.plays e.actorRole && 1 ≤ e.revision
    && dateTime e.eventTime && dateTime e.ingestTime && uuidFormat e.causationId
    && uuidFormat e.correlationId

def Draft.envelope (draft : Draft α) (eventId roomId : String) (roomSeq : Nat) (ingestTime : Int) :
    Envelope α where
  eventId
  roomId
  roomSeq
  type := draft.type
  actorId := draft.actorId
  actorKind := draft.actorKind
  actorRole := draft.actorRole
  revision := draft.revision
  operation := draft.operation
  eventTime := draft.eventTime
  ingestTime
  causationId := draft.causationId
  correlationId := draft.correlationId
  payload := draft.payload

/-- `#validateDraft`. `none` is a value that is no plain record with the keys of a draft and
values of their types. -/
def validateDraft (payloads : EventPayloadRegistry α) (roomId : String) (roomSeq : Nat)
    (drawn : Drawn) : Option (Draft α) → Except String (Envelope α)
  | none => .error "INVALID_COMMAND"
  | some draft =>
    match drawn.ingestTime with
    | none => .error "INVALID_CLOCK"
    | some ingestTime =>
      let envelope := draft.envelope drawn.eventId roomId roomSeq ingestTime
      if parseRoomEventEnvelope envelope && payloads.assert envelope.type envelope.payload then
        .ok envelope
      else .error "INVALID_COMMAND"

/-- The columns of `room_event`, read back. -/
def Envelope.columns (e : Envelope α) : Envelope α :=
  { e with
    eventId := column e.eventId
    roomId := column e.roomId
    actorId := column e.actorId
    causationId := column e.causationId
    correlationId := column e.correlationId }

def parseStoredEvent [DecidableEq α] (payloads : EventPayloadRegistry α) (row : Envelope α) :
    Option (OutboxRow α) → Except String (Envelope α)
  | none => .error "INVALID_STORED_ROOM_EVENT"
  | some joined =>
    if joined.roomId ≠ row.roomId || row.roomSeq = 0 || joined.roomSeq ≠ row.roomSeq
        || !parseRoomEventEnvelope joined.envelope
        || !payloads.assert joined.envelope.type joined.envelope.payload
        || joined.envelope ≠ row then
      .error "INVALID_STORED_ROOM_EVENT"
    else .ok joined.envelope

def immutableDraftMatches [DecidableEq α] (stored candidate : Envelope α) : Bool :=
  stored.type = candidate.type && stored.actorId = candidate.actorId
    && stored.actorKind = candidate.actorKind && stored.actorRole = candidate.actorRole
    && stored.revision = candidate.revision && stored.operation = candidate.operation
    && stored.eventTime = candidate.eventTime && stored.causationId = candidate.causationId
    && stored.correlationId = candidate.correlationId && stored.payload = candidate.payload

/-- An open transaction: the locked snapshot of the room, the database as the transaction sees
it, and the counter of the closure. -/
structure Tx (α : Type) where
  room : RoomRow
  db : Database α
  nextRoomSeq : Nat

/-- `findOneByCausation`. -/
def findOneByCausation [DecidableEq α] (payloads : EventPayloadRegistry α) (db : Database α)
    (causationId : String) : Except String (Option (Envelope α)) :=
  if !uuidPattern causationId then .error "INVALID_COMMAND"
  else
    match db.events.find? (fun e => e.causationId = column causationId) with
    | none => .ok none
    | some row =>
      (parseStoredEvent payloads row
        (db.outbox.find? fun o => o.eventId = row.eventId)).map some

/-- The `int` and `timestamptz` columns take this value. -/
def storable (e : Envelope α) : Bool :=
  e.revision ≤ 2147483647 && -62135596800000 ≤ e.eventTime && -62135596800000 ≤ e.ingestTime

/-- `INSERT INTO room_event`. -/
def insertEvent (db : Database α) (e : Envelope α) : Except String (Database α) :=
  if !storable e then .error "datetime_field_overflow"
  else if e.columns.eventId ∈ db.events.map (·.eventId) then .error "room_event_pkey"
  else if e.roomSeq ∈ db.events.map (·.roomSeq) then .error "room_event_room_id_room_seq_key"
  else if e.columns.causationId ∈ db.events.map (·.causationId) then
    .error "room_event_room_id_causation_id_key"
  else .ok { db with events := db.events ++ [e.columns] }

/-- `INSERT INTO outbox_event`. -/
def insertOutbox (db : Database α) (e : Envelope α) : Except String (Database α) :=
  if column e.eventId ∈ db.outbox.map (·.eventId) then .error "outbox_event_event_id_key"
  else .ok { db with outbox := db.outbox ++ [⟨column e.eventId, column e.roomId, e.roomSeq, e⟩] }

/-- The job that feeds the event to the analytics. -/
def consumeJob (e : Envelope α) (jobId : String) (now : Int) : NewJob where
  jobId
  jobType := "analytics.consume.v1"
  roomId := some (column e.roomId)
  sourceEventId := some (column e.eventId)
  dedupeKey := "analytics.consume.v1:" ++ e.roomId ++ ":" ++ toString e.roomSeq
  correlationId := column e.correlationId
  payload := ((Dict.empty.set "eventId" (.text e.eventId)).set "roomSeq" (.number e.roomSeq)).set
    "eventType" (.text e.type)
  runAfter := now
  createdAt := now
  analyticsOrder := some (e.roomSeq, 0)

/-- `UPDATE classroom_room SET next_room_seq = $2 WHERE room_id = $1 AND next_room_seq = $3`. -/
def advance (db : Database α) (nextRoomSeq : Nat) : Except String (Database α) :=
  if db.room.nextRoomSeq = nextRoomSeq then
    .ok { db with room := { db.room with nextRoomSeq := nextRoomSeq + 1 } }
  else .error "ROOM_SEQUENCE_ADVANCE_FAILED"

/-- The four statements of an append. -/
def write (t : Tx α) (now : Int) (jobId : String) (candidate : Envelope α) :
    Except String (Tx α) := do
  let db ← insertEvent t.db candidate
  let db ← insertOutbox db candidate
  let queue ← Jobs.insertJob db.queue (consumeJob candidate jobId now)
  let db ← advance { db with queue } t.nextRoomSeq
  return { t with db, nextRoomSeq := t.nextRoomSeq + 1 }

/-- A statement that fails in the database: the lookup, or one of the four that write. -/
inductive Fault
  | lookup (error : String)
  | write
  deriving DecidableEq

/-- The lookup of an append. -/
def findPrior [DecidableEq α] (payloads : EventPayloadRegistry α) (fault : Option Fault)
    (db : Database α) (causationId : String) : Except String (Option (Envelope α)) :=
  match fault with
  | some (.lookup error) => .error error
  | _ => findOneByCausation payloads db causationId

/-- `appendOne` once no operation has failed; `now` is `transaction_timestamp()`. -/
def appendOne [DecidableEq α] (payloads : EventPayloadRegistry α) (now : Int) (drawn : Drawn)
    (fault : Option Fault) (draft : Option (Draft α)) (t : Tx α) :
    Except String (Envelope α × Tx α) := do
  let candidate ← validateDraft payloads t.room.roomId t.nextRoomSeq drawn draft
  let prior ← findPrior payloads fault t.db candidate.causationId
  match prior with
  | some stored =>
    if immutableDraftMatches stored candidate then .ok (stored, t) else .error "INVALID_COMMAND"
  | none =>
    match fault, write t now drawn.jobId candidate with
    | none, .ok t' => .ok (candidate, t')
    | _, _ => .error "ROOM_EVENT_APPEND_FAILED"

/-- The start of `transact` up to the callback. -/
def beginRoom (db : Database α) (roomId : String) : Except String (Tx α) :=
  if !uuidPattern roomId then .error "FORBIDDEN"
  else if column roomId ≠ db.room.roomId then .error "FORBIDDEN"
  else if !uuidPattern db.room.roomId then .error "INVALID_STORED_ROOM"
  else if db.deletionActive then .error "ROOM_DELETION_IN_PROGRESS"
  else if db.room.nextRoomSeq = 0 then .error "ROOM_SEQUENCE_OUT_OF_RANGE"
  else .ok ⟨db.room, db, db.room.nextRoomSeq⟩

/-- `transact`: the callback returns or throws. -/
def transact (db : Database α) (roomId : String) (work : Tx α → Except String (β × Tx α)) :
    Except String (β × Database α) := do
  let t ← beginRoom db roomId
  let (value, t') ← work t
  return (value, t'.db)

/-- A call of the context. `fault` is what the database does to it. -/
inductive ContextCall (α : Type)
  | append (draft : Option (Draft α)) (drawn : Drawn) (fault : Option Fault)
  | findByCausation (causationId : String) (fault : Option String)

/-- The transaction with the sticky failure flag of `schedule`. -/
structure Scheduled (α : Type) where
  tx : Tx α
  operationFailure : Option String

/-- What `appendOne` and `findOneByCausation` answer when their turn comes. -/
def answer [DecidableEq α] (payloads : EventPayloadRegistry α) (now : Int) (s : Scheduled α) :
    ContextCall α → Except String (Option (Envelope α) × Tx α)
  | .append draft drawn fault =>
    match s.operationFailure with
    | some error => .error error
    | none => (appendOne payloads now drawn fault draft s.tx).map fun (e, t) => (some e, t)
  | .findByCausation _ (some error) => .error error
  | .findByCausation causationId none =>
    (findOneByCausation payloads s.tx.db causationId).map fun found => (found, s.tx)

/-- One operation of the promise chain. -/
def perform [DecidableEq α] (payloads : EventPayloadRegistry α) (now : Int) (s : Scheduled α)
    (call : ContextCall α) : Scheduled α :=
  match answer payloads now s call with
  | .ok (_, tx) => { s with tx }
  | .error error => { s with operationFailure := some error }

/-- The calls of a callback so far. -/
def performAll [DecidableEq α] (payloads : EventPayloadRegistry α) (now : Int) (t : Tx α)
    (calls : List (ContextCall α)) : Scheduled α :=
  calls.foldl (perform payloads now) ⟨t, none⟩

/-- What a callback did: the calls it issued, awaited or not, in the order in which `schedule`
queued them, and how it ended. An error of a call that it swallowed shows in neither. -/
structure Callback (α β : Type) where
  calls : List (ContextCall α)
  outcome : Except String β

/-- The callback and what `transact` does after it. -/
def Callback.run [DecidableEq α] (payloads : EventPayloadRegistry α) (now : Int)
    (callback : Callback α β) (t : Tx α) : Except String (β × Tx α) :=
  let s := performAll payloads now t callback.calls
  match callback.outcome, s.operationFailure with
  | .error error, _ => .error error
  | .ok _, some error => .error error
  | .ok value, none => .ok (value, s.tx)

/-- One call of `transact` on the room. -/
structure RoomCall (α : Type) where
  roomId : String
  now : Int
  callback : Callback α Unit

def RoomCall.step [DecidableEq α] (payloads : EventPayloadRegistry α) (db : Database α)
    (call : RoomCall α) : Except String (Database α) :=
  (transact db call.roomId (call.callback.run payloads call.now)).map (·.2)

end LearningOrbit.Rooms
