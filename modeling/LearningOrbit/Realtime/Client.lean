import LearningOrbit.Rooms.Ledger

/-!
# The browser's session

`EventLedger`, `RoomSocket` and the event half of `HydratedSessionState`. A call that
throws has already changed the session, so calls return the session beside their error.
What the ledger folds the messages of a room into is not read here.
-/

namespace LearningOrbit.Realtime

open LearningOrbit.Rooms (Envelope)

variable {α : Type}

inductive AppendResult
  | appended | duplicate | stale | gap
  deriving DecidableEq

structure EventLedger (α : Type) where
  roomId : String
  events : List (Envelope α)
  lastRoomSeq : Nat

/-- `EventLedger.append`; `none` is `ROOM_EVENT_ROOM_MISMATCH`. -/
def EventLedger.append (l : EventLedger α) (e : Envelope α) :
    Option (AppendResult × EventLedger α) :=
  if e.roomId ≠ l.roomId then none
  else if e.eventId ∈ l.events.map Envelope.eventId then some (.duplicate, l)
  else if e.roomSeq ≤ l.lastRoomSeq then some (.stale, l)
  else if e.roomSeq ≠ l.lastRoomSeq + 1 then some (.gap, l)
  else some (.appended, { l with events := l.events ++ [e], lastRoomSeq := e.roomSeq })

/-- The server frames that concern the cursor. -/
inductive Frame (α : Type)
  | event (e : Envelope α)
  | resumeComplete (throughRoomSeq : Nat)
  | snapshotRequired (afterSeq throughRoomSeq : Nat)
  | welcome (cursor : Nat)
  deriving DecidableEq

/-- `#recoverLoop` between two pages. `watched` is set once `#acceptControl` waits for it. -/
structure Recovery where
  cursor : Nat
  pageNumber : Nat
  watched : Bool
  deriving DecidableEq

structure Session (α : Type) where
  ledger : EventLedger α
  /-- The cursor of the socket. -/
  lastRoomSeq : Nat
  recovery : Option Recovery
  requiredThroughSeq : Nat
  recoveryError : Option String

def Session.start (roomId : String) : Session α :=
  ⟨⟨roomId, [], 0⟩, 0, none, 0, none⟩

/-- `#failRecovery`. -/
def Session.failRecovery (s : Session α) (code : String) : Session α :=
  if s.recoveryError.isSome then s else { s with recoveryError := some code }

/-- `recoverEvents`; `watched` for a caller that fails the session when the recovery fails. -/
def Session.recoverEvents (s : Session α) (required : Nat) (watched : Bool) : Session α :=
  if s.recoveryError.isSome then s
  else
    { s with
      requiredThroughSeq := max s.requiredThroughSeq required
      recovery :=
        match s.recovery with
        | some r => some { r with watched := r.watched || watched }
        | none => some ⟨s.ledger.lastRoomSeq, 0, watched⟩ }

/-- `#acceptControl` for a `snapshot_required`. -/
def Session.snapshotRequired (s : Session α) (afterSeq throughRoomSeq : Nat) :
    Session α × Option String :=
  if afterSeq ≠ s.ledger.lastRoomSeq ∨ throughRoomSeq < afterSeq then
    (s, some "ROOM_EVENT_RECOVERY_RANGE_INVALID")
  else (s.recoverEvents throughRoomSeq true, none)

/-- `HydratedSessionState.#acceptEvent`. -/
def Session.appendEvent (s : Session α) (e : Envelope α) : Session α × Option String :=
  match s.ledger.append e with
  | none => (s, some "ROOM_EVENT_ROOM_MISMATCH")
  | some (.appended, ledger) => ({ s with ledger }, none)
  | some (.duplicate, _) => (s, some "ROOM_EVENT_LEDGER_DUPLICATE")
  | some (.stale, _) => (s, some "ROOM_EVENT_LEDGER_STALE")
  | some (.gap, _) => (s, some "ROOM_EVENT_LEDGER_GAP")

/-- `RoomSocket.#acceptEvent`. -/
def Session.acceptEvent (s : Session α) (e : Envelope α) : Session α × Option String :=
  if e.roomId ≠ s.ledger.roomId ∨ e.roomSeq ≤ s.lastRoomSeq then (s, none)
  else if e.roomSeq ≠ s.lastRoomSeq + 1 then s.snapshotRequired s.lastRoomSeq (e.roomSeq - 1)
  else { s with lastRoomSeq := e.roomSeq }.appendEvent e

/-- `RoomSocket.onFrame`. -/
def Session.onFrame (s : Session α) : Frame α → Session α × Option String
  | .event e => s.acceptEvent e
  | .resumeComplete through =>
    if through ≠ s.lastRoomSeq then s.snapshotRequired s.lastRoomSeq (max s.lastRoomSeq through)
    else (s, none)
  | .snapshotRequired afterSeq through => s.snapshotRequired afterSeq through
  | .welcome _ => (s, none)

/-- `receiveFrame`. -/
def Session.receiveFrame (s : Session α) (frame : Frame α) : Session α :=
  if s.recoveryError.isSome then s
  else
    match s.onFrame frame with
    | (s, none) => s
    | (s, some _) => s.failRecovery "REALTIME_PROTOCOL_ERROR"

/-- An event of the room `garden`, for concrete runs. -/
def gardenEvent (eventId : String) (roomSeq : Nat) : Envelope Unit where
  eventId := eventId
  roomId := "garden"
  roomSeq := roomSeq
  type := "message.created"
  actorId := "mei"
  actorKind := .human
  actorRole := .student
  revision := 1
  operation := .add
  eventTime := 0
  ingestTime := 0
  causationId := eventId
  correlationId := eventId
  payload := ()

/-! ## Pages -/

structure Page (α : Type) where
  events : List (Envelope α)
  throughRoomSeq : Nat
  nextAfterSeq : Option Nat

/-- The answer of the events route: `eventsAfter`, and a cursor when the page is full. -/
def eventsPage (room : List (Envelope α)) (afterSeq limit : Nat) : Page α :=
  let events := (room.filter fun e => afterSeq < e.roomSeq).take limit
  let through := (events.getLast?.map Envelope.roomSeq).getD afterSeq
  ⟨events, through, if events.length = limit then some through else none⟩

/-- The events of one page, in order. -/
def Session.acceptPage : List (Envelope α) → Nat → Session α → Session α × Except String Nat
  | [], cursor, s => (s, .ok cursor)
  | e :: rest, cursor, s =>
    if e.roomSeq ≠ cursor + 1 then (s, .error "ROOM_EVENT_PAGE_GAP")
    else
      match s.onFrame (.event e) with
      | (s, some error) => (s, .error error)
      | (s, none) =>
        if s.ledger.lastRoomSeq ≠ e.roomSeq then (s, .error "ROOM_EVENT_PAGE_REJECTED")
        else Session.acceptPage rest e.roomSeq s

/-- What the loop does with a page after its events. -/
def Session.turnPage (s : Session α) (page : Page α) (cursor : Nat) : Except String (Session α) :=
  if page.throughRoomSeq ≠ cursor then .error "ROOM_EVENT_PAGE_CURSOR_MISMATCH"
  else
    match page.nextAfterSeq with
    | none =>
      if cursor < s.requiredThroughSeq then .error "ROOM_EVENT_RECOVERY_INCOMPLETE"
      else .ok { s with recovery := none, requiredThroughSeq := s.ledger.lastRoomSeq }
    | some next =>
      if next ≠ cursor ∨ page.events.isEmpty then .error "ROOM_EVENT_PAGE_CURSOR_INVALID"
      else if s.recovery.any (·.pageNumber + 1 = 1000) then .error "ROOM_EVENT_PAGE_LIMIT_EXCEEDED"
      else .ok { s with
        recovery := s.recovery.map fun r => { r with cursor, pageNumber := r.pageNumber + 1 } }

/-- The recovery is over and rejects. -/
def Session.rejectRecovery (s : Session α) : Session α :=
  let ended := { s with recovery := none }
  if s.recovery.any (·.watched) then ended.failRecovery "ROOM_EVENT_RECOVERY_FAILED" else ended

/-- One turn of `#recoverLoop` with the answer to its `cursor`, and the code it rejects with. -/
def Session.receivePage (s : Session α) (cursor : Nat) (page : Page α) :
    Session α × Option String :=
  match Session.acceptPage page.events cursor s with
  | (s, .error code) => (s.rejectRecovery, some code)
  | (s, .ok cursor) =>
    match s.turnPage page cursor with
    | .error code => (s.rejectRecovery, some code)
    | .ok s => (s, none)

end LearningOrbit.Realtime
