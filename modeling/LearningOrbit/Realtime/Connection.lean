import Mathlib.Data.List.Sort
import LearningOrbit.Realtime.Client

/-!
# The server's connection

`RealtimeConnection`, `RoomHub.resume` and `broadcastAuthorized` as they concern one
connection. An action is what runs between two awaits; after an await anything may have
happened, so actions come in any order. Frames that do not concern the cursor are left
out; all they can do to the connection is close it.
-/

namespace LearningOrbit.Realtime

open LearningOrbit.Rooms (Envelope)

variable {α : Type}

/-- A row of `outbox_event`; `none` for an envelope that `parseRoomEventEnvelope` refuses. -/
structure DurableRow (α : Type) where
  roomSeq : Nat
  envelope : Option (Envelope α)
  deriving DecidableEq

structure Connection (α : Type) where
  hello : Bool
  closed : Bool
  replaying : Bool
  resumeFrom : Nat
  replayThrough : Nat
  liveBuffer : List (Envelope α)
  /-- What the socket was given, first to last. -/
  sent : List (Frame α)
  /-- How often `send` has looked at the socket's buffer. -/
  looks : Nat

def Connection.opened : Connection α := ⟨false, false, true, 0, 0, [], [], 0⟩

/-- `MAX_LIVE_BUFFER_EVENTS`. -/
def maxLiveBufferEvents : Nat := 512

def Connection.close (c : Connection α) : Connection α :=
  if c.closed then c else { c with closed := true, liveBuffer := [] }

section
variable (congested : Nat → Bool)

/-- `send`; `congested n` when `enforceBackpressure` says to close at the `n`-th look. -/
def Connection.send (c : Connection α) (frame : Frame α) : Connection α :=
  if c.closed then c
  else if congested c.looks then { c with looks := c.looks + 1 }.close
  else { c with sent := c.sent ++ [frame], looks := c.looks + 1 }

/-- `snapshot_required` and the close that follows it. -/
def Connection.requireSnapshot (c : Connection α) (afterSeq throughRoomSeq : Nat) :
    Connection α :=
  (c.send congested (.snapshotRequired afterSeq throughRoomSeq)).close

def Connection.sendDurable (c : Connection α) (e : Envelope α) : Connection α :=
  if c.closed then c
  else if !c.hello || c.replaying then
    if maxLiveBufferEvents ≤ c.liveBuffer.length then
      c.requireSnapshot congested c.resumeFrom (max c.resumeFrom c.replayThrough)
    else { c with liveBuffer := c.liveBuffer ++ [e] }
  else c.send congested (.event e)

def Connection.setReplayThrough (c : Connection α) (roomSeq : Nat) : Connection α :=
  { c with replayThrough := roomSeq }

/-- The loop of `finishReplay`. -/
def Connection.flush : List (Envelope α) → Connection α → Connection α
  | [], c => c
  | e :: rest, c =>
    if c.replayThrough < e.roomSeq then
      Connection.flush rest ((c.send congested (.event e)).setReplayThrough e.roomSeq)
    else Connection.flush rest c

def Connection.finishReplay (c : Connection α) (throughRoomSeq : Nat) : Connection α :=
  if c.closed then c
  else
    Connection.flush congested (c.liveBuffer.insertionSort (·.roomSeq ≤ ·.roomSeq))
      { c with
        replayThrough := max c.replayThrough throughRoomSeq
        replaying := false
        liveBuffer := [] }

end

/-! ## One connection in one process -/

/-- Where the handling of the hello waits. -/
inductive Phase (α : Type)
  | hello
  | authorizing
  | roomState
  | querying
  | replaying (rows : List (DurableRow α)) (through : Nat)
  | done

/-- A running `broadcastAuthorized`; `waiting` while the connection is still ahead in its copy
of the set. -/
structure Broadcast (α : Type) where
  event : Envelope α
  waiting : Bool

structure Server (α : Type) where
  roomId : String
  outbox : List (DurableRow α)
  joined : Bool
  connection : Connection α
  phase : Phase α
  broadcasts : List (Broadcast α)
  finished : List (Envelope α)

def Server.start (roomId : String) : Server α :=
  ⟨roomId, [], false, .opened, .hello, [], []⟩

/-- What runs between two awaits, with what the await before it came back with. -/
inductive Event (α : Type)
  | commit (row : DurableRow α)
  | connect
  | hello (resumeFrom : Nat)
  | authorized (ok : Bool)
  | roomState (cursor : Option Nat)
  | queried (ok : Bool)
  | replay (ok : Bool)
  | broadcast (index : Nat)
  | deliver (index : Nat) (ok : Bool)
  | finish (index : Nat)
  | abort (index : Nat)
  | close

section
variable (congested : Nat → Bool)

def Server.over (w : Server α) (connection : Connection α) : Server α :=
  { w with connection, phase := .done }

/-- The head of the loop over the rows, and what follows the last of them. -/
def Server.nextRow (w : Server α) (c : Connection α) (through : Nat) :
    List (DurableRow α) → Server α
  | [] => w.over ((c.send congested (.resumeComplete through)).finishReplay congested through)
  | row :: rest =>
    if row.roomSeq ≠ through + 1 then
      w.over (c.requireSnapshot congested c.resumeFrom through)
    else { w with connection := c, phase := .replaying (row :: rest) through }

/-- A row whose reauthorization has come back. -/
def Server.replayRow (w : Server α) (row : DurableRow α) (rest : List (DurableRow α))
    (through : Nat) : Server α :=
  let c := w.connection
  match row.envelope with
  | none => w.over (c.requireSnapshot congested c.resumeFrom through)
  | some e =>
    if e.roomSeq ≠ row.roomSeq then w.over (c.requireSnapshot congested c.resumeFrom through)
    else w.nextRow congested (c.send congested (.event e)) e.roomSeq rest

/-- The rows of the query, once they are back. -/
def Server.startReplay (w : Server α) : Server α :=
  let c := w.connection
  let rows := (w.outbox.filter fun row => c.resumeFrom < row.roomSeq).take 501
  if 500 < rows.length then
    w.over (c.requireSnapshot congested c.resumeFrom
      ((rows.getLast?.map DurableRow.roomSeq).getD 0))
  else w.nextRow congested c c.resumeFrom rows

/-- The row's event when it parses and names the room. -/
def Server.published (w : Server α) (index : Nat) : Option (Envelope α) :=
  (w.outbox[index]?).bind fun row => row.envelope.filter fun e => e.roomId = w.roomId

def Server.act (w : Server α) : Event α → Server α
  | .commit row =>
    if w.outbox.all (·.roomSeq < row.roomSeq) then { w with outbox := w.outbox ++ [row] } else w
  | .connect => if w.joined then w else { w with joined := true }
  | .hello resumeFrom =>
    match w.phase with
    | .hello =>
      if w.joined && !w.connection.closed then
        { w with
          connection := { w.connection with hello := true, resumeFrom }
          phase := .authorizing }
      else w
    | _ => w
  | .authorized ok =>
    match w.phase with
    | .authorizing => if ok then { w with phase := .roomState } else w.over w.connection.close
    | _ => w
  | .roomState cursor =>
    match w.phase with
    | .roomState =>
      match cursor with
      | some cursor =>
        { w with connection := w.connection.send congested (.welcome cursor), phase := .querying }
      | none => w.over w.connection.close
    | _ => w
  | .queried ok =>
    match w.phase with
    | .querying => if ok then w.startReplay congested else w.over w.connection.close
    | _ => w
  | .replay ok =>
    match w.phase with
    | .replaying (row :: rest) through =>
      if ok then w.replayRow congested row rest through else w.over w.connection.close
    | _ => w
  | .broadcast index =>
    match w.published index with
    | some e =>
      { w with broadcasts := w.broadcasts ++ [⟨e, w.joined && !w.connection.closed⟩] }
    | none => w
  | .deliver index ok =>
    match w.broadcasts[index]? with
    | some b =>
      if b.waiting then
        { w with
          connection :=
            if ok then w.connection.sendDurable congested b.event else w.connection.close
          broadcasts := w.broadcasts.set index { b with waiting := false } }
      else w
    | none => w
  | .finish index =>
    match w.broadcasts[index]? with
    | some b =>
      if b.waiting then w
      else
        { w with
          broadcasts := w.broadcasts.eraseIdx index
          finished := w.finished ++ [b.event] }
    | none => w
  | .abort index => { w with broadcasts := w.broadcasts.eraseIdx index }
  | .close => if w.joined then { w with connection := w.connection.close } else w

def Server.run (w : Server α) (events : List (Event α)) : Server α :=
  events.foldl (fun w a => w.act congested a) w

end

end LearningOrbit.Realtime
