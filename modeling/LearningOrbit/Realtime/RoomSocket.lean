import LearningOrbit.Dict
import LearningOrbit.Raise
import LearningOrbit.Since

/-!
# The room's socket

What `RoomSocket` keeps until the server has answered, and what it writes to its sockets.
The stored cursor, the retry timer and the gate are left out: `connect` may come at any time.
Sockets answer later, and the sinks call nothing of the socket.
-/

namespace LearningOrbit.Realtime

variable {κ : Type}

/-- A `RoomCommand` as the socket reads it. -/
structure CommandContract (κ : Type) where
  commandId : κ → String
  /-- `encodeRoomCommand`. -/
  encode : κ → Except String String

/-- How a socket takes a frame. -/
inductive Write
  | shut | throws | goes
  deriving DecidableEq

/-- What `sendPresence` and `sendTyping` tell. -/
inductive Signal
  | presence (active : Bool)
  | typing (active : Bool)
  deriving DecidableEq

structure EphemeralClientFrame where
  signal : Signal
  clientSeq : Nat
  deriving DecidableEq

structure RoomSocket (κ : Type) where
  roomId : String
  lastRoomSeq : Nat
  pending : Dict String κ
  clientSeq : Nat
  /-- The current socket, by its place among all that the factory has made. -/
  socket : Option Nat
  sockets : Nat
  closed : Bool
  resumeReady : Bool
  /-- The commands that sockets were given, first to last. -/
  written : List (Nat × κ)
  /-- The presence and typing frames that sockets were given. -/
  signals : List (Nat × EphemeralClientFrame)
  /-- How often a socket was to take one or the other. -/
  looks : Nat

def RoomSocket.start (roomId : String) (lastRoomSeq : Nat) : RoomSocket κ :=
  ⟨roomId, lastRoomSeq, .empty, 0, none, 0, false, false, [], [], 0⟩

/-- `MAX_PENDING_COMMANDS`. -/
def maxPendingCommands : Nat := 100

/-- The server frames that concern the cursor or a command. -/
inductive ServerFrame
  | event (roomId : String) (roomSeq : Nat)
  | resumeComplete (throughRoomSeq : Nat)
  | ack (commandId : String)
  | reject (commandId : Option String) (retryable : Bool)
  | other
  deriving DecidableEq

/-- `onClose`; `gated` while a recovery is awaited. -/
def RoomSocket.onClose (s : RoomSocket κ) (code : Option Nat) (gated : Bool) : RoomSocket κ :=
  if s.closed then s
  else
    { s with
      socket := none
      resumeReady := false
      closed := code = some 4400 || code = some 4401 || code = some 4403 || code = some 4410 ||
        (code = some 4409 && !gated) }

/-- `#protocolFailure` of the current socket. -/
def RoomSocket.protocolFailure (s : RoomSocket κ) : RoomSocket κ :=
  if s.closed then s else { s with closed := true, socket := none }

/-- `connect`, up to the hello. -/
def RoomSocket.connect (s : RoomSocket κ) : RoomSocket κ :=
  { s with
    closed := false
    resumeReady := false
    socket := some s.sockets
    sockets := s.sockets + 1 }

def RoomSocket.close (s : RoomSocket κ) : RoomSocket κ :=
  { s with closed := true, resumeReady := false, socket := none }

def RoomSocket.destroy (s : RoomSocket κ) : RoomSocket κ :=
  { s.close with pending := .empty, clientSeq := 0, roomId := "", lastRoomSeq := 0 }

section
variable (contract : CommandContract κ) (wire : Nat → Write)

/-- The end of `send`. Without a current socket the command goes to one that does nothing. -/
def RoomSocket.write (s : RoomSocket κ) (command : κ) : RoomSocket κ :=
  match s.socket with
  | none => s
  | some n =>
    if s.resumeReady then
      let looked := { s with looks := s.looks + 1 }
      match wire s.looks with
      | .shut => looked
      | .throws => looked.onClose none false
      | .goes => { looked with written := s.written ++ [(n, command)] }
    else s

/-- `#sendEphemeral`. -/
def RoomSocket.sendEphemeral (s : RoomSocket κ) (signal : Signal) : RoomSocket κ :=
  match s.socket with
  | none => s
  | some n =>
    if s.resumeReady then
      let looked := { s with looks := s.looks + 1 }
      match wire s.looks with
      | .shut => looked
      | .throws => looked
      | .goes =>
        { looked with
          signals := s.signals ++ [(n, ⟨signal, s.clientSeq + 1⟩)]
          clientSeq := s.clientSeq + 1 }
    else s

def RoomSocket.send (s : RoomSocket κ) (command : κ) : Except String (RoomSocket κ) :=
  match contract.encode command with
  | .error code => .error code
  | .ok encoded =>
    match s.pending.get? (contract.commandId command) with
    | some existing =>
      match contract.encode existing with
      | .error code => .error code
      | .ok text =>
        if text ≠ encoded then .error "COMMAND_ID_CONFLICT" else .ok (s.write wire existing)
    | none =>
      if maxPendingCommands ≤ s.pending.size then .error "PENDING_COMMAND_LIMIT"
      else
        .ok ({ s with pending := s.pending.set (contract.commandId command) command }.write wire
          command)

/-- `#flushPending`. A command that is pending was encoded before, so none of them throws. -/
def RoomSocket.flushPending (s : RoomSocket κ) : RoomSocket κ :=
  commitAll (RoomSocket.send contract wire) s s.pending.values

def RoomSocket.onFrame (s : RoomSocket κ) : ServerFrame → RoomSocket κ
  | .event roomId roomSeq =>
    if roomId ≠ s.roomId ∨ roomSeq ≤ s.lastRoomSeq then s
    else if roomSeq ≠ s.lastRoomSeq + 1 then s
    else { s with lastRoomSeq := roomSeq }
  | .resumeComplete through =>
    if through ≠ s.lastRoomSeq then s
    else { s with resumeReady := true }.flushPending contract wire
  | .ack commandId => { s with pending := s.pending.erase commandId }
  | .reject commandId retryable =>
    match commandId with
    | none => s
    | some commandId =>
      if retryable then s else { s with pending := s.pending.erase commandId }
  | .other => s

/-- The `message` listener of a socket; no frame when the data is none, `thrown` when a sink
throws. -/
def RoomSocket.message (s : RoomSocket κ) (socket : Nat) (frame : Option ServerFrame)
    (thrown : Bool) : RoomSocket κ :=
  if s.closed || s.socket ≠ some socket then s
  else
    match frame with
    | none => s.protocolFailure
    | some frame =>
      if thrown then (s.onFrame contract wire frame).protocolFailure
      else s.onFrame contract wire frame

inductive SocketCall (κ : Type)
  | send (command : κ)
  | signal (signal : Signal)
  | frame (frame : ServerFrame)
  | message (socket : Nat) (frame : Option ServerFrame) (thrown : Bool)
  | connect
  /-- The `close` listener of a socket. -/
  | lost (socket : Nat) (code : Option Nat) (gated : Bool)
  | close
  | destroy

def RoomSocket.call (s : RoomSocket κ) : SocketCall κ → RoomSocket κ
  | .send command => commit (RoomSocket.send contract wire) s command
  | .signal signal => s.sendEphemeral wire signal
  | .frame frame => s.onFrame contract wire frame
  | .message socket frame thrown => s.message contract wire socket frame thrown
  | .connect => s.connect
  | .lost socket code gated => if s.socket = some socket then s.onClose code gated else s
  | .close => s.close
  | .destroy => s.destroy

end

/-! ## What stays pending -/

section
variable {contract : CommandContract κ} {wire : Nat → Write} {s : RoomSocket κ} {id : String}
  {command : κ}

@[simp] theorem RoomSocket.onClose_pending (code : Option Nat) (gated : Bool) :
    (s.onClose code gated).pending = s.pending := by
  unfold onClose
  split <;> rfl

@[simp] theorem RoomSocket.protocolFailure_pending :
    s.protocolFailure.pending = s.pending := by
  unfold protocolFailure
  split <;> rfl

@[simp] theorem RoomSocket.write_pending : (s.write wire command).pending = s.pending := by
  unfold write
  split
  · rfl
  · split
    · simp only
      split <;> simp
    · rfl

@[simp] theorem RoomSocket.sendEphemeral_pending (signal : Signal) :
    (s.sendEphemeral wire signal).pending = s.pending := by
  unfold sendEphemeral
  split
  · rfl
  · split
    · simp only
      split <;> rfl
    · rfl

/-- Every pending command is filed under its id, and was encoded. -/
def Filed (contract : CommandContract κ) (pending : Dict String κ) : Prop :=
  ∀ id command, pending.get? id = some command →
    contract.commandId command = id ∧ ∃ text, contract.encode command = .ok text

/-- A pending command is written as it is. -/
theorem Filed.resend (h : Filed contract s.pending) (hget : s.pending.get? id = some command) :
    s.send contract wire command = .ok (s.write wire command) := by
  obtain ⟨hid, text, htext⟩ := h id command hget
  unfold RoomSocket.send
  rw [htext, hid, hget]
  simp [htext]

theorem Filed.resendAll {commands : List κ} (h : Filed contract s.pending)
    (hc : ∀ command ∈ commands, ∃ id, s.pending.get? id = some command) :
    commitAll (RoomSocket.send contract wire) s commands =
      commands.foldl (RoomSocket.write wire) s := by
  induction commands generalizing s with
  | nil => rfl
  | cons command commands ih =>
    obtain ⟨id, hget⟩ := hc command List.mem_cons_self
    change commitAll _ (commit _ s command) commands = _
    rw [commit_of_ok (h.resend hget), List.foldl_cons]
    refine ih (by rwa [RoomSocket.write_pending]) fun other hother => ?_
    rw [RoomSocket.write_pending]
    exact hc other (List.mem_cons_of_mem _ hother)

theorem Filed.flush (h : Filed contract s.pending) :
    s.flushPending contract wire = s.pending.values.foldl (RoomSocket.write wire) s :=
  h.resendAll fun _ hcommand => Dict.mem_values.mp hcommand

theorem writes_pending (commands : List κ) :
    (commands.foldl (RoomSocket.write wire) s).pending = s.pending :=
  List.foldlRecOn (motive := fun t : RoomSocket κ => t.pending = s.pending) commands _ rfl
    fun _ ht _ _ => RoomSocket.write_pending.trans ht

/-- The socket accepts a command that it does not have. -/
def Takes (contract : CommandContract κ) (id : String) (command : κ) (s : RoomSocket κ) :
    SocketCall κ → Prop
  | .send sent =>
    sent = command ∧ contract.commandId command = id ∧
      (∃ text, contract.encode command = .ok text) ∧ s.pending.get? id = none ∧
      s.pending.size < maxPendingCommands
  | _ => False

/-- An acknowledgement, or a rejection for good. -/
def ServerFrame.settles (id : String) : ServerFrame → Prop
  | .ack commandId => commandId = id
  | .reject commandId retryable => commandId = some id ∧ retryable = false
  | _ => False

/-- The server's last word on a command arrives, or the socket is destroyed. -/
def Settled (id : String) (s : RoomSocket κ) : SocketCall κ → Prop
  | .frame frame => frame.settles id
  | .message socket frame _ =>
    s.closed = false ∧ s.socket = some socket ∧ ∃ f, frame = some f ∧ f.settles id
  | .destroy => True
  | _ => False

theorem get?_erase_iff {pending : Dict String κ} {other : String} :
    (pending.erase other).get? id = some command ↔
      pending.get? id = some command ∧ ¬other = id := by
  rw [Dict.get?_erase]
  split
  · rename_i heq
    simp [heq]
  · rename_i hne
    simp [Ne.symm hne]

theorem frame_pending (h : Filed contract s.pending) (frame : ServerFrame) :
    (s.onFrame contract wire frame).pending.get? id = some command ↔
      s.pending.get? id = some command ∧ ¬frame.settles id := by
  cases frame with
  | event roomId roomSeq =>
    have hsame : (s.onFrame contract wire (.event roomId roomSeq)).pending = s.pending := by
      unfold RoomSocket.onFrame
      simp only
      split
      · rfl
      · split <;> rfl
    rw [hsame]
    simp [ServerFrame.settles]
  | resumeComplete through =>
    have hsame : (s.onFrame contract wire (.resumeComplete through)).pending = s.pending := by
      unfold RoomSocket.onFrame
      simp only
      split
      · rfl
      · rw [Filed.flush (s := { s with resumeReady := true }) h, writes_pending]
    rw [hsame]
    simp [ServerFrame.settles]
  | ack commandId => exact get?_erase_iff
  | reject commandId retryable =>
    cases commandId with
    | none => simp [RoomSocket.onFrame, ServerFrame.settles]
    | some other =>
      cases retryable with
      | true => simp [RoomSocket.onFrame, ServerFrame.settles]
      | false =>
        refine get?_erase_iff.trans ?_
        simp [ServerFrame.settles]
  | other => simp [RoomSocket.onFrame, ServerFrame.settles]

theorem message_pending (h : Filed contract s.pending) (socket : Nat) (frame : Option ServerFrame)
    (thrown : Bool) :
    (s.message contract wire socket frame thrown).pending.get? id = some command ↔
      s.pending.get? id = some command ∧ ¬Settled id s (.message socket frame thrown) := by
  unfold RoomSocket.message
  by_cases hheard : s.closed = false ∧ s.socket = some socket
  · rw [if_neg (by simp [hheard])]
    cases frame with
    | none => simp [Settled]
    | some frame =>
      have hsame :
          (if thrown then (s.onFrame contract wire frame).protocolFailure
            else s.onFrame contract wire frame).pending =
          (s.onFrame contract wire frame).pending := by
        split
        · exact RoomSocket.protocolFailure_pending
        · rfl
      simp only [hsame, frame_pending h, Settled, hheard, true_and, Option.some.injEq,
        exists_eq_left']
  · have hdeaf : ¬Settled id s (.message socket frame thrown) := fun hs => hheard ⟨hs.1, hs.2.1⟩
    rw [if_pos, iff_self_and]
    · exact fun _ => hdeaf
    · rw [Bool.or_eq_true, decide_eq_true_iff]
      by_contra hneither
      rw [not_or, Bool.not_eq_true, not_not] at hneither
      exact hheard hneither

theorem send_pending (h : Filed contract s.pending) (sent : κ) :
    (commit (RoomSocket.send contract wire) s sent).pending.get? id = some command ↔
      Takes contract id command s (.send sent) ∨ s.pending.get? id = some command := by
  unfold commit RoomSocket.send
  cases hencode : contract.encode sent with
  | error code =>
    have hno : ¬Takes contract id command s (.send sent) := by
      rintro ⟨rfl, -, ⟨text, htext⟩, -⟩
      rw [hencode] at htext
      cases htext
    simp [hno]
  | ok encoded =>
    cases hget : s.pending.get? (contract.commandId sent) with
    | some existing =>
      have hno : ¬Takes contract id command s (.send sent) := by
        rintro ⟨rfl, rfl, -, hnone, -⟩
        rw [hget] at hnone
        cases hnone
      obtain ⟨-, text, htext⟩ := h _ _ hget
      simp only [htext]
      split
      · rename_i heq
        split at heq
        · cases heq
        · cases heq
          simp [hno]
      · simp [hno]
    | none =>
      by_cases hfull : maxPendingCommands ≤ s.pending.size
      · have hno : ¬Takes contract id command s (.send sent) := fun ht =>
          absurd ht.2.2.2.2 (Nat.not_lt.mpr hfull)
        simp [hfull, hno]
      · simp only [hfull, if_false, RoomSocket.write_pending]
        rw [Dict.get?_set]
        split
        · rename_i heq
          subst heq
          simp only [Option.some.injEq, hget, or_false, Takes, reduceCtorEq]
          constructor
          · rintro rfl
            exact ⟨rfl, rfl, ⟨encoded, hencode⟩, trivial, Nat.not_le.mp hfull⟩
          · exact And.left
        · rename_i hne
          have hno : ¬Takes contract id command s (.send sent) := by
            rintro ⟨rfl, hid, -⟩
            exact hne hid.symm
          simp [hno]

/-- A command is pending once the socket takes it, until it is settled. -/
theorem call_pending (h : Filed contract s.pending) (c : SocketCall κ) :
    (s.call contract wire c).pending.get? id = some command ↔
      Takes contract id command s c ∨ s.pending.get? id = some command ∧ ¬Settled id s c := by
  cases c with
  | send sent =>
    refine (send_pending h sent).trans ?_
    simp [Settled]
  | frame frame =>
    refine (frame_pending h frame).trans ?_
    simp [Takes, Settled]
  | message socket frame thrown =>
    refine (message_pending h socket frame thrown).trans ?_
    simp [Takes]
  | lost socket code gated =>
    have hsame : (s.call contract wire (.lost socket code gated)).pending = s.pending := by
      unfold RoomSocket.call
      simp only
      split
      · exact RoomSocket.onClose_pending code gated
      · rfl
    rw [hsame]
    simp [Takes, Settled]
  | signal signal => simp [RoomSocket.call, Takes, Settled]
  | connect | close => simp [RoomSocket.call, RoomSocket.connect, RoomSocket.close, Takes, Settled]
  | destroy => simp [RoomSocket.call, RoomSocket.destroy, Takes, Settled]

theorem Filed.call (h : Filed contract s.pending) (c : SocketCall κ) :
    Filed contract (s.call contract wire c).pending := by
  intro id command hget
  rcases (call_pending h c).mp hget with htakes | ⟨hheld, -⟩
  · cases c with
    | send sent =>
      obtain ⟨-, hid, hencode, -⟩ := htakes
      exact ⟨hid, hencode⟩
    | _ => exact htakes.elim
  · exact h id command hheld

end

/-- A socket after a run of calls. -/
def RoomSocket.after (contract : CommandContract κ) (wire : Nat → Write) (roomId : String)
    (lastRoomSeq : Nat) (calls : List (SocketCall κ)) : RoomSocket κ :=
  calls.foldl (RoomSocket.call contract wire) (.start roomId lastRoomSeq)

section
variable (contract : CommandContract κ) (wire : Nat → Write) (roomId : String) (lastRoomSeq : Nat)
  (calls : List (SocketCall κ))

theorem Filed.start :
    Filed contract (RoomSocket.start roomId lastRoomSeq : RoomSocket κ).pending := by
  intro id command hget
  cases hget

theorem Filed.after :
    Filed contract (RoomSocket.after contract wire roomId lastRoomSeq calls).pending :=
  List.foldlRecOn (motive := fun s : RoomSocket κ => Filed contract s.pending) calls _
    (Filed.start contract roomId lastRoomSeq) fun _ h c _ => h.call c

/-- What a socket holds is what it has taken and what has not been settled since. -/
theorem pending_since (id : String) (command : κ) :
    (RoomSocket.after contract wire roomId lastRoomSeq calls).pending.get? id = some command ↔
      Since (RoomSocket.call contract wire) (Takes contract id command) (Settled id)
        (.start roomId lastRoomSeq) calls := by
  refine Since.iff_of_step (I := fun s : RoomSocket κ => Filed contract s.pending)
    (P := fun s : RoomSocket κ => s.pending.get? id = some command)
    (fun s c h => h.call c) (fun s c h => call_pending h c)
    (Filed.start contract roomId lastRoomSeq) ?_
  intro hget
  cases hget

end

/-! ## What a resumed socket is given -/

section
variable {contract : CommandContract κ} {wire : Nat → Write} {s : RoomSocket κ}

@[simp] theorem RoomSocket.protocolFailure_written :
    s.protocolFailure.written = s.written := by
  unfold protocolFailure
  split <;> rfl

theorem written_writes {socket : Nat} {commands : List κ} (hsocket : s.socket = some socket)
    (hready : s.resumeReady = true) (hgoes : ∀ k < commands.length, wire (s.looks + k) = .goes) :
    (commands.foldl (RoomSocket.write wire) s).written =
      s.written ++ commands.map fun command => (socket, command) := by
  induction commands generalizing s with
  | nil => simp
  | cons command commands ih =>
    have hwrite : s.write wire command =
        { s with looks := s.looks + 1, written := s.written ++ [(socket, command)] } := by
      unfold RoomSocket.write
      rw [hsocket]
      have hnow : wire s.looks = .goes := hgoes 0 (Nat.succ_pos _)
      simp [hready, hnow]
    rw [List.foldl_cons, hwrite, ih]
    · simp
    · exact hsocket
    · exact hready
    · intro k hk
      have hlater := hgoes (k + 1) (Nat.succ_lt_succ hk)
      rwa [← Nat.add_assoc, Nat.add_right_comm] at hlater

theorem Filed.ids (h : Filed contract s.pending) :
    s.pending.values.map contract.commandId = s.pending.keys := by
  unfold Dict.values Dict.keys
  rw [List.map_map]
  refine List.map_congr_left fun entry hentry => ?_
  exact (h entry.1 entry.2 (Dict.get?_eq_some.mpr hentry)).1

theorem Filed.mem_values (h : Filed contract s.pending) {command : κ} :
    command ∈ s.pending.values ↔ s.pending.get? (contract.commandId command) = some command := by
  rw [Dict.mem_values]
  constructor
  · rintro ⟨id, hget⟩
    rwa [(h id command hget).1]
  · exact fun hget => ⟨_, hget⟩

theorem resume_written (h : Filed contract s.pending) {socket : Nat} (hclosed : s.closed = false)
    (hsocket : s.socket = some socket)
    (hgoes : ∀ k < s.pending.size, wire (s.looks + k) = .goes) (thrown : Bool) :
    (s.message contract wire socket (some (.resumeComplete s.lastRoomSeq)) thrown).written =
      s.written ++ s.pending.values.map fun command => (socket, command) := by
  have hframe : (s.onFrame contract wire (.resumeComplete s.lastRoomSeq)).written =
      s.written ++ s.pending.values.map fun command => (socket, command) := by
    unfold RoomSocket.onFrame
    simp only [ne_eq, not_true_eq_false, if_false]
    rw [Filed.flush (s := { s with resumeReady := true }) h]
    refine written_writes (s := { s with resumeReady := true }) hsocket rfl fun k hk => hgoes k ?_
    rwa [Dict.values, List.length_map] at hk
  unfold RoomSocket.message
  rw [if_neg (by simp [hclosed, hsocket])]
  simp only
  split
  · rw [RoomSocket.protocolFailure_written, hframe]
  · exact hframe

end

/-- A socket that has resumed, and takes what it is given, is given every command once that was
taken and not settled since, and no other. -/
theorem resume_rewrites (contract : CommandContract κ) (wire : Nat → Write) (roomId : String)
    (lastRoomSeq : Nat) (calls : List (SocketCall κ)) {s : RoomSocket κ} {socket : Nat}
    (hs : s = .after contract wire roomId lastRoomSeq calls) (hclosed : s.closed = false)
    (hsocket : s.socket = some socket)
    (hgoes : ∀ k < s.pending.size, wire (s.looks + k) = .goes) (thrown : Bool) :
    ∃ commands : List κ,
      (s.message contract wire socket (some (.resumeComplete s.lastRoomSeq)) thrown).written =
        s.written ++ commands.map (fun command => (socket, command)) ∧
      (commands.map contract.commandId).Nodup ∧
      ∀ command, command ∈ commands ↔
        Since (RoomSocket.call contract wire) (Takes contract (contract.commandId command) command)
          (Settled (contract.commandId command)) (.start roomId lastRoomSeq) calls := by
  subst hs
  have hfiled := Filed.after contract wire roomId lastRoomSeq calls
  refine ⟨_, resume_written hfiled hclosed hsocket hgoes thrown, ?_, fun command => ?_⟩
  · rw [hfiled.ids]
    exact Dict.keys_nodup _
  · rw [hfiled.mem_values]
    exact pending_since contract wire roomId lastRoomSeq calls _ command

section Garden

structure GardenCommand where
  commandId : String
  text : String

def gardenContract : CommandContract GardenCommand where
  commandId := GardenCommand.commandId
  encode c := if c.text = "" then .error "INVALID_ROOM_COMMAND" else .ok (c.commandId ++ c.text)

def gardenCalls : List (SocketCall GardenCommand) :=
  [.connect, .send ⟨"soil", "rich"⟩, .send ⟨"sun", "late"⟩, .frame (.ack "soil"), .connect]

theorem resume_rewrites_garden : ∃ commands : List GardenCommand,
    ((RoomSocket.after gardenContract (fun _ => .goes) "garden" 0 gardenCalls).message
        gardenContract (fun _ => .goes) 1 (some (.resumeComplete 0)) false).written =
      commands.map (fun command => (1, command)) ∧
    (commands.map GardenCommand.commandId).Nodup ∧
    ∀ command, command ∈ commands ↔
      Since (RoomSocket.call gardenContract fun _ => .goes)
        (Takes gardenContract command.commandId command) (Settled command.commandId)
        (.start "garden" 0) gardenCalls :=
  resume_rewrites gardenContract (fun _ => .goes) "garden" 0 gardenCalls rfl rfl rfl
    (fun _ _ => rfl) false

end Garden

/-! ## The count of presence and typing -/

section
variable {contract : CommandContract κ} {wire : Nat → Write} {s t u : RoomSocket κ}

/-- Nothing is signalled, and the count stays as long as the socket does. -/
structure Quiet (s t : RoomSocket κ) : Prop where
  signals : t.signals = s.signals
  sockets : t.sockets = s.sockets
  socket : t.socket = none ∨ t.socket = s.socket ∧ t.clientSeq = s.clientSeq

theorem Quiet.refl (s : RoomSocket κ) : Quiet s s := ⟨rfl, rfl, .inr ⟨rfl, rfl⟩⟩

theorem Quiet.trans (h : Quiet s t) (h' : Quiet t u) : Quiet s u where
  signals := h'.signals.trans h.signals
  sockets := h'.sockets.trans h.sockets
  socket := by
    rcases h'.socket with hnone | ⟨hsocket, hseq⟩
    · exact .inl hnone
    · rcases h.socket with hnone | ⟨hsocket', hseq'⟩
      · exact .inl (hsocket.trans hnone)
      · exact .inr ⟨hsocket.trans hsocket', hseq.trans hseq'⟩

theorem quiet_onClose (code : Option Nat) (gated : Bool) : Quiet s (s.onClose code gated) := by
  unfold RoomSocket.onClose
  split
  · exact .refl s
  · exact ⟨rfl, rfl, .inl rfl⟩

theorem quiet_protocolFailure : Quiet s s.protocolFailure := by
  unfold RoomSocket.protocolFailure
  split
  · exact .refl s
  · exact ⟨rfl, rfl, .inl rfl⟩

theorem quiet_write (command : κ) : Quiet s (s.write wire command) := by
  unfold RoomSocket.write
  split
  · exact .refl s
  · split
    · have hlooked : Quiet s { s with looks := s.looks + 1 } := ⟨rfl, rfl, .inr ⟨rfl, rfl⟩⟩
      simp only
      split
      · exact hlooked
      · exact hlooked.trans (quiet_onClose none false)
      · exact ⟨rfl, rfl, .inr ⟨rfl, rfl⟩⟩
    · exact .refl s

theorem quiet_send {command : κ} (h : s.send contract wire command = .ok t) : Quiet s t := by
  unfold RoomSocket.send at h
  split at h
  · cases h
  · split at h
    · split at h
      · cases h
      · split at h
        · cases h
        · cases h
          exact quiet_write _
    · split at h
      · cases h
      · cases h
        have hfiled (pending : Dict String κ) : Quiet s { s with pending } :=
          ⟨rfl, rfl, .inr ⟨rfl, rfl⟩⟩
        exact (hfiled _).trans (quiet_write command)

theorem quiet_sends (commands : List κ) :
    Quiet s (commitAll (RoomSocket.send contract wire) s commands) :=
  commitAll_rel Quiet.refl (fun _ _ _ => Quiet.trans) (fun _ _ _ => quiet_send) s commands

theorem quiet_onFrame (frame : ServerFrame) : Quiet s (s.onFrame contract wire frame) := by
  cases frame with
  | event roomId roomSeq =>
    unfold RoomSocket.onFrame
    simp only
    split
    · exact .refl s
    · split
      · exact .refl s
      · exact ⟨rfl, rfl, .inr ⟨rfl, rfl⟩⟩
  | resumeComplete through =>
    unfold RoomSocket.onFrame
    simp only
    split
    · exact .refl s
    · have hready : Quiet s { s with resumeReady := true } := ⟨rfl, rfl, .inr ⟨rfl, rfl⟩⟩
      exact hready.trans (quiet_sends _)
  | ack commandId => exact ⟨rfl, rfl, .inr ⟨rfl, rfl⟩⟩
  | reject commandId retryable =>
    cases commandId with
    | none => exact .refl s
    | some commandId => cases retryable <;> exact ⟨rfl, rfl, .inr ⟨rfl, rfl⟩⟩
  | other => exact .refl s

theorem quiet_message (socket : Nat) (frame : Option ServerFrame) (thrown : Bool) :
    Quiet s (s.message contract wire socket frame thrown) := by
  unfold RoomSocket.message
  split
  · exact .refl s
  · cases frame with
    | none => exact quiet_protocolFailure
    | some frame =>
      simp only
      split
      · exact (quiet_onFrame frame).trans quiet_protocolFailure
      · exact quiet_onFrame frame

/-- Signals go to sockets that were made, and the count is at the last of the current one. -/
structure Counted (s : RoomSocket κ) : Prop where
  made : ∀ signal ∈ s.signals, signal.1 < s.sockets
  current : ∀ n, s.socket = some n → n < s.sockets ∧
    ∀ signal ∈ s.signals, signal.1 = n → signal.2.clientSeq ≤ s.clientSeq
  increasing : s.signals.Pairwise fun a b => a.1 = b.1 → a.2.clientSeq < b.2.clientSeq

theorem Counted.quiet (h : Counted s) (hq : Quiet s t) : Counted t where
  made := by
    rw [hq.signals, hq.sockets]
    exact h.made
  current := by
    intro n hn
    rcases hq.socket with hnone | ⟨hsocket, hseq⟩
    · rw [hnone] at hn
      cases hn
    · rw [hq.signals, hq.sockets, hseq]
      exact h.current n (hsocket.symm.trans hn)
  increasing := by
    rw [hq.signals]
    exact h.increasing

theorem Counted.connect (h : Counted s) : Counted s.connect where
  made := fun signal hsignal => Nat.lt_succ_of_lt (h.made signal hsignal)
  current := by
    rintro n hn
    cases hn
    refine ⟨Nat.lt_succ_self _, fun signal hsignal heq => ?_⟩
    exact absurd heq (Nat.ne_of_lt (h.made signal hsignal))
  increasing := h.increasing

theorem Counted.sendEphemeral (h : Counted s) (signal : Signal) :
    Counted (s.sendEphemeral wire signal) := by
  have hlooked : Counted { s with looks := s.looks + 1 } :=
    h.quiet ⟨rfl, rfl, .inr ⟨rfl, rfl⟩⟩
  unfold RoomSocket.sendEphemeral
  split
  · exact h
  · rename_i n hn
    obtain ⟨hmade, hlast⟩ := h.current n hn
    split
    · simp only
      split
      · exact hlooked
      · exact hlooked
      · refine ⟨fun other hother => ?_, fun m hm => ?_, ?_⟩
        · rcases List.mem_append.mp hother with hother | hother
          · exact h.made other hother
          · rw [List.mem_singleton.mp hother]
            exact hmade
        · cases hn.symm.trans hm
          refine ⟨hmade, fun other hother heq => ?_⟩
          rcases List.mem_append.mp hother with hother | hother
          · exact Nat.le_succ_of_le (hlast other hother heq)
          · cases List.mem_singleton.mp hother
            exact Nat.le_refl (s.clientSeq + 1)
        · refine List.pairwise_append.mpr ⟨h.increasing, List.pairwise_singleton _ _, ?_⟩
          intro a ha b hb heq
          rw [List.mem_singleton.mp hb] at heq ⊢
          exact Nat.lt_succ_of_le (hlast a ha heq)
    · exact h

theorem Counted.call (h : Counted s) (c : SocketCall κ) : Counted (s.call contract wire c) := by
  cases c with
  | send command => exact h.quiet (quiet_sends [command])
  | signal signal => exact h.sendEphemeral signal
  | frame frame => exact h.quiet (quiet_onFrame frame)
  | message socket frame thrown => exact h.quiet (quiet_message socket frame thrown)
  | connect => exact h.connect
  | lost socket code gated =>
    unfold RoomSocket.call
    simp only
    split
    · exact h.quiet (quiet_onClose code gated)
    · exact h
  | close | destroy => exact h.quiet ⟨rfl, rfl, .inl rfl⟩

end

/-- Of two signals that one socket was given, the later has the larger number. -/
theorem signals_increase (contract : CommandContract κ) (wire : Nat → Write) (roomId : String)
    (lastRoomSeq : Nat) (calls : List (SocketCall κ)) :
    (RoomSocket.after contract wire roomId lastRoomSeq calls).signals.Pairwise
      fun a b => a.1 = b.1 → a.2.clientSeq < b.2.clientSeq := by
  have hstart : Counted (RoomSocket.start roomId lastRoomSeq : RoomSocket κ) := by
    refine ⟨fun signal hsignal => ?_, fun n hn => ?_, List.Pairwise.nil⟩
    · cases hsignal
    · cases hn
  exact (List.foldlRecOn (motive := Counted) calls _ hstart fun _ h c _ => h.call c).increasing

end LearningOrbit.Realtime
