import LearningOrbit.Rooms.Effects

/-!
# The lifecycle of a room over every interleaving

The events of a room are a run of a small machine, and the status column is the
state it ends in. What the lifecycle promises is then read off the machine.
-/

namespace LearningOrbit.Rooms

/-- One transaction on the room, or one on the queue. -/
inductive Call
  | openRoom (roomId : String) (owner : Owner) (causationId : String) (ambient : Ambient)
  | ownerRetry (roomId : String) (owner : Owner) (causationId type : String)
  | closeIfDue (roomId : String) (ambient : Ambient)
  | closeIfDueForOwner (roomId : String) (owner : Owner) (ambient : Ambient)
  | simpleTransition (kind : Simple) (roomId : String) (owner : Owner) (causationId : String)
      (ambient : Ambient)
  | closeRoom (roomId : String) (owner : Owner) (causationId : String) (ambient : Ambient)
  | autoClose (assertion : Bool) (request : AutoCloseRequest) (ambient : Ambient)
  | add (attachments : AttachmentValidator) (principal : Principal) (command : MessageCommand)
      (session : Bool) (messageId : String) (ambient : Ambient)
  | revise (principal : Principal) (command : MessageCommand) (session : Bool) (ambient : Ambient)
  | retract (principal : Principal) (command : MessageCommand) (session : Bool) (ambient : Ambient)
  | queue (call : Jobs.Call) (other : foreign call = true)

def step (db : Database Payload) : Call → Except String (Database Payload)
  | .openRoom roomId owner causationId ambient =>
    (openRoom db roomId owner causationId ambient).map (·.2)
  | .ownerRetry roomId owner causationId type =>
    (ownerRetry db roomId owner causationId type).map (·.2)
  | .closeIfDue roomId ambient => (closeIfDue db roomId ambient).map (·.2)
  | .closeIfDueForOwner roomId owner ambient =>
    (closeIfDueForOwner db roomId owner ambient).map (·.2)
  | .simpleTransition kind roomId owner causationId ambient =>
    (simpleTransition kind db roomId owner causationId ambient).map (·.2)
  | .closeRoom roomId owner causationId ambient =>
    (closeRoom db roomId owner causationId ambient).map (·.2)
  | .autoClose assertion request ambient =>
    (handleAutoClose db assertion request ambient).map (·.2)
  | .add attachments principal command session messageId ambient =>
    (add attachments db principal command session messageId ambient).map (·.2)
  | .revise principal command session ambient =>
    (revise db principal command session ambient).map (·.2)
  | .retract principal command session ambient =>
    (retract db principal command session ambient).map (·.2)
  | .queue call _ => (Jobs.step db.queue call).map fun queue => { db with queue }

/-- The causation of a teacher's transition. -/
def Call.causationId? : Call → Option String
  | .openRoom _ _ causationId _ | .simpleTransition _ _ _ causationId _
  | .closeRoom _ _ causationId _ => some causationId
  | _ => none

/-- The message and revision of a command. -/
def Call.target? : Call → Option (String × Nat)
  | .add _ _ _ _ messageId _ => some (messageId, 0)
  | .revise _ command _ _ | .retract _ command _ _ => command.target?
  | _ => none

theorem step_effect {db db' : Database Payload} {call : Call} (hdb : Sound corePayloads db)
    (h : step db call = .ok db') : Effect call.causationId? call.target? db db' := by
  cases call with
  | queue call other =>
    obtain ⟨queue, hqueue, rfl⟩ := map_eq_ok.mp h
    exact (Effect.refl db).enqueue (.call call other hqueue)
  | openRoom roomId owner causationId ambient =>
    obtain ⟨⟨e, db₁⟩, hcall, rfl⟩ := map_eq_ok.mp h
    exact openRoom_effect hdb hcall
  | ownerRetry roomId owner causationId type =>
    obtain ⟨⟨e, db₁⟩, hcall, rfl⟩ := map_eq_ok.mp h
    have heq : db₁ = db := ownerRetry_eq hdb hcall
    exact heq ▸ .refl _
  | closeIfDue roomId ambient =>
    obtain ⟨⟨e, db₁⟩, hcall, rfl⟩ := map_eq_ok.mp h
    exact closeIfDue_effect hdb hcall
  | closeIfDueForOwner roomId owner ambient =>
    obtain ⟨⟨e, db₁⟩, hcall, rfl⟩ := map_eq_ok.mp h
    exact closeIfDueForOwner_effect hdb hcall
  | simpleTransition kind roomId owner causationId ambient =>
    obtain ⟨⟨e, db₁⟩, hcall, rfl⟩ := map_eq_ok.mp h
    exact simpleTransition_effect hdb hcall
  | closeRoom roomId owner causationId ambient =>
    obtain ⟨⟨e, db₁⟩, hcall, rfl⟩ := map_eq_ok.mp h
    exact closeRoom_effect hdb hcall
  | autoClose assertion request ambient =>
    obtain ⟨⟨e, db₁⟩, hcall, rfl⟩ := map_eq_ok.mp h
    exact handleAutoClose_effect hdb hcall
  | add attachments principal command session messageId ambient =>
    obtain ⟨⟨e, db₁⟩, hcall, rfl⟩ := map_eq_ok.mp h
    exact add_effect hdb hcall
  | revise principal command session ambient =>
    obtain ⟨⟨e, db₁⟩, hcall, rfl⟩ := map_eq_ok.mp h
    exact revise_effect hdb hcall
  | retract principal command session ambient =>
    obtain ⟨⟨e, db₁⟩, hcall, rfl⟩ := map_eq_ok.mp h
    exact retract_effect hdb hcall

theorem Effect.sound {causation : Option String} {target : Option (String × Nat)}
    {db db' : Database Payload} (h : Effect causation target db db') (hdb : Sound corePayloads db) :
    Sound corePayloads db' := by
  cases h with
  | quiet events outbox room same =>
    refine ⟨?_, ?_, ?_, ?_, ?_, ?_, ?_, ?_⟩
    · rw [room]
      exact hdb.room
    · rw [room]
      exact hdb.counter
    · rw [events, room]
      exact hdb.seqs
    · rw [events, room]
      exact hdb.rooms
    · rw [events]
      exact hdb.eventIds
    · rw [events]
      exact hdb.causations
    · rw [events]
      exact hdb.patterns
    · rw [events, outbox]
      exact hdb.outbox
  | manual _ _ grows => exact grows.sound
  | automatic _ grows => exact grows.sound
  | repeated _ _ _ _ _ sound => exact sound
  | message _ grows => exact grows.sound

section Machine

/-- The machine: which event may come in which status, and what comes out. -/
def move (status : RoomStatus) (e : Envelope Payload) : Option RoomStatus :=
  if e.type = "room.opened" then if status = .scheduled then some .open else none
  else if e.type = "room.paused" then if status = .open then some .paused else none
  else if e.type = "room.resumed" then if status = .paused then some .open else none
  else if e.type = "room.closed" then
    if status = .open || status = .paused then some .closed else none
  else if status = .open then some .open else none

/-- The status the lifecycle events of a history spell. -/
def statusOf (events : List (Envelope Payload)) : RoomStatus :=
  events.foldl (fun status e =>
    if e.type = "room.opened" || e.type = "room.resumed" then .open
    else if e.type = "room.paused" then .paused
    else if e.type = "room.closed" then .closed
    else status) .scheduled

/-- The events of the room are a run of the machine to its status. -/
def Recorded (db : Database Payload) : Prop :=
  db.events.foldlM move .scheduled = some db.room.status

variable {status status' : RoomStatus} {e : Envelope Payload} {events : List (Envelope Payload)}

theorem move_columns : move status e.columns = move status e := rfl

theorem move_manual {kind : Manual} (h : e.type = kind.type) (ha : kind.allowed status = true) :
    move status e = some kind.next := by
  cases kind <;> cases status <;> simp [Manual.allowed] at ha <;>
    simp [move, h, Manual.type, Manual.next]

theorem move_closed (h : e.type = "room.closed") (ha : status = .open ∨ status = .paused) :
    move status e = some .closed := by
  simp [move, h, ha]

theorem move_message {target : Option (String × Nat)} {db : Database Payload}
    (h : MessageEvent target db e) : move .open e = some .open := by
  cases h with
  | added messageId type => simp [move, type]
  | revised messageId prior type => simp [move, type]
  | retracted messageId prior type => simp [move, type]

/-- Nothing comes after the close. -/
theorem move_of_closed : move .closed e = none := by
  unfold move
  repeat' split
  all_goals simp_all

theorem run_split {before after : List (Envelope Payload)}
    (h : (before ++ e :: after).foldlM move status = some status') :
    ∃ s s', before.foldlM move status = some s ∧ move s e = some s' ∧
      after.foldlM move s' = some status' := by
  rw [List.foldlM_append] at h
  obtain ⟨s, hs, h⟩ := Option.bind_eq_some_iff.mp h
  rw [List.foldlM_cons] at h
  obtain ⟨s', hs', h⟩ := Option.bind_eq_some_iff.mp h
  exact ⟨s, s', hs, hs', h⟩

theorem run_of_closed (h : events.foldlM move .closed = some status') :
    events = [] ∧ status' = .closed := by
  cases events with
  | nil =>
    cases h
    exact ⟨rfl, rfl⟩
  | cons e events =>
    rw [List.foldlM_cons, move_of_closed] at h
    cases h

theorem closed_last {before after : List (Envelope Payload)}
    (h : (before ++ e :: after).foldlM move status = some status') (hc : e.type = "room.closed") :
    after = [] ∧ status' = .closed := by
  obtain ⟨s, s', -, hmove, hafter⟩ := run_split h
  have hs' : s' = .closed := by
    simp only [move, hc] at hmove
    simp only [String.reduceEq, ↓reduceIte] at hmove
    split at hmove
    · exact (Option.some.inj hmove).symm
    · cases hmove
  exact run_of_closed (hs' ▸ hafter)

theorem move_eq (h : move status e = some status') : status' =
    if e.type = "room.opened" || e.type = "room.resumed" then .open
    else if e.type = "room.paused" then .paused
    else if e.type = "room.closed" then .closed
    else status := by
  unfold move at h
  repeat' split at h
  all_goals simp_all

theorem run_status (h : events.foldlM move status = some status') :
    status' = events.foldl (fun status e =>
      if e.type = "room.opened" || e.type = "room.resumed" then .open
      else if e.type = "room.paused" then .paused
      else if e.type = "room.closed" then .closed
      else status) status := by
  induction events generalizing status with
  | nil =>
    cases h
    rfl
  | cons e events ih =>
    rw [List.foldlM_cons] at h
    obtain ⟨s, hs, h⟩ := Option.bind_eq_some_iff.mp h
    rw [List.foldl_cons, ← move_eq hs]
    exact ih h

/-- Once opened, a room is not opened again. -/
theorem run_opened (h : events.foldlM move status = some status') (hs : status ≠ .scheduled) :
    ∀ e ∈ events, e.type ≠ "room.opened" := by
  induction events generalizing status with
  | nil => simp
  | cons e events ih =>
    rw [List.foldlM_cons] at h
    obtain ⟨s, hmove, h⟩ := Option.bind_eq_some_iff.mp h
    have hne : e.type ≠ "room.opened" := by
      intro ho
      simp [move, ho, hs] at hmove
    have hs' : s ≠ .scheduled := by
      rintro rfl
      have := move_eq hmove
      split at this
      · cases this
      · split at this
        · cases this
        · split at this
          · cases this
          · exact hs this.symm
    intro a ha
    rcases List.mem_cons.mp ha with rfl | ha
    · exact hne
    · exact ih h hs' a ha

/-- The first event of a room opens it. -/
theorem run_first (h : (e :: events).foldlM move .scheduled = some status') :
    e.type = "room.opened" ∧ events.foldlM move .open = some status' := by
  rw [List.foldlM_cons] at h
  obtain ⟨s, hmove, h⟩ := Option.bind_eq_some_iff.mp h
  unfold move at hmove
  split at hmove
  · rename_i ho
    cases hmove
    exact ⟨ho, h⟩
  · exfalso
    repeat' split at hmove
    all_goals simp_all

/-- `a`, `b`, `a`, … -/
def Alternate (a b : String) : List String → Prop
  | [] => True
  | x :: rest => x = a ∧ Alternate b a rest

/-- The pauses and resumes of a history. -/
def pauses (events : List (Envelope Payload)) : List String :=
  (events.map (·.type)).filter fun type => type = "room.paused" || type = "room.resumed"

theorem run_alternate (h : events.foldlM move status = some status') :
    (status = .open → Alternate "room.paused" "room.resumed" (pauses events)) ∧
      (status = .paused → Alternate "room.resumed" "room.paused" (pauses events)) := by
  induction events generalizing status with
  | nil => exact ⟨fun _ => trivial, fun _ => trivial⟩
  | cons e events ih =>
    rw [List.foldlM_cons] at h
    obtain ⟨s, hmove, h⟩ := Option.bind_eq_some_iff.mp h
    obtain ⟨ho, hp⟩ := ih h
    have hclosed : s = .closed → pauses events = [] := by
      rintro rfl
      rw [(run_of_closed h).1]
      rfl
    unfold move at hmove
    constructor
    · rintro rfl
      by_cases h₁ : e.type = "room.paused"
      · have hs : s = .paused := by simpa [h₁, eq_comm] using hmove
        have hl : pauses (e :: events) = "room.paused" :: pauses events := by
          simp [pauses, h₁]
        rw [hl]
        exact ⟨rfl, hp hs⟩
      · by_cases h₂ : e.type = "room.resumed"
        · simp [h₂] at hmove
        · have hl : pauses (e :: events) = pauses events := by simp [pauses, h₁, h₂]
          rw [hl]
          by_cases h₃ : e.type = "room.opened"
          · simp [h₃] at hmove
          · by_cases h₄ : e.type = "room.closed"
            · have hs : s = .closed := by simpa [h₄, eq_comm] using hmove
              rw [hclosed hs]
              trivial
            · have hs : s = .open := by simpa [h₁, h₂, h₃, h₄, eq_comm] using hmove
              exact ho hs
    · rintro rfl
      by_cases h₁ : e.type = "room.resumed"
      · have hs : s = .open := by simpa [h₁, eq_comm] using hmove
        have hl : pauses (e :: events) = "room.resumed" :: pauses events := by
          simp [pauses, h₁]
        rw [hl]
        exact ⟨rfl, ho hs⟩
      · by_cases h₂ : e.type = "room.closed"
        · have hs : s = .closed := by simpa [h₂, eq_comm] using hmove
          have hl : pauses (e :: events) = pauses events := by simp [pauses, h₂]
          rw [hl, hclosed hs]
          trivial
        · exfalso
          repeat' split at hmove
          all_goals simp_all

end Machine

section Runs

variable {db db' db₀ : Database Payload} {causation : Option String}
  {target : Option (String × Nat)} {e : Envelope Payload}

theorem SameRoom.trans (h : SameRoom db₀ db) (h' : SameRoom db db') : SameRoom db₀ db' :=
  ⟨h'.roomId.trans h.roomId, h'.teacherId.trans h.teacherId, h'.members.trans h.members,
    h'.deletion.trans h.deletion⟩

/-- A close under a stored causation needs a closed room. -/
theorem Recorded.closed (h : Recorded db) (he : e ∈ db.events) (hc : e.type = "room.closed") :
    db.room.status = .closed := by
  obtain ⟨before, after, hsplit⟩ := List.append_of_mem he
  unfold Recorded at h
  rw [hsplit] at h
  exact (closed_last h hc).2

theorem Recorded.grows (h : Recorded db) (hg : Grows db db' e)
    (hm : move db.room.status e = some db'.room.status) : Recorded db' := by
  unfold Recorded at h ⊢
  rw [hg.events, List.foldlM_append, h]
  change ([e.columns].foldlM move db.room.status) = _
  rw [List.foldlM_cons, move_columns, hm]
  rfl

/-- What every transaction keeps of the room it began with. -/
structure Followed (db₀ db : Database Payload) : Prop where
  sound : Sound corePayloads db
  recorded : Recorded db
  same : SameRoom db₀ db

theorem Followed.effect (h : Followed db₀ db) (heffect : Effect causation target db db') :
    Followed db₀ db' := by
  have hsound := heffect.sound h.sound
  cases heffect with
  | quiet events outbox room same =>
    refine ⟨hsound, ?_, h.same.trans same⟩
    have hr := h.recorded
    unfold Recorded at hr ⊢
    rw [events, room]
    exact hr
  | manual kind e grows cause untargeted event before after =>
    refine ⟨hsound, h.recorded.grows grows ?_, h.same.trans grows.same⟩
    rw [move_manual event.type before, after]
  | automatic e grows untargeted type actorKind payload before after =>
    refine ⟨hsound, h.recorded.grows grows ?_, h.same.trans grows.same⟩
    rw [move_closed type before, after]
  | repeated e stored type before events sound =>
    have hclosed := h.recorded.closed stored type
    rw [hclosed] at before
    rcases before with h | h <;> cases h
  | message e grows event before after =>
    refine ⟨hsound, h.recorded.grows grows ?_, h.same.trans grows.same⟩
    rw [before, move_message event, after]

/-- A room as it is created. -/
structure Unopened (db : Database Payload) : Prop where
  new : New db
  status : db.room.status = .scheduled
  pattern : uuidPattern db.room.roomId = true
  teacher : Uuid.Stored db.room.teacherId
  deletion : db.deletionActive = false

theorem Unopened.followed (h : Unopened db) : Followed db db := by
  refine ⟨(h.new.intact : Intact corePayloads db).sound, ?_, ⟨rfl, rfl, rfl, rfl⟩⟩
  unfold Recorded
  rw [h.new.events, h.status]
  rfl

theorem commitAll_followed (h₀ : Unopened db₀) (calls : List Call) :
    Followed db₀ (commitAll step db₀ calls) :=
  commitAll_invariant (fun _ _ _ h hstep => h.effect (step_effect h.sound hstep)) h₀.followed calls

/-- A teacher's transition is stored as it can be found again. -/
def Repeatable (db : Database Payload) : Prop :=
  ∀ o ∈ db.outbox, ∀ kind : Manual, o.envelope.type = kind.type → o.envelope.actorKind = .human →
    ManualEvent kind db o.envelope ∧ o.envelope.columns = o.envelope

theorem ManualEvent.same {kind : Manual} (h : ManualEvent kind db e) (hs : SameRoom db db') :
    ManualEvent kind db' e :=
  { h with actorId := h.actorId.trans hs.teacherId.symm }

theorem Repeatable.grows (h : Repeatable db) (hg : Grows db db' e)
    (he : ∀ kind : Manual, e.type = kind.type → e.actorKind = .human →
      ManualEvent kind db e ∧ e.columns = e) : Repeatable db' := by
  intro o ho kind htype hhuman
  rw [hg.outbox] at ho
  rcases List.mem_append.mp ho with ho | ho
  · obtain ⟨hevent, hcol⟩ := h o ho kind htype hhuman
    exact ⟨hevent.same hg.same, hcol⟩
  · rw [List.mem_singleton.mp ho] at htype hhuman ⊢
    obtain ⟨hevent, hcol⟩ := he kind htype hhuman
    exact ⟨hevent.same hg.same, hcol⟩

theorem Manual.type_injective {kind kind' : Manual} (h : kind.type = kind'.type) :
    kind = kind' := by
  cases kind <;> cases kind' <;> first | rfl | simp [Manual.type] at h

theorem MessageEvent.type_ne {kind : Manual} (h : MessageEvent target db e) :
    e.type ≠ kind.type := by
  cases h with
  | added messageId type => rw [type]; cases kind <;> decide
  | revised messageId prior type => rw [type]; cases kind <;> decide
  | retracted messageId prior type => rw [type]; cases kind <;> decide

/-- A causation in small letters keeps a transition repeatable. -/
theorem Repeatable.effect (h : Repeatable db) (hdb : Sound corePayloads db)
    (hteacher : Uuid.Stored db.room.teacherId) (hc : ∀ c, causation = some c → column c = c)
    (hrecorded : Recorded db) (heffect : Effect causation target db db') : Repeatable db' := by
  cases heffect with
  | quiet events outbox room same =>
    intro o ho kind htype hhuman
    rw [outbox] at ho
    obtain ⟨hevent, hcol⟩ := h o ho kind htype hhuman
    exact ⟨hevent.same same, hcol⟩
  | manual kind e grows cause untargeted event before after =>
    refine h.grows grows fun kind' htype _ => ?_
    have hkind : kind' = kind := Manual.type_injective (htype.symm.trans event.type)
    refine ⟨hkind ▸ event, ?_⟩
    have hroom : column e.roomId = e.roomId := by
      rw [grows.roomId]
      exact column_of_stored hdb.room
    have hactor : column e.actorId = e.actorId := by
      rw [event.actorId]
      exact column_of_stored hteacher
    unfold Envelope.columns
    rw [column_of_stored grows.eventId, hroom, hactor, hc _ cause,
      column_of_stored event.correlationId]
  | automatic e grows untargeted type actorKind payload before after =>
    refine h.grows grows fun kind htype hhuman => ?_
    rw [actorKind] at hhuman
    cases hhuman
  | repeated e stored type before events sound =>
    have hclosed := hrecorded.closed stored type
    rw [hclosed] at before
    rcases before with h | h <;> cases h
  | message e grows event before after =>
    exact h.grows grows fun kind htype _ => absurd htype event.type_ne

/-- A stored transition of the owner is what the lookup returns. -/
theorem existingManualRetry_stored (kind : Manual) {t : Tx Payload} (hdb : Sound corePayloads t.db)
    (hr : Repeatable t.db) (he : e ∈ t.db.events) (htype : e.type = kind.type)
    (hhuman : e.actorKind = .human) :
    existingManualRetry t e.causationId kind.type t.db.room.roomId t.db.room.teacherId =
      .ok (some e) := by
  obtain ⟨o, hfilter, hm⟩ := hdb.mirrored he
  have ho : o ∈ t.db.outbox :=
    List.mem_of_mem_filter (hfilter ▸ List.mem_singleton_self o : o ∈ t.db.outbox.filter _)
  have hstored : ∀ o, Mirrors corePayloads e o →
      o.envelope.type = kind.type ∧ o.envelope.actorKind = .human := by
    intro o hm
    rw [← hm.columns] at htype hhuman
    exact ⟨htype, hhuman⟩
  obtain ⟨hevent, hcol⟩ := hr o ho kind (hstored o hm).1 (hstored o hm).2
  have henv : o.envelope = e := hcol.symm.trans hm.columns
  rw [henv] at hevent hcol
  have hfind : findOneByCausation corePayloads t.db e.causationId = .ok (some e) :=
    hdb.find he (fun o ho hm => (hr o ho kind (hstored o hm).1 (hstored o hm).2).2)
      (congrArg Envelope.causationId hcol) (hdb.patterns e he)
  have hretry : assertManualRetry e kind.type t.db.room.roomId t.db.room.teacherId = .ok e := by
    unfold assertManualRetry
    rw [if_neg]
    simp [hdb.rooms e he, hevent.type, hevent.actorId, hevent.actorKind, hevent.actorRole,
      hevent.revision, hevent.operation]
  unfold existingManualRetry
  simp only [bind, Except.bind, hfind, hretry, Except.map]

theorem beginRoom_of {db : Database Payload} (hdb : Sound corePayloads db)
    (hp : uuidPattern db.room.roomId = true) (hd : db.deletionActive = false) :
    beginRoom db db.room.roomId = .ok ⟨db.room, db, db.room.nextRoomSeq⟩ := by
  have hcol := column_of_stored hdb.room
  have hseq := hdb.counter
  unfold beginRoom
  rw [if_neg (by simp [hp]), if_neg (by simp [hcol]), if_neg (by simp [hp]), if_neg (by simp [hd]),
    if_neg (by omega)]

theorem requireOwner_of {owner : Owner} {t : Tx Payload}
    (hteacher : owner.teacherId = t.room.teacherId) (hsession : owner.session = true) :
    requireOwner owner t = .ok () := by
  unfold requireOwner
  rw [if_neg (by simp [hteacher]), if_neg (by simp [hsession])]

variable {owner : Owner}

theorem ownerRetry_stored {kind : Manual} (hdb : Sound corePayloads db) (hr : Repeatable db)
    (hp : uuidPattern db.room.roomId = true) (hd : db.deletionActive = false)
    (howner : owner.teacherId = db.room.teacherId) (hsession : owner.session = true)
    (he : e ∈ db.events) (htype : e.type = kind.type) (hhuman : e.actorKind = .human) :
    ownerRetry db db.room.roomId owner e.causationId kind.type = .ok (some e, db) := by
  have hretry := existingManualRetry_stored kind (t := ⟨db.room, db, db.room.nextRoomSeq⟩) hdb hr he
    htype hhuman
  have hreq := requireOwner_of (t := ⟨db.room, db, db.room.nextRoomSeq⟩) howner hsession
  unfold ownerRetry transact
  simp only [bind, Except.bind, beginRoom_of hdb hp hd, hreq, howner, hretry]
  rfl

theorem openRoom_stored {ambient : Ambient} (hdb : Sound corePayloads db) (hr : Repeatable db)
    (hp : uuidPattern db.room.roomId = true) (hd : db.deletionActive = false)
    (howner : owner.teacherId = db.room.teacherId) (hsession : owner.session = true)
    (he : e ∈ db.events) (htype : e.type = "room.opened") (hhuman : e.actorKind = .human) :
    openRoom db db.room.roomId owner e.causationId ambient = .ok (e, db) := by
  have hretry : existingManualRetry ⟨db.room, db, db.room.nextRoomSeq⟩ e.causationId "room.opened"
      db.room.roomId db.room.teacherId = .ok (some e) :=
    existingManualRetry_stored .opened (t := ⟨db.room, db, db.room.nextRoomSeq⟩) hdb hr
      he htype hhuman
  have hreq := requireOwner_of (t := ⟨db.room, db, db.room.nextRoomSeq⟩) howner hsession
  unfold openRoom transact
  simp only [bind, Except.bind, beginRoom_of hdb hp hd, hreq, howner, hretry]
  rfl

/-- The three steps end with the first. -/
theorem inThreeSteps_stored (kind : Manual) {ambient : Ambient}
    {transition : Database Payload → Except String (Envelope Payload × Database Payload)}
    {between between' : Database Payload → Database Payload} (hdb : Sound corePayloads db)
    (hr : Repeatable db) (hp : uuidPattern db.room.roomId = true)
    (hd : db.deletionActive = false) (howner : owner.teacherId = db.room.teacherId)
    (hsession : owner.session = true) (he : e ∈ db.events) (htype : e.type = kind.type)
    (hhuman : e.actorKind = .human) :
    inThreeSteps kind.type db.room.roomId owner e.causationId ambient transition between between'
      db = (.ok e, db) := by
  unfold inThreeSteps
  rw [ownerRetry_stored hdb hr hp hd howner hsession he htype hhuman]

theorem commitAll_repeatable (h₀ : Unopened db₀) (calls : List Call)
    (hcalls : ∀ call ∈ calls, ∀ c, call.causationId? = some c → column c = c) :
    Repeatable (commitAll step db₀ calls) := by
  have hstart : Followed db₀ db₀ ∧ Repeatable db₀ := by
    refine ⟨h₀.followed, fun o ho => ?_⟩
    rw [h₀.new.outbox] at ho
    cases ho
  refine (commitAll_invariant_of_mem (P := fun db => Followed db₀ db ∧ Repeatable db)
    (fun db call db' hmem h hstep => ?_) hstart).2
  obtain ⟨hf, hr⟩ := h
  have heffect := step_effect hf.sound hstep
  have hteacher : Uuid.Stored db.room.teacherId := by
    rw [hf.same.teacherId]
    exact h₀.teacher
  exact ⟨hf.effect heffect, hr.effect hf.sound hteacher (hcalls call hmem) hf.recorded heffect⟩

theorem Recorded.opened_once (h : Recorded db) :
    (db.events.filter (·.type = "room.opened")).length ≤ 1 := by
  unfold Recorded at h
  cases hevents : db.events with
  | nil => simp
  | cons first rest =>
    rw [hevents] at h
    obtain ⟨hfirst, hrest⟩ := run_first h
    have hnone : rest.filter (·.type = "room.opened") = [] := by
      rw [List.filter_eq_nil_iff]
      intro e he
      simpa using run_opened hrest (by decide) e he
    rw [List.filter_cons_of_pos (by simpa using hfirst), hnone]
    exact Nat.le_refl _

theorem Recorded.alternate (h : Recorded db) :
    Alternate "room.paused" "room.resumed" (pauses db.events) := by
  unfold Recorded at h
  cases hevents : db.events with
  | nil => trivial
  | cons first rest =>
    rw [hevents] at h
    obtain ⟨hfirst, hrest⟩ := run_first h
    have hl : pauses (first :: rest) = pauses rest := by simp [pauses, hfirst]
    rw [hl]
    exact (run_alternate hrest).1 rfl

theorem Sound.sorted (h : Sound corePayloads db) :
    db.events.Pairwise fun a b => a.roomSeq < b.roomSeq := by
  have hs : (db.events.map (·.roomSeq)).Pairwise (· < ·) := by
    rw [h.seqs]
    exact List.pairwise_lt_range' ..
  exact List.pairwise_map.mp hs

theorem Followed.opened_first (h : Followed db₀ db) (he : e ∈ db.events) :
    ∃ o ∈ db.events, o.type = "room.opened" ∧ o.roomSeq ≤ e.roomSeq := by
  have hsorted := h.sound.sorted
  have hr := h.recorded
  unfold Recorded at hr
  cases hevents : db.events with
  | nil =>
    rw [hevents] at he
    cases he
  | cons first rest =>
    rw [hevents] at he hsorted hr
    refine ⟨first, List.mem_cons_self .., (run_first hr).1, ?_⟩
    rcases List.mem_cons.mp he with rfl | he
    · exact Nat.le_refl _
    · exact Nat.le_of_lt ((List.pairwise_cons.mp hsorted).1 e he)

/-- The close is the last event. -/
theorem Followed.closed_last (h : Followed db₀ db) {c : Envelope Payload} (hc : c ∈ db.events)
    (htype : c.type = "room.closed") : ∃ before, db.events = before ++ [c] := by
  have hr := h.recorded
  unfold Recorded at hr
  obtain ⟨before, after, hsplit⟩ := List.append_of_mem hc
  rw [hsplit] at hr
  rw [(Rooms.closed_last hr htype).1] at hsplit
  exact ⟨before, hsplit⟩

theorem Followed.closed_once (h : Followed db₀ db) :
    (db.events.filter (·.type = "room.closed")).length ≤ 1 := by
  cases hl : db.events.filter (·.type = "room.closed") with
  | nil => simp
  | cons c rest =>
    have hc : c ∈ db.events.filter (·.type = "room.closed") := hl ▸ List.mem_cons_self ..
    obtain ⟨hmem, htype⟩ := List.mem_filter.mp hc
    obtain ⟨before, hsplit⟩ := h.closed_last hmem (by simpa using htype)
    have hn : (db.events.map (·.eventId)).Nodup := h.sound.eventIds
    have hbefore : before.filter (·.type = "room.closed") = [] := by
      rw [List.filter_eq_nil_iff]
      intro b hb hclosed
      have hbmem : b ∈ db.events := hsplit ▸ List.mem_append_left _ hb
      obtain ⟨before', hsplit'⟩ := h.closed_last hbmem (by simpa using hclosed)
      have hlast : b = c := by
        have := hsplit.symm.trans hsplit'
        simpa using (List.append_inj' this rfl).2.symm
      rw [hsplit, List.map_append, List.nodup_append] at hn
      exact hn.2.2 c.eventId (hlast ▸ List.mem_map_of_mem hb) c.eventId (by simp) rfl
    rw [← hl, hsplit, List.filter_append, hbefore]
    exact List.length_filter_le ..

theorem Followed.closed_max (h : Followed db₀ db) {c : Envelope Payload} (hc : c ∈ db.events)
    (htype : c.type = "room.closed") (he : e ∈ db.events) : e.roomSeq ≤ c.roomSeq := by
  obtain ⟨before, hsplit⟩ := h.closed_last hc htype
  have hsorted := h.sound.sorted
  rw [hsplit] at he hsorted
  rcases List.mem_append.mp he with he | he
  · exact Nat.le_of_lt ((List.pairwise_append.mp hsorted).2.2 e he c (by simp))
  · exact Nat.le_of_eq (congrArg Envelope.roomSeq (List.mem_singleton.mp he))

/-- Every interleaving of the transactions, when the causations of the transitions are spelled in
small letters. The status, the order and the finality of the events do not need that; the retry
does. -/
theorem lifecycle_runs (h₀ : Unopened db₀) (calls : List Call)
    (hcalls : ∀ call ∈ calls, ∀ c, call.causationId? = some c → column c = c)
    (hdb : db = commitAll step db₀ calls) :
    db.room.status = statusOf db.events ∧
    (db.events.filter (·.type = "room.opened")).length ≤ 1 ∧
    (db.events.filter (·.type = "room.closed")).length ≤ 1 ∧
    Alternate "room.paused" "room.resumed" (pauses db.events) ∧
    (∀ e ∈ db.events, ∃ o ∈ db.events, o.type = "room.opened" ∧ o.roomSeq ≤ e.roomSeq) ∧
    (∀ c ∈ db.events, c.type = "room.closed" → ∀ e ∈ db.events, e.roomSeq ≤ c.roomSeq) ∧
    -- the same call again
    (∀ e ∈ db.events, e.actorKind = .human → ∀ owner ambient between between',
      owner.teacherId = db.room.teacherId → owner.session = true →
      (e.type = "room.opened" →
        openRoom db db.room.roomId owner e.causationId ambient = .ok (e, db)) ∧
      (e.type = "room.paused" →
        pause db.room.roomId owner e.causationId ambient between between' db = (.ok e, db)) ∧
      (e.type = "room.resumed" →
        resume db.room.roomId owner e.causationId ambient between between' db = (.ok e, db)) ∧
      (e.type = "room.closed" →
        close db.room.roomId owner e.causationId ambient between between' db = (.ok e, db))) := by
  have hf := commitAll_followed h₀ calls
  have hr := commitAll_repeatable h₀ calls hcalls
  rw [← hdb] at hf hr
  have hp : uuidPattern db.room.roomId = true := by
    rw [hf.same.roomId]
    exact h₀.pattern
  have hd : db.deletionActive = false := hf.same.deletion.trans h₀.deletion
  refine ⟨run_status hf.recorded, hf.recorded.opened_once, hf.closed_once, hf.recorded.alternate,
    fun e he => hf.opened_first he, fun c hc htype e he => hf.closed_max hc htype he, ?_⟩
  intro e he hhuman owner ambient between between' howner hsession
  refine ⟨fun htype => ?_, fun htype => ?_, fun htype => ?_, fun htype => ?_⟩
  · exact openRoom_stored hf.sound hr hp hd howner hsession he htype hhuman
  · exact inThreeSteps_stored .paused hf.sound hr hp hd howner hsession he htype hhuman
  · exact inThreeSteps_stored .resumed hf.sound hr hp hd howner hsession he htype hhuman
  · exact inThreeSteps_stored .closed hf.sound hr hp hd howner hsession he htype hhuman

end Runs

/-- The quiet room before it opens. -/
def scheduledRoom : Database Payload :=
  { quietRoom with room := { quietRoom.room with status := .scheduled, startsAt := none } }

theorem scheduledRoom_unopened : Unopened scheduledRoom := by
  refine ⟨⟨?_, rfl, rfl, rfl, ?_⟩, rfl, ?_, ?_, rfl⟩
  · exact quietRoom_new.room
  · exact quietRoom_new.jobs
  · decide +kernel
  · decide +kernel

def firstAmbient : Ambient where
  now := 1000000
  clock := some 1000
  correlationId := "66666666-6666-4666-8666-666666666666"
  autoCloseJobId := "bbbbbbbb-bbbb-4bbb-8bbb-bbbbbbbbbbbb"
  drawn := helloDrawn
  stored := by decide +kernel

def roomOwner : Owner := ⟨"22222222-2222-4222-8222-222222222222", true⟩

theorem lifecycle_runs_opened : (commitAll step scheduledRoom
    [.openRoom "11111111-1111-4111-8111-111111111111" roomOwner
      "aaaaaaaa-aaaa-4aaa-8aaa-aaaaaaaaaaaa" firstAmbient]).room.status =
    statusOf (commitAll step scheduledRoom
      [.openRoom "11111111-1111-4111-8111-111111111111" roomOwner
        "aaaaaaaa-aaaa-4aaa-8aaa-aaaaaaaaaaaa" firstAmbient]).events := by
  refine (lifecycle_runs scheduledRoom_unopened _ ?_ rfl).1
  intro call hcall c hc
  rw [List.mem_singleton.mp hcall] at hc
  cases hc
  decide +kernel

/-- A room that was opened under a causation in capital letters cannot be asked again. -/
theorem capital_open_refused : ∃ e db, openRoom scheduledRoom
      "11111111-1111-4111-8111-111111111111" roomOwner "AAAAAAAA-AAAA-4AAA-8AAA-AAAAAAAAAAAA"
      firstAmbient = .ok (e, db) ∧
    openRoom db "11111111-1111-4111-8111-111111111111" roomOwner
      "AAAAAAAA-AAAA-4AAA-8AAA-AAAAAAAAAAAA" firstAmbient = .error "INVALID_STORED_ROOM_EVENT" := by
  have hrun : (openRoom scheduledRoom "11111111-1111-4111-8111-111111111111" roomOwner
      "AAAAAAAA-AAAA-4AAA-8AAA-AAAAAAAAAAAA" firstAmbient).toOption.any (fun opened =>
        (openRoom opened.2 "11111111-1111-4111-8111-111111111111" roomOwner
          "AAAAAAAA-AAAA-4AAA-8AAA-AAAAAAAAAAAA" firstAmbient).map (fun _ => ()) =
            .error "INVALID_STORED_ROOM_EVENT") = true := by
    decide +kernel
  obtain ⟨opened, hopened, hrun⟩ := (Option.any_eq_true ..).mp hrun
  exact ⟨opened.1, opened.2, toOption_eq_some hopened,
    map_eq_error.mp (of_decide_eq_true hrun)⟩

end LearningOrbit.Rooms
