import LearningOrbit.Rooms.LedgerInvariant
import LearningOrbit.Rooms.Messages
import Mathlib.Logic.Relation

/-!
# What a transaction on a room can do

Every transaction of the services leaves the ledger as it is or appends one
event, and the status moves with that event. `Effect` says this once; the
lifecycle and the messages are then about `Effect` alone.
-/

namespace LearningOrbit.Rooms

open Jobs (Queue)

/-- The transitions a teacher asks for. -/
inductive Manual
  | opened
  | paused
  | resumed
  | closed
  deriving DecidableEq

def Manual.type : Manual → String
  | .opened => "room.opened"
  | .paused => "room.paused"
  | .resumed => "room.resumed"
  | .closed => "room.closed"

def Manual.allowed : Manual → RoomStatus → Bool
  | .opened, .scheduled => true
  | .paused, .open => true
  | .resumed, .paused => true
  | .closed, .open | .closed, .paused => true
  | _, _ => false

def Manual.next : Manual → RoomStatus
  | .opened | .resumed => .open
  | .paused => .paused
  | .closed => .closed

/-- The columns of the room that no transaction changes. -/
structure SameRoom (db db' : Database Payload) : Prop where
  roomId : db'.room.roomId = db.room.roomId
  teacherId : db'.room.teacherId = db.room.teacherId
  members : db'.members = db.members
  deletion : db'.deletionActive = db.deletionActive

/-- Other parts of the server enqueue neither automatic closes nor under the keys of the analytics
feed. -/
def foreign : Jobs.Call → Bool
  | .enqueue job =>
    job.jobType ≠ "room.auto-close.v1"
      && job.dedupeKey.toList.take 21 ≠ "analytics.consume.v1:".toList
  | _ => true

/-- One statement of a transaction on the queue. -/
inductive QueueStep (db : Database Payload) (q q' : Queue) : Prop
  | consume (e : Envelope Payload) (jobId : String) (now : Int) (roomId : e.roomId = db.room.roomId)
      (seq : e.roomSeq = db.room.nextRoomSeq)
      (h : Jobs.insertJob q (consumeJob e jobId now) = .ok q')
  | autoClose (roomId : String) (e : Envelope Payload) (closesAt : Int) (jobId : String) (now : Int)
      (opening : db.room.status = .scheduled)
      (h : Jobs.insertJob q (autoCloseJob roomId e closesAt jobId now) = .ok q')
  | call (call : Jobs.Call) (other : foreign call = true) (h : Jobs.step q call = .ok q')

/-- What a transaction does to the queue. -/
def QueueRun (db : Database Payload) (q : Queue) : Prop :=
  Relation.ReflTransGen (QueueStep db) db.queue q

/-- One event more, in both tables. -/
structure Grows (db db' : Database Payload) (e : Envelope Payload) : Prop where
  events : db'.events = db.events ++ [e.columns]
  outbox : db'.outbox = db.outbox ++ [⟨column e.eventId, column e.roomId, e.roomSeq, e⟩]
  same : SameRoom db db'
  eventId : Uuid.Stored e.eventId
  roomId : e.roomId = db.room.roomId
  fresh : column e.causationId ∉ db.events.map (·.causationId)
  seq : e.roomSeq = db.room.nextRoomSeq
  sound : Sound corePayloads db'
  queue : QueueRun db db'.queue

/-- A teacher's transition. -/
structure ManualEvent (kind : Manual) (db : Database Payload) (e : Envelope Payload) : Prop where
  type : e.type = kind.type
  actorId : e.actorId = db.room.teacherId
  actorKind : e.actorKind = .human
  actorRole : e.actorRole = .teacher
  revision : e.revision = 1
  operation : e.operation = .add
  correlationId : Uuid.Stored e.correlationId
  payload : e.payload.messageId? = none

/-- The message a reply names stands. -/
def Answers (db : Database Payload) (e : Envelope Payload) : Prop :=
  ∀ replyTo, e.payload.replyTo? = some replyTo →
    ∃ target, latest (messageEvents db.events replyTo) = some target ∧ target.operation ≠ .retract

/-- The message and the revision a command is about. -/
def MessageCommand.target? (command : MessageCommand) : Option (String × Nat) :=
  match command.baseRevision with
  | some revision =>
    if 1 ≤ revision then some (readMessageId command.messageId, revision) else none
  | none => none

/-- What a command with this target appends; a new message has no revision yet. -/
inductive MessageEvent (target : Option (String × Nat)) (db : Database Payload)
    (e : Envelope Payload) : Prop
  | added (messageId : String) (type : e.type = "message.added") (operation : e.operation = .add)
      (revision : e.revision = 1) (names : e.payload.messageId? = some messageId)
      (based : target = some (messageId, 0)) (answers : Answers db e)
  | revised (messageId : String) (prior : Envelope Payload) (type : e.type = "message.revised")
      (operation : e.operation = .revise) (names : e.payload.messageId? = some messageId)
      (found : latest (messageEvents db.events messageId) = some prior)
      (stands : prior.operation ≠ .retract) (based : target = some (messageId, prior.revision))
      (revision : e.revision = prior.revision + 1)
      (author : prior.actorId = e.actorId) (answers : Answers db e)
  | retracted (messageId : String) (prior : Envelope Payload) (type : e.type = "message.retracted")
      (operation : e.operation = .retract) (names : e.payload.messageId? = some messageId)
      (found : latest (messageEvents db.events messageId) = some prior)
      (stands : prior.operation ≠ .retract) (based : target = some (messageId, prior.revision))
      (revision : e.revision = prior.revision + 1)
      (author : prior.actorId = e.actorId ∨ e.actorId = db.room.teacherId)
      (answers : Answers db e)

/-- What a transaction with this causation and target can do. -/
inductive Effect (causationId : Option String) (target : Option (String × Nat))
    (db db' : Database Payload) : Prop
  | quiet (events : db'.events = db.events) (outbox : db'.outbox = db.outbox)
      (room : db'.room = db.room) (same : SameRoom db db') (queue : QueueRun db db'.queue)
  | manual (kind : Manual) (e : Envelope Payload) (grows : Grows db db' e)
      (cause : causationId = some e.causationId) (untargeted : target = none)
      (event : ManualEvent kind db e)
      (before : kind.allowed db.room.status = true) (after : db'.room.status = kind.next)
      (closes : kind ≠ .opened → db'.room.closesAt = db.room.closesAt)
  | automatic (e : Envelope Payload) (grows : Grows db db' e) (untargeted : target = none)
      (type : e.type = "room.closed")
      (actorKind : e.actorKind = .system) (payload : e.payload.messageId? = none)
      (before : db.room.status = .open ∨ db.room.status = .paused)
      (after : db'.room.status = .closed)
  -- A close under a causation that is already there: only a room that is closed has it.
  | repeated (e : Envelope Payload) (stored : e ∈ db.events) (type : e.type = "room.closed")
      (before : db.room.status = .open ∨ db.room.status = .paused)
      (events : db'.events = db.events) (sound : Sound corePayloads db')
  | message (e : Envelope Payload) (grows : Grows db db' e) (event : MessageEvent target db e)
      (before : db.room.status = .open) (after : db'.room.status = .open)
      (closes : db'.room.closesAt = db.room.closesAt)

section Append

variable {ambient : Ambient} {d : Draft Payload} {t t' : Tx Payload} {e : Envelope Payload}
  {db db' : Database Payload} {roomId : String}

/-- The transaction is still where it began, up to the row of the room and the queue. -/
structure Tx.From (t : Tx Payload) (db : Database Payload) : Prop where
  sound : t.Sound corePayloads
  events : t.db.events = db.events
  outbox : t.db.outbox = db.outbox
  same : SameRoom db t.db
  seq : t.db.room.nextRoomSeq = db.room.nextRoomSeq
  queue : QueueRun db t.db.queue

theorem Tx.From.begin (hdb : Rooms.Sound corePayloads db) (h : beginRoom db roomId = .ok t) :
    t.From db ∧ t.db = db ∧ t.room = db.room ∧ column roomId = db.room.roomId := by
  have hs := beginRoom_sound hdb h
  obtain ⟨-, hc, -, rfl⟩ := beginRoom_eq h
  exact ⟨⟨hs, rfl, rfl, ⟨rfl, rfl, rfl, rfl⟩, rfl, .refl⟩, rfl, rfl, hc⟩

theorem Tx.From.updateRoom (ht : t.From db) {f : RoomRow → RoomRow}
    (hid : ∀ room, (f room).roomId = room.roomId)
    (hteacher : ∀ room, (f room).teacherId = room.teacherId)
    (hseq : ∀ room, (f room).nextRoomSeq = room.nextRoomSeq) : (t.updateRoom f).From db := by
  have hs := ht.sound.db
  refine ⟨⟨?_, ?_, ?_⟩, ht.events, ht.outbox, ⟨?_, ?_, ht.same.members, ht.same.deletion⟩, ?_,
    ht.queue⟩
  · exact ht.sound.room.trans (hid _).symm
  · exact ht.sound.counter.trans (hseq _).symm
  · have hid' : (t.updateRoom f).db.room.roomId = t.db.room.roomId := hid _
    have hseq' : (t.updateRoom f).db.room.nextRoomSeq = t.db.room.nextRoomSeq := hseq _
    refine ⟨?_, ?_, ?_, ?_, hs.eventIds, hs.causations, hs.patterns, hs.outbox⟩
    · rw [hid']
      exact hs.room
    · rw [hseq']
      exact hs.counter
    · rw [hseq']
      exact hs.seqs
    · rw [hid']
      exact hs.rooms
  · exact (hid _).trans ht.same.roomId
  · exact (hteacher _).trans ht.same.teacherId
  · exact (hseq _).trans ht.seq

theorem Tx.From.cancelRoomJobs (ht : t.From db) (preserve : Option String) :
    (t.cancelRoomJobs preserve).From db := by
  have hs := ht.sound.db
  exact ⟨⟨ht.sound.room, ht.sound.counter, ⟨hs.room, hs.counter, hs.seqs, hs.rooms, hs.eventIds,
    hs.causations, hs.patterns, hs.outbox⟩⟩, ht.events, ht.outbox,
    ⟨ht.same.roomId, ht.same.teacherId, ht.same.members, ht.same.deletion⟩, ht.seq,
    ht.queue.tail (.call (.cancelRoomJobs t.db.room.roomId preserve) rfl rfl)⟩

theorem Tx.From.close (ht : t.From db) (closedAt : Int) (preserve : Option String) :
    ((t.updateRoom fun room => { room with status := .closed, closedAt := some closedAt
      }).cancelRoomJobs preserve).From db := by
  refine Tx.From.cancelRoomJobs ?_ preserve
  exact ht.updateRoom (fun _ => rfl) (fun _ => rfl) fun _ => rfl

/-- An append from here adds the draft, or returns an event that matches it. -/
theorem Tx.From.append {now : Int} {drawn : Drawn} {draft : Option (Draft Payload)}
    (ht : t.From db) (h : appendOne corePayloads now drawn none draft t = .ok (e, t')) :
    ∃ d ingestTime, draft = some d ∧
      ((t' = t ∧ e ∈ db.events ∧ e.causationId = column d.causationId ∧
          e.type = d.type) ∨
        (Grows db t'.db e ∧ t'.db.room.status = t.db.room.status ∧
          t'.db.room.closesAt = t.db.room.closesAt ∧
          e = d.envelope drawn.eventId db.room.roomId db.room.nextRoomSeq ingestTime)) := by
  have hsound := appendOne_sound ht.sound h
  obtain ⟨d, ingestTime, hd, -, hcases⟩ := appendOne_spec ht.sound h
  refine ⟨d, ingestTime, hd, ?_⟩
  rcases hcases with ⟨rfl, he, hcause, hm⟩ | ⟨queue, hcause, he, -, -, hjob, -, rfl⟩
  · refine .inl ⟨rfl, ht.events ▸ he, hcause, ?_⟩
    simp only [immutableDraftMatches, Bool.and_eq_true, decide_eq_true_eq] at hm
    exact hm.1.1.1.1.1.1.1.1.1
  · rw [ht.same.roomId, ht.seq] at he
    refine .inr ⟨⟨?_, ?_, ?_, ?_, ?_, ?_, ?_, hsound.db, ?_⟩, rfl, rfl, he⟩
    · change t.db.events ++ [e.columns] = _
      rw [ht.events]
    · change t.db.outbox ++ _ = _
      rw [ht.outbox]
    · exact ⟨ht.same.roomId, ht.same.teacherId, ht.same.members, ht.same.deletion⟩
    · rw [he]
      exact drawn.stored.1
    · rw [he]
      rfl
    · rw [he, ← ht.events]
      exact hcause
    · rw [he]
      rfl
    · exact ht.queue.tail (.consume e drawn.jobId now (by rw [he]; rfl) (by rw [he]; rfl) hjob)

end Append

section Services

variable {db db' : Database Payload} {roomId causationId : String} {owner : Owner}
  {ambient : Ambient} {e : Envelope Payload} {t t' : Tx Payload}

/-- A transaction is its callback from the locked room. -/
theorem transact_eq {β : Type} {work : Tx Payload → Except String (β × Tx Payload)} {value : β}
    (hdb : Sound corePayloads db) (h : transact db roomId work = .ok (value, db')) :
    ∃ t t', t.From db ∧ t.db = db ∧ t.room = db.room ∧ column roomId = db.room.roomId ∧
      work t = .ok (value, t') ∧ t'.db = db' := by
  obtain ⟨t, hbegin, h⟩ := bind_eq_ok.mp h
  obtain ⟨⟨value', t'⟩, hwork, h⟩ := bind_eq_ok.mp h
  cases h
  obtain ⟨hfrom, hdb', hroom, hid⟩ := Tx.From.begin hdb hbegin
  exact ⟨t, t', hfrom, hdb', hroom, hid, hwork, rfl⟩

theorem Effect.refl {causation : Option String} {target : Option (String × Nat)} (db : Database Payload) : Effect causation target db db :=
  .quiet rfl rfl rfl ⟨rfl, rfl, rfl, rfl⟩ .refl

theorem requireOwner_eq (h : requireOwner owner t = .ok ()) :
    owner.teacherId = t.room.teacherId := by
  unfold requireOwner at h
  split at h
  · cases h
  · rename_i hne
    simpa using (not_not.mp hne).symm

/-- No retry was found: the causation is free. -/
theorem existingManualRetry_none {type teacherId : String}
    (h : existingManualRetry t causationId type roomId teacherId = .ok none) :
    column causationId ∉ t.db.events.map (·.causationId) := by
  obtain ⟨existing, hfind, h⟩ := bind_eq_ok.mp h
  cases existing with
  | none => exact findOneByCausation_none hfind
  | some event =>
    obtain ⟨_, -, heq⟩ := map_eq_ok.mp h
    cases heq

/-- A teacher's draft under a free causation, after the row moved to its status. -/
theorem manual_effect (kind : Manual) {now : Int} {payload : Payload}
    (h : append ambient (teacherDraft kind.type owner.teacherId causationId ambient.correlationId
      now payload) t = .ok (e, t')) (ht : t.From db) (hstatus : t.db.room.status = kind.next)
    (hfree : column causationId ∉ db.events.map (·.causationId))
    (howner : owner.teacherId = db.room.teacherId) (hpayload : payload.messageId? = none)
    (hbefore : kind.allowed db.room.status = true)
    (hcloses : kind ≠ .opened → t.db.room.closesAt = db.room.closesAt) :
    Effect (some causationId) none db t'.db := by
  obtain ⟨d, ingestTime, hd, hcases⟩ := ht.append h
  cases hd
  rcases hcases with ⟨-, he, hcause, -⟩ | ⟨hgrows, hafter, hcloses', he⟩
  · exact absurd (List.mem_map.mpr ⟨e, he, hcause⟩) hfree
  · refine .manual kind e hgrows (by rw [he]; rfl) rfl ?_ hbefore (hafter.trans hstatus)
      fun hk => hcloses'.trans (hcloses hk)
    rw [he]
    exact ⟨rfl, howner, rfl, rfl, rfl, rfl, ambient.stored.1, hpayload⟩

theorem Sound.enqueue (h : Sound corePayloads db) (queue : Queue) :
    Sound corePayloads { db with queue } :=
  ⟨h.room, h.counter, h.seqs, h.rooms, h.eventIds, h.causations, h.patterns, h.outbox⟩

theorem Grows.enqueue (h : Grows db db' e) {queue : Queue} (hq : QueueStep db db'.queue queue) :
    Grows db { db' with queue } e :=
  ⟨h.events, h.outbox, ⟨h.same.roomId, h.same.teacherId, h.same.members, h.same.deletion⟩,
    h.eventId, h.roomId, h.fresh, h.seq, h.sound.enqueue queue, h.queue.tail hq⟩

/-- The ledger does not see the queue. -/
theorem Effect.enqueue {causation : Option String} {target : Option (String × Nat)}
    (h : Effect causation target db db') {queue : Queue} (hq : QueueStep db db'.queue queue) :
    Effect causation target db { db' with queue } := by
  cases h with
  | quiet events outbox room same run =>
    exact .quiet events outbox room ⟨same.roomId, same.teacherId, same.members, same.deletion⟩
      (run.tail hq)
  | manual kind e grows cause untargeted event before after closes =>
    exact .manual kind e (grows.enqueue hq) cause untargeted event before after closes
  | automatic e grows untargeted type actorKind payload before after =>
    exact .automatic e (grows.enqueue hq) untargeted type actorKind payload before after
  | repeated e stored type before events sound =>
    exact .repeated e stored type before events (sound.enqueue queue)
  | message e grows event before after closes =>
    exact .message e (grows.enqueue hq) event before after closes

theorem openRoom_effect (hdb : Sound corePayloads db)
    (h : openRoom db roomId owner causationId ambient = .ok (e, db')) :
    Effect (some causationId) none db db' := by
  obtain ⟨t, t', hfrom, rfl, hroom, -, hwork, rfl⟩ := transact_eq hdb h
  obtain ⟨_, howner, hwork⟩ := bind_eq_ok.mp hwork
  obtain ⟨retry, hretry, hwork⟩ := bind_eq_ok.mp hwork
  cases retry with
  | some event =>
    cases hwork
    exact .refl _
  | none =>
    dsimp only at hwork
    split at hwork
    · cases hwork
    · rename_i hstatus
      obtain ⟨now, -, hwork⟩ := bind_eq_ok.mp hwork
      obtain ⟨⟨event, t₁⟩, happend, hwork⟩ := bind_eq_ok.mp hwork
      obtain ⟨t₂, henqueue, hwork⟩ := bind_eq_ok.mp hwork
      cases hwork
      have hscheduled : t.db.room.status = .scheduled := by
        rw [← hroom]
        simpa using hstatus
      have heffect : Effect (some causationId) none t.db t₁.db :=
        manual_effect .opened happend
          (hfrom.updateRoom (fun _ => rfl) (fun _ => rfl) fun _ => rfl) rfl
          (existingManualRetry_none hretry)
          ((requireOwner_eq howner).trans (congrArg RoomRow.teacherId hroom)) rfl
          (by rw [hscheduled]; rfl) (by simp)
      unfold enqueueAutoClose at henqueue
      split at henqueue
      · rename_i hjob
        cases henqueue
        exact heffect.enqueue (.autoClose roomId _ _ _ _ hscheduled hjob)
      · cases henqueue

theorem ownerRetry_eq {type : String} {found : Option (Envelope Payload)}
    (hdb : Sound corePayloads db)
    (h : ownerRetry db roomId owner causationId type = .ok (found, db')) : db' = db := by
  obtain ⟨t, t', -, rfl, -, -, hwork, rfl⟩ := transact_eq hdb h
  obtain ⟨_, -, hwork⟩ := bind_eq_ok.mp hwork
  obtain ⟨retry, -, hwork⟩ := bind_eq_ok.mp hwork
  cases hwork
  rfl

theorem Simple.manual (kind : Simple) : ∃ m : Manual, m.type = kind.type ∧ m.next = kind.next ∧
    m.allowed kind.required = true := by
  cases kind with
  | pause => exact ⟨.paused, rfl, rfl, rfl⟩
  | resume => exact ⟨.resumed, rfl, rfl, rfl⟩

theorem simpleTransition_effect {kind : Simple} (hdb : Sound corePayloads db)
    (h : simpleTransition kind db roomId owner causationId ambient = .ok (e, db')) :
    Effect (some causationId) none db db' := by
  obtain ⟨t, t', hfrom, rfl, hroom, -, hwork, rfl⟩ := transact_eq hdb h
  obtain ⟨_, howner, hwork⟩ := bind_eq_ok.mp hwork
  obtain ⟨retry, hretry, hwork⟩ := bind_eq_ok.mp hwork
  cases retry with
  | some event =>
    cases hwork
    exact .refl _
  | none =>
    dsimp only at hwork
    split at hwork
    · cases hwork
    · rename_i hstatus
      obtain ⟨now, -, happend⟩ := bind_eq_ok.mp hwork
      have hbefore : t.db.room.status = kind.required := by
        rw [← hroom]
        simpa using hstatus
      obtain ⟨m, htype, hnext, hallowed⟩ := kind.manual
      rw [← htype] at happend
      refine manual_effect m happend
        (hfrom.updateRoom (fun _ => rfl) (fun _ => rfl) fun _ => rfl) hnext.symm
        (existingManualRetry_none hretry)
        ((requireOwner_eq howner).trans (congrArg RoomRow.teacherId hroom)) ?_
        (by rw [hbefore]; exact hallowed) fun _ => rfl
      cases kind <;> rfl

theorem closeRoom_effect (hdb : Sound corePayloads db)
    (h : closeRoom db roomId owner causationId ambient = .ok (e, db')) :
    Effect (some causationId) none db db' := by
  obtain ⟨t, t', hfrom, rfl, hroom, -, hwork, rfl⟩ := transact_eq hdb h
  obtain ⟨_, howner, hwork⟩ := bind_eq_ok.mp hwork
  obtain ⟨retry, hretry, hwork⟩ := bind_eq_ok.mp hwork
  cases retry with
  | some event =>
    cases hwork
    exact .refl _
  | none =>
    dsimp only at hwork
    split at hwork
    · cases hwork
    · rename_i hstatus
      obtain ⟨now, -, happend⟩ := bind_eq_ok.mp hwork
      have hbefore : Manual.closed.allowed t.db.room.status = true := by
        rw [hroom] at hstatus
        cases hs : t.db.room.status <;> simp [hs, Manual.allowed] at hstatus ⊢
      exact manual_effect .closed happend
        (hfrom.close now none) rfl (existingManualRetry_none hretry)
        ((requireOwner_eq howner).trans (congrArg RoomRow.teacherId hroom)) rfl hbefore fun _ => rfl

variable {causation : Option String}

theorem appendAutomaticClose_effect {jobId correlationId : String} {closesAt : Int}
    {preserve : Option String} (hfrom : t.From db)
    (hbefore : db.room.status = .open ∨ db.room.status = .paused)
    (h : appendAutomaticClose jobId closesAt correlationId preserve ambient t = .ok (e, t')) :
    Effect causation none db t'.db := by
  obtain ⟨now, -, happend⟩ := bind_eq_ok.mp h
  have hclosed := hfrom.close closesAt preserve
  obtain ⟨d, ingestTime, hd, hcases⟩ := hclosed.append happend
  cases hd
  rcases hcases with ⟨rfl, he, -, htype⟩ | ⟨hgrows, hafter, -, he⟩
  · exact .repeated e he htype hbefore hfrom.events hclosed.sound.db
  · refine .automatic e hgrows rfl ?_ ?_ ?_ hbefore hafter <;> rw [he] <;> rfl

theorem due?_eq {room : RoomRow} {closesAt : Int} (h : room.due? = some closesAt) :
    (room.status = .open ∨ room.status = .paused) ∧ room.closesAt = some closesAt := by
  unfold RoomRow.due? at h
  split at h
  · rename_i hs
    exact ⟨by simpa using hs, h⟩
  · cases h

theorem closeDueInContext_effect {found : Option (Envelope Payload)} (hfrom : t.From db)
    (hdb : t.db = db) (hroom : t.room = db.room)
    (h : closeDueInContext ambient t = .ok (found, t')) : Effect causation none db t'.db := by
  unfold closeDueInContext at h
  split at h
  · cases h
    exact hdb ▸ .refl _
  · rename_i closesAt hdue
    obtain ⟨now, -, h⟩ := bind_eq_ok.mp h
    split at h
    · cases h
      exact hdb ▸ .refl _
    · split at h
      · cases h
        exact hdb ▸ .refl _
      · split at h
        · obtain ⟨⟨event, t₁⟩, hclose, h⟩ := bind_eq_ok.mp h
          cases h
          rw [hroom] at hdue
          exact appendAutomaticClose_effect hfrom (due?_eq hdue).1 hclose
        · cases h
          exact hdb ▸ .refl _

theorem closeIfDue_effect {found : Option (Envelope Payload)} (hdb : Sound corePayloads db)
    (h : closeIfDue db roomId ambient = .ok (found, db')) : Effect causation none db db' := by
  obtain ⟨t, t', hfrom, hdb', hroom, -, hwork, rfl⟩ := transact_eq hdb h
  exact closeDueInContext_effect hfrom hdb' hroom hwork

theorem closeIfDueForOwner_effect {found : Option (Envelope Payload)} (hdb : Sound corePayloads db)
    (h : closeIfDueForOwner db roomId owner ambient = .ok (found, db')) :
    Effect causation none db db' := by
  obtain ⟨t, t', hfrom, hdb', hroom, -, hwork, rfl⟩ := transact_eq hdb h
  obtain ⟨_, -, hwork⟩ := bind_eq_ok.mp hwork
  exact closeDueInContext_effect hfrom hdb' hroom hwork

theorem autoCloseInContext_effect {request : AutoCloseRequest} {response : AutoCloseResponse}
    (hfrom : t.From db) (hdb : t.db = db)
    (h : autoCloseInContext request roomId ambient t = .ok (response, t')) :
    Effect causation none db t'.db := by
  unfold autoCloseInContext at h
  split at h
  · cases h
    exact hdb ▸ .refl _
  · split at h
    · cases h
      exact hdb ▸ .refl _
    · split at h
      · cases h
        exact hdb ▸ .refl _
      · split at h
        · rename_i hopen
          obtain ⟨⟨event, t₁⟩, hclose, h⟩ := bind_eq_ok.mp h
          obtain ⟨queue, hqueue, h⟩ := bind_eq_ok.mp h
          cases h
          have hbefore : db.room.status = .open ∨ db.room.status = .paused := by
            rw [← hdb]
            simpa using hopen
          exact (appendAutomaticClose_effect hfrom hbefore hclose).enqueue
            (.call (.completeBusiness request.claim _) rfl hqueue)
        · split at h
          · obtain ⟨queue, hqueue, h⟩ := bind_eq_ok.mp h
            cases h
            rw [hdb] at hqueue ⊢
            exact (Effect.refl db).enqueue (.call (.completeBusiness request.claim _) rfl hqueue)
          · cases h
            exact hdb ▸ .refl _

theorem handleAutoClose_effect {request : AutoCloseRequest} {response : AutoCloseResponse}
    {assertion : Bool} (hdb : Sound corePayloads db)
    (h : handleAutoClose db assertion request ambient = .ok (response, db')) :
    Effect causation none db db' := by
  unfold handleAutoClose at h
  split at h
  · cases h
    exact .refl _
  · rename_i roomId _
    split at h
    · cases h
      exact .refl _
    · split at h
      · cases h
        exact .refl _
      · split at h
        · cases h
          exact .refl _
        · obtain ⟨t, t', hfrom, hdb', -, -, hwork, rfl⟩ := transact_eq hdb h
          exact autoCloseInContext_effect hfrom hdb' hwork

end Services

section MessageServices

variable {db db' : Database Payload} {principal : Principal} {command : MessageCommand}
  {session : Bool} {ambient : Ambient} {e : Envelope Payload} {t t' : Tx Payload}
  {causation : Option String} {target : Option (String × Nat)}

theorem assertWritable_eq (h : assertWritable ambient t = .ok ()) : t.room.status = .open := by
  obtain ⟨now, -, h⟩ := bind_eq_ok.mp h
  split at h
  · cases h
  · rename_i hopen
    simp only [Bool.or_eq_true, not_or, decide_eq_true_eq, ne_eq, not_not] at hopen
    exact hopen.1

theorem messageRetry_none {commandId type actorId : String}
    (h : messageRetry t commandId type actorId = .ok none) :
    column commandId ∉ t.db.events.map (·.causationId) := by
  obtain ⟨existing, hfind, h⟩ := bind_eq_ok.mp h
  cases existing with
  | none => exact findOneByCausation_none hfind
  | some event =>
    dsimp only at h
    split at h <;> cases h

theorem latestMessage_eq {messageId : String} {found : Option (Envelope Payload)}
    (h : latestMessage db messageId = .ok found) :
    latest (messageEvents db.events messageId) = found := by
  unfold latestMessage at h
  split at h
  · cases h
  · cases h
    rfl

theorem standing_eq {messageId : String} {prior : Envelope Payload}
    (h : standing t messageId = .ok prior) :
    latest (messageEvents t.db.events messageId) = some prior ∧ prior.operation ≠ .retract := by
  obtain ⟨found, hfound, h⟩ := bind_eq_ok.mp h
  cases found with
  | none => cases h
  | some found =>
    dsimp only at h
    split at h
    · cases h
    · rename_i hstands
      cases h
      exact ⟨latestMessage_eq hfound, hstands⟩

theorem readBaseRevision_eq {baseRevision revision : Nat}
    (h : readBaseRevision command = .ok baseRevision) (hr : revision = baseRevision) :
    command.target? = some (readMessageId command.messageId, revision) := by
  unfold readBaseRevision at h
  split at h
  · rename_i hsome
    split at h
    · rename_i hpos
      cases h
      simp only [MessageCommand.target?, hsome, hr, hpos, ↓reduceIte]
    · cases h
  · cases h

theorem assertReply_eq {replyTo : String} (h : assertReply t (some replyTo) = .ok ()) :
    ∃ target, latest (messageEvents t.db.events replyTo) = some target ∧
      target.operation ≠ .retract := by
  unfold assertReply at h
  dsimp only at h
  split at h
  · cases h
  · obtain ⟨found, hfound, h⟩ := bind_eq_ok.mp h
    cases found with
    | none => cases h
    | some target =>
      dsimp only at h
      split at h
      · cases h
      · rename_i hstands
        exact ⟨target, latestMessage_eq hfound, hstands⟩

theorem assertMentionsAndReply_eq {mentions : List String} {replyTo : Option String}
    (h : assertMentionsAndReply t mentions replyTo = .ok ()) : assertReply t replyTo = .ok () := by
  unfold assertMentionsAndReply at h
  split at h
  · cases h
  · split at h
    · cases h
    · exact h

theorem answers_message {mentions : List String} {replyTo : Option String}
    (hdb : t.db = db) (h : assertMentionsAndReply t mentions replyTo = .ok ())
    (hp : e.payload.replyTo? = replyTo) : Answers db e := by
  intro target htarget
  rw [hp] at htarget
  cases htarget
  rw [← hdb]
  exact assertReply_eq (assertMentionsAndReply_eq h)

/-- A draft of a message under a free causation. -/
theorem message_effect {clientTime : Option Int} {draft : Int → Draft Payload} {commandId : String}
    (h : appendMessage ambient clientTime draft t = .ok (e, t')) (hfrom : t.From db)
    (hdb : t.db = db) (hopen : db.room.status = .open)
    (hfree : column commandId ∉ db.events.map (·.causationId))
    (hcause : ∀ time, (draft time).causationId = commandId)
    (hevent : ∀ time ingestTime, MessageEvent target db ((draft time).envelope ambient.drawn.eventId
      db.room.roomId db.room.nextRoomSeq ingestTime)) : Effect causation target db t'.db := by
  obtain ⟨d, ingestTime, hd, hcases⟩ := hfrom.append h
  obtain ⟨time, -, rfl⟩ := Option.map_eq_some_iff.mp hd
  rcases hcases with ⟨-, he, hc, -⟩ | ⟨hgrows, hafter, hcloses, he⟩
  · rw [hcause] at hc
    exact absurd (List.mem_map.mpr ⟨e, he, hc⟩) hfree
  · refine .message e hgrows ?_ hopen ?_ (by rw [hcloses, hdb])
    · rw [he]
      exact hevent time ingestTime
    · rw [hafter, hdb, hopen]

theorem add_effect {attachments : AttachmentValidator} {messageId : String}
    (hdb : Sound corePayloads db)
    (h : add attachments db principal command session messageId ambient = .ok (e, db')) :
    Effect causation (some (messageId, 0)) db db' := by
  obtain ⟨_, -, h⟩ := bind_eq_ok.mp h
  cases principal with
  | teacher => cases h
  | student roomId memberId actorId =>
    dsimp only at h
    split at h
    · cases h
    · obtain ⟨t, t', hfrom, hdb', hroom, -, hwork, rfl⟩ := transact_eq hdb h
      obtain ⟨_, -, hwork⟩ := bind_eq_ok.mp hwork
      obtain ⟨retry, hretry, hwork⟩ := bind_eq_ok.mp hwork
      cases retry with
      | some event =>
        cases hwork
        exact hdb' ▸ .refl _
      | none =>
        obtain ⟨_, hopen, hwork⟩ := bind_eq_ok.mp hwork
        obtain ⟨mediaIds, -, hwork⟩ := bind_eq_ok.mp hwork
        obtain ⟨mentions, -, hwork⟩ := bind_eq_ok.mp hwork
        split at hwork
        · cases hwork
        · obtain ⟨replyTo, -, hwork⟩ := bind_eq_ok.mp hwork
          obtain ⟨_, hreply, hwork⟩ := bind_eq_ok.mp hwork
          obtain ⟨_, -, hwork⟩ := bind_eq_ok.mp hwork
          obtain ⟨⟨event, t₁⟩, happend, hwork⟩ := bind_eq_ok.mp hwork
          obtain ⟨_, -, hwork⟩ := bind_eq_ok.mp hwork
          cases hwork
          refine message_effect happend hfrom hdb' (hroom ▸ assertWritable_eq hopen)
            (hdb' ▸ messageRetry_none hretry) (fun _ => rfl) fun time ingestTime => ?_
          exact .added messageId rfl rfl rfl rfl rfl (answers_message hdb' hreply rfl)

theorem revise_effect (hdb : Sound corePayloads db)
    (h : revise db principal command session ambient = .ok (e, db')) :
    Effect causation command.target? db db' := by
  obtain ⟨_, -, h⟩ := bind_eq_ok.mp h
  obtain ⟨t, t', hfrom, hdb', hroom, -, hwork, rfl⟩ := transact_eq hdb h
  obtain ⟨_, -, hwork⟩ := bind_eq_ok.mp hwork
  obtain ⟨retry, hretry, hwork⟩ := bind_eq_ok.mp hwork
  cases retry with
  | some event =>
    cases hwork
    exact hdb' ▸ .refl _
  | none =>
    obtain ⟨_, hopen, hwork⟩ := bind_eq_ok.mp hwork
    obtain ⟨baseRevision, hbase, hwork⟩ := bind_eq_ok.mp hwork
    obtain ⟨prior, hprior, hwork⟩ := bind_eq_ok.mp hwork
    obtain ⟨hfound, hstands⟩ := standing_eq hprior
    rw [hdb'] at hfound
    cases principal with
    | teacher => cases hwork
    | student roomId memberId actorId =>
      dsimp only at hwork
      split at hwork
      · cases hwork
      · rename_i hauthor
        split at hwork
        · cases hwork
        · rename_i hrevision
          obtain ⟨mentions, -, hwork⟩ := bind_eq_ok.mp hwork
          split at hwork
          · cases hwork
          · obtain ⟨replyTo, -, hwork⟩ := bind_eq_ok.mp hwork
            obtain ⟨_, hreply, happend⟩ := bind_eq_ok.mp hwork
            refine message_effect happend hfrom hdb' (hroom ▸ assertWritable_eq hopen)
              (hdb' ▸ messageRetry_none hretry) (fun _ => rfl) fun time ingestTime => ?_
            exact .revised _ prior rfl rfl rfl hfound hstands
              (readBaseRevision_eq hbase (not_not.mp hrevision)) rfl (not_not.mp hauthor)
              (answers_message hdb' hreply rfl)

theorem retract_effect (hdb : Sound corePayloads db)
    (h : retract db principal command session ambient = .ok (e, db')) :
    Effect causation command.target? db db' := by
  obtain ⟨_, -, h⟩ := bind_eq_ok.mp h
  obtain ⟨t, t', hfrom, hdb', hroom, -, hwork, rfl⟩ := transact_eq hdb h
  obtain ⟨_, hauth, hwork⟩ := bind_eq_ok.mp hwork
  obtain ⟨retry, hretry, hwork⟩ := bind_eq_ok.mp hwork
  cases retry with
  | some event =>
    cases hwork
    exact hdb' ▸ .refl _
  | none =>
    obtain ⟨_, hopen, hwork⟩ := bind_eq_ok.mp hwork
    obtain ⟨baseRevision, hbase, hwork⟩ := bind_eq_ok.mp hwork
    obtain ⟨prior, hprior, hwork⟩ := bind_eq_ok.mp hwork
    obtain ⟨hfound, hstands⟩ := standing_eq hprior
    rw [hdb'] at hfound
    split at hwork
    · cases hwork
    · rename_i hmay
      split at hwork
      · cases hwork
      · rename_i hrevision
        have hauthor : prior.actorId = principal.actorId ∨
            principal.actorId = db.room.teacherId := by
          cases principal with
          | student roomId memberId actorId =>
            have hown : prior.actorId = actorId := by simpa [mayRetract] using hmay
            exact .inl hown
          | teacher teacherId actorId =>
            refine .inr ?_
            simp only [authorize, assertTeacherSession] at hauth
            split at hauth
            · cases hauth
            · rename_i hid
              simp only [Bool.or_eq_true, not_or, decide_eq_true_eq, ne_eq, not_not] at hid
              exact hid.2.trans (congrArg RoomRow.teacherId hroom)
        refine message_effect hwork hfrom hdb' (hroom ▸ assertWritable_eq hopen)
          (hdb' ▸ messageRetry_none hretry) (fun _ => rfl) fun time ingestTime => ?_
        refine .retracted _ prior rfl rfl rfl hfound hstands
          (readBaseRevision_eq hbase (not_not.mp hrevision)) rfl hauthor ?_
        intro replyTo hreply
        cases hreply

end MessageServices

end LearningOrbit.Rooms
