import LearningOrbit.Rooms.Payloads
import LearningOrbit.Jobs.Fencing
import LearningOrbit.Rows

/-!
# The tables of a room stay aligned

What an append writes is said once, in `write_eq`; from it every operation of a
callback keeps the sequence, the outbox and the analytics jobs in step with the
events. `Mirrors` is what parsing a stored event relies on: the columns are the
columns of the envelope. The two are equal when the identifiers of the draft
are spelled as a `uuid` column prints them.
-/

namespace LearningOrbit.Rooms

open LearningOrbit (Dict)
open Jobs (Queue JobRow)

theorem column_of_stored {id : String} (h : Uuid.Stored id) : column id = id := h.lower

theorem stored_column {text : String} (h : uuidFormat text = true) : Uuid.Stored (column text) :=
  Uuid.canonical_stored (by simpa [uuidFormat] using h)

theorem column_column {text : String} (h : uuidFormat text = true) :
    column (column text) = column text :=
  column_of_stored (stored_column h)

/-- The pattern does not see the case of a letter. -/
theorem uuidPattern_column {text : String} (h : uuidPattern text = true) :
    uuidPattern (column text) = true := by
  unfold uuidPattern at h ⊢
  simp only [Bool.and_eq_true] at h ⊢
  obtain ⟨⟨hf, hversion⟩, hvariant⟩ := h
  have hget : ∀ i : Nat, (column text).toList[i]? = text.toList[i]?.map Char.toLower := by
    intro i
    rw [column, String.toList_ofList, List.getElem?_map]
  refine ⟨⟨?_, ?_⟩, ?_⟩
  · have hs : Uuid.canonical (column text) = some (column text) := stored_column hf
    unfold uuidFormat
    rw [hs, column_column hf]
    simp
  · rw [hget]
    cases hc : text.toList[14]? with
    | none => simp [hc] at hversion
    | some c =>
      simp only [hc, Option.any_some, Bool.and_eq_true, decide_eq_true_eq] at hversion
      have hdigit : Uuid.isHex c = true := by
        have h0 : '0' ≤ c := Char.le_trans (by decide) hversion.1
        have h9 : c ≤ '9' := Char.le_trans hversion.2 (by decide)
        simp only [Uuid.isHex, Char.isDigit, Bool.or_eq_true, Bool.and_eq_true, decide_eq_true_eq]
        exact .inl ⟨h0, h9⟩
      rw [Option.map_some, Uuid.isHex_toLower hdigit]
      simp [hversion]
  · rw [hget]
    cases hc : text.toList[19]? with
    | none => simp [hc] at hvariant
    | some c =>
      simp only [hc, Option.any_some, decide_eq_true_eq] at hvariant
      have hlower : c.toLower.toLower = c.toLower := by
        simp only [List.mem_cons, List.not_mem_nil, or_false] at hvariant
        rcases hvariant with h | h | h | h <;> rw [h] <;> decide
      rw [Option.map_some, Option.any_some, hlower]
      simpa using hvariant

variable {α β : Type}

section Write

variable {t t' : Tx α} {now : Int} {jobId : String} {candidate : Envelope α}

/-- The database after the four statements. -/
def Database.appended (db : Database α) (candidate : Envelope α) (queue : Queue) : Database α :=
  { db with
    room := { db.room with nextRoomSeq := db.room.nextRoomSeq + 1 }
    events := db.events ++ [candidate.columns]
    outbox := db.outbox ++
      [⟨column candidate.eventId, column candidate.roomId, candidate.roomSeq, candidate⟩]
    queue }

/-- What an append writes, and what the unique columns have checked. -/
theorem write_eq (h : write t now jobId candidate = .ok t') :
    t.db.room.nextRoomSeq = t.nextRoomSeq ∧
      candidate.columns.eventId ∉ t.db.events.map (·.eventId) ∧
      candidate.columns.causationId ∉ t.db.events.map (·.causationId) ∧
      ∃ queue, Jobs.insertJob t.db.queue (consumeJob candidate jobId now) = .ok queue ∧
        t' = { t with
          db := t.db.appended candidate queue
          nextRoomSeq := t.nextRoomSeq + 1 } := by
  obtain ⟨db₁, hevent, h⟩ := bind_eq_ok.mp h
  obtain ⟨db₂, houtbox, h⟩ := bind_eq_ok.mp h
  obtain ⟨queue, hjob, h⟩ := bind_eq_ok.mp h
  obtain ⟨db₃, hadvance, h⟩ := bind_eq_ok.mp h
  cases h
  unfold insertEvent at hevent
  split at hevent
  · cases hevent
  · split at hevent
    · cases hevent
    · rename_i hid
      split at hevent
      · cases hevent
      · split at hevent
        · cases hevent
        · rename_i hcause
          cases hevent
          unfold insertOutbox at houtbox
          split at houtbox
          · cases houtbox
          · cases houtbox
            unfold advance at hadvance
            split at hadvance
            · rename_i hnext
              cases hadvance
              have hseq : t.db.room.nextRoomSeq = t.nextRoomSeq := hnext
              refine ⟨hseq, hid, hcause, queue, hjob, ?_⟩
              simp only [Database.appended, hseq]
            · cases hadvance

end Write

section Append

variable {payloads : EventPayloadRegistry α} {now : Int} {drawn : Drawn} {fault : Option Fault}
  {draft : Option (Draft α)} {t t' : Tx α} {e candidate : Envelope α}

theorem validateDraft_eq {roomId : String} {roomSeq : Nat}
    (h : validateDraft payloads roomId roomSeq drawn draft = .ok candidate) :
    ∃ d ingestTime, draft = some d ∧
      candidate = d.envelope drawn.eventId roomId roomSeq ingestTime ∧
      parseRoomEventEnvelope candidate = true ∧
      payloads.assert candidate.type candidate.payload = true := by
  unfold validateDraft at h
  split at h
  · cases h
  · rename_i d
    split at h
    · cases h
    · rename_i ingestTime _
      dsimp only at h
      split at h
      · rename_i hok
        cases h
        rw [Bool.and_eq_true] at hok
        exact ⟨d, ingestTime, rfl, rfl, hok⟩
      · cases h

variable [DecidableEq α]

/-- An append returns the stored event and writes nothing, or finds none and writes. -/
theorem appendOne_eq (h : appendOne payloads now drawn fault draft t = .ok (e, t')) :
    ∃ candidate, validateDraft payloads t.room.roomId t.nextRoomSeq drawn draft = .ok candidate ∧
      ((findOneByCausation payloads t.db candidate.causationId = .ok (some e) ∧
          immutableDraftMatches e candidate = true ∧ t' = t) ∨
        (findOneByCausation payloads t.db candidate.causationId = .ok none ∧ e = candidate ∧
          write t now drawn.jobId candidate = .ok t')) := by
  unfold appendOne at h
  obtain ⟨candidate, hvalid, hrest⟩ := bind_eq_ok.mp h
  obtain ⟨prior, hprior, hend⟩ := bind_eq_ok.mp hrest
  refine ⟨candidate, hvalid, ?_⟩
  have hfind : findOneByCausation payloads t.db candidate.causationId = .ok prior := by
    unfold findPrior at hprior
    split at hprior
    · cases hprior
    · exact hprior
  cases prior with
  | some stored =>
    dsimp only at hend
    split at hend
    · rename_i hm
      cases hend
      exact .inl ⟨hfind, hm, rfl⟩
    · cases hend
  | none =>
    dsimp only at hend
    split at hend
    · rename_i hw
      cases hend
      exact .inr ⟨hfind, rfl, hw⟩
    · cases hend

theorem findOneByCausation_pattern {db : Database α} {causationId : String}
    {found : Option (Envelope α)} (h : findOneByCausation payloads db causationId = .ok found) :
    uuidPattern causationId = true := by
  unfold findOneByCausation at h
  split at h
  · cases h
  · rename_i hp
    simpa using hp

end Append

section Invariant

/-- The outbox row of an event; it passed the schemas when it was written. -/
structure Mirrors (payloads : EventPayloadRegistry α) (e : Envelope α) (o : OutboxRow α) :
    Prop where
  eventId : o.eventId = e.eventId
  roomId : o.roomId = e.roomId
  roomSeq : o.roomSeq = e.roomSeq
  columns : o.envelope.columns = e
  parsed : parseRoomEventEnvelope o.envelope = true
  payload : payloads.assert o.envelope.type o.envelope.payload = true

/-- The events of a room are numbered without gap and mirrored in the outbox. -/
structure Sound (payloads : EventPayloadRegistry α) (db : Database α) : Prop where
  room : Uuid.Stored db.room.roomId
  counter : 1 ≤ db.room.nextRoomSeq
  seqs : db.events.map (·.roomSeq) = List.range' 1 (db.room.nextRoomSeq - 1)
  rooms : ∀ e ∈ db.events, e.roomId = db.room.roomId
  eventIds : (db.events.map (·.eventId)).Nodup
  causations : (db.events.map (·.causationId)).Nodup
  patterns : ∀ e ∈ db.events, uuidPattern e.causationId = true
  outbox : List.Forall₂ (Mirrors payloads) db.events db.outbox

variable {payloads : EventPayloadRegistry α} {db : Database α} {candidate : Envelope α}
  {queue : Queue}

theorem Sound.seq_lt (h : Sound payloads db) {e : Envelope α} (he : e ∈ db.events) :
    1 ≤ e.roomSeq ∧ e.roomSeq < db.room.nextRoomSeq := by
  have hmem : e.roomSeq ∈ db.events.map (·.roomSeq) := List.mem_map_of_mem he
  rw [h.seqs, List.mem_range'_1] at hmem
  have := h.counter
  omega

/-- An append keeps the invariant: the candidate has the next number and fresh identifiers. -/
theorem Sound.appended (h : Sound payloads db) (hroom : candidate.roomId = db.room.roomId)
    (hseq : candidate.roomSeq = db.room.nextRoomSeq)
    (hparsed : parseRoomEventEnvelope candidate = true)
    (hpayload : payloads.assert candidate.type candidate.payload = true)
    (hpattern : uuidPattern candidate.columns.causationId = true)
    (hid : candidate.columns.eventId ∉ db.events.map (·.eventId))
    (hcause : candidate.columns.causationId ∉ db.events.map (·.causationId)) :
    Sound payloads (db.appended candidate queue) := by
  have hcol : candidate.columns.roomId = db.room.roomId := by
    change column candidate.roomId = _
    rw [hroom, column_of_stored h.room]
  refine {
    room := h.room
    counter := Nat.le_add_left ..
    seqs := ?_
    rooms := ?_
    eventIds := Rows.nodup_concat h.eventIds hid
    causations := Rows.nodup_concat h.causations hcause
    patterns := ?_
    outbox := ?_ }
  · have hlen : db.room.nextRoomSeq + 1 - 1 = db.room.nextRoomSeq - 1 + 1 := by
      have := h.counter
      omega
    have hlast : 1 + (db.room.nextRoomSeq - 1) = candidate.roomSeq := by
      have := h.counter
      omega
    change (db.events ++ [candidate.columns]).map (·.roomSeq) =
      List.range' 1 (db.room.nextRoomSeq + 1 - 1)
    rw [List.map_append, h.seqs, hlen, List.range'_1_concat, hlast]
    rfl
  · intro e he
    rcases List.mem_append.mp he with he | he
    · exact h.rooms e he
    · rw [List.mem_singleton.mp he]
      exact hcol
  · intro e he
    rcases List.mem_append.mp he with he | he
    · exact h.patterns e he
    · rw [List.mem_singleton.mp he]
      exact hpattern
  · refine List.rel_append h.outbox (List.Forall₂.cons ?_ .nil)
    exact ⟨rfl, rfl, rfl, rfl, hparsed, hpayload⟩

/-- Each event has one outbox row. -/
theorem Sound.mirrored (h : Sound payloads db) {e : Envelope α} (he : e ∈ db.events) :
    ∃ o, db.outbox.filter (fun o => o.eventId = e.eventId) = [o] ∧ Mirrors payloads e o :=
  Rows.filter_forall₂ h.outbox (fun _ _ hm => hm.eventId) h.eventIds he

end Invariant

section Lookup

variable [DecidableEq α] {payloads : EventPayloadRegistry α} {db : Database α}
  {causationId : String} {e : Envelope α}

theorem findOneByCausation_none (h : findOneByCausation payloads db causationId = .ok none) :
    column causationId ∉ db.events.map (·.causationId) := by
  unfold findOneByCausation at h
  split at h
  · cases h
  · split at h
    · rename_i hnone
      intro hmem
      obtain ⟨e, he, hc⟩ := List.mem_map.mp hmem
      have := List.find?_eq_none.mp hnone e he
      exact this (by simpa using hc)
    · obtain ⟨_, -, hsome⟩ := map_eq_ok.mp h
      cases hsome

theorem parseStoredEvent_eq {row : Envelope α} {joined : Option (OutboxRow α)}
    (h : parseStoredEvent payloads row joined = .ok e) : e = row := by
  unfold parseStoredEvent at h
  split at h
  · cases h
  · split at h
    · cases h
    · rename_i hok
      cases h
      simp only [Bool.or_eq_true, decide_eq_true_eq, not_or, ne_eq, not_not] at hok
      exact hok.2

theorem findOneByCausation_some (h : findOneByCausation payloads db causationId = .ok (some e)) :
    e ∈ db.events ∧ e.causationId = column causationId := by
  unfold findOneByCausation at h
  split at h
  · cases h
  · split at h
    · cases h
    · rename_i row hrow
      obtain ⟨found, hparsed, hsome⟩ := map_eq_ok.mp h
      cases hsome
      rw [parseStoredEvent_eq hparsed]
      exact ⟨List.mem_of_find?_eq_some hrow, by simpa using List.find?_some hrow⟩

/-- The envelopes of the outbox are spelled as their columns print. -/
def Canonical (db : Database α) : Prop := ∀ o ∈ db.outbox, o.envelope.columns = o.envelope

/-- A stored event whose envelope is canonical is found again. -/
theorem Sound.find (h : Sound payloads db) (he : e ∈ db.events)
    (hc : ∀ o ∈ db.outbox, Mirrors payloads e o → o.envelope.columns = o.envelope)
    (hid : column causationId = e.causationId) (hp : uuidPattern causationId = true) :
    findOneByCausation payloads db causationId = .ok (some e) := by
  have hrow : db.events.find? (fun r => r.causationId = column causationId) = some e :=
    Rows.find?_unique h.causations he hid.symm
  obtain ⟨o, hfilter, hm⟩ := h.mirrored he
  have hfind : db.outbox.find? (fun o => o.eventId = e.eventId) = some o := by
    rw [← List.head?_filter, hfilter]
    rfl
  have henv : o.envelope = e :=
    (hc o (List.mem_of_find?_eq_some hfind) hm).symm.trans hm.columns
  have hseq := (h.seq_lt he).1
  have hparse : parseStoredEvent payloads e (some o) = .ok e := by
    have hparsed := hm.parsed
    have hpayload := hm.payload
    rw [henv] at hparsed hpayload
    unfold parseStoredEvent
    simp only [hm.roomId, hm.roomSeq, henv, hparsed, hpayload]
    rw [if_neg (by simp; omega)]
  unfold findOneByCausation
  rw [if_neg (by simp [hp]), hrow]
  dsimp only
  rw [hfind, hparse]
  rfl

end Lookup

section Transaction

variable [DecidableEq α] {payloads : EventPayloadRegistry α} {now : Int} {drawn : Drawn}
  {fault : Option Fault} {draft : Option (Draft α)} {t t' : Tx α} {e : Envelope α}

/-- Inside a transaction the counter of the closure is the counter of the row. -/
structure Tx.Sound (payloads : EventPayloadRegistry α) (t : Tx α) : Prop where
  room : t.room.roomId = t.db.room.roomId
  counter : t.nextRoomSeq = t.db.room.nextRoomSeq
  db : Rooms.Sound payloads t.db

omit [DecidableEq α] in
theorem beginRoom_eq {db : Database α} {roomId : String} (h : beginRoom db roomId = .ok t) :
    uuidPattern roomId = true ∧ column roomId = db.room.roomId ∧ db.deletionActive = false ∧
      t = ⟨db.room, db, db.room.nextRoomSeq⟩ := by
  unfold beginRoom at h
  split at h
  · cases h
  · rename_i hp
    split at h
    · cases h
    · rename_i hc
      split at h
      · cases h
      · split at h
        · cases h
        · rename_i hd
          split at h
          · cases h
          · cases h
            exact ⟨by simpa using hp, by simpa using hc, by simpa using hd, rfl⟩

omit [DecidableEq α] in
theorem beginRoom_sound {db : Database α} {roomId : String} (hdb : Sound payloads db)
    (h : beginRoom db roomId = .ok t) : t.Sound payloads := by
  obtain ⟨-, -, -, rfl⟩ := beginRoom_eq h
  exact ⟨rfl, rfl, hdb⟩

/-- An append returns a stored event that matches the draft, or writes the draft under a
causation that was free. -/
theorem appendOne_spec (ht : t.Sound payloads)
    (h : appendOne payloads now drawn fault draft t = .ok (e, t')) :
    ∃ d ingestTime, draft = some d ∧ uuidPattern d.causationId = true ∧
      ((t' = t ∧ e ∈ t.db.events ∧ e.causationId = column d.causationId ∧
          immutableDraftMatches e
            (d.envelope drawn.eventId t.db.room.roomId t.db.room.nextRoomSeq ingestTime) = true) ∨
        (∃ queue, column d.causationId ∉ t.db.events.map (·.causationId) ∧
          e = d.envelope drawn.eventId t.db.room.roomId t.db.room.nextRoomSeq ingestTime ∧
          parseRoomEventEnvelope e = true ∧ payloads.assert e.type e.payload = true ∧
          Jobs.insertJob t.db.queue (consumeJob e drawn.jobId now) = .ok queue ∧
          e.columns.eventId ∉ t.db.events.map (·.eventId) ∧
          t' = { t with
            db := t.db.appended e queue
            nextRoomSeq := t.nextRoomSeq + 1 })) := by
  obtain ⟨candidate, hvalid, hcases⟩ := appendOne_eq h
  rw [ht.room, ht.counter] at hvalid
  obtain ⟨d, ingestTime, hd, hcand, hparsed, hpayload⟩ := validateDraft_eq hvalid
  have hcause : candidate.causationId = d.causationId := by rw [hcand]; rfl
  refine ⟨d, ingestTime, hd, ?_, ?_⟩
  · rcases hcases with ⟨hfind, -⟩ | ⟨hfind, -⟩
    · exact hcause ▸ findOneByCausation_pattern hfind
    · exact hcause ▸ findOneByCausation_pattern hfind
  · rcases hcases with ⟨hfind, hm, rfl⟩ | ⟨hfind, rfl, hwrite⟩
    · obtain ⟨he, hec⟩ := findOneByCausation_some hfind
      exact .inl ⟨rfl, he, by rw [hec, hcause], by rw [← hcand]; exact hm⟩
    · obtain ⟨-, hid, -, queue, hjob, rfl⟩ := write_eq hwrite
      exact .inr ⟨queue, by rw [← hcause]; exact findOneByCausation_none hfind, hcand, hparsed,
        hpayload, hjob, hid, rfl⟩

theorem appendOne_sound (ht : t.Sound payloads)
    (h : appendOne payloads now drawn fault draft t = .ok (e, t')) : t'.Sound payloads := by
  obtain ⟨d, ingestTime, -, hpattern, hcases⟩ := appendOne_spec ht h
  rcases hcases with ⟨rfl, -⟩ | ⟨queue, hcause, he, hparsed, hpayload, -, hid, rfl⟩
  · exact ht
  · have hd : e.causationId = d.causationId := by rw [he]; rfl
    refine ⟨ht.room, ?_, ?_⟩
    · change t.nextRoomSeq + 1 = t.db.room.nextRoomSeq + 1
      rw [ht.counter]
    · refine ht.db.appended (by rw [he]; rfl) (by rw [he]; rfl) hparsed hpayload ?_ hid ?_
      · change uuidPattern (column e.causationId) = true
        rw [hd]
        exact uuidPattern_column hpattern
      · change column e.causationId ∉ _
        rw [hd]
        exact hcause

end Transaction

section Feed

/-- An analytics job of this room. -/
def feeds (roomId : String) (entry : String × JobRow) : Bool :=
  entry.2.jobType = "analytics.consume.v1" && entry.2.roomId = some roomId

/-- The analytics jobs of the room are those of its events, in order. -/
def Fed (db : Database α) : Prop :=
  List.Forall₂ (fun e entry => entry.2.analyticsOrder = some ((e.roomSeq : Int), 0) ∧
      entry.2.sourceEventId = some e.eventId)
    db.events (db.queue.jobs.entries.filter (feeds db.room.roomId))

theorem insertJob_entries {q q' : Queue} {job : Jobs.NewJob} (h : Jobs.insertJob q job = .ok q') :
    ∃ hck, q'.jobs.entries = q.jobs.entries ++ [(job.jobId, job.row hck)] := by
  obtain ⟨hck, hnone, -, rfl⟩ := Jobs.insertJob_eq h
  have hkey : job.jobId ∉ q.jobs.keys := Dict.get?_eq_none.mp hnone
  refine ⟨hck, ?_⟩
  change (q.jobs.set job.jobId (job.row hck)).entries = _
  unfold Dict.set
  rw [dif_neg hkey]

theorem Fed.appended {db : Database α} {e : Envelope α} {queue : Queue} {jobId : String}
    {now : Int} (h : Fed db) (hroom : column e.roomId = db.room.roomId)
    (hjob : Jobs.insertJob db.queue (consumeJob e jobId now) = .ok queue) :
    Fed (db.appended e queue) := by
  obtain ⟨hck, hentries⟩ := insertJob_entries hjob
  change List.Forall₂ _ (db.events ++ [e.columns]) (queue.jobs.entries.filter (feeds db.room.roomId))
  rw [hentries, List.filter_append]
  have hfeeds : feeds db.room.roomId
      ((consumeJob e jobId now).jobId, (consumeJob e jobId now).row hck) = true := by
    simp [feeds, consumeJob, Jobs.NewJob.row, hroom]
  rw [List.filter_cons_of_pos hfeeds, List.filter_nil]
  exact List.rel_append h (List.Forall₂.cons ⟨rfl, rfl⟩ .nil)

end Feed

section Runs

variable [DecidableEq α] {payloads : EventPayloadRegistry α} {now : Int}

/-- The identifiers of the draft are spelled as a `uuid` column prints them. -/
def Draft.Canonical (d : Draft α) : Prop :=
  column d.actorId = d.actorId ∧ column d.causationId = d.causationId ∧
    column d.correlationId = d.correlationId

instance (d : Draft α) : Decidable d.Canonical := inferInstanceAs (Decidable (_ ∧ _ ∧ _))

def ContextCall.Canonical : ContextCall α → Prop
  | .append (some d) .. => d.Canonical
  | .append none .. | .findByCausation .. => True

def RoomCall.Canonical (call : RoomCall α) : Prop :=
  ∀ c ∈ call.callback.calls, ContextCall.Canonical c

/-- A database in which the four tables agree. -/
structure Intact (payloads : EventPayloadRegistry α) (db : Database α) : Prop where
  sound : Sound payloads db
  fed : Fed db
  canonical : Canonical db

structure Tx.Intact (payloads : EventPayloadRegistry α) (t : Tx α) : Prop where
  sound : t.Sound payloads
  fed : Fed t.db
  canonical : Rooms.Canonical t.db

variable {t t' : Tx α} {e : Envelope α} {drawn : Drawn} {fault : Option Fault} {d : Draft α}

omit [DecidableEq α] in
theorem Intact.begin {db : Database α} {roomId : String} (hdb : Intact payloads db)
    (h : beginRoom db roomId = .ok t) : t.Intact payloads := by
  obtain ⟨-, -, -, rfl⟩ := beginRoom_eq h
  exact ⟨⟨rfl, rfl, hdb.sound⟩, hdb.fed, hdb.canonical⟩

theorem appendOne_intact (ht : t.Intact payloads) (hd : d.Canonical)
    (h : appendOne payloads now drawn fault (some d) t = .ok (e, t')) : t'.Intact payloads := by
  have hsound := appendOne_sound ht.sound h
  obtain ⟨d', ingestTime, hd', -, hcases⟩ := appendOne_spec ht.sound h
  cases hd'
  rcases hcases with ⟨rfl, -⟩ | ⟨queue, -, he, -, -, hjob, -, rfl⟩
  · exact ht
  · have hroom : column e.roomId = t.db.room.roomId := by
      rw [he]
      exact column_of_stored ht.sound.db.room
    refine ⟨hsound, ht.fed.appended hroom hjob, ?_⟩
    intro o ho
    rcases List.mem_append.mp ho with ho | ho
    · exact ht.canonical o ho
    · rw [List.mem_singleton.mp ho]
      have hid : column drawn.eventId = drawn.eventId := column_of_stored drawn.stored.1
      have hroom' : column t.db.room.roomId = t.db.room.roomId := column_of_stored ht.sound.db.room
      simp only [he, Draft.envelope, Envelope.columns, hid, hroom', hd.1, hd.2.1, hd.2.2]

theorem perform_intact {s : Scheduled α} {call : ContextCall α} (hs : s.tx.Intact payloads)
    (hc : call.Canonical) : (perform payloads now s call).tx.Intact payloads := by
  unfold perform
  split
  · rename_i found tx hans
    cases call with
    | append draft drawn fault =>
      unfold answer at hans
      dsimp only at hans
      split at hans
      · cases hans
      · obtain ⟨⟨e, t'⟩, happend, heq⟩ := map_eq_ok.mp hans
        cases heq
        cases draft with
        | none => exact absurd happend (by simp [appendOne, validateDraft, bind, Except.bind])
        | some d => exact appendOne_intact hs hc happend
    | findByCausation causationId fault =>
      cases fault with
      | some error => cases hans
      | none =>
        obtain ⟨_, -, heq⟩ := map_eq_ok.mp hans
        cases heq
        exact hs
  · exact hs

theorem calls_intact {s : Scheduled α} {calls : List (ContextCall α)} (hs : s.tx.Intact payloads)
    (hc : ∀ c ∈ calls, ContextCall.Canonical c) :
    (calls.foldl (perform payloads now) s).tx.Intact payloads := by
  induction calls generalizing s with
  | nil => exact hs
  | cons c calls ih =>
    exact ih (perform_intact hs (hc c (List.mem_cons_self ..)))
      fun c' hc' => hc c' (List.mem_cons_of_mem _ hc')

/-- A failure stays. -/
theorem calls_failed {s : Scheduled α} (calls : List (ContextCall α))
    (hs : s.operationFailure.isSome = true) :
    (calls.foldl (perform payloads now) s).operationFailure.isSome = true := by
  induction calls generalizing s with
  | nil => exact hs
  | cons c calls ih =>
    refine ih ?_
    unfold perform
    split
    · exact hs
    · rfl

/-- A transaction in which an operation failed fails, whatever the callback made of it. -/
theorem Callback.run_failed {callback : Callback α β} {t : Tx α}
    (h : (performAll payloads now t callback.calls).operationFailure.isSome = true) :
    ∃ error, callback.run payloads now t = .error error := by
  obtain ⟨error, herror⟩ := Option.isSome_iff_exists.mp h
  unfold Callback.run
  dsimp only
  rw [herror]
  cases callback.outcome with
  | error e => exact ⟨e, rfl⟩
  | ok value => exact ⟨error, rfl⟩

theorem RoomCall.step_intact {db db' : Database α} {call : RoomCall α} (hdb : Intact payloads db)
    (hc : call.Canonical) (h : call.step payloads db = .ok db') : Intact payloads db' := by
  obtain ⟨⟨value, db₁⟩, htx, heq⟩ := map_eq_ok.mp h
  cases heq
  obtain ⟨t, hbegin, hwork⟩ := bind_eq_ok.mp htx
  obtain ⟨⟨value', t'⟩, hrun, hend⟩ := bind_eq_ok.mp hwork
  cases hend
  have ht := hdb.begin hbegin
  have hcalls : (performAll payloads call.now t call.callback.calls).tx.Intact payloads :=
    calls_intact (s := ⟨t, none⟩) ht hc
  unfold Callback.run at hrun
  dsimp only at hrun
  split at hrun
  · cases hrun
  · cases hrun
  · cases hrun
    exact ⟨hcalls.sound.db, hcalls.fed, hcalls.canonical⟩

theorem RoomCall.step_failed {db : Database α} {call : RoomCall α} {error : String}
    (hbegin : beginRoom db call.roomId = .ok t)
    (h : call.callback.run payloads call.now t = .error error) :
    call.step payloads db = .error error := by
  unfold RoomCall.step transact
  rw [hbegin]
  simp only [bind, Except.bind, h, Except.map]

/-- A room as it is created, before its first event. -/
structure New (db : Database α) : Prop where
  room : Uuid.Stored db.room.roomId
  counter : db.room.nextRoomSeq = 1
  events : db.events = []
  outbox : db.outbox = []
  jobs : ∀ entry ∈ db.queue.jobs.entries, entry.2.roomId ≠ some db.room.roomId

omit [DecidableEq α] in
theorem New.intact {db : Database α} (h : New db) : Intact payloads db := by
  have hfeeds : db.queue.jobs.entries.filter (feeds db.room.roomId) = [] := by
    rw [List.filter_eq_nil_iff]
    intro entry he
    simp [feeds, h.jobs entry he]
  refine ⟨⟨h.room, ?_, ?_, ?_, ?_, ?_, ?_, ?_⟩, ?_, ?_⟩
  · exact Nat.le_of_eq h.counter.symm
  · simp [h.events, h.counter]
  · simp [h.events]
  · simp [h.events]
  · simp [h.events]
  · simp [h.events]
  · rw [h.events, h.outbox]
    exact .nil
  · unfold Fed
    rw [h.events, hfeeds]
    exact .nil
  · simp [Canonical, h.outbox]

/-- The four tables agree: the events are numbered `1..next_room_seq-1`, each has its one outbox
row with the same envelope and its one analytics job, and no causation occurs twice. -/
structure Aligned (db : Database α) : Prop where
  seqs : db.events.map (·.roomSeq) = List.range' 1 (db.room.nextRoomSeq - 1)
  outbox : ∀ e ∈ db.events,
    db.outbox.filter (fun o => o.eventId = e.eventId) = [⟨e.eventId, e.roomId, e.roomSeq, e⟩]
  jobs : ∀ e ∈ db.events, ∃ jobId row,
    db.queue.jobs.entries.filter (fun entry => feeds db.room.roomId entry &&
      entry.2.analyticsOrder = some ((e.roomSeq : Int), 0)) = [(jobId, row)] ∧
    row.sourceEventId = some e.eventId
  causations : (db.events.map (·.causationId)).Nodup

omit [DecidableEq α] in
theorem Intact.aligned {db : Database α} (h : Intact payloads db) : Aligned db := by
  refine ⟨h.sound.seqs, ?_, ?_, h.sound.causations⟩
  · intro e he
    obtain ⟨o, hfilter, hm⟩ := h.sound.mirrored he
    have ho : o ∈ db.outbox :=
      List.mem_of_mem_filter (hfilter ▸ List.mem_singleton_self o : o ∈ db.outbox.filter _)
    have henv : o.envelope = e := (h.canonical o ho).symm.trans hm.columns
    obtain ⟨eventId, roomId, roomSeq, envelope⟩ := o
    rw [hfilter]
    have h₁ := hm.eventId
    have h₂ := hm.roomId
    have h₃ := hm.roomSeq
    dsimp only at h₁ h₂ h₃ henv
    rw [h₁, h₂, h₃, henv]
  · intro e he
    have hseqs : (db.events.map fun e => some ((e.roomSeq : Int), (0 : Int))).Nodup := by
      have hn : (db.events.map (·.roomSeq)).Nodup := by
        rw [h.sound.seqs]
        exact List.nodup_range' ..
      have := hn.map (f := fun n : Nat => some ((n : Int), (0 : Int))) fun a b hab => by
        have : (a : Int) = b := by simpa using hab
        omega
      rwa [List.map_map] at this
    obtain ⟨⟨jobId, row⟩, hfilter, -, hsource⟩ :=
      Rows.filter_forall₂ h.fed (fun _ entry hm => (hm.1 : entry.2.analyticsOrder = _)) hseqs he
    refine ⟨jobId, row, ?_, hsource⟩
    rw [List.filter_filter] at hfilter
    rw [← hfilter]
    congr 1
    funext entry
    rw [Bool.and_comm]

/-- Appending under a stored causation: the stored event, or no transaction. -/
theorem appendOne_repeated {candidate stored : Envelope α} (ht : t.Intact payloads)
    (hd : d.Canonical)
    (hvalid : validateDraft payloads t.room.roomId t.nextRoomSeq drawn (some d) = .ok candidate)
    (hstored : stored ∈ t.db.events) (hcause : stored.causationId = candidate.causationId)
    (hfault : ∀ error, fault ≠ some (.lookup error)) :
    appendOne payloads now drawn fault (some d) t =
      if immutableDraftMatches stored candidate then .ok (stored, t)
      else .error "INVALID_COMMAND" := by
  obtain ⟨d', ingestTime, hd', hcand, -⟩ := validateDraft_eq hvalid
  cases hd'
  have hcol : column candidate.causationId = stored.causationId := by
    rw [hcause, hcand]
    exact hd.2.1
  have hpattern : uuidPattern candidate.causationId = true := by
    rw [← hcause]
    exact ht.sound.db.patterns stored hstored
  have hfind := ht.sound.db.find hstored (fun o ho _ => ht.canonical o ho) hcol hpattern
  have hprior : findPrior payloads fault t.db candidate.causationId = .ok (some stored) := by
    unfold findPrior
    split
    · rename_i error
      exact absurd rfl (hfault error)
    · exact hfind
  unfold appendOne
  rw [hvalid]
  simp only [bind, Except.bind, hprior]

/-- An append under a stored causation fails its transaction when the draft differs. -/
theorem Callback.run_conflict {before after : List (ContextCall α)} {candidate stored : Envelope α}
    {outcome : Except String β} (ht : (performAll payloads now t before).tx.Intact payloads)
    (hd : d.Canonical)
    (hvalid : validateDraft payloads (performAll payloads now t before).tx.room.roomId
      (performAll payloads now t before).tx.nextRoomSeq drawn (some d) = .ok candidate)
    (hstored : stored ∈ (performAll payloads now t before).tx.db.events)
    (hcause : stored.causationId = candidate.causationId)
    (hne : immutableDraftMatches stored candidate = false) :
    ∃ error, Callback.run payloads now ⟨before ++ .append (some d) drawn fault :: after, outcome⟩ t =
      .error error := by
  have herror : ∃ error, answer payloads now (performAll payloads now t before)
      (.append (some d) drawn fault) = .error error := by
    cases hop : (performAll payloads now t before).operationFailure with
    | some error => exact ⟨error, by simp only [answer, hop]⟩
    | none =>
      simp only [answer, hop]
      by_cases hf : ∃ error, fault = some (.lookup error)
      · obtain ⟨error, rfl⟩ := hf
        refine ⟨error, ?_⟩
        unfold appendOne
        rw [hvalid]
        rfl
      · have hfault : ∀ error, fault ≠ some (.lookup error) := fun error he => hf ⟨error, he⟩
        rw [appendOne_repeated ht hd hvalid hstored hcause hfault, hne]
        exact ⟨_, rfl⟩
  obtain ⟨error, herror⟩ := herror
  refine Callback.run_failed ?_
  unfold performAll
  rw [List.foldl_append, List.foldl_cons]
  refine calls_failed after ?_
  change (perform payloads now (performAll payloads now t before) _).operationFailure.isSome = true
  unfold perform
  rw [herror]
  rfl

/-- Every run of transactions whose drafts spell their identifiers in small letters, at every
state it reaches and at every point of a further transaction. -/
theorem ledger_aligned {db₀ : Database α} (hnew : New db₀) (calls : List (RoomCall α))
    (hcalls : ∀ call ∈ calls, call.Canonical) :
    Aligned (commitAll (RoomCall.step payloads) db₀ calls) ∧
    -- an append that repeats a stored causation
    (∀ roomId t before s draft drawn candidate stored,
      beginRoom (commitAll (RoomCall.step payloads) db₀ calls) roomId = .ok t →
      (∀ c ∈ before, ContextCall.Canonical c) → draft.Canonical →
      s = performAll payloads now t before → s.operationFailure = none →
      validateDraft payloads s.tx.room.roomId s.tx.nextRoomSeq drawn (some draft) = .ok candidate →
      stored ∈ s.tx.db.events → stored.causationId = candidate.causationId →
      (immutableDraftMatches stored candidate = true →
        answer payloads now s (.append (some draft) drawn none) = .ok (some stored, s.tx)) ∧
      (immutableDraftMatches stored candidate = false →
        ∀ fault after (outcome : Except String Unit), ∃ error,
          Callback.run payloads now ⟨before ++ .append (some draft) drawn fault :: after, outcome⟩
            t = .error error)) ∧
    -- a callback that throws, and one that swallows a failure
    (∀ call t error, beginRoom (commitAll (RoomCall.step payloads) db₀ calls) call.roomId = .ok t →
      call.callback.outcome = .error error ∨
        (performAll payloads call.now t call.callback.calls).operationFailure = some error →
      commit (RoomCall.step payloads) (commitAll (RoomCall.step payloads) db₀ calls) call =
        commitAll (RoomCall.step payloads) db₀ calls) := by
  have hdb : Intact payloads (commitAll (RoomCall.step payloads) db₀ calls) :=
    commitAll_invariant_of_mem
      (fun _ call _ hc hs h => RoomCall.step_intact hs (hcalls call hc) h) hnew.intact
  refine ⟨hdb.aligned, ?_, ?_⟩
  · rintro roomId t before s draft drawn candidate stored hbegin hbefore hd rfl hnone hvalid
      hstored hcause
    have ht : (performAll payloads now t before).tx.Intact payloads :=
      calls_intact (s := ⟨t, none⟩) (hdb.begin hbegin) hbefore
    refine ⟨fun hm => ?_, fun hne fault after outcome =>
      Callback.run_conflict ht hd hvalid hstored hcause hne⟩
    simp only [answer, hnone]
    rw [appendOne_repeated ht hd hvalid hstored hcause (by simp), hm]
    rfl
  · intro call t error hbegin hfail
    have hrun : ∃ error, call.callback.run payloads call.now t = .error error := by
      rcases hfail with houtcome | hop
      · refine ⟨error, ?_⟩
        unfold Callback.run
        rw [houtcome]
      · exact Callback.run_failed (by rw [hop]; rfl)
    obtain ⟨error', herror⟩ := hrun
    exact commit_of_error (RoomCall.step_failed hbegin herror)

end Runs

/-- An open room without events. -/
def quietRoom : Database Payload where
  room := {
    roomId := "11111111-1111-4111-8111-111111111111"
    teacherId := "22222222-2222-4222-8222-222222222222"
    novaActorId := "33333333-3333-4333-8333-333333333333"
    status := .open
    startsAt := some 0
    closesAt := some 2700000
    closedAt := none
    nextRoomSeq := 1 }
  members := [⟨"44444444-4444-4444-8444-444444444444", "55555555-5555-4555-8555-555555555555"⟩]
  deletionActive := false
  events := []
  outbox := []
  queue := .empty

theorem quietRoom_new : New quietRoom := by
  refine ⟨by decide +kernel, rfl, rfl, rfl, ?_⟩
  intro entry he
  cases he

/-- A student's message under this command. -/
def helloDraft (commandId : String) : Draft Payload where
  type := "message.added"
  actorId := "55555555-5555-4555-8555-555555555555"
  actorKind := .human
  actorRole := .student
  revision := 1
  operation := .add
  eventTime := 1000
  causationId := commandId
  correlationId := "66666666-6666-4666-8666-666666666666"
  payload := .message "77777777-7777-4777-8777-777777777777" "hello" none [] []

def helloDrawn : Drawn where
  eventId := "88888888-8888-4888-8888-888888888888"
  jobId := "99999999-9999-4999-8999-999999999999"
  ingestTime := some 1001
  stored := by decide +kernel

def helloCall (commandId : String) : RoomCall Payload where
  roomId := "11111111-1111-4111-8111-111111111111"
  now := 1001000
  callback := ⟨[.append (some (helloDraft commandId)) helloDrawn none], .ok ()⟩

theorem ledger_aligned_hello : Aligned (commitAll (RoomCall.step corePayloads) quietRoom
    [helloCall "aaaaaaaa-aaaa-4aaa-8aaa-aaaaaaaaaaaa"]) := by
  refine (@ledger_aligned Payload _ corePayloads 0 quietRoom quietRoom_new _ ?_).1
  intro call hcall
  rw [List.mem_singleton.mp hcall]
  intro c hc
  rw [List.mem_singleton.mp hc]
  exact (by decide +kernel : (helloDraft "aaaaaaaa-aaaa-4aaa-8aaa-aaaaaaaaaaaa").Canonical)

/-- A command id in capital letters is accepted once. The same draft again is refused, although
the stored envelope agrees with it: the columns print small letters. -/
theorem capital_command_refused :
    ∃ db stored, RoomCall.step corePayloads quietRoom
        (helloCall "AAAAAAAA-AAAA-4AAA-8AAA-AAAAAAAAAAAA") = .ok db ∧
      db.outbox.map (·.envelope) = [stored] ∧
      immutableDraftMatches stored ((helloDraft "AAAAAAAA-AAAA-4AAA-8AAA-AAAAAAAAAAAA").envelope
        helloDrawn.eventId db.room.roomId 2 1001) = true ∧
      RoomCall.step corePayloads db (helloCall "AAAAAAAA-AAAA-4AAA-8AAA-AAAAAAAAAAAA") =
        .error "INVALID_STORED_ROOM_EVENT" := by
  let call := helloCall "AAAAAAAA-AAAA-4AAA-8AAA-AAAAAAAAAAAA"
  have hrun : (RoomCall.step corePayloads quietRoom call).toOption.any (fun db =>
      (db.outbox.map (·.envelope)).length = 1 &&
      (db.outbox.map (·.envelope)).all (fun stored => immutableDraftMatches stored
        ((helloDraft "AAAAAAAA-AAAA-4AAA-8AAA-AAAAAAAAAAAA").envelope
          helloDrawn.eventId db.room.roomId 2 1001)) &&
      (RoomCall.step corePayloads db call).map (fun _ => ()) =
        .error "INVALID_STORED_ROOM_EVENT") = true := by
    decide +kernel
  obtain ⟨db, hdb, hrun⟩ := (Option.any_eq_true ..).mp hrun
  rw [Bool.and_eq_true, Bool.and_eq_true, decide_eq_true_eq, decide_eq_true_eq] at hrun
  obtain ⟨⟨hone, hall⟩, hsecond⟩ := hrun
  obtain ⟨stored, hstored⟩ := List.length_eq_one_iff.mp hone
  have hmatches := List.all_eq_true.mp hall stored (by rw [hstored]; exact List.mem_singleton_self _)
  exact ⟨db, stored, toOption_eq_some hdb, hstored, hmatches, map_eq_error.mp hsecond⟩

end LearningOrbit.Rooms
