import Mathlib.Data.String.Basic
import LearningOrbit.Worker.Projector

/-!
# Arrival order does not matter

A room ledger delivered in any order, with any number of repeats, leaves the
projector where the in-order delivery leaves it. The invariant says, for the
set of events received so far: the history is that set in ledger order, the
cursor covers the longest received prefix, the buffer holds the rest, and the
projection is the fold over the prefix.
-/

namespace LearningOrbit.Worker

open LearningOrbit (Host Dict)
open LearningOrbit.Reference

/-- The events of one room in sequence order, as the server stores them, with timestamps
that parse. -/
structure RoomLedger where
  roomId : String
  events : List RoomEvent
  contiguous : events.map (·.roomSeq) = List.range' 1 events.length
  distinct : (events.map (·.eventId)).Nodup
  room : ∀ e ∈ events, e.roomId = roomId
  wellFormed : ∀ e ∈ events, e.WellFormed
  ingestParses : ∀ e ∈ events, e.ingestTime.isSome
  eventParses : ∀ e ∈ events, e.eventTime.isSome

/-- A well-formed event whose ingest time parses is applied without a raise. -/
theorem Projection.applyOne_ok (h : Host) (replaying : Bool) (p : Projection) {event : RoomEvent}
    (hw : event.WellFormed) (ht : event.ingestTime.isSome) :
    ∃ r, (p.applyOne h replaying event).2 = .ok r := by
  obtain ⟨ingest, hi⟩ := Option.isSome_iff_exists.mp ht
  unfold Projection.applyOne
  rw [hi]
  dsimp only
  split
  · split
    · exact ⟨_, rfl⟩
    · rename_i chat lineage hchat
      obtain ⟨before, composite, -, hf, -⟩ := toChatEvent_eq_ok hchat
      have hm : "" ∉ chat.mentions := by
        rw [hf]
        exact hw.mentions
      obtain ⟨_, _, _, -, -, -, -, hr⟩ := Projection.reduce_eq h replaying
        (p.decide event ingest).tooLate (p.decide event ingest).warnings
        { p.observe (p.decide event ingest) with lineage } hm
      exact ⟨_, congrArg Prod.snd hr⟩
  · exact ⟨_, rfl⟩

namespace RoomLedger

variable (L : RoomLedger)

theorem getElem?_of_mem {e : RoomEvent} (he : e ∈ L.events) :
    L.events[e.roomSeq - 1]? = some e := by
  obtain ⟨i, hi, rfl⟩ := List.mem_iff_getElem.mp he
  have hs : (L.events.map (·.roomSeq))[i]? = some (L.events[i]).roomSeq := by
    simp [hi]
  rw [L.contiguous, List.getElem?_range' hi] at hs
  have : (L.events[i]).roomSeq = i + 1 := by
    have := Option.some.inj hs
    omega
  simp [this, hi]

theorem eq_of_roomSeq {a b : RoomEvent} (ha : a ∈ L.events) (hb : b ∈ L.events)
    (h : a.roomSeq = b.roomSeq) : a = b := by
  have hA := L.getElem?_of_mem ha
  rw [h, L.getElem?_of_mem hb] at hA
  exact (Option.some.inj hA).symm

theorem roomSeq_le {e : RoomEvent} (he : e ∈ L.events) : e.roomSeq ≤ L.events.length := by
  have := (List.getElem?_eq_some_iff.mp (L.getElem?_of_mem he)).1
  omega

theorem exists_roomSeq {k : Nat} (hk : k < L.events.length) :
    ∃ e ∈ L.events, e.roomSeq = k + 1 := by
  refine ⟨L.events[k], List.getElem_mem hk, ?_⟩
  have hs : (L.events.map (·.roomSeq))[k]? = some (L.events[k]).roomSeq := by
    simp [hk]
  rw [L.contiguous, List.getElem?_range' hk] at hs
  have := Option.some.inj hs
  omega

theorem nodup : L.events.Nodup := L.distinct.of_map _

theorem eq_of_eventId {a b : RoomEvent} (ha : a ∈ L.events) (hb : b ∈ L.events)
    (h : a.eventId = b.eventId) : a = b :=
  List.inj_on_of_nodup_map L.distinct ha hb h

theorem sorted : L.events.Pairwise historyLe := by
  have hlt : L.events.Pairwise fun a b => a.roomSeq < b.roomSeq := by
    rw [← List.pairwise_map, L.contiguous]
    exact List.pairwise_lt_range' ..
  exact hlt.imp fun h => .inl h

theorem take_succ {e : RoomEvent} (he : e ∈ L.events) {c : Nat} (hc : e.roomSeq = c + 1) :
    L.events.take (c + 1) = L.events.take c ++ [e] := by
  have hg := L.getElem?_of_mem he
  rw [hc, Nat.add_sub_cancel] at hg
  rw [List.take_add_one, hg]
  rfl

end RoomLedger

instance : Std.Total historyLe where
  total a b := by
    unfold historyLe
    rcases Nat.lt_trichotomy a.roomSeq b.roomSeq with h | h | h
    · exact .inl (.inl h)
    · rcases le_total a.eventId b.eventId with he | he
      · exact .inl (.inr ⟨h, he⟩)
      · exact .inr (.inr ⟨h.symm, he⟩)
    · exact .inr (.inl h)

instance : IsTrans RoomEvent historyLe where
  trans a b c hab hbc := by
    unfold historyLe at *
    rcases hab with h | ⟨h, he⟩ <;> rcases hbc with h' | ⟨h', he'⟩
    · exact .inl (by omega)
    · exact .inl (by omega)
    · exact .inl (by omega)
    · exact .inr ⟨by omega, he.trans he'⟩

namespace StreamingProjector

/-- The projection of the first `c` events of a ledger. -/
def prefixState (h : Host) (L : RoomLedger) (c : Nat) : Projection :=
  (L.events.take c).foldl (fun p e => (p.applyOne h false e).1) .init

/-- What holds of the projector while `R` are the events received so far. -/
structure Holds (h : Host) (L : RoomLedger) (R : List RoomEvent) (s : StreamingProjector) :
    Prop where
  room : s.roomId = L.roomId
  covered : ∀ e ∈ L.events, e.roomSeq ≤ s.completeThroughRoomSeq → e ∈ R
  bound : s.completeThroughRoomSeq ≤ L.events.length
  history : s.history = L.events.filter (· ∈ R)
  buffered : ∀ k e, s.pending.get? k = some e ↔
    e ∈ L.events ∧ e ∈ R ∧ e.roomSeq = k ∧ s.completeThroughRoomSeq < k
  state : s.state = prefixState h L s.completeThroughRoomSeq

/-- Between two deliveries the next event has not arrived. -/
structure Settled (h : Host) (L : RoomLedger) (R : List RoomEvent) (s : StreamingProjector) :
    Prop extends Holds h L R s where
  stuck : s.pending.get? (s.completeThroughRoomSeq + 1) = none

variable {h : Host} {L : RoomLedger} {R : List RoomEvent} {s : StreamingProjector}

theorem init_settled (h : Host) (L : RoomLedger) : Settled h L [] (init L.roomId) where
  room := rfl
  covered e he hle := by
    have := (L.wellFormed e he).roomSeq
    simp only [init] at hle
    omega
  bound := Nat.zero_le _
  history := by simp [init]
  buffered k e := by simp [init]
  state := by simp [init, prefixState]
  stuck := rfl

/-- One round of the drain loop. -/
theorem Holds.apply_next (hs : Holds h L R s) {e : RoomEvent}
    (hp : s.pending.get? (s.completeThroughRoomSeq + 1) = some e) :
    ∃ r, s.state.applyOne h false e = ((s.state.applyOne h false e).1, .ok r) ∧
      Holds h L R { s with
        pending := s.pending.erase (s.completeThroughRoomSeq + 1)
        state := (s.state.applyOne h false e).1
        completeThroughRoomSeq := s.completeThroughRoomSeq + 1 } := by
  obtain ⟨he, hR, hseq, -⟩ := (hs.buffered _ e).mp hp
  obtain ⟨r, hr⟩ := Projection.applyOne_ok h false s.state (L.wellFormed e he) (L.ingestParses e he)
  refine ⟨r, Prod.ext rfl hr, ?_⟩
  constructor
  · exact hs.room
  · intro a ha hle
    by_cases hlt : a.roomSeq ≤ s.completeThroughRoomSeq
    · exact hs.covered a ha hlt
    · have heq : a.roomSeq = e.roomSeq := by
        simp only at hle
        omega
      exact L.eq_of_roomSeq ha he heq ▸ hR
  · have := L.roomSeq_le he
    simp only
    omega
  · exact hs.history
  · intro k a
    simp only [Dict.get?_erase]
    by_cases hk : k = s.completeThroughRoomSeq + 1
    · subst hk
      simp only [↓reduceIte, reduceCtorEq, false_iff]
      omega
    · simp only [hk, ↓reduceIte, hs.buffered]
      constructor
      · rintro ⟨h1, h2, h3, h4⟩; exact ⟨h1, h2, h3, by omega⟩
      · rintro ⟨h1, h2, h3, h4⟩; exact ⟨h1, h2, h3, by omega⟩
  · simp only [prefixState, L.take_succ he hseq, List.foldl_append, List.foldl_cons,
      List.foldl_nil]
    rw [hs.state, prefixState]

/-- The drain loop ends settled, one buffered event per round. -/
theorem Holds.drain (hs : Holds h L R s) {fuel : Nat} (hf : s.pending.size ≤ fuel)
    (last : Applied) : ∃ t r, s.drain h fuel last = (t, .ok r) ∧ Settled h L R t := by
  induction fuel generalizing s last with
  | zero =>
    refine ⟨s, last, rfl, hs, ?_⟩
    cases hp : s.pending.get? (s.completeThroughRoomSeq + 1) with
    | none => rfl
    | some e =>
      have := Dict.size_erase_lt (Dict.mem_keys.mpr ⟨e, hp⟩)
      omega
  | succ fuel ih =>
    cases hp : s.pending.get? (s.completeThroughRoomSeq + 1) with
    | none => exact ⟨s, last, by simp [StreamingProjector.drain, hp], hs, hp⟩
    | some e =>
      obtain ⟨r, hr, hn⟩ := hs.apply_next hp
      have hlt := Dict.size_erase_lt (Dict.mem_keys.mpr ⟨e, hp⟩)
      obtain ⟨t, r', hd, hset⟩ := ih hn (by simp only; omega) r
      refine ⟨t, r', ?_, hset⟩
      simp only [StreamingProjector.drain, hp]
      rw [hr]
      exact hd

/-- Entering a new event re-sorts the history into ledger order. -/
theorem insert_history (L : RoomLedger) (R : List RoomEvent) {e : RoomEvent} (he : e ∈ L.events)
    (hR : e ∉ R) :
    (L.events.filter (· ∈ R) ++ [e]).insertionSort historyLe = L.events.filter (· ∈ e :: R) := by
  have hnodup : (L.events.filter (· ∈ R) ++ [e]).Nodup := by
    rw [List.nodup_append]
    refine ⟨L.nodup.filter _, by simp, ?_⟩
    intro a ha b hb hab
    rw [List.mem_singleton.mp hb] at hab
    subst hab
    exact hR (by simpa using (List.mem_filter.mp ha).2)
  have hperm : (L.events.filter (· ∈ R) ++ [e]).Perm (L.events.filter (· ∈ e :: R)) := by
    rw [List.perm_ext_iff_of_nodup hnodup (L.nodup.filter _)]
    intro a
    rw [List.mem_append, List.mem_filter, List.mem_filter, List.mem_singleton]
    simp only [List.mem_cons, decide_eq_true_eq]
    constructor
    · rintro (⟨h1, h2⟩ | rfl)
      · exact ⟨h1, .inr h2⟩
      · exact ⟨he, .inl rfl⟩
    · rintro ⟨h1, rfl | h2⟩
      · exact .inr rfl
      · exact .inl ⟨h1, h2⟩
  refine List.Perm.eq_of_pairwise ?_ (List.pairwise_insertionSort _ _) (L.sorted.filter _)
    ((List.perm_insertionSort _ _).trans hperm)
  intro a b ha hb hab hba
  have ha' : a ∈ L.events := by
    rw [List.mem_insertionSort] at ha
    rcases List.mem_append.mp ha with h | h
    · exact (List.mem_filter.mp h).1
    · exact List.mem_singleton.mp h ▸ he
  refine L.eq_of_roomSeq ha' (List.mem_filter.mp hb).1 ?_
  unfold historyLe at hab hba
  omega

/-- A new event enters the history and the buffer. -/
theorem Settled.buffer (hs : Settled h L R s) {e : RoomEvent} (he : e ∈ L.events) (hR : e ∉ R)
    (hc : s.completeThroughRoomSeq < e.roomSeq) :
    Holds h L (e :: R) { s with
      history := (s.history ++ [e]).insertionSort historyLe
      pending := s.pending.set e.roomSeq e } where
  room := hs.room
  covered a ha hle := List.mem_cons_of_mem _ (hs.covered a ha hle)
  bound := hs.bound
  history := by
    simp only [hs.history]
    exact insert_history L R he hR
  buffered k a := by
    simp only [Dict.get?_set, List.mem_cons]
    by_cases hk : k = e.roomSeq
    · subst hk
      simp only [↓reduceIte, Option.some.injEq]
      constructor
      · rintro rfl; exact ⟨he, .inl rfl, rfl, hc⟩
      · rintro ⟨h1, -, h3, -⟩; exact (L.eq_of_roomSeq h1 he h3).symm
    · simp only [hk, ↓reduceIte, hs.buffered]
      constructor
      · rintro ⟨h1, h2, h3, h4⟩; exact ⟨h1, .inr h2, h3, h4⟩
      · rintro ⟨h1, rfl | h2, h3, h4⟩
        · exact absurd h3.symm hk
        · exact ⟨h1, h2, h3, h4⟩
  state := hs.state

/-- One delivery of a ledger event, new or repeated. -/
theorem Settled.consume (hs : Settled h L R s) {e : RoomEvent} (he : e ∈ L.events) :
    ∃ t o, s.consume h e = (t, .ok o) ∧ Settled h L (e :: R) t := by
  have hw := L.wellFormed e he
  have hroom : ¬ e.roomId ≠ s.roomId := by
    rw [hs.room, L.room e he]
    simp
  have hseq : ¬ e.roomSeq < 1 := by have := hw.roomSeq; omega
  have hrev : ¬ e.revision < 1 := by have := hw.revision; omega
  unfold StreamingProjector.consume
  simp only [hroom, hseq, hrev, ↓reduceIte]
  by_cases hR : e ∈ R
  · have hdup : s.history.any
        (fun item => item.eventId = e.eventId && item.revision = e.revision) = true := by
      rw [hs.history, List.any_eq_true]
      exact ⟨e, List.mem_filter.mpr ⟨he, by simpa using hR⟩, by simp⟩
    simp only [hdup, ↓reduceIte]
    have hset : ∀ a, a ∈ e :: R ↔ a ∈ R := by
      intro a
      rw [List.mem_cons]
      exact ⟨fun h => h.elim (fun h => h ▸ hR) id, .inr⟩
    refine ⟨s, _, rfl, ⟨⟨hs.room, ?_, hs.bound, ?_, ?_, hs.state⟩, hs.stuck⟩⟩
    · intro a ha hle
      exact (hset a).mpr (hs.covered a ha hle)
    · simp only [hset, hs.history]
    · intro k a
      rw [hset, hs.buffered]
  · have hnew : s.history.any
        (fun item => item.eventId = e.eventId && item.revision = e.revision) = false := by
      rw [hs.history, List.any_eq_false]
      intro a ha hk
      obtain ⟨hid, -⟩ : a.eventId = e.eventId ∧ a.revision = e.revision := by simpa using hk
      obtain ⟨haL, haR⟩ := List.mem_filter.mp ha
      exact hR (L.eq_of_eventId haL he hid ▸ by simpa using haR)
    have hc : s.completeThroughRoomSeq < e.roomSeq := by
      by_contra hle
      exact hR (hs.covered e he (by omega))
    have hb := hs.buffer he hR hc
    simp only [hnew, Bool.false_eq_true, ↓reduceIte, StreamingProjector.place, sequenceDecision,
      Nat.not_le.mpr hc]
    split
    · rename_i hd
      split at hd
      · cases hd
      · cases hd
    · rename_i hd
      split at hd
      · cases hd
      · rename_i hne
        refine ⟨_, _, rfl, hb, ?_⟩
        simp only [Dict.get?_set, hs.stuck]
        split
        · omega
        · rfl
    · obtain ⟨t, r, hd, hset⟩ := hb.drain (Nat.le_refl _) ⟨false, none, false, []⟩
      simp only [hd]
      exact ⟨t, _, rfl, hset⟩

/-- A whole feed of ledger events, in any order and with repeats. -/
theorem Settled.feed (hs : Settled h L R s) (arrivals : List RoomEvent)
    (ha : ∀ e ∈ arrivals, e ∈ L.events) :
    ∃ t, s.feed h arrivals = .ok t ∧ Settled h L (arrivals.reverse ++ R) t := by
  induction arrivals generalizing s R with
  | nil => exact ⟨s, rfl, hs⟩
  | cons e rest ih =>
    obtain ⟨t, o, hc, hset⟩ := hs.consume (ha e (List.mem_cons_self ..))
    obtain ⟨u, hu, hfin⟩ := ih hset fun a h => ha a (List.mem_cons_of_mem _ h)
    refine ⟨u, ?_, by simpa using hfin⟩
    simp only [StreamingProjector.feed, hc]
    exact hu

/-- Once everything has arrived the projector is determined. -/
theorem Settled.complete (hs : Settled h L R s) (hall : ∀ e ∈ L.events, e ∈ R) :
    s = ⟨L.roomId, L.events.length, L.events, .empty, prefixState h L L.events.length⟩ := by
  have hcursor : s.completeThroughRoomSeq = L.events.length := by
    by_contra hne
    have hlt : s.completeThroughRoomSeq < L.events.length := by
      have := hs.bound
      omega
    obtain ⟨e, he, hseq⟩ := L.exists_roomSeq hlt
    have hp := (hs.buffered _ e).mpr ⟨he, hall e he, hseq, by omega⟩
    rw [hs.stuck] at hp
    cases hp
  have hpending : s.pending = .empty := by
    apply Dict.ext_entries
    change s.pending.entries = []
    rw [List.eq_nil_iff_forall_not_mem]
    rintro ⟨k, e⟩ hmem
    obtain ⟨he, -, hseq, hlt⟩ := (hs.buffered k e).mp (Dict.get?_eq_some.mpr hmem)
    have := L.roomSeq_le he
    omega
  have hhistory : s.history = L.events := by
    rw [hs.history, List.filter_eq_self]
    intro e he
    simpa using hall e he
  have hstate := hs.state
  rw [hcursor] at hstate
  have hroom := hs.room
  cases s
  simp_all

/-- Every delivery of a room ledger, in whatever order and with whatever repeats, ends with
the cursor at the last event, an empty buffer and exactly the projector of the in-order
delivery. -/
theorem feed_any_order (h : Host) (L : RoomLedger) (arrivals : List RoomEvent)
    (hm : ∀ e, e ∈ arrivals ↔ e ∈ L.events) :
    ∃ t, (init L.roomId).feed h arrivals = .ok t ∧ (init L.roomId).feed h L.events = .ok t ∧
      t.completeThroughRoomSeq = L.events.length ∧ t.pending = .empty := by
  obtain ⟨t, ht, hset⟩ := (init_settled h L).feed arrivals fun e he => (hm e).mp he
  obtain ⟨u, hu, huset⟩ := (init_settled h L).feed L.events fun e he => he
  have htc := hset.complete fun e he => by simpa using (hm e).mpr he
  have huc := huset.complete fun e he => by simpa using he
  refine ⟨t, ht, ?_, by rw [htc], by rw [htc]⟩
  rw [hu, huc, htc]

/-- A room that opens and receives one message. -/
def openedRoom : RoomLedger where
  roomId := "room"
  events :=
    [ { eventId := "e1", roomId := "room", roomSeq := 1, type := .other "room.opened"
        operation := .add, actorId := "teacher", actorKind := .human, actorRole := some .teacher
        revision := 1, eventTime := some 0, ingestTime := some 0, correlationId := "c1"
        payload := ⟨none, "", none, [], []⟩ },
      { eventId := "e2", roomId := "room", roomSeq := 2, type := .messageAdded
        operation := .add, actorId := "amy", actorKind := .human, actorRole := some .student
        revision := 1, eventTime := some 1, ingestTime := some 1, correlationId := "c2"
        payload := ⟨some "m1", "the sun provides energy to producers", none, ["ben"], []⟩ } ]
  contiguous := by decide
  distinct := by decide
  room := by decide
  wellFormed := by
    simp only [List.mem_cons, List.not_mem_nil, or_false, forall_eq_or_imp, forall_eq]
    exact ⟨⟨by decide, by decide, by decide, by decide, by decide, by decide⟩,
      ⟨by decide, by decide, by decide, by decide, by decide, by decide⟩⟩
  ingestParses := by decide
  eventParses := by decide

theorem feed_any_order_openedRoom :
    ∃ t, (init "room").feed .ascii (openedRoom.events.reverse ++ openedRoom.events) = .ok t ∧
      (init "room").feed .ascii openedRoom.events = .ok t ∧
      t.completeThroughRoomSeq = 2 ∧ t.pending = .empty :=
  feed_any_order .ascii openedRoom _ fun e => by simp

end StreamingProjector

end LearningOrbit.Worker
