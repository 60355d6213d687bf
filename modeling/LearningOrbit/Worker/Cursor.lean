import LearningOrbit.Runs
import LearningOrbit.Worker.Adapted

/-!
# Failed deliveries and the cursor

`consume` enters an event into the history and takes it out of the buffer before
the steps that can raise. A raise therefore leaves an event that is recorded but
neither applied nor buffered, and a replay steps over a gap. What holds is stated
for deliveries that do not raise and replays of a history without a gap.
-/

namespace LearningOrbit.Worker

open LearningOrbit (Host Dict Along)
open LearningOrbit.Reference

/-! ## When an event raises -/

/-- An event `_apply_one` raises on: its ingest time does not parse, or it is adapted to a
message that mentions an actor without a name. -/
def Raises (h : Host) (index : MessageLineageIndex) (event : RoomEvent) : Prop :=
  event.ingestTime = none ∨
    ∃ chat next, adaptOne h index event = some (chat, next) ∧ "" ∈ chat.mentions

/-- The index after one event. -/
def indexAfter (h : Host) (index : MessageLineageIndex) (event : RoomEvent) :
    MessageLineageIndex :=
  ((adaptOne h index event).map Prod.snd).getD index

/-- Events that are applied one after another without a raise. -/
def Sound (h : Host) : MessageLineageIndex → List RoomEvent → Prop
  | _, [] => True
  | index, e :: es => ¬ Raises h index e ∧ Sound h (indexAfter h index e) es

instance (h : Host) (index : MessageLineageIndex) (event : RoomEvent) :
    Decidable (Raises h index event) :=
  decidable_of_iff
    (event.ingestTime = none ∨ ∃ r, adaptOne h index event = some r ∧ "" ∈ r.1.mentions)
    (by simp only [Raises, Prod.exists])

instance Sound.decidable (h : Host) : ∀ index events, Decidable (Sound h index events)
  | _, [] => isTrue trivial
  | index, e :: es =>
    have := Sound.decidable h (indexAfter h index e) es
    inferInstanceAs (Decidable (¬ Raises h index e ∧ Sound h (indexAfter h index e) es))

theorem mem_keys_foldl_setDefault {l : List String} {d : Dict String String} {a : String}
    (ha : a ∈ d.keys ∨ a ∈ l) :
    a ∈ (l.foldl (fun d k => d.setDefault k "mention") d).keys := by
  induction l generalizing d with
  | nil =>
    rcases ha with ha | ha
    · exact ha
    · cases ha
  | cons k ks ih =>
    have hset : (d.setDefault k "mention").keys ⊇ d.keys ∧ k ∈ (d.setDefault k "mention").keys := by
      cases hk : d.get? k with
      | some v =>
        rw [Dict.setDefault_of_get? hk]
        exact ⟨fun _ h => h, Dict.mem_keys.mpr ⟨v, hk⟩⟩
      | none =>
        rw [Dict.setDefault_of_none hk]
        exact ⟨fun _ h => Dict.mem_keys_set.mpr (.inr h), Dict.mem_keys_set.mpr (.inl rfl)⟩
    apply ih
    rcases ha with ha | ha
    · exact .inl (hset.1 ha)
    · rcases List.mem_cons.mp ha with rfl | ha
      · exact .inl hset.2
      · exact .inr ha

/-- A mention without a name is refused as evidence. -/
theorem communicationEvidence_raises {event : ChatEvent} (parent : Option ChatEvent)
    (hm : "" ∈ event.mentions) (l : List EdgeEvidence) :
    communicationEvidence event parent ≠ .ok l := by
  have hkey : "" ∈ (communicationTargets parent event.mentions).keys :=
    mem_keys_foldl_setDefault (.inr hm)
  have hsize : (communicationTargets parent event.mentions).size ≠ 0 := by
    have := Dict.size_erase_lt hkey
    omega
  unfold communicationEvidence
  dsimp only
  rw [if_neg hsize]
  intro hl
  obtain ⟨item, hitem⟩ := ok_of_mapM_ok hl "" ((List.mem_insertionSort _).mpr hkey)
  obtain ⟨_, hvalid, -⟩ := bind_eq_ok.mp hitem
  obtain ⟨_, -, hvalid⟩ := bind_eq_ok.mp hvalid
  obtain ⟨_, htarget, -⟩ := bind_eq_ok.mp hvalid
  exact requireNonemptyString_eq_ok.mp htarget rfl

theorem Projection.reduce_raises (h : Host) (replaying late : Bool) (warnings : List String)
    (p : Projection) {chat : ChatEvent} (hm : "" ∈ chat.mentions) (r : Applied) :
    (p.reduce h replaying late warnings chat).2 ≠ .ok r := by
  intro hr
  unfold Projection.reduce at hr
  dsimp only at hr
  split at hr
  · cases hr
  · cases hr
  · rename_i evidence _ hevidence
    obtain ⟨l, hl, -⟩ := bind_eq_ok.mp hevidence
    exact communicationEvidence_raises _ hm l hl

/-- What `_apply_one` can do: raise on the timestamp, pass the event by, or reduce it. -/
theorem Projection.applyOne_cases (h : Host) (replaying : Bool) (p : Projection)
    (event : RoomEvent) :
    (event.ingestTime = none ∧ ∃ e, p.applyOne h replaying event = (p, .error e)) ∨
    (event.ingestTime ≠ none ∧ adaptOne h p.lineage event = none ∧
      ∃ q r, p.applyOne h replaying event = (q, .ok r) ∧ q.lineage = p.lineage) ∨
    (event.ingestTime ≠ none ∧
      ∃ (chat : ChatEvent) (q : Projection) (late : Bool) (warnings : List String),
      adaptOne h p.lineage event = some (chat, q.lineage) ∧
      p.applyOne h replaying event = q.reduce h replaying late warnings chat) := by
  cases hi : event.ingestTime with
  | none =>
    refine .inl ⟨rfl, "invalid room event timestamp", ?_⟩
    unfold Projection.applyOne
    rw [hi]
  | some ingest =>
    refine .inr ?_
    rw [adaptOne_of_ingest hi]
    unfold Projection.applyOne
    rw [hi]
    dsimp only
    by_cases hs : event.type.semantic = true
    · simp only [hs, ↓reduceIte]
      have htime : (p.decide event ingest).effectiveEventTime = effectiveTime event ingest := rfl
      have hlin : (p.observe (p.decide event ingest)).lineage = p.lineage := rfl
      rw [htime, hlin]
      cases hc : toChatEvent h p.lineage event (effectiveTime event ingest) ingest with
      | error e => exact .inl ⟨by simp, rfl, _, _, rfl, rfl⟩
      | ok r =>
        exact .inr ⟨by simp, r.1, { p.observe (p.decide event ingest) with lineage := r.2 },
          _, _, rfl, rfl⟩
    · simp only [hs, Bool.false_eq_true, ↓reduceIte]
      exact .inl ⟨by simp, trivial, _, _, rfl, rfl⟩

theorem Projection.applyOne_of_raises {h : Host} {p : Projection} {event : RoomEvent}
    (replaying : Bool) (hr : Raises h p.lineage event) :
    ∃ q e, p.applyOne h replaying event = (q, .error e) := by
  rcases p.applyOne_cases h replaying event with ⟨-, e, he⟩ | ⟨ht, hnone, -⟩ |
    ⟨ht, chat, q, late, warnings, hsome, heq⟩
  · exact ⟨p, e, he⟩
  · rcases hr with hr | ⟨chat, next, hr, -⟩
    · exact absurd hr ht
    · rw [hnone] at hr
      cases hr
  · rcases hr with hr | ⟨chat', next, hr, hm⟩
    · exact absurd hr ht
    · rw [hsome] at hr
      cases hr
      rw [heq]
      cases hq : q.reduce h replaying late warnings chat with
      | mk t result =>
        cases result with
        | error e => exact ⟨t, e, rfl⟩
        | ok r => exact absurd (congrArg Prod.snd hq) (q.reduce_raises h replaying late warnings hm r)

theorem Projection.applyOne_of_sound {h : Host} {p : Projection} {event : RoomEvent}
    (replaying : Bool) (hr : ¬ Raises h p.lineage event) :
    ∃ q r, p.applyOne h replaying event = (q, .ok r) ∧
      q.lineage = indexAfter h p.lineage event := by
  rcases p.applyOne_cases h replaying event with ⟨ht, -⟩ | ⟨-, hnone, q, r, hok, hlineage⟩ |
    ⟨-, chat, q, late, warnings, hsome, heq⟩
  · exact absurd (.inl ht) hr
  · refine ⟨q, r, hok, ?_⟩
    rw [hlineage, indexAfter, hnone]
    rfl
  · have hm : "" ∉ chat.mentions := fun hm => hr (.inr ⟨chat, _, hsome, hm⟩)
    obtain ⟨_, _, _, -, -, -, -, hred⟩ := q.reduce_eq h replaying late warnings hm
    refine ⟨_, _, heq.trans hred, ?_⟩
    rw [indexAfter, hsome]
    rfl

namespace StreamingProjector

/-! ## A failed delivery -/

/-- The buffered events that follow the cursor without a gap. -/
def chain (pending : Dict Nat RoomEvent) : Nat → Nat → List RoomEvent
  | 0, _ => []
  | fuel + 1, cursor =>
    match pending.get? (cursor + 1) with
    | none => []
    | some event => event :: chain pending fuel (cursor + 1)

theorem chain_congr {pending pending' : Dict Nat RoomEvent} {fuel cursor : Nat}
    (heq : ∀ k, cursor < k → pending.get? k = pending'.get? k) :
    chain pending fuel cursor = chain pending' fuel cursor := by
  induction fuel generalizing cursor with
  | zero => rfl
  | succ fuel ih =>
    have hrest : chain pending fuel (cursor + 1) = chain pending' fuel (cursor + 1) :=
      ih fun k hk => heq k (by omega)
    rw [chain, chain, heq (cursor + 1) (by omega), hrest]

theorem chain_erase (pending : Dict Nat RoomEvent) (fuel cursor : Nat) :
    chain (pending.erase cursor) fuel cursor = chain pending fuel cursor := by
  apply chain_congr
  intro k hk
  rw [Dict.get?_erase, if_neg (by omega)]

/-- The events `consume` would apply: the delivered one and the buffered ones behind it. -/
def following (s : StreamingProjector) (event : RoomEvent) : List RoomEvent :=
  let pending := s.pending.set event.roomSeq event
  chain pending pending.size s.completeThroughRoomSeq

/-- The loop ends without a raise exactly if no event of the chain raises; either way the
history stays. -/
theorem drain_sound (h : Host) (fuel : Nat) (s : StreamingProjector) (last : Applied) :
    (s.drain h fuel last).1.history = s.history ∧
      ((∃ r, (s.drain h fuel last).2 = .ok r) ↔
        Sound h s.state.lineage (chain s.pending fuel s.completeThroughRoomSeq)) := by
  induction fuel generalizing s last with
  | zero => exact ⟨rfl, fun _ => trivial, fun _ => ⟨last, rfl⟩⟩
  | succ fuel ih =>
    rw [drain, chain]
    cases hget : s.pending.get? (s.completeThroughRoomSeq + 1) with
    | none => exact ⟨rfl, fun _ => trivial, fun _ => ⟨last, rfl⟩⟩
    | some event =>
      dsimp only [Sound]
      by_cases hr : Raises h s.state.lineage event
      · obtain ⟨q, e, hq⟩ := Projection.applyOne_of_raises false hr
        rw [hq]
        refine ⟨rfl, ?_, fun hsound => absurd hr hsound.1⟩
        rintro ⟨_, hok⟩
        cases hok
      · obtain ⟨q, r, hq, hlineage⟩ := Projection.applyOne_of_sound false hr
        obtain ⟨hhistory, hiff⟩ := ih { s with
          pending := s.pending.erase (s.completeThroughRoomSeq + 1)
          state := q
          completeThroughRoomSeq := s.completeThroughRoomSeq + 1 } r
        dsimp only at hhistory hiff
        rw [chain_erase, hlineage] at hiff
        rw [hq]
        exact ⟨hhistory, hiff.trans ⟨fun hsound => ⟨hr, hsound⟩, And.right⟩⟩

/-- What `consume` checks before it enters an event into the history. -/
def Accepts (s : StreamingProjector) (event : RoomEvent) : Prop :=
  event.roomId = s.roomId ∧ 1 ≤ event.roomSeq ∧ 1 ≤ event.revision ∧
    ∀ item ∈ s.history, ¬ (item.eventId = event.eventId ∧ item.revision = event.revision)

instance (s : StreamingProjector) (event : RoomEvent) : Decidable (s.Accepts event) :=
  inferInstanceAs (Decidable (_ ∧ _ ∧ _ ∧ ∀ item ∈ s.history, ¬ (_ ∧ _)))

theorem consume_of_accepts {h : Host} {s : StreamingProjector} {event : RoomEvent}
    (ha : s.Accepts event) : s.consume h event = s.place h event := by
  obtain ⟨hroom, hseq, hrevision, hnew⟩ := ha
  unfold consume
  rw [if_neg (not_not.mpr hroom), if_neg (by omega), if_neg (by omega), if_neg]
  simpa using hnew

theorem consume_of_not_accepts {h : Host} {s : StreamingProjector} {event : RoomEvent}
    (ha : ¬ s.Accepts event) : (s.consume h event).1 = s := by
  unfold consume
  split_ifs with hroom hseq hrevision hknown
  · rfl
  · rfl
  · rfl
  · rfl
  · refine absurd ⟨not_not.mp hroom, by omega, by omega, ?_⟩ ha
    simpa using hknown

/-- The history with one more event. -/
def recorded (s : StreamingProjector) (event : RoomEvent) : StreamingProjector :=
  { s with history := (s.history ++ [event]).insertionSort historyLe }

/-- The event recorded and buffered under its sequence number. -/
def buffered (s : StreamingProjector) (event : RoomEvent) : StreamingProjector :=
  { s.recorded event with pending := s.pending.set event.roomSeq event }

theorem mem_recorded {s : StreamingProjector} {event e : RoomEvent} :
    e ∈ (s.recorded event).history ↔ e ∈ s.history ∨ e = event := by
  unfold recorded
  rw [List.mem_insertionSort, List.mem_append, List.mem_singleton]

theorem recorded_ne {s t : StreamingProjector} {event : RoomEvent}
    (ht : t.history = (s.recorded event).history) : t ≠ s := by
  intro heq
  have hlength := congrArg List.length ht
  rw [heq, recorded, List.length_insertionSort, List.length_append] at hlength
  simp at hlength

theorem place_late {h : Host} {s : StreamingProjector} {event : RoomEvent}
    (hle : event.roomSeq ≤ s.completeThroughRoomSeq) :
    s.place h event =
      ({ s.recorded event with state := { s.state with requiresReplay := true } },
        .ok (.late s.completeThroughRoomSeq)) := by
  unfold place sequenceDecision
  simp only [hle, ↓reduceIte]
  rfl

theorem place_gap {h : Host} {s : StreamingProjector} {event : RoomEvent}
    (hlt : s.completeThroughRoomSeq + 1 < event.roomSeq) :
    s.place h event = (s.buffered event, .ok (.blocked s.completeThroughRoomSeq)) := by
  have hle : ¬ event.roomSeq ≤ s.completeThroughRoomSeq := by omega
  have hne : ¬ event.roomSeq = s.completeThroughRoomSeq + 1 := by omega
  unfold place sequenceDecision
  simp only [hle, hne, ↓reduceIte]
  rfl

/-- The loop of `consume` after an event in sequence. -/
def drained (h : Host) (s : StreamingProjector) (event : RoomEvent) :
    StreamingProjector × Except String Applied :=
  (s.buffered event).drain h (s.buffered event).pending.size ⟨false, none, false, []⟩

theorem place_next {h : Host} {s : StreamingProjector} {event : RoomEvent}
    (heq : event.roomSeq = s.completeThroughRoomSeq + 1) :
    s.place h event = ((s.drained h event).1, (s.drained h event).2.map fun result =>
      .applied result (s.drained h event).1.completeThroughRoomSeq
        (s.drained h event).1.state.requiresReplay) := by
  have hnext : sequenceDecision event.roomSeq s.completeThroughRoomSeq = .next := by
    simp [sequenceDecision, heq]
  have hd : (s.buffered event).drain h (s.buffered event).pending.size ⟨false, none, false, []⟩ =
    s.drained h event := rfl
  unfold place
  simp only [hnext]
  unfold buffered recorded at hd
  rw [hd]
  cases s.drained h event with
  | mk t result => cases result <;> rfl

theorem drained_sound (h : Host) (s : StreamingProjector) (event : RoomEvent) :
    (s.drained h event).1.history = (s.recorded event).history ∧
      ((∃ r, (s.drained h event).2 = .ok r) ↔ Sound h s.state.lineage (s.following event)) :=
  drain_sound h (s.buffered event).pending.size (s.buffered event) ⟨false, none, false, []⟩

/-- A raise leaves the projector as it was. -/
def Retryable (h : Host) (s : StreamingProjector) (event : RoomEvent) : Prop :=
  ∀ t e, s.consume h event = (t, .error e) → t = s

/-- A message of room `r` at a sequence number. -/
def note (seq : Nat) (ingestTime : Option Int) : RoomEvent where
  eventId := "e" ++ toString seq
  roomId := "r"
  roomSeq := seq
  type := .messageAdded
  operation := .add
  actorId := "ada"
  actorKind := .human
  actorRole := some .student
  revision := 1
  eventTime := ingestTime
  ingestTime
  correlationId := "c"
  payload := ⟨some "m", "Plants need light.", none, [], []⟩

/-- The cursor skips nothing: what it covers was received, what was received beyond it is
buffered, and the buffer does not hold the next event. -/
structure Tracks (s : StreamingProjector) : Prop where
  covered : ∀ k, 1 ≤ k → k ≤ s.completeThroughRoomSeq → ∃ e ∈ s.history, e.roomSeq = k
  waiting : ∀ e ∈ s.history, s.completeThroughRoomSeq < e.roomSeq →
    s.pending.get? e.roomSeq = some e
  settled : s.pending.get? (s.completeThroughRoomSeq + 1) = none

/-- What carries over each round of the loop: the buffer may hold the next event. -/
structure Draining (s : StreamingProjector) : Prop where
  covered : ∀ k, 1 ≤ k → k ≤ s.completeThroughRoomSeq → ∃ e ∈ s.history, e.roomSeq = k
  waiting : ∀ e ∈ s.history, s.completeThroughRoomSeq < e.roomSeq →
    s.pending.get? e.roomSeq = some e
  stored : ∀ k e, s.pending.get? k = some e → e ∈ s.history ∧ e.roomSeq = k

theorem Draining.init (roomId : String) : Draining (init roomId) where
  covered k hk hle := by
    change k ≤ 0 at hle
    omega
  waiting e he := by cases he
  stored k e he := by cases he

/-- One round of the loop. -/
theorem Draining.round {s : StreamingProjector} (hs : Draining s) {event : RoomEvent}
    (hget : s.pending.get? (s.completeThroughRoomSeq + 1) = some event) (state : Projection) :
    Draining { s with
      pending := s.pending.erase (s.completeThroughRoomSeq + 1)
      state
      completeThroughRoomSeq := s.completeThroughRoomSeq + 1 } where
  covered k hk hle := by
    by_cases hlast : k = s.completeThroughRoomSeq + 1
    · obtain ⟨hm, hseq⟩ := hs.stored _ event hget
      exact ⟨event, hm, hseq.trans hlast.symm⟩
    · dsimp only at hle
      exact hs.covered k hk (by omega)
  waiting e he hlt := by
    dsimp only at he hlt ⊢
    rw [Dict.get?_erase, if_neg (by omega)]
    exact hs.waiting e he (by omega)
  stored k e he := by
    dsimp only at he
    rw [Dict.get?_erase] at he
    split at he
    · cases he
    · exact hs.stored k e he

/-- A loop that does not raise ends where the next event is missing. -/
theorem Draining.drain {h : Host} {fuel : Nat} {s : StreamingProjector} {last r : Applied}
    (hs : Draining s) (hf : s.pending.size ≤ fuel) (hok : (s.drain h fuel last).2 = .ok r) :
    Draining (s.drain h fuel last).1 ∧
      (s.drain h fuel last).1.pending.get? ((s.drain h fuel last).1.completeThroughRoomSeq + 1) =
        none := by
  induction fuel generalizing s last with
  | zero =>
    refine ⟨hs, ?_⟩
    cases hget : s.pending.get? (s.completeThroughRoomSeq + 1) with
    | none => exact hget
    | some e =>
      have := Dict.size_erase_lt (Dict.mem_keys.mpr ⟨e, hget⟩)
      omega
  | succ fuel ih =>
    rw [StreamingProjector.drain] at hok ⊢
    cases hget : s.pending.get? (s.completeThroughRoomSeq + 1) with
    | none => exact ⟨hs, hget⟩
    | some event =>
      have hsize := Dict.size_erase_lt (Dict.mem_keys.mpr ⟨event, hget⟩)
      rw [hget] at hok
      dsimp only at hok ⊢
      cases hone : s.state.applyOne h false event with
      | mk q result =>
        rw [hone] at hok
        cases result with
        | error e => cases hok
        | ok result => exact ih (hs.round hget q) (by dsimp only; omega) hok

/-- A call of the projector. -/
inductive Call
  | consume (event : RoomEvent)
  | replay

def call (h : Host) (s : StreamingProjector) : Call → StreamingProjector
  | .consume event => (s.consume h event).1
  | .replay => (s.replay h).1

/-- A call that leaves the cursor right. A new event beyond the cursor has its sequence number
to itself, and nothing it would apply raises; a replay finds no event waiting behind a gap,
and none in the history that raises. -/
def Careful (h : Host) (s : StreamingProjector) : Call → Prop
  | .consume event =>
    s.Accepts event → s.completeThroughRoomSeq < event.roomSeq →
      s.pending.get? event.roomSeq = none ∧
        (event.roomSeq = s.completeThroughRoomSeq + 1 →
          Sound h s.state.lineage (s.following event))
  | .replay => s.pending.size = 0 ∧ Sound h .init (s.history.insertionSort historyLe)

instance (h : Host) (s : StreamingProjector) : ∀ c, Decidable (Careful h s c)
  | .consume _ => inferInstanceAs (Decidable (_ → _ → _ ∧ (_ → Sound ..)))
  | .replay => inferInstanceAs (Decidable (_ ∧ Sound ..))

/-- The invariant between two calls. -/
structure Resting (s : StreamingProjector) : Prop extends Draining s where
  settled : s.pending.get? (s.completeThroughRoomSeq + 1) = none

theorem Resting.tracks {s : StreamingProjector} (hs : Resting s) : Tracks s :=
  ⟨hs.covered, hs.waiting, hs.settled⟩

theorem Draining.late {s : StreamingProjector} (hs : Draining s) {event : RoomEvent}
    (hle : event.roomSeq ≤ s.completeThroughRoomSeq) (state : Projection) :
    Draining { s.recorded event with state } where
  covered k hk hlast := by
    obtain ⟨e, he, hseq⟩ := hs.covered k hk hlast
    exact ⟨e, mem_recorded.mpr (.inl he), hseq⟩
  waiting e he hlt := by
    rcases mem_recorded.mp he with he | rfl
    · exact hs.waiting e he hlt
    · exact absurd hle (Nat.not_le.mpr hlt)
  stored k e he := by
    obtain ⟨hm, hseq⟩ := hs.stored k e he
    exact ⟨mem_recorded.mpr (.inl hm), hseq⟩

theorem Draining.buffered {s : StreamingProjector} (hs : Draining s) {event : RoomEvent}
    (hfree : s.pending.get? event.roomSeq = none) : Draining (s.buffered event) where
  covered k hk hlast := by
    obtain ⟨e, he, hseq⟩ := hs.covered k hk hlast
    exact ⟨e, mem_recorded.mpr (.inl he), hseq⟩
  waiting e he hlt := by
    change (s.pending.set event.roomSeq event).get? e.roomSeq = some e
    rw [Dict.get?_set]
    rcases mem_recorded.mp he with he | rfl
    · -- the number of a waiting event is taken, so it is not the new one's
      have hget := hs.waiting e he hlt
      rw [if_neg fun heq => by rw [heq, hfree] at hget; cases hget]
      exact hget
    · rw [if_pos rfl]
  stored k e he := by
    change (s.pending.set event.roomSeq event).get? k = some e at he
    rw [Dict.get?_set] at he
    split at he
    · rename_i heq
      cases he
      exact ⟨mem_recorded.mpr (.inr rfl), heq.symm⟩
    · obtain ⟨hm, hseq⟩ := hs.stored k e he
      exact ⟨mem_recorded.mpr (.inl hm), hseq⟩

theorem Resting.consume {h : Host} {s : StreamingProjector} (hs : Resting s) {event : RoomEvent}
    (hc : Careful h s (.consume event)) : Resting (s.consume h event).1 := by
  by_cases ha : s.Accepts event
  · rw [consume_of_accepts ha]
    rcases Nat.lt_trichotomy event.roomSeq (s.completeThroughRoomSeq + 1) with hlt | heq | hlt
    · rw [place_late (by omega)]
      exact ⟨hs.late (by omega) _, hs.settled⟩
    · obtain ⟨hfree, hsound⟩ := hc ha (by omega)
      obtain ⟨r, hok⟩ := (s.drained_sound h event).2.mpr (hsound heq)
      obtain ⟨hdraining, hsettled⟩ := (hs.buffered hfree).drain (Nat.le_refl _) hok
      rw [place_next heq]
      exact ⟨hdraining, hsettled⟩
    · obtain ⟨hfree, -⟩ := hc ha (by omega)
      rw [place_gap hlt]
      refine ⟨hs.buffered hfree, ?_⟩
      change (s.pending.set event.roomSeq event).get? (s.completeThroughRoomSeq + 1) = none
      rw [Dict.get?_set_of_ne _ _ (by omega)]
      exact hs.settled
  · rw [consume_of_not_accepts ha]
    exact hs

/-- A replay that does not raise ends at the highest sequence number of the history. -/
theorem replayFrom_sound {h : Host} {s : StreamingProjector} {events : List RoomEvent}
    (hsound : Sound h s.state.lineage events) :
    ∃ state c, s.replayFrom h events =
        ({ s with state, completeThroughRoomSeq := c }, .ok ()) ∧
      s.completeThroughRoomSeq ≤ c ∧ (∀ e ∈ events, e.roomSeq ≤ c) ∧
      (c = s.completeThroughRoomSeq ∨ ∃ e ∈ events, e.roomSeq = c) := by
  induction events generalizing s with
  | nil => exact ⟨s.state, s.completeThroughRoomSeq, rfl, Nat.le_refl _, by simp, .inl rfl⟩
  | cons e es ih =>
    obtain ⟨hone, hrest⟩ := hsound
    obtain ⟨q, r, hq, hlineage⟩ := Projection.applyOne_of_sound true hone
    obtain ⟨state, c, hstate, hle, hall, hsome⟩ := ih (s := { s with
      state := q
      completeThroughRoomSeq := max s.completeThroughRoomSeq e.roomSeq })
      (by rw [hlineage]; exact hrest)
    dsimp only at hle hsome
    refine ⟨state, c, ?_, by omega, ?_, ?_⟩
    · rw [replayFrom, hq]
      exact hstate
    · intro f hf
      rcases List.mem_cons.mp hf with rfl | hf
      · omega
      · exact hall f hf
    · rcases hsome with hsame | ⟨f, hf, hseq⟩
      · rcases Nat.le_total s.completeThroughRoomSeq e.roomSeq with hmax | hmax
        · exact .inr ⟨e, List.mem_cons_self .., by omega⟩
        · exact .inl (by omega)
      · exact .inr ⟨f, List.mem_cons_of_mem _ hf, hseq⟩

/-- Without a gap a replay ends at the last event of the history, where the cursor was. -/
theorem Resting.replay {h : Host} {s : StreamingProjector} (hs : Resting s)
    (hc : Careful h s .replay) : Resting (s.replay h).1 := by
  obtain ⟨hempty, hsound⟩ := hc
  obtain ⟨state, c, hstate, -, hall, hsome⟩ := replayFrom_sound (s := { s with
    pending := .empty
    completeThroughRoomSeq := 0
    state := { Projection.init with requiresReplay := s.state.requiresReplay } }) hsound
  have hreached : ∀ e ∈ s.history, e.roomSeq ≤ s.completeThroughRoomSeq := by
    intro e he
    by_contra hlt
    have hget := hs.waiting e he (Nat.not_le.mp hlt)
    have := Dict.size_erase_lt (Dict.mem_keys.mpr ⟨e, hget⟩)
    omega
  have hcursor : c ≤ s.completeThroughRoomSeq := by
    rcases hsome with rfl | ⟨e, he, rfl⟩
    · exact Nat.zero_le _
    · exact hreached e ((List.mem_insertionSort _).mp he)
  unfold StreamingProjector.replay
  dsimp only at hstate ⊢
  rw [hstate]
  exact
    { covered := fun k hk hle => hs.covered k hk (Nat.le_trans hle hcursor)
      waiting := fun e he hlt =>
        absurd (hall e ((List.mem_insertionSort _).mpr he)) (Nat.not_le.mpr hlt)
      stored := fun k e he => by cases he
      settled := rfl }

theorem Resting.step {h : Host} {s : StreamingProjector} (hs : Resting s) {c : Call}
    (hc : Careful h s c) : Resting (s.call h c) := by
  cases c with
  | consume event => exact hs.consume hc
  | replay => exact hs.replay hc

end StreamingProjector

end LearningOrbit.Worker
