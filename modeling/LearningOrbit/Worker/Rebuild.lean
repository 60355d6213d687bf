import LearningOrbit.Worker.Materialize

/-!
# What a materialization builds

The effective prefix of a ledger is again a ledger, so a consume ends with the
projector of that prefix and a replay with its ungated run. What a handler does
is said once here; the results about runs rest on it.
-/

namespace LearningOrbit.Worker

open LearningOrbit (Host Dict)
open LearningOrbit.Reference

theorem effectiveEvent_fields (o : Overlay) (e : RoomEvent) :
    (effectiveEvent o e).eventId = e.eventId ∧ (effectiveEvent o e).roomId = e.roomId ∧
    (effectiveEvent o e).roomSeq = e.roomSeq ∧ (effectiveEvent o e).actorId = e.actorId ∧
    (effectiveEvent o e).revision = e.revision ∧ (effectiveEvent o e).eventTime = e.eventTime ∧
    (effectiveEvent o e).ingestTime = e.ingestTime ∧
    (effectiveEvent o e).correlationId = e.correlationId := by
  unfold effectiveEvent
  split
  · exact ⟨rfl, rfl, rfl, rfl, rfl, rfl, rfl, rfl⟩
  · split <;> exact ⟨rfl, rfl, rfl, rfl, rfl, rfl, rfl, rfl⟩

@[simp] theorem effectiveEvent_eventId (o : Overlay) (e : RoomEvent) :
    (effectiveEvent o e).eventId = e.eventId := (effectiveEvent_fields o e).1

theorem effectiveEvent_wellFormed (o : Overlay) {e : RoomEvent} (hw : e.WellFormed) :
    (effectiveEvent o e).WellFormed := by
  obtain ⟨hid, hroom, hseq, hactor, hrev, -⟩ := effectiveEvent_fields o e
  refine ⟨hid ▸ hw.eventId, hroom ▸ hw.roomId, hactor ▸ hw.actorId, hseq ▸ hw.roomSeq,
    hrev ▸ hw.revision, ?_⟩
  unfold effectiveEvent
  split
  · simp
  · split
    · exact hw.mentions
    · exact hw.mentions

theorem map_effectiveEvents {β : Type} {f : RoomEvent → β} (o : Overlay) (events : List RoomEvent)
    (hf : ∀ e, f (effectiveEvent o e) = f e) : (effectiveEvents o events).map f = events.map f := by
  unfold effectiveEvents
  rw [List.map_map]
  exact List.map_congr_left fun e _ => hf e

namespace RoomLedger

/-- The first `c` events of a ledger under the reviews in force. -/
def effective (L : RoomLedger) (o : Overlay) (c : Nat) : RoomLedger :=
  have source {e : RoomEvent} (he : e ∈ effectiveEvents o (L.events.take c)) :
      ∃ f ∈ L.events, effectiveEvent o f = e := by
    obtain ⟨f, hf, rfl⟩ := List.mem_map.mp he
    exact ⟨f, List.mem_of_mem_take hf, rfl⟩
  { roomId := L.roomId
    events := effectiveEvents o (L.events.take c)
    contiguous := by
      rw [map_effectiveEvents o _ fun e => (effectiveEvent_fields o e).2.2.1, List.map_take,
        L.contiguous]
      unfold effectiveEvents
      rw [List.length_map, List.length_take]
      rcases Nat.le_total c L.events.length with hc | hc
      · rw [List.take_range'_of_length_ge hc, Nat.min_eq_left hc]
      · rw [List.take_range'_of_length_le hc, Nat.min_eq_right hc]
    distinct := by
      rw [map_effectiveEvents o _ (effectiveEvent_eventId o), List.map_take]
      exact L.distinct.sublist (List.take_sublist ..)
    room := fun e he => by
      obtain ⟨f, hf, rfl⟩ := source he
      rw [(effectiveEvent_fields o f).2.1]
      exact L.room f hf
    wellFormed := fun e he => by
      obtain ⟨f, hf, rfl⟩ := source he
      exact effectiveEvent_wellFormed o (L.wellFormed f hf)
    ingestParses := fun e he => by
      obtain ⟨f, hf, rfl⟩ := source he
      rw [(effectiveEvent_fields o f).2.2.2.2.2.2.1]
      exact L.ingestParses f hf
    eventParses := fun e he => by
      obtain ⟨f, hf, rfl⟩ := source he
      rw [(effectiveEvent_fields o f).2.2.2.2.2.1]
      exact L.eventParses f hf }

theorem roomSeq_getElem (L : RoomLedger) {i : Nat} (hi : i < L.events.length) :
    (L.events[i]).roomSeq = i + 1 := by
  have hs : (L.events.map (·.roomSeq))[i]? = some (L.events[i]).roomSeq := by
    simp [hi]
  rw [L.contiguous, List.getElem?_range' hi] at hs
  have := Option.some.inj hs
  omega

theorem canonicalEvents_eq (L : RoomLedger) (c : Nat) :
    canonicalEvents L c = L.events.take c := by
  unfold canonicalEvents
  conv_lhs => rw [← List.take_append_drop c L.events]
  rw [List.filter_append]
  have htake : (L.events.take c).filter (·.roomSeq ≤ c) = L.events.take c := by
    rw [List.filter_eq_self]
    intro e he
    obtain ⟨i, hi, rfl⟩ := List.mem_iff_getElem.mp he
    rw [List.length_take] at hi
    rw [List.getElem_take, L.roomSeq_getElem (by omega)]
    simp only [decide_eq_true_eq]
    omega
  have hdrop : (L.events.drop c).filter (·.roomSeq ≤ c) = [] := by
    rw [List.filter_eq_nil_iff]
    intro e he
    obtain ⟨i, hi, rfl⟩ := List.mem_iff_getElem.mp he
    rw [List.length_drop] at hi
    rw [List.getElem_drop, L.roomSeq_getElem (by omega)]
    simp only [decide_eq_true_eq]
    omega
  rw [htake, hdrop, List.append_nil]

theorem canonicalEvents_getLast (L : RoomLedger) {c : Nat} (hc : 1 ≤ c)
    (hle : c ≤ L.events.length) :
    ∃ last, (canonicalEvents L c).getLast? = some last ∧ last.roomSeq = c := by
  have hlt : c - 1 < L.events.length := by omega
  refine ⟨L.events[c - 1], ?_, by rw [L.roomSeq_getElem hlt]; omega⟩
  rw [L.canonicalEvents_eq, List.getLast?_eq_getElem?, List.length_take, Nat.min_eq_left hle,
    List.getElem?_take, if_pos (by omega), List.getElem?_eq_getElem hlt]

end RoomLedger

/-! ## The projector -/

/-- The chat events of the first `c` events under the reviews in force. -/
def chatsOf (h : Host) (L : RoomLedger) (o : Overlay) (c : Nat) : List ChatEvent :=
  adapted h .init (effectiveEvents o (L.events.take c))

theorem chatsOf_follows (h : Host) (L : RoomLedger) (o : Overlay) (c : Nat) :
    Follows [] (chatsOf h L o c) := (L.effective o c).adapted_follows h

/-- The projector a consume builds. -/
def onlineProjector (h : Host) (L : RoomLedger) (o : Overlay) (c : Nat) : StreamingProjector :=
  let E := L.effective o c
  ⟨L.roomId, E.events.length, E.events, .empty,
    StreamingProjector.prefixState h E E.events.length⟩

theorem buildProjector_online (h : Host) (L : RoomLedger) (o : Overlay) (c : Nat) :
    buildProjector h L.roomId false (effectiveEvents o (L.events.take c)) =
      .ok (onlineProjector h L o c) := by
  have hfeed := StreamingProjector.feed_ledger h (L.effective o c)
  exact bind_eq_ok.mpr ⟨_, hfeed, rfl⟩

theorem onlineProjector_echo (h : Host) (L : RoomLedger) (o : Overlay) (c : Nat) :
    (onlineProjector h L o c).state.echo =
      echoRun h (.within (seconds 5)) (chatsOf h L o c) :=
  StreamingProjector.prefixState_echo h (L.effective o c)

theorem buildProjector_replaying (h : Host) (L : RoomLedger) (o : Overlay) (c : Nat) :
    ∃ t, buildProjector h L.roomId true (effectiveEvents o (L.events.take c)) = .ok t ∧
      t.state.echo = (echoRun h .inf (chatsOf h L o c)).withLateness (.within (seconds 5)) := by
  have hfeed := StreamingProjector.feed_ledger h (L.effective o c)
  obtain ⟨t, n, ht, hecho⟩ := StreamingProjector.replay_ledger h (L.effective o c)
    (onlineProjector h L o c) rfl
  refine ⟨t, bind_eq_ok.mpr ⟨onlineProjector h L o c, hfeed, ?_⟩, hecho⟩
  rw [if_pos rfl, ht]

/-- The events beyond the online lateness gate. -/
def lateEvents (h : Host) (L : RoomLedger) (o : Overlay) (c : Nat) : List ChatEvent :=
  lateFrom (.within (seconds 5)) none (chatsOf h L o c)

/-- The event a late prefix asks its replay for: the first of the room that was late. -/
def lateSource (h : Host) (L : RoomLedger) (o : Overlay) (c : Nat) : Option RoomEvent :=
  (L.events.take c).find? fun e => e.eventId ∈ (lateEvents h L o c).map (·.eventId)

theorem lateIds_online (h : Host) (L : RoomLedger) (o : Overlay) (c : Nat) :
    lateIds (onlineProjector h L o c).state = (lateEvents h L o c).map (·.eventId) := by
  obtain ⟨hecho, htrace⟩ := StreamingProjector.prefixState_requiresReplay h (L.effective o c)
  unfold lateIds
  split
  · exact htrace.trans hecho
  · exact hecho

theorem lateSource_none {h : Host} {L : RoomLedger} {o : Overlay} {c : Nat}
    (hn : lateSource h L o c = none) : (lateEvents h L o c).map (·.eventId) = [] := by
  rw [List.eq_nil_iff_forall_not_mem]
  intro id hid
  obtain ⟨d, hd, rfl⟩ := List.mem_map.mp hid
  obtain ⟨e, he, hee⟩ := adapted_eventId (lateFrom_subset hd)
  obtain ⟨f, hf, rfl⟩ := List.mem_map.mp he
  have := List.find?_eq_none.mp hn f hf
  rw [effectiveEvent_eventId] at hee
  simp only [decide_eq_true_eq, hee] at this
  exact this hid

theorem lateSource_mem {h : Host} {L : RoomLedger} {o : Overlay} {c : Nat} {e : RoomEvent}
    (hs : lateSource h L o c = some e) : e ∈ L.events :=
  List.mem_of_mem_take (List.mem_of_find?_eq_some hs)

theorem find?_effectiveEvents (o : Overlay) (events : List RoomEvent) (ids : List String) :
    (effectiveEvents o events).find? (·.eventId ∈ ids) =
      (events.find? (·.eventId ∈ ids)).map (effectiveEvent o) := by
  induction events with
  | nil => rfl
  | cons e es ih =>
    simp only [effectiveEvents, List.map_cons, List.find?_cons, effectiveEvent_eventId]
    split
    · rfl
    · exact ih

theorem lateArgs_effective (roomId : String) (o : Overlay) (e : RoomEvent) (c : Nat) :
    lateArgs roomId (effectiveEvent o e) c = lateArgs roomId e c := by
  obtain ⟨hid, -, -, -, -, -, -, hcorr⟩ := effectiveEvent_fields o e
  simp only [lateArgs, hid, hcorr]

/-! ## The handlers -/

section Handlers

variable (h : Host) (L : StoredLedger) (s : Store) (attempt : Attempt)

/-- The store after a materialization, before any replay is asked for. -/
def Store.advanced (s : Store) (epoch : String) (through : Nat) : Store :=
  { s with head := some ⟨epoch, through⟩, checkpoint := max s.checkpoint through }

/-- What a materialization behind the gate does. -/
theorem materialize_online (epoch : String) {c : Nat} (hc : 1 ≤ c) (hle : c ≤ L.events.length) :
    materialize h L s attempt c epoch true false =
      (some (onlineProjector h L.toRoomLedger attempt.overlay c),
        match attempt.fault, lateSource h L.toRoomLedger attempt.overlay c with
        | some message, _ => .error (.stage message)
        | none, none => .ok (s.advanced epoch c)
        | none, some source =>
          match enqueueAnalyticsReplay h s.tables (lateArgs L.roomId source c) with
          | .error code => .error (.enqueue code)
          | .ok (tables, _) => .ok { s.advanced epoch c with tables }) := by
  obtain ⟨last, hlast, hseq⟩ := L.canonicalEvents_getLast hc hle
  have hbuild := buildProjector_online h L.toRoomLedger attempt.overlay c
  unfold materialize
  dsimp only
  rw [hlast]
  dsimp only
  rw [if_neg (by simp [hseq]), L.canonicalEvents_eq, hbuild]
  dsimp only
  cases hf : attempt.fault with
  | some message => rfl
  | none =>
    dsimp only
    rw [lateIds_online]
    cases hs : lateSource h L.toRoomLedger attempt.overlay c with
    | none =>
      rw [lateSource_none hs]
      rfl
    | some source =>
      have hne : (lateEvents h L.toRoomLedger attempt.overlay c).map (·.eventId) ≠ [] := by
        intro hnil
        have := List.find?_some hs
        simp [hnil] at this
      rw [if_pos ⟨hne, rfl⟩, find?_effectiveEvents]
      unfold lateSource at hs
      rw [hs, Option.map_some, Option.getD_some, lateArgs_effective]
      rfl

/-- What a materialization with the gate lifted does. -/
theorem materialize_replaying (epoch : String) {c : Nat} (hc : 1 ≤ c)
    (hle : c ≤ L.events.length) :
    ∃ projector, projector.state.echo =
        (echoRun h .inf (chatsOf h L.toRoomLedger attempt.overlay c)).withLateness
          (.within (seconds 5)) ∧
      materialize h L s attempt c epoch false true =
        (some projector, match attempt.fault with
          | some message => .error (.stage message)
          | none => .ok (s.advanced epoch c)) := by
  obtain ⟨last, hlast, hseq⟩ := L.canonicalEvents_getLast hc hle
  obtain ⟨projector, hbuild, hecho⟩ := buildProjector_replaying h L.toRoomLedger attempt.overlay c
  refine ⟨projector, hecho, ?_⟩
  unfold materialize
  dsimp only
  rw [hlast]
  dsimp only
  rw [if_neg (by simp [hseq]), L.canonicalEvents_eq, hbuild]
  dsimp only
  cases attempt.fault with
  | some message => rfl
  | none => simp [Store.advanced]

/-- The consume of the next event of the room comes down to its materialization. -/
theorem analyticsConsumeHandler_next {c : Nat} (hc : c = s.checkpoint + 1)
    (hle : c ≤ L.events.length) :
    analyticsConsumeHandler h L s attempt c =
      materialize h L s attempt c (currentOrInitialEpoch h L.roomId s) true false := by
  have hfound : L.events.all (·.roomSeq ≠ c) = false := by
    rw [List.all_eq_false]
    have hlt : c - 1 < L.events.length := by omega
    refine ⟨L.events[c - 1], List.getElem_mem _, ?_⟩
    rw [L.roomSeq_getElem hlt]
    simp only [ne_eq, decide_not, Bool.not_eq_true', decide_eq_false_iff_not, Decidable.not_not]
    omega
  unfold analyticsConsumeHandler
  rw [hfound, if_neg (by simp), if_neg (by omega), if_neg (by omega)]

/-- Any other consume leaves the store alone. -/
theorem analyticsConsumeHandler_other {c : Nat}
    (hc : ¬ (c = s.checkpoint + 1 ∧ c ≤ L.events.length)) :
    analyticsConsumeHandler h L s attempt c = (none, .ok s) ∨
      ∃ code, analyticsConsumeHandler h L s attempt c = (none, .error (.handler code)) := by
  unfold analyticsConsumeHandler
  split
  · exact .inr ⟨_, rfl⟩
  · rename_i hfound
    split
    · exact .inl rfl
    · split
      · exact .inr ⟨_, rfl⟩
      · rename_i hnext
        obtain ⟨e, he, hseq⟩ : ∃ e ∈ L.events, e.roomSeq = c := by simpa using hfound
        have := L.roomSeq_le he
        exact absurd ⟨by omega, by omega⟩ hc

/-- A replay that is not refused materializes the room through the checkpoint, or finds it
done. -/
theorem analyticsReplayHandler_cases (job : ReplayJob) :
    analyticsReplayHandler h L s attempt job = (none, .ok s) ∨
      (∃ code, analyticsReplayHandler h L s attempt job = (none, .error (.handler code))) ∨
      analyticsReplayHandler h L s attempt job =
        materialize h L s attempt s.checkpoint (replayEpoch h job) false true := by
  unfold analyticsReplayHandler
  split
  · exact .inr (.inl ⟨_, rfl⟩)
  · exact .inr (.inl ⟨_, rfl⟩)
  · dsimp only
    split
    · exact .inr (.inl ⟨_, rfl⟩)
    · split
      · exact .inl rfl
      · exact .inr (.inr rfl)

theorem materialize_zero (epoch : String) (enqueueReplay replaying : Bool) :
    materialize h L s attempt 0 epoch enqueueReplay replaying =
      (none, .error (.handler "ANALYTICS_EVENT_SEQUENCE_INVALID")) := by
  unfold materialize
  dsimp only
  rw [L.canonicalEvents_eq]
  rfl

end Handlers

end LearningOrbit.Worker
