import LearningOrbit.Reference.EchoRun
import LearningOrbit.Worker.Delivery
import LearningOrbit.Worker.Lockstep

/-!
# What a projector builds from a ledger

A projection sees a ledger through the chat events the adapter accepts. Fed
online or replayed, the concept map it ends with is the run over these events,
behind the lateness gate or with the gate lifted.
-/

namespace LearningOrbit.Worker

open LearningOrbit (Host Dict)
open LearningOrbit.Reference

/-- The instant the algorithms see: client time clamped to ingest time. -/
def effectiveTime (event : RoomEvent) (ingest : Int) : Int :=
  min (event.eventTime.getD ingest) ingest

/-- The chat event of a room event, if the adapter accepts it, and the index after it. -/
def adaptOne (h : Host) (index : MessageLineageIndex) (event : RoomEvent) :
    Option (ChatEvent × MessageLineageIndex) :=
  event.ingestTime.bind fun ingest =>
    if event.type.semantic then
      (toChatEvent h index event (effectiveTime event ingest) ingest).toOption
    else none

/-- The chat events a sequence of room events is adapted to. -/
def adapted (h : Host) : MessageLineageIndex → List RoomEvent → List ChatEvent
  | _, [] => []
  | index, e :: es =>
    match adaptOne h index e with
    | some (chat, next) => chat :: adapted h next es
    | none => adapted h index es

/-- The index after a sequence of room events. -/
def lineageAfter (h : Host) : MessageLineageIndex → List RoomEvent → MessageLineageIndex
  | index, [] => index
  | index, e :: es =>
    match adaptOne h index e with
    | some (_, next) => lineageAfter h next es
    | none => lineageAfter h index es

theorem adapted_append (h : Host) (index : MessageLineageIndex) (xs ys : List RoomEvent) :
    adapted h index (xs ++ ys) = adapted h index xs ++ adapted h (lineageAfter h index xs) ys := by
  induction xs generalizing index with
  | nil => rfl
  | cons e es ih =>
    simp only [List.cons_append, adapted, lineageAfter]
    split
    · rw [ih, List.cons_append]
    · exact ih index

/-- What is adapted carries the identity of its room event. -/
theorem adaptOne_eq_some {h : Host} {index next : MessageLineageIndex} {event : RoomEvent}
    {chat : ChatEvent} (ha : adaptOne h index event = some (chat, next)) :
    event.type.semantic = true ∧ ∃ eventTime ingest before composite,
      index.resolveBefore event = .ok before ∧
      chat.toChatEventFields = chatFields event eventTime ingest composite before ∧
      next = index.advance event := by
  unfold adaptOne at ha
  obtain ⟨ingest, -, ha⟩ := Option.bind_eq_some_iff.mp ha
  split at ha
  · rename_i hs
    refine ⟨hs, effectiveTime event ingest, ingest, ?_⟩
    cases hc : toChatEvent h index event (effectiveTime event ingest) ingest with
    | error e => rw [hc] at ha; cases ha
    | ok r =>
      rw [hc] at ha
      cases ha
      exact toChatEvent_eq_ok hc
  · cases ha

/-- The index only names events that were adapted. -/
def Indexed (index : MessageLineageIndex) (done : List ChatEvent) : Prop :=
  ∀ root id, index.activeByMessage.get? root = some id → id ≠ "" ∧ ∃ d ∈ done, d.eventId = id

theorem Indexed.advance {index : MessageLineageIndex} {done : List ChatEvent}
    (hi : Indexed index done) {event : RoomEvent} {chat : ChatEvent}
    (hid : chat.eventId = event.eventId) : Indexed (index.advance event) (chat :: done) := by
  have more {id : String} (h : ∃ d ∈ done, d.eventId = id) : ∃ d ∈ chat :: done, d.eventId = id := by
    obtain ⟨d, hd, he⟩ := h
    exact ⟨d, List.mem_cons_of_mem _ hd, he⟩
  intro root id hget
  unfold MessageLineageIndex.advance at hget
  split at hget
  · exact (hi root id hget).imp (fun h => h) more
  · split at hget
    · rw [Dict.get?_erase] at hget
      split at hget
      · cases hget
      · exact (hi root id hget).imp (fun h => h) more
    · rw [Dict.get?_set] at hget
      split at hget
      · cases hget
        exact ⟨hid ▸ chat.required.1, chat, List.mem_cons_self .., hid⟩
      · exact (hi root id hget).imp (fun h => h) more

theorem adapted_follows (h : Host) {events : List RoomEvent} {done : List ChatEvent}
    {index : MessageLineageIndex} (hd : (events.map (·.eventId)).Nodup)
    (hnew : ∀ e ∈ events, ∀ d ∈ done, d.eventId ≠ e.eventId) (hi : Indexed index done) :
    Follows done (adapted h index events) := by
  induction events generalizing done index with
  | nil => trivial
  | cons e es ih =>
    obtain ⟨he, hes⟩ := List.nodup_cons.mp hd
    simp only [adapted]
    split
    · rename_i chat next ha
      obtain ⟨-, eventTime, ingest, before, composite, hb, hf, rfl⟩ := adaptOne_eq_some ha
      have hid : chat.eventId = e.eventId := congrArg ChatEventFields.eventId hf
      have hop : chat.operation = e.operation := congrArg ChatEventFields.operation hf
      refine ⟨fun d hdm => hid ▸ hnew e (List.mem_cons_self ..) d hdm, fun hadd => ?_,
        ih hes ?_ (hi.advance hid)⟩
      · rw [hop] at hadd
        obtain ⟨htarget, hrequired⟩ := MessageLineageIndex.resolveBefore_ok hb
        obtain ⟨old, hold⟩ := Option.ne_none_iff_exists'.mp (hrequired hadd)
        rw [hold] at htarget
        obtain ⟨root, -, hget⟩ := Option.bind_eq_some_iff.mp htarget.symm
        obtain ⟨hne, d, hdm, hde⟩ := hi root old hget
        exact ⟨d, hdm, by rw [chat_target hf hadd hold hne, hde]⟩
      · intro f hfm d hdm
        rcases List.mem_cons.mp hdm with rfl | hdm
        · rw [hid]
          exact fun heq => he (List.mem_map.mpr ⟨f, hfm, heq.symm⟩)
        · exact hnew f (List.mem_cons_of_mem _ hfm) d hdm
    · exact ih hes (fun f hfm => hnew f (List.mem_cons_of_mem _ hfm)) hi

/-- What is adapted comes from one of the room events. -/
theorem adapted_source {h : Host} {events : List RoomEvent} {index : MessageLineageIndex}
    {c : ChatEvent} (hc : c ∈ adapted h index events) :
    ∃ e ∈ events, e.eventId = c.eventId ∧ ∃ i j, adaptOne h i e = some (c, j) := by
  induction events generalizing index with
  | nil => cases hc
  | cons e es ih =>
    have later (hc : ∃ f ∈ es, f.eventId = c.eventId ∧ ∃ i j, adaptOne h i f = some (c, j)) :
        ∃ f ∈ e :: es, f.eventId = c.eventId ∧ ∃ i j, adaptOne h i f = some (c, j) := by
      obtain ⟨f, hf, hrest⟩ := hc
      exact ⟨f, List.mem_cons_of_mem _ hf, hrest⟩
    simp only [adapted] at hc
    split at hc
    · rename_i chat next ha
      rcases List.mem_cons.mp hc with rfl | hc
      · obtain ⟨-, _, _, _, _, -, hf, -⟩ := adaptOne_eq_some ha
        exact ⟨e, List.mem_cons_self .., (congrArg ChatEventFields.eventId hf).symm, index, next, ha⟩
      · exact later (ih hc)
    · exact later (ih hc)

theorem adapted_eventId {h : Host} {events : List RoomEvent} {index : MessageLineageIndex}
    {c : ChatEvent} (hc : c ∈ adapted h index events) : ∃ e ∈ events, e.eventId = c.eventId := by
  obtain ⟨e, he, hid, -⟩ := adapted_source hc
  exact ⟨e, he, hid⟩

/-! ## The projector -/

theorem adaptOne_of_ingest {h : Host} {index : MessageLineageIndex} {event : RoomEvent}
    {ingest : Int} (hi : event.ingestTime = some ingest) :
    adaptOne h index event =
      if event.type.semantic then
        (toChatEvent h index event (effectiveTime event ingest) ingest).toOption
      else none := by
  unfold adaptOne
  rw [hi, Option.bind_some]

/-- `_apply_one` hands the adapted event to both reducers, or leaves them alone. -/
theorem Projection.applyOne_adapted (h : Host) (replaying : Bool) (p : Projection)
    {event : RoomEvent} (hw : event.WellFormed) (ht : event.ingestTime.isSome) :
    match adaptOne h p.lineage event with
    | some (chat, next) =>
      (p.applyOne h replaying event).1.echo = (echoApply h replaying p.echo chat).1 ∧
        (p.applyOne h replaying event).1.lineage = next ∧
        ∃ evidence, (∀ e ∈ evidence, e.Valid) ∧
          (p.applyOne h replaying event).1.trace = (traceApply h replaying p.trace chat evidence).1
    | none =>
      (p.applyOne h replaying event).1.echo = p.echo ∧
        (p.applyOne h replaying event).1.lineage = p.lineage ∧
        (p.applyOne h replaying event).1.trace = p.trace := by
  obtain ⟨ingest, hi⟩ := Option.isSome_iff_exists.mp ht
  rw [adaptOne_of_ingest hi]
  unfold Projection.applyOne
  rw [hi]
  dsimp only
  by_cases hs : event.type.semantic = true
  · simp only [hs, ↓reduceIte]
    change match (toChatEvent h p.lineage event (effectiveTime event ingest) ingest).toOption with
      | some (chat, next) => _
      | none => _
    have htime : (p.decide event ingest).effectiveEventTime = effectiveTime event ingest := rfl
    have hlin : (p.observe (p.decide event ingest)).lineage = p.lineage := rfl
    rw [htime, hlin]
    cases hc : toChatEvent h p.lineage event (effectiveTime event ingest) ingest with
    | error e => exact ⟨rfl, rfl, rfl⟩
    | ok r =>
      obtain ⟨chat, next⟩ := r
      obtain ⟨_, _, -, hf, -⟩ := toChatEvent_eq_ok hc
      have hm : "" ∉ chat.mentions := by
        rw [hf]
        exact hw.mentions
      obtain ⟨_, evidence, _, -, -, hv, -, hr⟩ := Projection.reduce_eq h replaying
        (p.decide event ingest).tooLate (p.decide event ingest).warnings
        { p.observe (p.decide event ingest) with lineage := next } hm
      have hstate := congrArg Prod.fst hr
      show _ ∧ _
      exact ⟨congrArg Projection.echo hstate, congrArg Projection.lineage hstate,
        evidence, hv, congrArg Projection.trace hstate⟩
  · simp only [hs, Bool.false_eq_true, ↓reduceIte]
    exact ⟨rfl, rfl, rfl⟩

/-- A fold of `_apply_one` runs the concept map over the adapted events. -/
theorem Projection.fold_echo (h : Host) (replaying : Bool) (p : Projection)
    {events : List RoomEvent} (hw : ∀ e ∈ events, e.WellFormed)
    (ht : ∀ e ∈ events, e.ingestTime.isSome) :
    (events.foldl (fun p e => (p.applyOne h replaying e).1) p).echo =
      (adapted h p.lineage events).foldl (fun m c => (echoApply h replaying m c).1) p.echo := by
  induction events generalizing p with
  | nil => rfl
  | cons e es ih =>
    have hone := p.applyOne_adapted h replaying (hw e (List.mem_cons_self ..))
      (ht e (List.mem_cons_self ..))
    have hrest := ih (p.applyOne h replaying e).1 (fun f hf => hw f (List.mem_cons_of_mem _ hf))
      fun f hf => ht f (List.mem_cons_of_mem _ hf)
    simp only [List.foldl_cons, adapted]
    rw [hrest]
    split
    · rename_i chat next ha
      rw [ha] at hone
      rw [hone.1, hone.2.1, List.foldl_cons]
    · rename_i ha
      rw [ha] at hone
      rw [hone.1, hone.2.1]

/-- Fed online, both reducers keep the same ledger. -/
theorem Projection.fold_views (h : Host) {p : Projection} {events : List RoomEvent}
    (hw : ∀ e ∈ events, e.WellFormed) (ht : ∀ e ∈ events, e.ingestTime.isSome)
    {done : List ChatEvent} (hk : p.echo.Known done)
    (hf : Follows done (adapted h p.lineage events)) (hviews : p.echo.view = p.trace.view) :
    let q := events.foldl (fun p e => (p.applyOne h false e).1) p
    q.echo.view = q.trace.view := by
  induction events generalizing p done with
  | nil => exact hviews
  | cons e es ih =>
    have hone := p.applyOne_adapted h false (hw e (List.mem_cons_self ..))
      (ht e (List.mem_cons_self ..))
    have hws : ∀ f ∈ es, f.WellFormed := fun f hm => hw f (List.mem_cons_of_mem _ hm)
    have hts : ∀ f ∈ es, f.ingestTime.isSome := fun f hm => ht f (List.mem_cons_of_mem _ hm)
    simp only [adapted] at hf
    split at hf
    · rename_i chat next ha
      rw [ha] at hone
      obtain ⟨hecho, hlineage, evidence, hv, htrace⟩ := hone
      obtain ⟨hc, htarget, hcs⟩ := hf
      obtain ⟨hview, hknown⟩ := hk.next (h := h) hc htarget
      have hfresh : p.trace.view.Fresh chat := hviews ▸ (hk.fresh hc).1
      rw [echoApply_online] at hecho
      rw [traceApply_online h hv hfresh] at htrace
      refine ih hws hts (hecho ▸ hknown) (hlineage ▸ hcs) ?_
      rw [hecho, hview, htrace, StreamingInteractionNetwork.apply_view h _ _ rfl hv hfresh, hviews]
    · rename_i ha
      rw [ha] at hone
      obtain ⟨hecho, hlineage, htrace⟩ := hone
      exact ih hws hts (hecho ▸ hk) (hlineage ▸ hf) (by rw [hecho, htrace, hviews])

/-- The concept map of a run under a lateness gate. -/
def echoRun (h : Host) (allowed : Lateness) (chats : List ChatEvent) : StreamingConceptMap :=
  chats.foldl (StreamingConceptMap.next h) (StreamingConceptMap.init.withLateness allowed)

theorem echoApply_fold_online (h : Host) (m : StreamingConceptMap) (chats : List ChatEvent) :
    chats.foldl (fun m c => (echoApply h false m c).1) m =
      chats.foldl (StreamingConceptMap.next h) m := by
  simp only [echoApply_online]

theorem echoApply_replaying (h : Host) (m : StreamingConceptMap) (chat : ChatEvent) :
    (echoApply h true m chat).1 =
      ((m.withLateness .inf).next h chat).withLateness m.allowedLateness := rfl

theorem echoApply_fold_replaying (h : Host) (m : StreamingConceptMap) (chats : List ChatEvent) :
    chats.foldl (fun m c => (echoApply h true m c).1) m =
      (chats.foldl (StreamingConceptMap.next h) (m.withLateness .inf)).withLateness
        m.allowedLateness := by
  induction chats generalizing m with
  | nil => rfl
  | cons c cs ih =>
    have hinf : ((m.withLateness .inf).next h c).withLateness .inf =
        (m.withLateness .inf).next h c :=
      StreamingConceptMap.withLateness_eq (StreamingConceptMap.apply_allowedLateness ..)
    rw [List.foldl_cons, ih, echoApply_replaying,
      StreamingConceptMap.withLateness_withLateness, hinf]
    rfl

/-! ## A whole ledger -/

theorem RoomLedger.adapted_follows (h : Host) (L : RoomLedger) :
    Follows [] (adapted h .init L.events) :=
  Worker.adapted_follows h L.distinct (fun _ _ _ hd => by cases hd) fun _ _ hget => by cases hget

theorem echoRun_view (h : Host) (allowed : Lateness) {chats : List ChatEvent}
    (hf : Follows [] chats) :
    (echoRun h allowed chats).view =
      chats.foldl LedgerView.step (StreamingConceptMap.init.withLateness allowed).view :=
  (StreamingConceptMap.Known.init allowed).run hf

theorem echoRun_active (h : Host) (allowed : Lateness) {chats : List ChatEvent}
    (hf : Follows [] chats) (id : String) :
    (echoRun h allowed chats).view.Active id ↔
      (∃ d ∈ onTimeFrom allowed none chats, d.eventId = id ∧ LedgerView.Speaks d) ∧
      ∀ c ∈ onTimeFrom allowed none chats, ¬ Supersedes c id := by
  have hnone : ¬ (StreamingConceptMap.init.withLateness allowed).view.Active id := by
    rintro ⟨_, hget, -⟩
    cases hget
  rw [echoRun_view h allowed hf, (StreamingConceptMap.Known.init allowed).view.run_active hf]
  simp only [hnone, false_or]
  rfl

namespace StreamingProjector

/-- The concept map after feeding a whole ledger in order. -/
theorem prefixState_echo (h : Host) (L : RoomLedger) :
    (prefixState h L L.events.length).echo =
      echoRun h (.within (seconds 5)) (adapted h .init L.events) := by
  unfold prefixState
  rw [List.take_length, Projection.fold_echo h false _ L.wellFormed L.ingestParses,
    echoApply_fold_online]
  rfl

/-- Both reducers ask for a replay of the events beyond the online lateness gate. -/
theorem prefixState_requiresReplay (h : Host) (L : RoomLedger) :
    (prefixState h L L.events.length).echo.requiresReplay =
      (lateFrom (.within (seconds 5)) none (adapted h .init L.events)).map (·.eventId) ∧
    (prefixState h L L.events.length).trace.requiresReplay =
      (prefixState h L L.events.length).echo.requiresReplay := by
  have hf := L.adapted_follows h
  have hviews : (prefixState h L L.events.length).echo.view =
      (prefixState h L L.events.length).trace.view := by
    unfold prefixState
    rw [List.take_length]
    exact Projection.fold_views h L.wellFormed L.ingestParses
      (StreamingConceptMap.Known.init (.within (seconds 5))) hf rfl
  refine ⟨?_, (congrArg LedgerView.requiresReplay hviews).symm⟩
  have hview := echoRun_view h (.within (seconds 5)) hf
  rw [← prefixState_echo] at hview
  have hlate := (StreamingConceptMap.Known.init (.within (seconds 5))).view.run_requiresReplay hf
  rw [← hview] at hlate
  exact hlate

/-- The projector after feeding a whole ledger in order. -/
theorem feed_ledger (h : Host) (L : RoomLedger) :
    (init L.roomId).feed h L.events =
      .ok ⟨L.roomId, L.events.length, L.events, .empty, prefixState h L L.events.length⟩ := by
  obtain ⟨t, ht, hset⟩ := (init_settled h L).feed L.events fun e he => he
  rw [ht, hset.complete fun e he => by simpa using he]

theorem replayFrom_eq (h : Host) (s : StreamingProjector) {events : List RoomEvent}
    (hw : ∀ e ∈ events, e.WellFormed) (ht : ∀ e ∈ events, e.ingestTime.isSome) :
    ∃ c, s.replayFrom h events =
      ({ s with
          state := events.foldl (fun p e => (p.applyOne h true e).1) s.state
          completeThroughRoomSeq := c }, .ok ()) := by
  induction events generalizing s with
  | nil => exact ⟨s.completeThroughRoomSeq, rfl⟩
  | cons e es ih =>
    obtain ⟨r, hr⟩ := Projection.applyOne_ok h true s.state (hw e (List.mem_cons_self ..))
      (ht e (List.mem_cons_self ..))
    have hone : s.state.applyOne h true e = ((s.state.applyOne h true e).1, .ok r) :=
      Prod.ext rfl hr
    obtain ⟨c, hc⟩ := ih { s with
      state := (s.state.applyOne h true e).1
      completeThroughRoomSeq := max s.completeThroughRoomSeq e.roomSeq }
      (fun f hf => hw f (List.mem_cons_of_mem _ hf)) fun f hf => ht f (List.mem_cons_of_mem _ hf)
    refine ⟨c, ?_⟩
    unfold replayFrom
    rw [hone]
    exact hc

/-- A replay of a whole ledger runs the concept map with the gate lifted. -/
theorem replay_ledger (h : Host) (L : RoomLedger) (s : StreamingProjector)
    (hs : s.history = L.events) :
    ∃ t n, s.replay h = (t, .ok n) ∧
      t.state.echo = (echoRun h .inf (adapted h .init L.events)).withLateness
        (.within (seconds 5)) := by
  unfold StreamingProjector.replay
  rw [hs, List.Pairwise.insertionSort_eq L.sorted]
  obtain ⟨c, hc⟩ := replayFrom_eq h { s with
    pending := .empty
    completeThroughRoomSeq := 0
    state := { Projection.init with requiresReplay := s.state.requiresReplay } }
    L.wellFormed L.ingestParses
  rw [hs] at hc
  dsimp only at hc ⊢
  rw [hc]
  refine ⟨_, _, rfl, ?_⟩
  dsimp only
  rw [Projection.fold_echo h true _ L.wellFormed L.ingestParses, echoApply_fold_replaying]
  rfl

end StreamingProjector

end LearningOrbit.Worker
