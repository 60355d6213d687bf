import LearningOrbit.Reference.EchoRun
import LearningOrbit.Worker.Projector

/-!
# ECHO, TRACE and the lineage index move together

The two reducers and the message lineage index are written separately. The
invariant relates them through the ledger view both reducers refine: equal
views, and, as long as no replay is requested, the active ledger entries are
the events that currently speak for a message.
-/

namespace LearningOrbit.Worker

open LearningOrbit (Host Dict)
open LearningOrbit.Reference

/-! ## The adapter -/

theorem MessageLineageIndex.resolveBefore_ok {index : MessageLineageIndex} {event : RoomEvent}
    {before : ResolvedLineage} (hb : index.resolveBefore event = .ok before) :
    before.targetEventId = (truthy event.payload.messageId).bind index.activeByMessage.get? ∧
      (event.operation ≠ .add → before.targetEventId ≠ none) := by
  unfold resolveBefore at hb
  dsimp only at hb
  split at hb
  · cases hb
  · split at hb
    · cases hb
    · rename_i htarget
      cases hb
      exact ⟨rfl, fun hop hnone => htarget ⟨hop, hnone⟩⟩

/-- The target of an adapted revision or withdrawal is what its message root resolved to. -/
theorem chat_target {event : RoomEvent} {eventTime ingestTime : Int} {composite : Composite}
    {before : ResolvedLineage} {chat : ChatEvent} {old : String}
    (hf : chat.toChatEventFields = chatFields event eventTime ingestTime composite before)
    (hop : event.operation ≠ .add) (hold : before.targetEventId = some old) (hne : old ≠ "") :
    chat.target = old := by
  have hr : chat.retracts = _ := congrArg ChatEventFields.retracts hf
  have hs : chat.supersedes = _ := congrArg ChatEventFields.supersedes hf
  unfold ChatEvent.target
  rw [hr, hs]
  cases h : event.operation <;> simp_all [chatFields, Option.filter]

/-! ## The invariant -/

structure Lockstep (done : List RoomEvent) (p : Projection) : Prop where
  views : p.echo.view = p.trace.view
  echoBacked : p.echo.Backed
  traceBacked : p.trace.Backed
  ledgered : ∀ id ∈ p.echo.view.eventLedger.keys, ∃ e ∈ done, e.eventId = id
  seen : ∀ key ∈ p.echo.view.seen, ∃ e ∈ done, e.eventId = key.1
  tombstones : ∀ id ∈ p.echo.retractedEventIds, ∃ e ∈ done, e.eventId = id
  roots : ∀ root id, p.lineage.activeByMessage.get? root = some id →
    ∃ e ∈ done, e.eventId = id ∧ e.payload.messageId = some root
  active : p.echo.view.requiresReplay = [] →
    ∀ id, p.echo.view.Active id ↔ ∃ root, p.lineage.activeByMessage.get? root = some id

theorem Lockstep.init : Lockstep [] .init where
  views := rfl
  echoBacked c hc := by cases hc
  traceBacked c hc := by cases hc
  ledgered id hid := by cases hid
  seen key hk := by cases hk
  tombstones id hid := by cases hid
  roots root id h := by cases h
  active _ id := by
    constructor
    · rintro ⟨_, h, -⟩; cases h
    · rintro ⟨_, h⟩; cases h

/-- The invariant only speaks of the reducers and the lineage, and tolerates more history. -/
theorem Lockstep.transport {done done' : List RoomEvent} {p q : Projection}
    (hp : Lockstep done p) (he : q.echo = p.echo) (ht : q.trace = p.trace)
    (hl : q.lineage = p.lineage) (hd : ∀ e ∈ done, e ∈ done') : Lockstep done' q := by
  have more {P : RoomEvent → Prop} (h : ∃ e ∈ done, P e) : ∃ e ∈ done', P e := by
    obtain ⟨e, hm, hP⟩ := h
    exact ⟨e, hd e hm, hP⟩
  constructor
  · rw [he, ht]; exact hp.views
  · rw [he]; exact hp.echoBacked
  · rw [ht]; exact hp.traceBacked
  · rw [he]; exact fun id hid => more (hp.ledgered id hid)
  · rw [he]; exact fun key hk => more (hp.seen key hk)
  · rw [he]; exact fun id hid => more (hp.tombstones id hid)
  · rw [hl]; exact fun root id h => more (hp.roots root id h)
  · rw [he, hl]; exact hp.active

/-! ## One event -/

theorem echoApply_online (h : Host) (m : StreamingConceptMap) (chat : ChatEvent) :
    (echoApply h false m chat).1 = m.next h chat :=
  StreamingConceptMap.withLateness_eq (StreamingConceptMap.apply_allowedLateness ..)

theorem traceApply_online (h : Host) {n : StreamingInteractionNetwork} {chat : ChatEvent}
    {evidence : List EdgeEvidence} (hv : ∀ e ∈ evidence, e.Valid) (hf : n.view.Fresh chat) :
    (traceApply h false n chat evidence).1 =
      (n.apply h none chat (suppliedEvidence evidence)).1 := by
  refine StreamingInteractionNetwork.withLateness_eq ?_
  have := congrArg LedgerView.allowedLateness
    (StreamingInteractionNetwork.apply_view h n (suppliedEvidence evidence) rfl hv hf)
  rwa [LedgerView.step_allowedLateness] at this

/-- What the feed promises of the next event, given those before it. -/
structure Fresh (done : List RoomEvent) (event : RoomEvent) : Prop where
  eventId : ∀ e ∈ done, e.eventId ≠ event.eventId
  message : event.type = .messageAdded →
    ∀ e ∈ done, e.payload.messageId ≠ event.payload.messageId

section Accepted

variable {done : List RoomEvent} {p : Projection} {event : RoomEvent} {chat : ChatEvent}
  {composite : Composite} {before : ResolvedLineage} {eventTime ingestTime : Int} {root : String}

theorem Lockstep.fresh (hp : Lockstep done p) (hn : Fresh done event)
    (hid : chat.eventId = event.eventId) :
    p.echo.view.Fresh chat ∧ chat.eventId ∉ p.echo.retractedEventIds := by
  have never {id : String} (h : ∃ e ∈ done, e.eventId = id) : id ≠ chat.eventId := by
    obtain ⟨e, he, rfl⟩ := h
    rw [hid]
    exact hn.eventId e he
  refine ⟨⟨fun hk => ?_, Dict.get?_eq_none.mpr fun hk => ?_⟩, fun hk => ?_⟩
  · exact never (hp.seen _ hk) rfl
  · exact never (hp.ledgered _ hk) rfl
  · exact never (hp.tombstones _ hk) rfl

theorem Lockstep.roots_injective (hp : Lockstep done p) (hd : (done.map (·.eventId)).Nodup)
    {a b id : String} (ha : p.lineage.activeByMessage.get? a = some id)
    (hb : p.lineage.activeByMessage.get? b = some id) : a = b := by
  obtain ⟨e, he, hei, hea⟩ := hp.roots a id ha
  obtain ⟨f, hf, hfi, hfb⟩ := hp.roots b id hb
  have := List.inj_on_of_nodup_map hd he hf (hei.trans hfi.symm)
  subst this
  exact Option.some.inj (hea.symm.trans hfb)

theorem advance_get? (hr : event.payload.messageId = some root) (hne : root ≠ "")
    (index : MessageLineageIndex) (key : String) :
    (index.advance event).activeByMessage.get? key =
      if key = root then
        (if event.operation = .retract ∨ event.operation = .delete then none
         else some event.eventId)
      else index.activeByMessage.get? key := by
  have ht : truthy event.payload.messageId = some root := by simp [truthy, hr, Option.filter, hne]
  unfold MessageLineageIndex.advance
  rw [ht]
  dsimp only
  split
  · rw [Dict.get?_erase]
  · rw [Dict.get?_set]

/-- After an accepted event with no replay pending, the active entries are the lineage. -/
theorem Lockstep.accept_active (hp : Lockstep done p) (hd : (done.map (·.eventId)).Nodup)
    (hc : event.Canonical) (hs : event.type.semantic = true) (hn : Fresh done event)
    (hw : ∀ e ∈ done, e.eventId ≠ "")
    (hb : p.lineage.resolveBefore event = .ok before)
    (hf : chat.toChatEventFields = chatFields event eventTime ingestTime composite before)
    (hreplay : (p.echo.view.step chat).requiresReplay = []) (id : String) :
    (p.echo.view.step chat).Active id ↔
      ∃ key, (p.lineage.advance event).activeByMessage.get? key = some id := by
  have hid : chat.eventId = event.eventId := congrArg ChatEventFields.eventId hf
  have hop : chat.operation = event.operation := congrArg ChatEventFields.operation hf
  obtain ⟨root, hroot, hrne⟩ := hc.message hs
  obtain ⟨hfresh, -⟩ := hp.fresh hn hid
  obtain ⟨hempty, hontime⟩ := LedgerView.step_requiresReplay hreplay
  obtain ⟨htarget, hrequired⟩ := MessageLineageIndex.resolveBefore_ok hb
  have htruthy : truthy event.payload.messageId = some root := by
    simp [truthy, hroot, Option.filter, hrne]
  rw [htruthy, Option.bind_some] at htarget
  rw [LedgerView.step_active hfresh hontime, hid, hop, hp.active hempty]
  simp only [advance_get? hroot hrne]
  by_cases hadd : event.operation = .add
  · -- a new message: its root is not in the index yet
    have htype : event.type = .messageAdded := by
      cases ht : event.type with
      | messageAdded => rfl
      | other => simp [ht, EventType.semantic] at hs
      | _ => have := hc.operation _ (by rw [ht]; rfl); simp [hadd] at this
    have habsent : p.lineage.activeByMessage.get? root = none := by
      cases hg : p.lineage.activeByMessage.get? root with
      | none => rfl
      | some old =>
        obtain ⟨e, he, -, hm⟩ := hp.roots root old hg
        exact absurd (hm.trans hroot.symm) (hn.message htype e he)
    simp only [hadd, reduceCtorEq, or_self, ↓reduceIte, true_or, and_true]
    constructor
    · rintro (rfl | ⟨key, hkey⟩)
      · exact ⟨root, by simp⟩
      · have : key ≠ root := fun h => by rw [h, habsent] at hkey; cases hkey
        exact ⟨key, by simp [this, hkey]⟩
    · rintro ⟨key, hkey⟩
      split at hkey
      · exact .inl (Option.some.inj hkey).symm
      · exact .inr ⟨key, hkey⟩
  · obtain ⟨old, hold⟩ := Option.ne_none_iff_exists'.mp (hrequired hadd)
    have hget : p.lineage.activeByMessage.get? root = some old := htarget ▸ hold
    have holdne : old ≠ "" := by
      obtain ⟨e, he, rfl, -⟩ := hp.roots root old hget
      exact hw e he
    rw [chat_target hf hadd hold holdne]
    have hother {key : String} (hkey : p.lineage.activeByMessage.get? key = some id) :
        key ≠ root ↔ id ≠ old := by
      constructor
      · rintro hk rfl; exact hk (hp.roots_injective hd hkey hget)
      · rintro hne rfl; exact hne (Option.some.inj (hkey.symm.trans hget))
    simp only [hadd, false_or]
    by_cases hdrop : event.operation = .retract ∨ event.operation = .delete
    · have hrev : event.operation ≠ .revise := by rcases hdrop with h | h <;> simp [h]
      simp only [hdrop, hrev, and_false, false_or, ↓reduceIte]
      constructor
      · rintro ⟨⟨key, hkey⟩, hne⟩
        exact ⟨key, by simp [(hother hkey).mpr hne, hkey]⟩
      · rintro ⟨key, hkey⟩
        split at hkey
        · cases hkey
        · rename_i hk
          exact ⟨⟨key, hkey⟩, (hother hkey).mp hk⟩
    · have hrev : event.operation = .revise := by
        cases h : event.operation <;> simp_all
      simp only [hrev, reduceCtorEq, or_self, and_true, ↓reduceIte]
      constructor
      · rintro (rfl | ⟨⟨key, hkey⟩, hne⟩)
        · exact ⟨root, by simp⟩
        · exact ⟨key, by simp [(hother hkey).mpr hne, hkey]⟩
      · rintro ⟨key, hkey⟩
        split at hkey
        · exact .inl (Option.some.inj hkey).symm
        · rename_i hk
          exact .inr ⟨⟨key, hkey⟩, (hother hkey).mp hk⟩

theorem Lockstep.accept (h : Host) (hp : Lockstep done p) (hd : (done.map (·.eventId)).Nodup)
    (hc : event.Canonical) (hs : event.type.semantic = true) (hn : Fresh done event)
    (hw : ∀ e ∈ done, e.eventId ≠ "")
    (hb : p.lineage.resolveBefore event = .ok before)
    (hf : chat.toChatEventFields = chatFields event eventTime ingestTime composite before)
    {evidence : List EdgeEvidence} (hv : ∀ e ∈ evidence, e.Valid) {q : Projection}
    (hecho : q.echo = (echoApply h false p.echo chat).1)
    (htrace : q.trace = (traceApply h false p.trace chat evidence).1)
    (hlineage : q.lineage = p.lineage.advance event) : Lockstep (event :: done) q := by
  have hid : chat.eventId = event.eventId := congrArg ChatEventFields.eventId hf
  obtain ⟨root, hroot, hrne⟩ := hc.message hs
  obtain ⟨hfresh, htomb⟩ := hp.fresh hn hid
  have hfresh' : p.trace.view.Fresh chat := hp.views ▸ hfresh
  rw [echoApply_online] at hecho
  rw [traceApply_online h hv hfresh'] at htrace
  have hview : q.echo.view = p.echo.view.step chat := by
    rw [hecho]
    exact StreamingConceptMap.apply_view h _ _ _ hfresh htomb
  have keep {P : RoomEvent → Prop} (hex : ∃ e ∈ done, P e) : ∃ e ∈ event :: done, P e := by
    obtain ⟨e, he, hP⟩ := hex
    exact ⟨e, List.mem_cons_of_mem _ he, hP⟩
  have self : ∃ e ∈ event :: done, e.eventId = chat.eventId :=
    ⟨event, List.mem_cons_self .., hid.symm⟩
  constructor
  · rw [hview, htrace, StreamingInteractionNetwork.apply_view h _ _ rfl hv hfresh', hp.views]
  · rw [hecho]
    exact StreamingConceptMap.apply_backed h _ _ hfresh htomb hp.echoBacked
  · rw [htrace]
    exact StreamingInteractionNetwork.apply_backed h rfl hv hfresh' hp.traceBacked
  · rw [hview]
    intro id hk
    rcases LedgerView.step_keys hk with rfl | hk
    · exact self
    · exact keep (hp.ledgered id hk)
  · rw [hview, LedgerView.step_seen]
    intro key hk
    rcases List.mem_append.mp hk with hk | hk
    · exact keep (hp.seen key hk)
    · rw [List.mem_singleton.mp hk]
      exact self
  · rw [hecho]
    intro id hk
    rcases StreamingConceptMap.apply_retracted h hfresh htomb hk with hk | ⟨hop, rfl⟩
    · exact keep (hp.tombstones id hk)
    · -- a tombstone is set for the event that spoke for the message
      have hopc : chat.operation = event.operation := congrArg ChatEventFields.operation hf
      have hadd : event.operation ≠ .add := by
        rw [← hopc]
        rcases hop with hop | hop <;> simp [hop]
      obtain ⟨htarget, hrequired⟩ := MessageLineageIndex.resolveBefore_ok hb
      obtain ⟨old, hold⟩ := Option.ne_none_iff_exists'.mp (hrequired hadd)
      rw [hold] at htarget
      obtain ⟨key, -, hget⟩ := Option.bind_eq_some_iff.mp htarget.symm
      obtain ⟨e, he, rfl, -⟩ := hp.roots key old hget
      rw [chat_target hf hadd hold (hw e he)]
      exact keep ⟨e, he, rfl⟩
  · rw [hlineage]
    intro key id hget
    rw [advance_get? hroot hrne] at hget
    split at hget
    · rename_i hk
      split at hget
      · cases hget
      · cases hget
        exact ⟨event, List.mem_cons_self .., rfl, hk ▸ hroot⟩
    · exact keep (hp.roots key id hget)
  · rw [hview, hlineage]
    exact hp.accept_active hd hc hs hn hw hb hf

/-- `_apply_one` keeps the invariant, whichever of its branches is taken. -/
theorem Lockstep.applyOne (h : Host) (hp : Lockstep done p) (hd : (done.map (·.eventId)).Nodup)
    (hc : event.Canonical) (hn : Fresh done event) (hw : ∀ e ∈ done, e.eventId ≠ "") :
    Lockstep (event :: done) (p.applyOne h false event).1 := by
  have hmore : ∀ e ∈ done, e ∈ event :: done := fun e he => List.mem_cons_of_mem _ he
  unfold Projection.applyOne
  cases event.ingestTime with
  | none => exact hp.transport rfl rfl rfl hmore
  | some ingest =>
    dsimp only
    split
    · rename_i hs
      split
      · exact hp.transport rfl rfl rfl hmore
      · rename_i chat lineage hchat
        obtain ⟨before, composite, hb, hf, rfl⟩ := toChatEvent_eq_ok hchat
        have hm : "" ∉ chat.mentions := by
          rw [hf]
          exact hc.mentions
        obtain ⟨_, evidence, _, -, -, hv, -, hr⟩ := Projection.reduce_eq h false
          (p.decide event ingest).tooLate (p.decide event ingest).warnings
          { p.observe (p.decide event ingest) with
            lineage := (p.observe (p.decide event ingest)).lineage.advance event } hm
        rw [hr]
        exact hp.accept h hd hc hs hn hw hb hf hv rfl rfl rfl
    · exact hp.transport rfl rfl rfl hmore

end Accepted

/-! ## A whole feed -/

namespace StreamingProjector

/-- Feed events one after another; a raise ends the call, not the feed. -/
def run (h : Host) (s : StreamingProjector) (events : List RoomEvent) : StreamingProjector :=
  events.foldl (fun s e => (s.consume h e).1) s

/-- Events in room sequence order with distinct ids, as the server writes them; every added
message has an id no earlier event used. -/
structure Ordered (events : List RoomEvent) : Prop where
  canonical : ∀ e ∈ events, e.Canonical
  order : events.Pairwise fun a b => a.roomSeq ≤ b.roomSeq
  distinct : (events.map (·.eventId)).Nodup
  added : events.Pairwise fun a b =>
    b.type = .messageAdded → a.payload.messageId ≠ b.payload.messageId

/-- The buffer holds events that were consumed, each under its sequence number. -/
def Buffered (done : List RoomEvent) (s : StreamingProjector) : Prop :=
  ∀ k e, s.pending.get? k = some e → e.roomSeq = k ∧ e ∈ done

/-- What holds of the projector after the events `done`, in this order. -/
structure Fed (done : List RoomEvent) (s : StreamingProjector) : Prop where
  buffered : Buffered done s
  lockstep : Lockstep done s.state

/-- In sequence order the buffer never holds the successor of the event just applied. -/
theorem drain_one (h : Host) {s : StreamingProjector} {event : RoomEvent} (fuel : Nat)
    (last : Applied) (hnext : s.pending.get? (s.completeThroughRoomSeq + 1) = some event)
    (hlast : ∀ k e, s.pending.get? k = some e → k ≤ s.completeThroughRoomSeq + 1) :
    (s.drain h (fuel + 1) last).1.state = (s.state.applyOne h false event).1 ∧
      (s.drain h (fuel + 1) last).1.pending = s.pending.erase (s.completeThroughRoomSeq + 1) := by
  simp only [drain, hnext]
  split
  · rename_i state e hr
    rw [hr]
    exact ⟨rfl, rfl⟩
  · rename_i state r hr
    have hstop : (s.pending.erase (s.completeThroughRoomSeq + 1)).get?
        (s.completeThroughRoomSeq + 1 + 1) = none := by
      rw [Dict.get?_erase]
      split
      · rfl
      · cases hg : s.pending.get? (s.completeThroughRoomSeq + 1 + 1) with
        | none => rfl
        | some e =>
          have := hlast _ e hg
          omega
    rw [hr]
    cases fuel with
    | zero => exact ⟨rfl, rfl⟩
    | succ fuel =>
      simp only [drain, hstop, and_self]

section

variable {done : List RoomEvent} {s : StreamingProjector} {event : RoomEvent}

theorem Buffered.idle {t : StreamingProjector} (hs : Buffered done s)
    (hp : t.pending = s.pending) : Buffered (event :: done) t := by
  intro k e hk
  rw [hp] at hk
  exact (hs k e hk).imp id fun hm => List.mem_cons_of_mem _ hm

theorem Buffered.set (hs : Buffered done s) {k : Nat} {e : RoomEvent}
    (hk : (s.pending.set event.roomSeq event).get? k = some e) :
    e.roomSeq = k ∧ e ∈ event :: done := by
  rw [Dict.get?_set] at hk
  split at hk
  · rename_i heq
    cases hk
    exact ⟨heq.symm, List.mem_cons_self ..⟩
  · exact (hs k e hk).imp id fun hm => List.mem_cons_of_mem _ hm

/-- What an event does to the projection: nothing but ask for a replay, or its own step. -/
inductive Turns (h : Host) (p q : Projection) (event : RoomEvent) : Prop
  | idle (requiresReplay : Bool) (hq : q = { p with requiresReplay })
  | applied (hq : q = (p.applyOne h false event).1)

theorem Buffered.place (h : Host) (hs : Buffered done s)
    (ho : ∀ e ∈ done, e.roomSeq ≤ event.roomSeq) :
    Buffered (event :: done) (s.place h event).1 ∧
      Turns h s.state (s.place h event).1.state event := by
  unfold StreamingProjector.place
  dsimp only
  cases hdec : sequenceDecision event.roomSeq s.completeThroughRoomSeq with
  | duplicate => exact ⟨hs.idle rfl, .idle true rfl⟩
  | roomSeqGap => exact ⟨fun k e hk => hs.set hk, .idle _ rfl⟩
  | next =>
    have hseq : event.roomSeq = s.completeThroughRoomSeq + 1 := by
      unfold sequenceDecision at hdec
      split at hdec
      · cases hdec
      · split at hdec
        · assumption
        · cases hdec
    have hnext : (s.pending.set event.roomSeq event).get? (s.completeThroughRoomSeq + 1) =
        some event := by
      rw [← hseq, Dict.get?_set_self]
    have hlast : ∀ k e, (s.pending.set event.roomSeq event).get? k = some e →
        k ≤ s.completeThroughRoomSeq + 1 := by
      intro k e hk
      obtain ⟨rfl, hm⟩ := hs.set hk
      rcases List.mem_cons.mp hm with rfl | hm
      · omega
      · have := ho e hm
        omega
    obtain ⟨fuel, hfuel⟩ : ∃ fuel, (s.pending.set event.roomSeq event).size = fuel + 1 := by
      have := Dict.size_erase_lt (Dict.mem_keys.mpr ⟨event, hnext⟩)
      exact ⟨_, (Nat.succ_pred_eq_of_pos (by omega)).symm⟩
    have hdrain := drain_one h (s := { s with
      history := (s.history ++ [event]).insertionSort historyLe
      pending := s.pending.set event.roomSeq event }) fuel ⟨false, none, false, []⟩ hnext hlast
    have hturns : ∀ t : StreamingProjector, t.state = (s.state.applyOne h false event).1 →
        t.pending = (s.pending.set event.roomSeq event).erase (s.completeThroughRoomSeq + 1) →
        Buffered (event :: done) t ∧ Turns h s.state t.state event := by
      intro t hstate hpending
      refine ⟨fun k e hk => ?_, .applied hstate⟩
      rw [hpending, Dict.get?_erase] at hk
      split at hk
      · cases hk
      · exact hs.set hk
    dsimp only
    rw [hfuel]
    split
    · rename_i t e ht
      rw [ht] at hdrain
      exact hturns t hdrain.1 hdrain.2
    · rename_i t r ht
      rw [ht] at hdrain
      exact hturns t hdrain.1 hdrain.2

theorem Buffered.consume (h : Host) (hs : Buffered done s)
    (ho : ∀ e ∈ done, e.roomSeq ≤ event.roomSeq) :
    Buffered (event :: done) (s.consume h event).1 ∧
      Turns h s.state (s.consume h event).1.state event := by
  unfold StreamingProjector.consume
  split_ifs
  · exact ⟨hs.idle rfl, .idle _ rfl⟩
  · exact ⟨hs.idle rfl, .idle _ rfl⟩
  · exact ⟨hs.idle rfl, .idle _ rfl⟩
  · exact ⟨hs.idle rfl, .idle _ rfl⟩
  · exact hs.place h ho

theorem Fed.consume (h : Host) (hs : Fed done s) (hd : (done.map (·.eventId)).Nodup)
    (hc : event.Canonical) (hn : Fresh done event) (hw : ∀ e ∈ done, e.eventId ≠ "")
    (ho : ∀ e ∈ done, e.roomSeq ≤ event.roomSeq) : Fed (event :: done) (s.consume h event).1 := by
  obtain ⟨hbuffered, hturns⟩ := hs.buffered.consume h ho
  refine ⟨hbuffered, ?_⟩
  cases hturns with
  | idle requiresReplay hq =>
    rw [hq]
    exact hs.lockstep.transport rfl rfl rfl fun _ hm => List.mem_cons_of_mem _ hm
  | applied hq =>
    rw [hq]
    exact hs.lockstep.applyOne h hd hc hn hw

end

theorem Fed.init (roomId : String) : Fed [] (StreamingProjector.init roomId) where
  buffered k e hk := by cases hk
  lockstep := Lockstep.init

theorem Ordered.fed (h : Host) (roomId : String) {events : List RoomEvent} (ho : Ordered events) :
    Fed events.reverse ((init roomId).run h events) := by
  induction events using List.reverseRecOn with
  | nil => exact Fed.init roomId
  | append_singleton events event ih =>
    have hcanon := ho.canonical event (by simp)
    have hearlier : Ordered events :=
      ⟨fun e he => ho.canonical e (List.mem_append_left _ he),
        (List.pairwise_append.mp ho.order).1,
        (ho.distinct.sublist (List.Sublist.map _ (List.sublist_append_left ..))),
        (List.pairwise_append.mp ho.added).1⟩
    have hids : ∀ e ∈ events, e.eventId ≠ event.eventId := by
      have hd := ho.distinct
      rw [List.map_append, List.nodup_append] at hd
      exact fun e he => hd.2.2 _ (List.mem_map_of_mem he) _ (by simp)
    have hfresh : Fresh events.reverse event := by
      refine ⟨fun e he => hids e (by simpa using he), fun ht e he => ?_⟩
      exact (List.pairwise_append.mp ho.added).2.2 e (by simpa using he) event (by simp) ht
    have hstep := (ih hearlier).consume h
      (by simpa [List.map_reverse] using hearlier.distinct) hcanon hfresh
      (fun e he => (hearlier.canonical e (by simpa using he)).eventId)
      fun e he => (List.pairwise_append.mp ho.order).2.2 e (by simpa using he) event (by simp)
    simpa [run, List.foldl_append] using hstep

/-- After every ordered feed the two reducers agree on watermark, seen keys and replay
requests; and when none is pending, the events active in ECHO, those active in TRACE and the
events the lineage index points at are the same, so nothing withdrawn or superseded still
contributes. -/
theorem run_lockstep (h : Host) (roomId : String) (events : List RoomEvent)
    (ho : Ordered events) :
    let p := ((init roomId).run h events).state
    p.echo.watermark = p.trace.watermark ∧
    (∀ key, key ∈ p.echo.seen ↔ key ∈ p.trace.seen) ∧
    p.echo.requiresReplay = p.trace.requiresReplay ∧
    (p.echo.requiresReplay = [] →
      (∀ id, p.echo.view.Active id ↔ id ∈ p.lineage.activeByMessage.values) ∧
      (∀ id, p.trace.view.Active id ↔ id ∈ p.lineage.activeByMessage.values) ∧
      (∀ c ∈ p.echo.contributions.values, c.active = true →
        c.eventId ∈ p.lineage.activeByMessage.values) ∧
      (∀ c ∈ p.trace.contributions.values, c.active = true →
        c.eventId ∈ p.lineage.activeByMessage.values)) := by
  intro p
  have hl : Lockstep events.reverse p := (ho.fed h roomId).lockstep
  refine ⟨congrArg LedgerView.watermark hl.views, fun key => ?_,
    congrArg LedgerView.requiresReplay hl.views, fun hempty => ?_⟩
  · have hseen : p.echo.seen = p.trace.seen := congrArg LedgerView.seen hl.views
    rw [hseen]
  · have hactive : ∀ id, p.echo.view.Active id ↔ id ∈ p.lineage.activeByMessage.values :=
      fun id => (hl.active hempty id).trans Dict.mem_values.symm
    refine ⟨hactive, hl.views ▸ hactive, fun c hc ha => (hactive _).mp (hl.echoBacked c hc ha),
      fun c hc ha => (hactive _).mp ?_⟩
    rw [hl.views]
    exact hl.traceBacked c hc ha

/-- A message that is added, revised and withdrawn. -/
def withdrawnMessage : List RoomEvent :=
  let event (seq : Nat) (id : String) (type : EventType) (op : Operation) (text : String) :
      RoomEvent :=
    { eventId := id, roomId := "room", roomSeq := seq, type, operation := op, actorId := "amy"
      actorKind := .human, actorRole := some .student, revision := seq
      eventTime := some seq, ingestTime := some seq, correlationId := "c1"
      payload := ⟨some "m1", text, none, [], []⟩ }
  [ event 1 "e1" .messageAdded .add "the sun provides energy to producers",
    event 2 "e2" .messageRevised .revise "soil provides nutrients to producers",
    event 3 "e3" .messageRetracted .retract "" ]

theorem withdrawnMessage_ordered : Ordered withdrawnMessage where
  canonical := by
    simp only [withdrawnMessage, List.mem_cons, List.not_mem_nil, or_false, forall_eq_or_imp,
      forall_eq]
    refine ⟨⟨⟨by decide, by decide, by decide, by decide, by decide, by decide⟩, ?_, ?_⟩,
      ⟨⟨by decide, by decide, by decide, by decide, by decide, by decide⟩, ?_, ?_⟩,
      ⟨⟨by decide, by decide, by decide, by decide, by decide, by decide⟩, ?_, ?_⟩⟩
    all_goals first
      | exact fun _ => ⟨"m1", rfl, by decide⟩
      | (intro op hop; cases hop; rfl)
  order := by decide
  distinct := by decide
  added := by decide

theorem run_lockstep_withdrawnMessage :
    let p := ((init "room").run .ascii withdrawnMessage).state
    p.echo.watermark = p.trace.watermark ∧
    (∀ key, key ∈ p.echo.seen ↔ key ∈ p.trace.seen) ∧
    p.echo.requiresReplay = p.trace.requiresReplay ∧
    (p.echo.requiresReplay = [] →
      (∀ id, p.echo.view.Active id ↔ id ∈ p.lineage.activeByMessage.values) ∧
      (∀ id, p.trace.view.Active id ↔ id ∈ p.lineage.activeByMessage.values) ∧
      (∀ c ∈ p.echo.contributions.values, c.active = true →
        c.eventId ∈ p.lineage.activeByMessage.values) ∧
      (∀ c ∈ p.trace.contributions.values, c.active = true →
        c.eventId ∈ p.lineage.activeByMessage.values)) :=
  run_lockstep .ascii "room" withdrawnMessage withdrawnMessage_ordered

end StreamingProjector

end LearningOrbit.Worker
