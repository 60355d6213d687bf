import Mathlib.Data.List.Induction
import LearningOrbit.Raise
import LearningOrbit.Agent.Context

/-!
# The context against the ledger

The executor reads the ledger up to the number the run recorded, so it shows the
conversation as it was at that number. That is the conversation at the time of the
request exactly when nothing later touches one of the messages it shows.
-/

namespace LearningOrbit.Agent

open LearningOrbit (Dict)
open LearningOrbit.Worker LearningOrbit.Reference

/-- The event changes its message. -/
def touches (e : RoomEvent) : Bool := retracts e || writes e

/-- The latest revision of its message among the events, and not retracted by them. -/
def Latest (events : List RoomEvent) (e : RoomEvent) : Prop :=
  writes e = true ∧
    ∀ f ∈ events, touches f = true → f.messageId = e.messageId → f.roomSeq ≤ e.roomSeq

instance (events : List RoomEvent) (e : RoomEvent) : Decidable (Latest events e) :=
  inferInstanceAs (Decidable (_ ∧ _))

theorem writes_isMessage {e : RoomEvent} (h : writes e = true) : isMessage e = true := by
  simp only [writes, Bool.and_eq_true] at h
  exact h.1.1

theorem touches_isMessage {e : RoomEvent} (h : touches e = true) : isMessage e = true := by
  simp only [touches, retracts, writes, Bool.or_eq_true, Bool.and_eq_true] at h
  rcases h with h | h
  · exact h.1
  · exact h.1.1

theorem not_retracts_of_writes {e : RoomEvent} (h : writes e = true) : retracts e = false := by
  simp only [writes, Bool.and_eq_true, Bool.not_eq_true'] at h
  exact h.1.2

theorem Latest.mono {events events' : List RoomEvent} {e : RoomEvent} (h : Latest events e)
    (hsub : ∀ f ∈ events', f ∈ events) : Latest events' e :=
  ⟨h.1, fun f hf => h.2 f (hsub f hf)⟩

/-! ## The loop -/

/-- A later event that touches a message is what remains of it. -/
theorem latest_concat {done : List RoomEvent} {x e : RoomEvent}
    (hlater : ∀ f ∈ done, f.roomSeq < x.roomSeq) :
    e ∈ done ++ [x] ∧ Latest (done ++ [x]) e ↔
      (e = x ∧ writes x = true) ∨
        (e ∈ done ∧ Latest done e ∧ (touches x = true → x.messageId ≠ e.messageId)) := by
  constructor
  · rintro ⟨hmem, hwrites, hlast⟩
    rcases List.mem_append.mp hmem with hold | hnew
    · right
      refine ⟨hold, ⟨hwrites, fun f hf => hlast f (List.mem_append_left _ hf)⟩, fun ht hid => ?_⟩
      have hle := hlast x (List.mem_append_right _ (List.mem_singleton_self x)) ht hid
      have hlt := hlater e hold
      omega
    · rw [List.mem_singleton] at hnew
      subst hnew
      exact .inl ⟨rfl, hwrites⟩
  · rintro (⟨rfl, hwrites⟩ | ⟨hold, hlatest, hother⟩)
    · refine ⟨List.mem_append_right _ (List.mem_singleton_self e), hwrites, fun f hf _ _ => ?_⟩
      rcases List.mem_append.mp hf with hdone | hself
      · exact Nat.le_of_lt (hlater f hdone)
      · rw [List.mem_singleton] at hself
        rw [hself]
    · refine ⟨List.mem_append_left _ hold, hlatest.1, fun f hf ht hid => ?_⟩
      rcases List.mem_append.mp hf with hdone | hself
      · exact hlatest.2 f hdone ht hid
      · rw [List.mem_singleton] at hself
        subst hself
        exact absurd hid (hother ht)

/-- What the loop holds: the latest revision of each message, under its message. -/
structure Selects (events : List RoomEvent) (s : Selection) : Prop where
  latest : ∀ m e, s.latest.get? m = some e ↔ (e ∈ events ∧ Latest events e) ∧ e.messageId = m
  active : ∀ m, m ∈ s.active ↔ m ∈ s.latest.keys

theorem Selects.take {done : List RoomEvent} {s : Selection} {x : RoomEvent}
    (h : Selects done s) (hlater : ∀ f ∈ done, f.roomSeq < x.roomSeq) :
    Selects (done ++ [x]) (s.take x) := by
  unfold Selection.take
  by_cases hr : retracts x = true
  · rw [if_pos hr]
    have hw : writes x = false := by
      cases hw : writes x with
      | false => rfl
      | true =>
        rw [not_retracts_of_writes hw] at hr
        cases hr
    have ht : touches x = true := by simp [touches, hr]
    constructor
    · intro m e
      rw [latest_concat hlater, Dict.get?_erase]
      split
      · rename_i hm
        subst hm
        simp [hw, ht, eq_comm]
      · rename_i hm
        rw [h.latest]
        constructor
        · rintro ⟨⟨hmem, hlatest⟩, rfl⟩
          exact ⟨.inr ⟨hmem, hlatest, fun _ hid => hm hid.symm⟩, rfl⟩
        · rintro ⟨⟨-, hwx⟩ | ⟨hmem, hlatest, -⟩, hid⟩
          · rw [hw] at hwx
            cases hwx
          · exact ⟨⟨hmem, hlatest⟩, hid⟩
    · intro m
      rw [Dict.mem_keys_erase]
      simp only [List.mem_filter, decide_eq_true_eq]
      rw [h.active]
      exact and_comm
  · rw [if_neg hr]
    by_cases hw : writes x = true
    · rw [if_pos hw]
      have ht : touches x = true := by simp [touches, hw]
      constructor
      · intro m e
        rw [latest_concat hlater, Dict.get?_set]
        split
        · rename_i hm
          subst hm
          simp only [Option.some.injEq]
          constructor
          · rintro rfl
            exact ⟨.inl ⟨rfl, hw⟩, rfl⟩
          · rintro ⟨⟨rfl, -⟩ | ⟨-, -, hother⟩, hid⟩
            · rfl
            · exact absurd hid.symm (hother ht)
        · rename_i hm
          rw [h.latest]
          constructor
          · rintro ⟨⟨hmem, hlatest⟩, rfl⟩
            exact ⟨.inr ⟨hmem, hlatest, fun _ hid => hm hid.symm⟩, rfl⟩
          · rintro ⟨⟨rfl, -⟩ | ⟨hmem, hlatest, -⟩, hid⟩
            · exact absurd hid.symm hm
            · exact ⟨⟨hmem, hlatest⟩, hid⟩
      · intro m
        rw [Dict.mem_keys_set, ← h.active]
        split
        · rename_i hin
          constructor
          · exact .inr
          · rintro (rfl | hm)
            · exact hin
            · exact hm
        · simp [or_comm]
    · rw [if_neg hw]
      have ht : touches x = false := by simp [touches, hr, hw]
      refine ⟨fun m e => ?_, h.active⟩
      rw [latest_concat hlater, h.latest]
      simp [hw, ht]

theorem foldl_selects {events : List RoomEvent}
    (hsorted : events.Pairwise fun a b => a.roomSeq < b.roomSeq) :
    Selects events (events.foldl Selection.take ⟨[], .empty⟩) := by
  induction events using List.reverseRecOn with
  | nil => exact ⟨by simp, by simp [Dict.keys, Dict.empty]⟩
  | append_singleton done x ih =>
    rw [List.pairwise_append] at hsorted
    rw [List.foldl_append]
    exact (ih hsorted.1).take fun f hf => hsorted.2.2 f hf x (List.mem_singleton_self x)

/-! ## In order of the room -/

/-- Sorted by numbers that are all different. -/
def Increasing (events : List RoomEvent) : Prop :=
  events.Pairwise fun a b => a.roomSeq < b.roomSeq

theorem bySeq_increasing {events : List RoomEvent}
    (hn : (events.map RoomEvent.roomSeq).Nodup) : Increasing (bySeq events) := by
  have hle : (bySeq events).Pairwise fun a b => a.roomSeq ≤ b.roomSeq :=
    List.pairwise_insertionSort _ _
  have hne : (bySeq events).Pairwise fun a b => a.roomSeq ≠ b.roomSeq := by
    have hperm : ((bySeq events).map RoomEvent.roomSeq).Perm (events.map RoomEvent.roomSeq) :=
      (List.perm_insertionSort _ _).map _
    exact List.pairwise_map.mp (hperm.nodup_iff.mpr hn)
  exact hle.imp₂ (fun a b h h' => Nat.lt_of_le_of_ne h h') hne

theorem mem_bySeq {events : List RoomEvent} {e : RoomEvent} : e ∈ bySeq events ↔ e ∈ events :=
  List.mem_insertionSort _

/-- Increasing lists of the same events are the same. -/
theorem Increasing.ext {events events' : List RoomEvent} (h : Increasing events)
    (h' : Increasing events') (hmem : ∀ e, e ∈ events ↔ e ∈ events') : events = events' := by
  have hnodup : ∀ {l : List RoomEvent}, Increasing l → l.Nodup := by
    intro l hl
    refine hl.imp fun {a b} hlt heq => ?_
    rw [heq] at hlt
    exact Nat.lt_irrefl _ hlt
  have hperm : events.Perm events' :=
    (List.perm_ext_iff_of_nodup (hnodup h) (hnodup h')).mpr hmem
  refine hperm.eq_of_pairwise (fun a b _ _ hab hba => ?_) h h'
  omega

theorem Selects.mem {events : List RoomEvent} {s : Selection} (h : Selects events s)
    {e : RoomEvent} : e ∈ s.events ↔ e ∈ events ∧ Latest events e := by
  unfold Selection.events
  rw [mem_bySeq, List.mem_map]
  constructor
  · rintro ⟨⟨m, f⟩, hentry, rfl⟩
    have hget := Dict.get?_eq_some.mpr (List.mem_of_mem_filter hentry)
    exact ((h.latest m f).mp hget).1
  · intro he
    have hget := (h.latest e.messageId e).mpr ⟨he, rfl⟩
    refine ⟨(e.messageId, e), List.mem_filter.mpr ⟨Dict.get?_eq_some.mp hget, ?_⟩, rfl⟩
    rw [decide_eq_true_eq, h.active]
    exact Dict.mem_keys.mpr ⟨e, hget⟩

/-- One entry for each message, so no number twice. -/
theorem Selects.increasing {events : List RoomEvent} {s : Selection} (h : Selects events s)
    (hsorted : Increasing events) : Increasing s.events := by
  have hseq : ∀ e ∈ events, ∀ f ∈ events, e.roomSeq = f.roomSeq → e = f := by
    have hn : (events.map RoomEvent.roomSeq).Nodup :=
      List.pairwise_map.mpr (hsorted.imp fun hlt => Nat.ne_of_lt hlt)
    exact fun e he f hf hef => List.inj_on_of_nodup_map hn he hf hef
  have hentry : ∀ m e, (m, e) ∈ s.latest.entries → e ∈ events ∧ e.messageId = m := by
    intro m e hme
    have := (h.latest m e).mp (Dict.get?_eq_some.mpr hme)
    exact ⟨this.1.1, this.2⟩
  have hkeys : s.latest.entries.Pairwise fun a b => a.1 ≠ b.1 :=
    List.pairwise_map.mp s.latest.nodup
  apply bySeq_increasing
  rw [List.map_map]
  apply List.pairwise_map.mpr
  refine (hkeys.filter _).imp_of_mem fun {a b} ha hb hne heq => hne ?_
  obtain ⟨hae, ham⟩ := hentry a.1 a.2 (List.mem_of_mem_filter ha)
  obtain ⟨hbe, hbm⟩ := hentry b.1 b.2 (List.mem_of_mem_filter hb)
  rw [← ham, ← hbm, hseq a.2 hae b.2 hbe heq]

theorem rtake_filter_iff {α : Type} (p : α → Bool) (l : List α) (n : Nat) :
    (l.filter p).rtake n = l.rtake n ↔ ∀ x ∈ l.rtake n, p x = true := by
  constructor
  · intro heq x hx
    rw [← heq] at hx
    exact (List.mem_filter.mp (List.mem_of_mem_drop hx)).2
  · intro hall
    have hsplit : l.filter p = (l.rdrop n).filter p ++ l.rtake n := by
      have hl : l = l.rdrop n ++ l.rtake n := (List.take_append_drop _ l).symm
      conv_lhs => rw [hl]
      rw [List.filter_append, List.filter_eq_self.mpr hall]
    rw [hsplit]
    by_cases hlen : n ≤ l.length
    · have htake : (l.rtake n).length = n := by
        simp only [List.rtake, List.length_drop]
        omega
      unfold List.rtake at htake ⊢
      rw [List.length_append, htake, Nat.add_sub_cancel, List.drop_left]
    · have hdrop : l.rdrop n = [] := by
        simp only [List.rdrop]
        rw [Nat.sub_eq_zero_of_le (by omega), List.take_zero]
      rw [hdrop, List.filter_nil, List.nil_append]
      unfold List.rtake
      rw [Nat.sub_eq_zero_of_le (by omega : l.length ≤ n), List.drop_zero,
        Nat.sub_eq_zero_of_le (by omega : l.length ≤ n), List.drop_zero]

/-! ## The ledger -/

def roomEvents (ledger : List RoomEvent) (roomId : String) : List RoomEvent :=
  ledger.filter (·.roomId = roomId)

def upTo (throughSeq : Nat) (events : List RoomEvent) : List RoomEvent :=
  events.filter (·.roomSeq ≤ throughSeq)

/-- The conversation as it was when the ledger had come to a number. -/
def activeAt (ledger : List RoomEvent) (roomId : String) (throughSeq : Nat) : List RoomEvent :=
  bySeq ((upTo throughSeq (roomEvents ledger roomId)).filter
    (Latest (upTo throughSeq (roomEvents ledger roomId))))

/-- The revisions up to a number that are the latest in the whole ledger. -/
def standing (ledger : List RoomEvent) (roomId : String) (throughSeq : Nat) : List RoomEvent :=
  bySeq ((upTo throughSeq (roomEvents ledger roomId)).filter (Latest (roomEvents ledger roomId)))

/-- What the tables promise of the events of a room. -/
structure Kept (ledger : List RoomEvent) (roomId : String) : Prop where
  distinct : ((roomEvents ledger roomId).map RoomEvent.roomSeq).Nodup
  positive : ∀ e ∈ roomEvents ledger roomId, 1 ≤ e.roomSeq ∧ 1 ≤ e.revision

section
variable {ledger : List RoomEvent} {roomId : String} (hk : Kept ledger roomId) (throughSeq : Nat)
include hk

theorem Kept.filter_increasing (p : RoomEvent → Bool) :
    Increasing (bySeq ((upTo throughSeq (roomEvents ledger roomId)).filter p)) := by
  apply bySeq_increasing
  have hsub : ((upTo throughSeq (roomEvents ledger roomId)).filter p).Sublist
      (roomEvents ledger roomId) :=
    List.filter_sublist.trans List.filter_sublist
  exact hk.distinct.sublist (hsub.map _)

theorem Kept.inj {e f : RoomEvent} (he : e ∈ roomEvents ledger roomId)
    (hf : f ∈ roomEvents ledger roomId) (hseq : e.roomSeq = f.roomSeq) : e = f :=
  List.inj_on_of_nodup_map hk.distinct he hf hseq

/-- The query and the parse give the events of the room up to the number, in order. -/
theorem Kept.runEvents_parsed :
    (runEvents ledger roomId throughSeq).mapM parseEvent =
      .ok (bySeq (upTo throughSeq (roomEvents ledger roomId))) := by
  have hrows : runEvents ledger roomId throughSeq =
      bySeq (upTo throughSeq (roomEvents ledger roomId)) := by
    unfold runEvents upTo roomEvents
    rw [List.filter_filter]
    congr 2
    funext e
    exact Bool.and_comm ..
  rw [hrows, mapM_eq_ok (g := id), List.map_id]
  intro e he
  obtain ⟨hseq, hrev⟩ := hk.positive e (List.mem_of_mem_filter (mem_bySeq.mp he))
  unfold parseEvent
  rw [if_neg (by omega), if_neg (by omega)]
  rfl

/-- The loop keeps the conversation as it was at the number. -/
theorem Kept.select_events :
    (select roomId throughSeq (bySeq (bySeq (upTo throughSeq (roomEvents ledger roomId))))).events =
      activeAt ledger roomId throughSeq := by
  have hsorted : Increasing (bySeq (upTo throughSeq (roomEvents ledger roomId))) := by
    have := hk.filter_increasing throughSeq fun _ => true
    rwa [List.filter_true] at this
  have htwice : bySeq (bySeq (upTo throughSeq (roomEvents ledger roomId))) =
      bySeq (upTo throughSeq (roomEvents ledger roomId)) :=
    List.Pairwise.insertionSort_eq (hsorted.imp fun h => Nat.le_of_lt h)
  have hseen : ∀ e, e ∈ ((bySeq (upTo throughSeq (roomEvents ledger roomId))).filter fun item =>
      item.roomId = roomId && item.roomSeq ≤ throughSeq && isMessage item) ↔
        e ∈ upTo throughSeq (roomEvents ledger roomId) ∧ isMessage e = true := by
    intro e
    rw [List.mem_filter, mem_bySeq]
    simp only [upTo, roomEvents, List.mem_filter, decide_eq_true_eq, Bool.and_eq_true]
    constructor
    · rintro ⟨hin, -, hm⟩
      exact ⟨hin, hm⟩
    · rintro ⟨hin, hm⟩
      exact ⟨hin, ⟨hin.1.2, hin.2⟩, hm⟩
  have hselects := foldl_selects (hsorted.filter fun item =>
    item.roomId = roomId && item.roomSeq ≤ throughSeq && isMessage item)
  rw [htwice]
  apply (hselects.increasing (hsorted.filter _)).ext (hk.filter_increasing throughSeq _)
  intro e
  rw [hselects.mem, hseen, mem_bySeq, List.mem_filter, decide_eq_true_eq]
  -- Events of other types touch no message.
  constructor
  · rintro ⟨⟨hin, -⟩, hwrites, hlast⟩
    refine ⟨hin, hwrites, fun f hf ht => hlast f ((hseen f).mpr ⟨hf, touches_isMessage ht⟩) ht⟩
  · rintro ⟨hin, hwrites, hlast⟩
    exact ⟨⟨hin, writes_isMessage hwrites⟩, hwrites,
      fun f hf => hlast f ((hseen f).mp hf).1⟩

theorem Kept.standing_eq :
    standing ledger roomId throughSeq =
      (activeAt ledger roomId throughSeq).filter (Latest (roomEvents ledger roomId)) := by
  apply (hk.filter_increasing throughSeq _).ext
    ((hk.filter_increasing throughSeq _).filter _)
  intro e
  rw [mem_bySeq, List.mem_filter, List.mem_filter, mem_bySeq, List.mem_filter]
  simp only [decide_eq_true_eq]
  constructor
  · rintro ⟨hin, hlatest⟩
    exact ⟨⟨hin, hlatest.mono fun f hf => List.mem_of_mem_filter hf⟩, hlatest⟩
  · rintro ⟨⟨hin, -⟩, hlatest⟩
    exact ⟨hin, hlatest⟩

end

/-- A message is as it was at the number when no later event touches it. -/
theorem latest_iff {ledger : List RoomEvent} {roomId : String} {throughSeq : Nat} {e : RoomEvent}
    (he : e ∈ activeAt ledger roomId throughSeq) :
    Latest (roomEvents ledger roomId) e ↔
      ∀ f ∈ roomEvents ledger roomId, touches f = true → f.messageId = e.messageId →
        f.roomSeq ≤ throughSeq := by
  obtain ⟨hin, hlatest⟩ := List.mem_filter.mp (mem_bySeq.mp he)
  obtain ⟨hroom, hle⟩ := List.mem_filter.mp hin
  simp only [decide_eq_true_eq] at hlatest hle
  constructor
  · intro hall f hf ht hid
    exact Nat.le_trans (hall.2 f hf ht hid) hle
  · intro hnone
    refine ⟨hlatest.1, fun f hf ht hid => hlatest.2 f ?_ ht hid⟩
    exact List.mem_filter.mpr ⟨hf, decide_eq_true (hnone f hf ht hid)⟩

/-! ## The request -/

/-- The context over some events, or the failure of a run that has none to show. -/
def shows (roomId : String) (shown : List RoomEvent) : Except String AgentContext :=
  if shown.isEmpty then .error "AGENT_CONTEXT_NO_ACTIVE_CONTEXT" else .ok (contextOf roomId shown [])

theorem executorContext_eq {ledger : List RoomEvent} {run : RunRow} {maxContextEvents : Nat}
    (hk : Kept ledger run.roomId) (hthrough : 1 ≤ run.inputThroughRoomSeq)
    (hmax : 1 ≤ maxContextEvents) :
    executorContext ledger run maxContextEvents =
      shows run.roomId
        ((activeAt ledger run.roomId run.inputThroughRoomSeq).rtake maxContextEvents) := by
  unfold executorContext buildContext shows
  have hbounds : ¬ (run.inputThroughRoomSeq < 1 || maxContextEvents < 1) = true := by
    simp only [Bool.or_eq_true, decide_eq_true_eq]
    omega
  rw [if_neg hbounds, hk.runEvents_parsed]
  simp only [bind, Except.bind]
  rw [hk.select_events]
  split <;> rename_i heq <;> split at heq <;> cases heq <;> simp_all

/-- Equal contexts show events of equal numbers. -/
theorem shows_mem {roomId : String} {shown shown' : List RoomEvent} (hne : shown ≠ [])
    (h : shows roomId shown = shows roomId shown') {e : RoomEvent} (he : e ∈ shown) :
    ∃ f ∈ shown', f.roomSeq = e.roomSeq := by
  unfold shows at h
  rw [if_neg (by simpa using hne)] at h
  split at h
  · cases h
  · have hevents : shown.map contextEvent = shown'.map contextEvent :=
      congrArg AgentContext.events (Except.ok.inj h)
    have hmem : contextEvent e ∈ shown'.map contextEvent :=
      hevents ▸ List.mem_map_of_mem he
    obtain ⟨f, hf, hfe⟩ := List.mem_map.mp hmem
    exact ⟨f, hf, congrArg ContextEvent.roomSeq hfe⟩

/-- The context is that of the ledger at the time of the request exactly when no event after
the number the run recorded touches a message that was among the last active ones then. -/
theorem context_current_iff (ledger : List RoomEvent) (run : RunRow) (maxContextEvents : Nat)
    (hk : Kept ledger run.roomId) (hthrough : 1 ≤ run.inputThroughRoomSeq)
    (hmax : 1 ≤ maxContextEvents) :
    executorContext ledger run maxContextEvents =
      shows run.roomId
        ((standing ledger run.roomId run.inputThroughRoomSeq).rtake maxContextEvents) ↔
    ∀ e ∈ (activeAt ledger run.roomId run.inputThroughRoomSeq).rtake maxContextEvents,
      ∀ f ∈ roomEvents ledger run.roomId, touches f = true → f.messageId = e.messageId →
        f.roomSeq ≤ run.inputThroughRoomSeq := by
  rw [executorContext_eq hk hthrough hmax, hk.standing_eq]
  constructor
  · intro hsame e he
    have hactive : e ∈ activeAt ledger run.roomId run.inputThroughRoomSeq :=
      List.mem_of_mem_drop he
    apply (latest_iff hactive).mp
    obtain ⟨f, hf, hseq⟩ := shows_mem (List.ne_nil_of_mem he) hsame he
    obtain ⟨hfa, hlatest⟩ := List.mem_filter.mp (List.mem_of_mem_drop hf)
    have hin : ∀ g ∈ activeAt ledger run.roomId run.inputThroughRoomSeq,
        g ∈ roomEvents ledger run.roomId := fun g hg =>
      List.mem_of_mem_filter (List.mem_of_mem_filter (mem_bySeq.mp hg))
    rw [← hk.inj (hin f hfa) (hin e hactive) hseq]
    exact of_decide_eq_true hlatest
  · intro hnone
    rw [(rtake_filter_iff _ _ _).mpr]
    intro e he
    exact decide_eq_true ((latest_iff (List.mem_of_mem_drop he)).mpr (hnone e he))

def gardenMessage (eventId messageId : String) (roomSeq : Nat) (type : EventType)
    (operation : Operation) (text : String) : RoomEvent where
  eventId := eventId
  roomId := "garden"
  roomSeq := roomSeq
  type := type
  operation := operation
  actorId := "mei"
  actorKind := .human
  actorRole := some .student
  revision := 1
  eventTime := some 0
  ingestTime := some 0
  correlationId := eventId
  payload := ⟨some messageId, text, none, [], []⟩

/-- Two messages. -/
def question : List RoomEvent :=
  [gardenMessage "e1" "m1" 1 .messageAdded .add "Leaves rot.",
    gardenMessage "e2" "m2" 2 .messageAdded .add "Why, Nova?"]

theorem question_kept : Kept question "garden" := by
  constructor
  · decide
  · decide

theorem context_current_question :
    executorContext question ⟨"garden", 2⟩ 30 =
      shows "garden" ((standing question "garden" 2).rtake 30) ∧
    (standing question "garden" 2).rtake 30 = question := by
  refine ⟨(context_current_iff question ⟨"garden", 2⟩ 30 question_kept (by decide)
    (by decide)).mpr (by decide), by decide⟩

/-- The first message is retracted while the run waits for a worker. -/
def withdrawn : List RoomEvent :=
  question ++ [gardenMessage "e3" "m1" 3 .messageRetracted .retract ""]

/-- It is sent to the provider all the same. -/
theorem retracted_message_shown :
    executorContext withdrawn ⟨"garden", 2⟩ 30 ≠
      shows "garden" ((standing withdrawn "garden" 2).rtake 30) ∧
    (executorContext withdrawn ⟨"garden", 2⟩ 30).toOption.map (fun c => c.events.map (·.text)) =
      some ["Leaves rot.", "Why, Nova?"] := by
  decide

end LearningOrbit.Agent
