import LearningOrbit.Reference.EchoRun

/-!
# What a concept map holds of what was said

`statedOf` is what one chat event leaves behind by itself. After a run the active
contributions of the map are, word for word, what its active events state.
-/

namespace LearningOrbit.Reference

open LearningOrbit (Host Dict)

/-- Contributions filed by id, a later one over an earlier. -/
def filed (staged : List ConceptContribution) (base : Dict String ConceptContribution) :
    Dict String ConceptContribution :=
  staged.foldl (fun d c => d.set c.contributionId c) base

/-- What a chat event leaves in an empty map. -/
def statedOf (h : Host) (c : ChatEvent) : Dict String ConceptContribution :=
  filed (stagedOf h c) .empty

theorem get?_filed (staged : List ConceptContribution) (base : Dict String ConceptContribution)
    (key : String) :
    (filed staged base).get? key = ((filed staged .empty).get? key).or (base.get? key) := by
  induction staged using List.reverseRecOn with
  | nil => simp [filed]
  | append_singleton staged c ih =>
    unfold filed at ih ⊢
    simp only [List.foldl_append, List.foldl_cons, List.foldl_nil, Dict.get?_set]
    split
    · rfl
    · exact ih

theorem statedOf_spec {h : Host} {c : ChatEvent} {key : String} {x : ConceptContribution}
    (hx : (statedOf h c).get? key = some x) :
    x ∈ stagedOf h c ∧ x.contributionId = key ∧ x.eventId = c.eventId ∧ x.active = true := by
  have hk : key ∈ (stagedOf h c).map (·.contributionId) := by
    by_contra hk
    unfold statedOf filed at hx
    rw [Dict.get?_foldl_set_of_not_mem hk] at hx
    cases hx
  obtain ⟨s, hs, hsk, hget⟩ := Dict.get?_foldl_set_of_mem ConceptContribution.contributionId id
    Dict.empty hk
  have hxs : x = s := Option.some.inj (hx.symm.trans hget)
  subst hxs
  exact ⟨hs, hsk, stagedOf_spec x hs⟩

theorem statedOf_of_mem {h : Host} {c : ChatEvent} {s : ConceptContribution}
    (hs : s ∈ stagedOf h c) : ∃ x, (statedOf h c).get? s.contributionId = some x := by
  obtain ⟨x, -, -, hget⟩ := Dict.get?_foldl_set_of_mem ConceptContribution.contributionId id
    Dict.empty (List.mem_map_of_mem hs)
  exact ⟨x, hget⟩

namespace StreamingConceptMap

/-- An active contribution is what some event applied so far states, and an active event has
all it states. -/
structure Verbatim (h : Host) (done : List ChatEvent) (m : StreamingConceptMap) : Prop where
  said : ∀ key x, m.contributions.get? key = some x → x.active = true →
    ∃ d ∈ done, (statedOf h d).get? key = some x
  kept : ∀ d ∈ done, m.view.Active d.eventId → ∀ key x, (statedOf h d).get? key = some x →
    m.contributions.get? key = some x

theorem Verbatim.init (h : Host) (allowed : Lateness) :
    Verbatim h [] (StreamingConceptMap.init.withLateness allowed) where
  said key x hx := by cases hx
  kept d hd := by cases hd

section Step

variable {h : Host} {done : List ChatEvent} {m : StreamingConceptMap} {c : ChatEvent}

instance (c : ChatEvent) : Decidable (LedgerView.Speaks c) := inferInstanceAs (Decidable (_ ∨ _))

/-- The contributions before the new ones are filed. -/
def base (m : StreamingConceptMap) (c : ChatEvent) : Dict String ConceptContribution :=
  if c.operation = .add then m.contributions else (m.deactivate c.target).contributions

theorem next_contributions (hm : m.Known done) (hc : ∀ d ∈ done, d.eventId ≠ c.eventId) :
    (m.next h c).contributions =
      if tooLate m.watermark m.allowedLateness c.eventTime then m.contributions
      else if LedgerView.Speaks c then filed (stagedOf h c) (m.base c) else m.base c := by
  obtain ⟨hf, ht⟩ := hm.fresh hc
  unfold StreamingConceptMap.next
  rw [apply_contributions h [] true hf ht]
  cases hop : c.operation <;> simp [base, LedgerView.Speaks, filed, hop]

/-- What is active before the new contributions are filed was active before. -/
theorem base_active {key : String} {x : ConceptContribution}
    (hx : (m.base c).get? key = some x) (ha : x.active = true) :
    m.contributions.get? key = some x := by
  unfold base at hx
  split at hx
  · exact hx
  · rw [get?_deactivate] at hx
    obtain ⟨z, hz, hzx⟩ := Option.map_eq_some_iff.mp hx
    split at hzx
    · rw [← hzx] at ha
      cases ha
    · rw [hz, hzx]

/-- What belongs to an event that is not replaced stays. -/
theorem base_keeps {key : String} {x : ConceptContribution}
    (hx : m.contributions.get? key = some x) (hk : c.operation = .add ∨ x.eventId ≠ c.target) :
    (m.base c).get? key = some x := by
  unfold base
  split
  · exact hx
  · rename_i hadd
    rw [get?_deactivate, hx, Option.map_some, if_neg (hk.resolve_left hadd)]

theorem Verbatim.next (hv : m.Verbatim h done) (hm : m.Known done)
    (hc : ∀ d ∈ done, d.eventId ≠ c.eventId)
    (ht : c.operation ≠ .add → ∃ d ∈ done, d.eventId = c.target)
    (hd : Distinguished h (c :: done)) : (m.next h c).Verbatim h (c :: done) := by
  obtain ⟨hf, -⟩ := hm.fresh hc
  obtain ⟨hview, -⟩ := hm.next (h := h) hc ht
  have hcontrib := next_contributions (h := h) hm hc
  have hold {key : String} {x : ConceptContribution} (hx : m.contributions.get? key = some x)
      (ha : x.active = true) : ∃ d ∈ c :: done, (statedOf h d).get? key = some x := by
    obtain ⟨d, hmem, hs⟩ := hv.said key x hx ha
    exact ⟨d, List.mem_cons_of_mem _ hmem, hs⟩
  constructor
  · intro key x hx ha
    rw [hcontrib] at hx
    split at hx
    · exact hold hx ha
    · split at hx
      · rw [get?_filed] at hx
        cases hstated : (filed (stagedOf h c) .empty).get? key with
        | some y =>
          rw [hstated, Option.some_or] at hx
          exact ⟨c, List.mem_cons_self .., hstated.trans hx⟩
        | none =>
          rw [hstated, Option.none_or] at hx
          exact hold (base_active hx ha) ha
      · exact hold (base_active hx ha) ha
  · intro d hmem hact key x hx
    rw [hview] at hact
    rw [hcontrib]
    obtain ⟨hxs, hxk, hxe, -⟩ := statedOf_spec hx
    rcases List.mem_cons.mp hmem with rfl | hmem
    · -- the new event is active, so it was in time and its contributions were filed last
      have hontime : tooLate m.watermark m.allowedLateness d.eventTime = false := by
        cases hl : tooLate m.watermark m.allowedLateness d.eventTime with
        | false => rfl
        | true => exact absurd ((LedgerView.step_late_active hf hl _).mp hact) hf.not_active
      have hspeaks : LedgerView.Speaks d := by
        rcases (LedgerView.step_active hf hontime _).mp hact with ⟨-, ho⟩ | ⟨ha, -⟩
        · exact ho
        · exact absurd ha hf.not_active
      unfold statedOf at hx
      rw [if_neg (by simp [hontime]), if_pos hspeaks, get?_filed, hx, Option.some_or]
    · have hkey : (statedOf h c).get? key = none := by
        cases hs : (statedOf h c).get? key with
        | none => rfl
        | some y =>
          obtain ⟨hys, hyk, -, -⟩ := statedOf_spec hs
          exact absurd (hxk.trans hyk.symm) (hd d (List.mem_cons_of_mem _ hmem) c
            (List.mem_cons_self ..) (hc d hmem) x hxs y hys)
      unfold statedOf at hkey
      split
      · rename_i hl
        exact hv.kept d hmem ((LedgerView.step_late_active hf hl _).mp hact) key x hx
      · rename_i hl
        have hontime : tooLate m.watermark m.allowedLateness c.eventTime = false := by
          simpa using hl
        obtain ⟨hactive, hkeep⟩ : m.view.Active d.eventId ∧
            (c.operation = .add ∨ d.eventId ≠ c.target) := by
          rcases (LedgerView.step_active hf hontime _).mp hact with ⟨he, -⟩ | hrest
          · exact absurd he (hc d hmem)
          · exact hrest
        have hbase := base_keeps (c := c) (hv.kept d hmem hactive key x hx) (hxe ▸ hkeep)
        split
        · rw [get?_filed, hkey, Option.none_or]
          exact hbase
        · exact hbase

theorem Verbatim.run (hv : m.Verbatim h done) (hm : m.Known done) {chats : List ChatEvent}
    (hf : Follows done chats) (hd : Distinguished h (chats.reverse ++ done)) :
    (chats.foldl (StreamingConceptMap.next h) m).Verbatim h (chats.reverse ++ done) := by
  induction chats generalizing done m with
  | nil => exact hv
  | cons c cs ih =>
    obtain ⟨hc, ht, hcs⟩ := hf
    have hd' : Distinguished h (cs.reverse ++ c :: done) := by simpa using hd
    have hn := hv.next hm hc ht (hd'.mono fun x hx => List.mem_append_right _ hx)
    have hk := (hm.next (h := h) hc ht).2
    simpa using ih hn hk hcs hd'

end Step

end StreamingConceptMap

end LearningOrbit.Reference
