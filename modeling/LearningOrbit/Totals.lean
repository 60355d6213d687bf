import Mathlib.Algebra.Order.BigOperators.Group.List
import LearningOrbit.Dict

/-!
# Totals over a dictionary

What an assignment and a change in place add to the total of a measure over the values, and
what a whole loop of them adds.
-/

namespace LearningOrbit

variable {κ ν α M : Type}

/-- Parts that exclude each other add up to no more than the whole. -/
theorem sum_filter_add_le [AddCommMonoid M] [PartialOrder M] [IsOrderedAddMonoid M] {l : List α}
    {p q : α → Bool} {g : α → M} (hg : ∀ a ∈ l, 0 ≤ g a)
    (hpq : ∀ a ∈ l, p a = true → q a = false) :
    ((l.filter p).map g).sum + ((l.filter q).map g).sum ≤ (l.map g).sum := by
  induction l with
  | nil => simp
  | cons a l ih =>
    have hrest := ih (fun b hb => hg b (List.mem_cons_of_mem a hb))
      (fun b hb => hpq b (List.mem_cons_of_mem a hb))
    have ha := hg a List.mem_cons_self
    cases hp : p a with
    | true =>
      have hq := hpq a List.mem_cons_self hp
      simp only [List.filter_cons, hp, hq, ↓reduceIte, Bool.false_eq_true, List.map_cons,
        List.sum_cons, add_assoc]
      exact add_le_add_right hrest (g a)
    | false =>
      cases hq : q a with
      | true =>
        simp only [List.filter_cons, hp, hq, ↓reduceIte, Bool.false_eq_true, List.map_cons,
          List.sum_cons]
        rw [add_left_comm]
        exact add_le_add_right hrest (g a)
      | false =>
        simp only [List.filter_cons, hp, hq, Bool.false_eq_true, ↓reduceIte, List.map_cons,
          List.sum_cons]
        exact le_add_of_nonneg_of_le ha hrest

theorem sum_filter_le [AddCommMonoid M] [PartialOrder M] [IsOrderedAddMonoid M] {l : List α}
    {p : α → Bool} {g : α → M} (hg : ∀ a ∈ l, 0 ≤ g a) :
    ((l.filter p).map g).sum ≤ (l.map g).sum := by
  have h := sum_filter_add_le (q := fun _ => false) hg (fun _ _ _ => rfl) (p := p)
  simpa using h

namespace Dict

variable [DecidableEq κ]

/-- The total of a measure over the values. -/
def total [AddCommMonoid M] (d : Dict κ ν) (g : ν → M) : M := (d.values.map g).sum

section Cancel

variable [AddCancelCommMonoid M] {d : Dict κ ν} {k : κ} {v w : ν} {g : ν → M}

theorem total_set_of_none (h : d.get? k = none) : (d.set k v).total g = d.total g + g v := by
  have hk : k ∉ d.keys := get?_eq_none.mp h
  simp [total, values, set, hk]

theorem total_set_of_some (h : d.get? k = some w) :
    (d.set k v).total g + g w = d.total g + g v := by
  have hk : k ∈ d.keys := mem_keys.mpr ⟨w, h⟩
  simp only [total, values, set, hk, ↓reduceDIte, mapValues, List.map_map]
  have hnodup := d.nodup
  have hmem := get?_eq_some.mp h
  generalize d.entries = l at hnodup hmem
  clear h hk
  induction l with
  | nil => cases hmem
  | cons e l ih =>
    obtain ⟨a, b⟩ := e
    rw [List.map_cons, List.nodup_cons] at hnodup
    simp only [List.map_cons, List.sum_cons, Function.comp_apply]
    by_cases ha : a = k
    · subst ha
      have hb : b = w := by
        cases hmem with
        | head => rfl
        | tail _ hmem => exact absurd (List.mem_map_of_mem hmem) hnodup.1
      have hrest : l.map (g ∘ Prod.snd ∘ fun e => (e.1, if e.1 = a then v else e.2)) =
          l.map (g ∘ Prod.snd) := by
        refine List.map_congr_left fun e he => ?_
        have hne : e.1 ≠ a := by
          intro heq
          exact hnodup.1 (List.mem_map.mpr ⟨e, he, heq⟩)
        simp [hne]
      subst hb
      rw [if_pos rfl, hrest, add_comm (g v), add_right_comm, add_comm _ (g b)]
    · have hmem' : (k, w) ∈ l := by
        cases hmem with
        | head => exact absurd rfl ha
        | tail _ hmem => exact hmem
      rw [if_neg ha, add_assoc, ih hnodup.2 hmem', add_assoc]

/-- A change in place adds what it adds to the one value. -/
theorem total_modify {start : ν} {f : ν → ν} {x : M} (hstart : g start = 0)
    (hf : ∀ v, g (f v) = g v + x) : (d.modify k start f).total g = d.total g + x := by
  unfold modify
  cases h : d.get? k with
  | none =>
    rw [total_set_of_none h, Option.getD_none, hf, hstart, zero_add]
  | some w =>
    have hset := total_set_of_some (v := f w) (g := g) h
    rw [hf, add_comm (g w) x, ← add_assoc] at hset
    exact add_right_cancel hset

/-- A loop of changes in place adds up what each adds. -/
theorem total_foldl_modify {l : List α} {key : α → κ} {start : ν} {note : ν → α → ν} {x : α → M}
    (hstart : g start = 0) (hnote : ∀ v a, g (note v a) = g v + x a) :
    (l.foldl (fun d a => d.modify (key a) start (note · a)) d).total g =
      d.total g + (l.map x).sum := by
  induction l generalizing d with
  | nil => simp
  | cons a l ih =>
    rw [List.foldl_cons, ih, total_modify hstart fun v => hnote v a, List.map_cons, List.sum_cons,
      add_assoc]

end Cancel

section Order

variable [AddCancelCommMonoid M] [PartialOrder M] [IsOrderedAddMonoid M] {d : Dict κ ν} {k : κ}
  {v : ν} {g : ν → M}

theorem total_set_le (hg : ∀ w ∈ d.values, 0 ≤ g w) : (d.set k v).total g ≤ d.total g + g v := by
  cases h : d.get? k with
  | none => exact le_of_eq (total_set_of_none h)
  | some w =>
    have hset := total_set_of_some (v := v) (g := g) h
    rw [← hset]
    exact le_add_of_nonneg_right (hg w (mem_values.mpr ⟨k, h⟩))

/-- A loop of assignments adds no more than the measures of what it assigns. -/
theorem total_foldl_set_le {l : List α} {key : α → κ} {val : α → ν}
    (hg : ∀ w ∈ d.values, 0 ≤ g w) (hl : ∀ a ∈ l, 0 ≤ g (val a)) :
    (l.foldl (fun d a => d.set (key a) (val a)) d).total g ≤
      d.total g + (l.map fun a => g (val a)).sum := by
  induction l generalizing d with
  | nil => simp
  | cons a l ih =>
    have hset : ∀ w ∈ (d.set (key a) (val a)).values, 0 ≤ g w := by
      intro w hw
      cases mem_values_set hw with
      | inl hnew =>
        rw [hnew]
        exact hl a List.mem_cons_self
      | inr hold => exact hg w hold
    have hrest := ih hset fun b hb => hl b (List.mem_cons_of_mem a hb)
    rw [List.foldl_cons, List.map_cons, List.sum_cons, ← add_assoc]
    exact hrest.trans (add_le_add_left (total_set_le hg) _)

theorem total_mapValues_le {f : κ → ν → ν} (hf : ∀ k v, d.get? k = some v → g (f k v) ≤ g v) :
    (d.mapValues f).total g ≤ d.total g := by
  simp only [total, values, mapValues, List.map_map]
  refine List.sum_le_sum fun e he => ?_
  exact hf e.1 e.2 (get?_eq_some.mpr he)

end Order

/-- What every change in place keeps holds of all values after the loop. -/
theorem forall_values_foldl_modify {l : List α} {key : α → κ} {start : ν} {note : ν → α → ν}
    {P : ν → Prop} {d : Dict κ ν} (hd : ∀ v ∈ d.values, P v) (hstart : P start)
    (hnote : ∀ v, ∀ a ∈ l, P v → P (note v a)) :
    ∀ v ∈ (l.foldl (fun d a => d.modify (key a) start (note · a)) d).values, P v := by
  induction l generalizing d with
  | nil => exact hd
  | cons a l ih =>
    refine ih (fun v hv => ?_) fun v b hb => hnote v b (List.mem_cons_of_mem a hb)
    cases mem_values_set hv with
    | inl hnew =>
      rw [hnew]
      refine hnote _ a List.mem_cons_self ?_
      cases h : d.get? (key a) with
      | none => exact hstart
      | some w => exact hd w (mem_values.mpr ⟨key a, h⟩)
    | inr hold => exact hd v hold

end Dict

end LearningOrbit
