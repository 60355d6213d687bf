import Mathlib.Data.List.Basic
import Mathlib.Data.List.Nodup

/-!
# Rows with unique columns

A table is a list of rows; a unique column is a function whose values on the
rows are pairwise different.
-/

namespace LearningOrbit.Rows

variable {α β : Type} {column : α → β} {rows : List α} {row : α}

/-- Appending a row with a fresh value keeps a column unique. -/
theorem nodup_concat (hn : (rows.map column).Nodup) (hr : column row ∉ rows.map column) :
    ((rows ++ [row]).map column).Nodup := by
  rw [List.map_append, List.nodup_append]
  refine ⟨hn, by simp, fun a ha b hb hab => ?_⟩
  rw [List.map_singleton, List.mem_singleton] at hb
  subst hb hab
  exact hr ha

/-- A row appended to rows that do not match is the one found. -/
theorem find?_concat {p : α → Bool} (hn : ∀ r ∈ rows, p r = false) (hr : p row = true) :
    (rows ++ [row]).find? p = some row := by
  have hnone : rows.find? p = none := by
    rw [List.find?_eq_none]
    intro r hm
    simp [hn r hm]
  rw [List.find?_append, hnone]
  simp [hr]

/-- A search that can only match one value of a unique column finds the row that has it. -/
theorem find?_eq_some_of_nodup (hn : (rows.map column).Nodup) (hr : row ∈ rows) {p : α → Bool}
    (hp : p row = true) (hk : ∀ r ∈ rows, p r = true → column r = column row) :
    rows.find? p = some row := by
  obtain ⟨found, hf⟩ : ∃ found, rows.find? p = some found := by
    rw [← Option.isSome_iff_exists, List.find?_isSome]
    exact ⟨row, hr, hp⟩
  have hmem := List.mem_of_find?_eq_some hf
  rw [hf, List.inj_on_of_nodup_map hn hmem hr (hk found hmem (List.find?_some hf))]

/-- A unique column finds its row. -/
theorem find?_unique [DecidableEq β] (hn : (rows.map column).Nodup) (hr : row ∈ rows) {key : β}
    (hk : column row = key) : rows.find? (fun r => column r = key) = some row := by
  subst hk
  exact find?_eq_some_of_nodup hn hr (by simp) (by simp)

/-- Overwriting one of distinct rows keeps them distinct, unless another has the new value. -/
theorem nodup_set_iff {i : Nat} (hn : rows.Nodup) (hi : i < rows.length) :
    (rows.set i row).Nodup ↔ ∀ j, j ≠ i → rows[j]? ≠ some row := by
  constructor
  · intro hset j hj hrow
    have hjl : j < rows.length := (List.getElem?_eq_some_iff.mp hrow).1
    have hat : (rows.set i row)[j]? = (rows.set i row)[i]? := by
      rw [List.getElem?_set_ne (Ne.symm hj), hrow, List.getElem?_set_self hi]
    exact hj ((List.getElem?_inj (by simpa using hjl) hset).mp hat)
  · intro hfree
    rw [List.nodup_iff_getElem?_ne_getElem?]
    intro a b hab hb he
    rw [List.length_set] at hb
    by_cases hai : i = a
    · subst hai
      rw [List.getElem?_set_self hi, List.getElem?_set_ne (Nat.ne_of_lt hab)] at he
      exact hfree b (Nat.ne_of_gt hab) he.symm
    · rw [List.getElem?_set_ne hai] at he
      by_cases hbi : i = b
      · subst hbi
        rw [List.getElem?_set_self hi] at he
        exact hfree a (Nat.ne_of_lt hab) he
      · rw [List.getElem?_set_ne hbi] at he
        exact (List.nodup_iff_getElem?_ne_getElem?.mp hn) a b hab hb he

/-- In rows numbered from one, those after a number are those that stand after it. -/
theorem filter_numbered {number : α → Nat}
    (hn : ∀ i row, rows[i]? = some row → number row = i + 1) (n : Nat) :
    (rows.filter fun row => n < number row) = rows.drop n := by
  have hsplit : (rows.filter fun row => n < number row) =
      (rows.take n).filter (fun row => n < number row) ++
        (rows.drop n).filter (fun row => n < number row) := by
    rw [← List.filter_append, List.take_append_drop]
  have hfront : (rows.take n).filter (fun row => n < number row) = [] := by
    rw [List.filter_eq_nil_iff]
    intro row hrow
    obtain ⟨i, hi⟩ := List.getElem?_of_mem hrow
    have hin : i < n := by
      have := (List.getElem?_eq_some_iff.mp hi).1
      rw [List.length_take] at this
      omega
    rw [List.getElem?_take_of_lt hin] at hi
    have := hn i row hi
    simp only [decide_eq_true_eq]
    omega
  have hback : (rows.drop n).filter (fun row => n < number row) = rows.drop n := by
    rw [List.filter_eq_self]
    intro row hrow
    obtain ⟨i, hi⟩ := List.getElem?_of_mem hrow
    rw [List.getElem?_drop] at hi
    have := hn (n + i) row hi
    simp only [decide_eq_true_eq]
    omega
  rw [hsplit, hfront, hback, List.nil_append]

theorem map_forall₂ {γ : Type} {R : α → β → Prop} {key : α → γ} {key' : β → γ} {rows' : List β}
    (h : List.Forall₂ R rows rows') (hkey : ∀ a b, R a b → key' b = key a) :
    rows'.map key' = rows.map key := by
  induction h with
  | nil => rfl
  | cons hab _ ih => rw [List.map_cons, List.map_cons, ih, hkey _ _ hab]

/-- Two tables row by row: a unique column of the first selects one row of the second. -/
theorem filter_forall₂ {γ : Type} [DecidableEq γ] {R : α → β → Prop} {key : α → γ} {key' : β → γ}
    {rows' : List β} (h : List.Forall₂ R rows rows') (hkey : ∀ a b, R a b → key' b = key a)
    (hn : (rows.map key).Nodup) (hr : row ∈ rows) :
    ∃ row', rows'.filter (fun b => key' b = key row) = [row'] ∧ R row row' := by
  induction h with
  | nil => cases hr
  | @cons a b rows rows' hab hrest ih =>
    simp only [List.map_cons, List.nodup_cons] at hn
    rcases List.mem_cons.mp hr with rfl | hr
    · have hnone : rows'.filter (fun b => key' b = key row) = [] := by
        rw [List.filter_eq_nil_iff]
        intro b' hb'
        have hmem : key' b' ∈ rows.map key := map_forall₂ hrest hkey ▸ List.mem_map_of_mem hb'
        simp only [decide_eq_true_eq]
        intro he
        exact hn.1 (he ▸ hmem)
      refine ⟨b, ?_, hab⟩
      rw [List.filter_cons_of_pos (by simp [hkey row b hab]), hnone]
    · have hne : ¬ key' b = key row := by
        rw [hkey a b hab]
        intro he
        exact hn.1 (he ▸ List.mem_map_of_mem hr)
      rw [List.filter_cons_of_neg (by simpa using hne)]
      exact ih hn.2 hr

end LearningOrbit.Rows
