import Mathlib.Data.List.Basic

/-!
# Where the parts of a joined list lie

Parts are joined with one separator between any two. The spans counted along the way cut the
parts out of the joined list again, whatever is in them.
-/

namespace LearningOrbit.Spans

variable {α : Type} (sep : α)

def joined : List (List α) → List α
  | [] => []
  | a :: l => a ++ l.flatMap (sep :: ·)

/-- The spans of the parts, the first from `cursor` on. -/
def spans : Nat → List (List α) → List (Nat × Nat)
  | _, [] => []
  | cursor, a :: l => (cursor, cursor + a.length) :: spans (cursor + a.length + 1) l

theorem joined_cons_cons (a b : List α) (l : List (List α)) :
    joined sep (a :: b :: l) = a ++ sep :: joined sep (b :: l) := by
  simp [joined]

/-- Where the parts behind the first one lie. -/
theorem length_before (before a : List α) :
    before.length + a.length + 1 = (before ++ a ++ [sep]).length := by
  simp only [List.length_append, List.length_singleton]

theorem append_joined (before a b : List α) (l : List (List α)) :
    before ++ joined sep (a :: b :: l) = before ++ a ++ [sep] ++ joined sep (b :: l) := by
  simp [joined_cons_cons]

variable {sep} {parts : List (List α)} {before : List α}

theorem length_spans (cursor : Nat) : (spans cursor parts).length = parts.length := by
  induction parts generalizing cursor with
  | nil => rfl
  | cons a l ih => simp [spans, ih]

/-- A span cuts out its part. -/
theorem slice_spans {i : Nat} {span : Nat × Nat} {part : List α}
    (hspan : (spans before.length parts)[i]? = some span) (hpart : parts[i]? = some part) :
    ((before ++ joined sep parts).drop span.1).take (span.2 - span.1) = part := by
  induction parts generalizing before i with
  | nil => cases hpart
  | cons a l ih =>
    cases i with
    | zero =>
      cases hspan
      cases hpart
      simp [joined]
    | succ i =>
      cases l with
      | nil => cases hpart
      | cons b l =>
        rw [spans, List.getElem?_cons_succ, length_before sep] at hspan
        rw [List.getElem?_cons_succ] at hpart
        rw [append_joined]
        exact ih hspan hpart

/-- Between two spans there is one place, and the separator is there. -/
theorem spans_adjacent {i : Nat} {span next : Nat × Nat}
    (hspan : (spans before.length parts)[i]? = some span)
    (hnext : (spans before.length parts)[i + 1]? = some next) :
    next.1 = span.2 + 1 ∧ (before ++ joined sep parts)[span.2]? = some sep := by
  induction parts generalizing before i with
  | nil => cases hspan
  | cons a l ih =>
    cases l with
    | nil =>
      rw [spans, List.getElem?_cons_succ] at hnext
      cases hnext
    | cons b l =>
      cases i with
      | zero =>
        cases hspan
        cases hnext
        refine ⟨rfl, ?_⟩
        rw [joined_cons_cons, ← List.append_assoc, List.getElem?_append_right (by simp)]
        simp
      | succ i =>
        rw [spans, List.getElem?_cons_succ, length_before sep] at hspan hnext
        rw [append_joined]
        exact ih hspan hnext

/-- The last span ends where the joined list does. -/
theorem spans_end {span : Nat × Nat} (hspan : (spans before.length parts).getLast? = some span) :
    span.2 = (before ++ joined sep parts).length := by
  induction parts generalizing before with
  | nil => cases hspan
  | cons a l ih =>
    cases l with
    | nil =>
      have he : span = (before.length, before.length + a.length) := (Option.some.inj hspan).symm
      subst he
      simp [joined]
    | cons b l =>
      have hlast : (spans before.length (a :: b :: l)).getLast? =
          (spans (before.length + a.length + 1) (b :: l)).getLast? := rfl
      rw [hlast, length_before sep] at hspan
      rw [append_joined]
      exact ih hspan

end LearningOrbit.Spans
