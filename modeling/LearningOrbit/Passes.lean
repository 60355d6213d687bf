import Mathlib.Data.List.Nodup
import Mathlib.Data.List.Infix

/-!
# Passes over a list with dependencies

Items are visited in a fixed sequence, pass after pass. An item is done when it is
visited after everything that comes before it in another list, `order`. `passOf`
is the pass in which that happens: one more than the number of times the sequence
runs against the order on the way to the item.
-/

namespace LearningOrbit.Passes

variable {α : Type}

/-- How often the next item of the list is visited before the one it follows. -/
def descents (pos : α → Nat) : List α → Nat
  | a :: b :: rest => (if pos b < pos a then 1 else 0) + descents pos (b :: rest)
  | [_] | [] => 0

theorem descents_append (pos : α → Nat) (front : List α) (x : α) (rest : List α) :
    descents pos (front ++ x :: rest) = descents pos (front ++ [x]) + descents pos (x :: rest) := by
  induction front with
  | nil => simp [descents]
  | cons a front ih =>
    cases front with
    | nil => simp [descents]
    | cons b front =>
      simp only [List.cons_append, descents] at ih ⊢
      omega

/-- A stretch without descents visits its first item before all others. -/
theorem lt_of_descents_eq_zero {pos : α → Nat} (hinj : ∀ a b, pos a = pos b → a = b) {x : α}
    {rest : List α} (hn : (x :: rest).Nodup) (h : descents pos (x :: rest) = 0) :
    ∀ y ∈ rest, pos x < pos y := by
  induction rest generalizing x with
  | nil => simp
  | cons z rest ih =>
    simp only [descents, Nat.add_eq_zero_iff] at h
    have hxz : pos x < pos z := by
      have hne : pos x ≠ pos z := fun he => by
        have := hinj x z he
        simp [this] at hn
      by_contra hlt
      have : pos z < pos x := by omega
      simp [this] at h
    intro y hy
    rcases List.mem_cons.mp hy with rfl | hy
    · exact hxz
    · exact Nat.lt_trans hxz (ih (List.nodup_cons.mp hn).2 h.2 y hy)

section Order

variable [DecidableEq α] (pos : α → Nat) (order : List α)

/-- What an item waits for. -/
def waitsFor (x : α) : List α := order.takeWhile (· ≠ x)

/-- The pass in which an item is done. -/
def passOf (x : α) : Nat := 1 + descents pos (waitsFor order x ++ [x])

variable {pos order} {x y : α}

theorem passOf_pos : 1 ≤ passOf pos order x := Nat.le_add_right ..

theorem waitsFor_eq {front rest : List α} (h : x ∉ front) :
    waitsFor (front ++ x :: rest) x = front := by
  induction front with
  | nil => simp [waitsFor]
  | cons a front ih =>
    have ha : a ≠ x := fun he => h (he ▸ List.mem_cons_self ..)
    have hrest := ih fun hx => h (List.mem_cons_of_mem _ hx)
    unfold waitsFor at hrest ⊢
    rw [List.cons_append, List.takeWhile_cons, hrest]
    simp [ha]

/-- A list splits at each of its members, and what the member waits for is the front. -/
theorem waitsFor_append (hn : order.Nodup) (hx : x ∈ order) :
    ∃ rest, order = waitsFor order x ++ x :: rest := by
  obtain ⟨front, rest, rfl⟩ := List.append_of_mem hx
  have hfront : x ∉ front := by
    intro h
    exact (List.nodup_append.mp hn).2.2 x h x (List.mem_cons_self ..) rfl
  exact ⟨rest, by rw [waitsFor_eq hfront]⟩

theorem waitsFor_split (hn : order.Nodup) (hx : x ∈ order) {front between : List α}
    (h : waitsFor order x = front ++ y :: between) : waitsFor order y = front := by
  obtain ⟨rest, hrest⟩ := waitsFor_append hn hx
  have hy : y ∉ front := by
    rw [hrest, h] at hn
    intro hy
    exact (List.nodup_append.mp (List.nodup_append.mp hn).1).2.2 y hy y (List.mem_cons_self ..) rfl
  rw [hrest, h, List.append_assoc, List.cons_append]
  exact waitsFor_eq hy

/-- An item is done no earlier than what it waits for, and in the same pass only when it is
visited later. -/
theorem passOf_le (hinj : ∀ a b, pos a = pos b → a = b) (hn : order.Nodup) (hx : x ∈ order)
    (hy : y ∈ waitsFor order x) : passOf pos order y ≤ passOf pos order x ∧
      (passOf pos order y = passOf pos order x → pos y < pos x) := by
  obtain ⟨front, between, hsplit⟩ := List.append_of_mem hy
  have hfront := waitsFor_split hn hx hsplit
  have hd : descents pos (waitsFor order x ++ [x]) =
      descents pos (front ++ [y]) + descents pos (y :: (between ++ [x])) := by
    rw [hsplit, List.append_assoc, List.cons_append, descents_append]
  unfold passOf
  rw [hd, hfront]
  refine ⟨by omega, fun he => ?_⟩
  have hzero : descents pos (y :: (between ++ [x])) = 0 := by omega
  have hnodup : (y :: (between ++ [x])).Nodup := by
    obtain ⟨rest, hrest⟩ := waitsFor_append hn hx
    rw [hrest, hsplit] at hn
    refine hn.sublist ?_
    have hl : front ++ y :: between ++ x :: rest = front ++ (y :: (between ++ [x]) ++ rest) := by
      simp
    rw [hl]
    exact (List.sublist_append_left _ _).trans (List.sublist_append_right _ _)
  exact lt_of_descents_eq_zero hinj hnodup hzero x (by simp)

/-- An item that is not done in a pass waits for one that is later in it, or in a later one. -/
theorem waitsFor_pending (hn : order.Nodup) (hx : x ∈ order) {pass : Nat}
    (h : pass < passOf pos order x) (hpass : 1 ≤ pass) :
    ∃ y ∈ waitsFor order x, pass < passOf pos order y ∨
      passOf pos order y = pass ∧ pos x < pos y := by
  rcases List.eq_nil_or_concat (waitsFor order x) with hnil | ⟨front, z, hz⟩
  · simp only [passOf, hnil, List.nil_append, descents] at h
    omega
  · rw [List.concat_eq_append] at hz
    have hfront := waitsFor_split hn hx hz
    have hd : descents pos (waitsFor order x ++ [x]) =
        descents pos (front ++ [z]) + (if pos x < pos z then 1 else 0) := by
      rw [hz, List.append_assoc, List.cons_append, List.nil_append, descents_append]
      simp [descents]
    refine ⟨z, by simp [hz], ?_⟩
    unfold passOf at h ⊢
    rw [hfront]
    split at hd <;> omega

end Order

end LearningOrbit.Passes
