import Mathlib.Data.List.Forall2
import LearningOrbit.Raise

/-!
# Two runs of one program

Two calls that take related arguments return related values, or both raise the same. What
holds of every part holds of the whole.
-/

namespace LearningOrbit

variable {α β γ δ ε : Type}

inductive TwoRuns (R : α → β → Prop) : Except ε α → Except ε β → Prop
  | returns {a : α} {b : β} (h : R a b) : TwoRuns R (.ok a) (.ok b)
  | raises (e : ε) : TwoRuns R (.error e) (.error e)

namespace TwoRuns

variable {R : α → β → Prop} {S : γ → δ → Prop}

theorem refl {R : α → α → Prop} (h : ∀ a, R a a) (x : Except ε α) : TwoRuns R x x := by
  cases x with
  | ok a => exact .returns (h a)
  | error e => exact .raises e

theorem mono {R' : α → β → Prop} {x : Except ε α} {y : Except ε β} (h : TwoRuns R x y)
    (hR : ∀ a b, R a b → R' a b) : TwoRuns R' x y := by
  cases h with
  | returns hab => exact .returns (hR _ _ hab)
  | raises e => exact .raises e

theorem bind {x : Except ε α} {y : Except ε β} {f : α → Except ε γ} {g : β → Except ε δ}
    (h : TwoRuns R x y) (hfg : ∀ a b, R a b → TwoRuns S (f a) (g b)) :
    TwoRuns S (x >>= f) (y >>= g) := by
  cases h with
  | returns hab => exact hfg _ _ hab
  | raises e => exact .raises e

theorem map {x : Except ε α} {y : Except ε β} {f : α → γ} {g : β → δ} (h : TwoRuns R x y)
    (hfg : ∀ a b, R a b → S (f a) (g b)) : TwoRuns S (x.map f) (y.map g) := by
  cases h with
  | returns hab => exact .returns (hfg _ _ hab)
  | raises e => exact .raises e

theorem mapM {l : List α} {l' : List β} {f : α → Except ε γ} {g : β → Except ε δ}
    (h : List.Forall₂ R l l') (hfg : ∀ a b, R a b → TwoRuns S (f a) (g b)) :
    TwoRuns (List.Forall₂ S) (l.mapM f) (l'.mapM g) := by
  induction h with
  | nil => exact .returns .nil
  | cons hab _ ih =>
    rw [List.mapM_cons, List.mapM_cons]
    apply (hfg _ _ hab).bind
    intro c d hcd
    apply ih.bind
    intro cs ds hcds
    exact .returns (.cons hcd hcds)

/-- The second run returns when the first does. -/
theorem ok {x : Except ε α} {y : Except ε β} {a : α} (h : TwoRuns R x y) (hx : x = .ok a) :
    ∃ b, y = .ok b ∧ R a b := by
  cases h with
  | returns hab =>
    cases hx
    exact ⟨_, rfl, hab⟩
  | raises e => cases hx

end TwoRuns

/-- A step with the same arguments on both sides. -/
theorem TwoRuns.same {S : γ → δ → Prop} (x : Except ε α) {f : α → Except ε γ}
    {g : α → Except ε δ} (h : ∀ a, TwoRuns S (f a) (g a)) : TwoRuns S (x >>= f) (x >>= g) := by
  apply (TwoRuns.refl (fun _ => rfl) x).bind
  rintro a _ rfl
  exact h a

theorem forall₂_map_self {R : α → β → Prop} {f : α → β} {l : List α}
    (h : ∀ a ∈ l, R a (f a)) : List.Forall₂ R l (l.map f) := by
  rw [List.forall₂_map_right_iff, List.forall₂_same]
  exact h

/-- What no longer tells the two lists apart. -/
theorem filterMap_eq_of_forall₂ {R : α → β → Prop} {l : List α} {l' : List β} {f : α → Option γ}
    {g : β → Option γ} (h : List.Forall₂ R l l') (hfg : ∀ a b, R a b → f a = g b) :
    l.filterMap f = l'.filterMap g := by
  induction h with
  | nil => rfl
  | cons hab _ ih => rw [List.filterMap_cons, List.filterMap_cons, hfg _ _ hab, ih]

theorem forall₂_filter {R : α → β → Prop} {l : List α} {l' : List β} {p : α → Bool}
    {q : β → Bool} (h : List.Forall₂ R l l') (hpq : ∀ a b, R a b → p a = q b) :
    List.Forall₂ R (l.filter p) (l'.filter q) := by
  apply List.rel_filter _ h
  intro a b hab
  simp only [hpq a b hab]

theorem any_eq_of_forall₂ {R : α → β → Prop} {l : List α} {l' : List β} {p : α → Bool}
    {q : β → Bool} (h : List.Forall₂ R l l') (hpq : ∀ a b, R a b → p a = q b) :
    l.any p = l'.any q := by
  induction h with
  | nil => rfl
  | cons hab _ ih => rw [List.any_cons, List.any_cons, hpq _ _ hab, ih]

end LearningOrbit
