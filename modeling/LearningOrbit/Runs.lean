import Mathlib.Data.List.Basic

/-!
# Runs with a condition on each step

A run is a fold of a step function over the calls made. `Along` says that each call of
a run meets a condition on the state it finds; what every such step keeps, the run keeps.
-/

namespace LearningOrbit

variable {S C : Type} {step : S → C → S}

/-- Each call of the run meets a condition on the state before it. -/
def Along (step : S → C → S) (P : S → C → Prop) : S → List C → Prop
  | _, [] => True
  | s, c :: cs => P s c ∧ Along step P (step s c) cs

instance Along.decidable (P : S → C → Prop) [∀ s c, Decidable (P s c)] :
    ∀ s cs, Decidable (Along step P s cs)
  | _, [] => isTrue trivial
  | s, c :: cs =>
    have := Along.decidable P (step s c) cs
    inferInstanceAs (Decidable (P s c ∧ Along step P (step s c) cs))

namespace Along

variable {P Q : S → C → Prop} {s : S} {cs : List C}

theorem append {cs' : List C} :
    Along step P s (cs ++ cs') ↔ Along step P s cs ∧ Along step P (cs.foldl step s) cs' := by
  induction cs generalizing s with
  | nil => exact ⟨fun h => ⟨trivial, h⟩, And.right⟩
  | cons c cs ih => simp only [List.cons_append, Along, List.foldl_cons, ih, and_assoc]

theorem and (hP : Along step P s cs) (hQ : Along step Q s cs) :
    Along step (fun s c => P s c ∧ Q s c) s cs := by
  induction cs generalizing s with
  | nil => trivial
  | cons c cs ih => exact ⟨⟨hP.1, hQ.1⟩, ih hP.2 hQ.2⟩

theorem take (h : Along step P s cs) (n : Nat) : Along step P s (cs.take n) := by
  rw [← List.take_append_drop n cs] at h
  exact (append.mp h).1

theorem get {n : Nat} {c : C} (h : Along step P s cs) (hc : cs[n]? = some c) :
    P ((cs.take n).foldl step s) c := by
  induction cs generalizing s n with
  | nil => cases hc
  | cons d cs ih =>
    cases n with
    | zero =>
      cases hc
      exact h.1
    | succ n => exact ih h.2 hc

/-- What each step that meets the condition keeps holds after the run. -/
theorem invariant {I : S → Prop} (hstep : ∀ s c, I s → P s c → I (step s c)) (hs : I s)
    (h : Along step P s cs) : I (cs.foldl step s) := by
  induction cs generalizing s with
  | nil => exact hs
  | cons c cs ih => exact ih (hstep s c hs h.1) h.2

/-- Where a step of the run keeps `G` exactly if it meets the condition, the run meets it at every
step exactly if all its states have `G`. -/
theorem always_iff {I G : S → Prop} (hI : ∀ s, ∀ c ∈ cs, I s → I (step s c))
    (hG : ∀ s, ∀ c ∈ cs, I s → G s → (G (step s c) ↔ P s c)) (hs : I s) (hgood : G s) :
    (∀ n, G ((cs.take n).foldl step s)) ↔ Along step P s cs := by
  induction cs generalizing s with
  | nil =>
    refine iff_of_true (fun n => ?_) trivial
    rw [List.take_nil]
    exact hgood
  | cons c cs ih =>
    have hstep := hG s c List.mem_cons_self hs hgood
    have hrest : G (step s c) → ((∀ n, G ((cs.take n).foldl step (step s c))) ↔
        Along step P (step s c) cs) :=
      ih (fun s d hd => hI s d (List.mem_cons_of_mem c hd))
        (fun s d hd => hG s d (List.mem_cons_of_mem c hd)) (hI s c List.mem_cons_self hs)
    constructor
    · intro hall
      have hnext : G (step s c) := hall 1
      exact ⟨hstep.mp hnext, (hrest hnext).mp fun n => hall (n + 1)⟩
    · rintro ⟨hc, halong⟩ n
      have hnext := hstep.mpr hc
      cases n with
      | zero => exact hgood
      | succ n => exact (hrest hnext).mpr halong n

end Along

end LearningOrbit
