import Mathlib.Data.List.Induction
import LearningOrbit.Runs

/-!
# What has started and not yet ended

A call of a run may start a thing, and a call may end it. After the run the thing is there
exactly if some call started it and no call since has ended it.
-/

namespace LearningOrbit

variable {S C : Type} {step : S → C → S}

theorem Along.mono {P Q : S → C → Prop} (himp : ∀ s c, P s c → Q s c) {s : S} {cs : List C}
    (h : Along step P s cs) : Along step Q s cs := by
  induction cs generalizing s with
  | nil => trivial
  | cons c cs ih => exact ⟨himp s c h.1, ih h.2⟩

/-- Some call of the run does `starts`, and none after it `ends`. -/
def Since (step : S → C → S) (starts ends : S → C → Prop) (s : S) (cs : List C) : Prop :=
  ∃ before c after, cs = before ++ c :: after ∧ starts (before.foldl step s) c ∧
    Along step (fun s c => ¬ends s c) (step (before.foldl step s) c) after

namespace Since

variable {starts ends : S → C → Prop} {s : S} {cs : List C}

theorem nil : ¬Since step starts ends s [] := by
  rintro ⟨before, c, after, heq, -⟩
  cases before <;> cases heq

theorem concat {c : C} : Since step starts ends s (cs ++ [c]) ↔
    starts (cs.foldl step s) c ∨ Since step starts ends s cs ∧ ¬ends (cs.foldl step s) c := by
  constructor
  · rintro ⟨before, d, after, heq, hstart, halong⟩
    rcases List.eq_nil_or_concat' after with rfl | ⟨rest, e, rfl⟩
    · obtain ⟨rfl, hd⟩ := List.append_inj' heq rfl
      cases hd
      exact .inl hstart
    · have hsplit : cs ++ [c] = (before ++ d :: rest) ++ [e] := by simpa using heq
      obtain ⟨rfl, hd⟩ := List.append_inj' hsplit rfl
      cases hd
      rw [Along.append] at halong
      refine .inr ⟨⟨before, d, rest, rfl, hstart, halong.1⟩, ?_⟩
      rw [List.foldl_append]
      exact halong.2.1
  · rintro (hstart | ⟨⟨before, d, after, rfl, hstart, halong⟩, hend⟩)
    · exact ⟨cs, c, [], rfl, hstart, trivial⟩
    · refine ⟨before, d, after ++ [c], by simp, hstart, ?_⟩
      rw [List.foldl_append] at hend
      exact Along.append.mpr ⟨halong, hend, trivial⟩

/-- Where a step has the thing after it exactly if it starts it, or finds it and does not end
it, a run that begins without the thing has it at its end exactly if it was started since. -/
theorem iff_of_step {I P : S → Prop} (hI : ∀ s c, I s → I (step s c))
    (hP : ∀ s c, I s → (P (step s c) ↔ starts s c ∨ P s ∧ ¬ends s c)) (hs : I s) (h0 : ¬P s) :
    P (cs.foldl step s) ↔ Since step starts ends s cs := by
  induction cs using List.reverseRecOn with
  | nil => exact iff_of_false h0 nil
  | append_singleton cs c ih =>
    have hinv : I (cs.foldl step s) :=
      List.foldlRecOn (motive := I) cs step hs fun t ht d _ => hI t d ht
    rw [List.foldl_append, concat, ← ih]
    exact hP _ c hinv

/-- Two things that each end when the other starts, and are both there, started with one call. -/
theorem started_together {starts' ends' : S → C → Prop} (h : Since step starts ends s cs)
    (h' : Since step starts' ends' s cs) (hends : ∀ s c, starts' s c → ends s c)
    (hends' : ∀ s c, starts s c → ends' s c) : ∃ s c, starts s c ∧ starts' s c := by
  induction cs using List.reverseRecOn with
  | nil => exact (nil h).elim
  | append_singleton cs c ih =>
    rcases concat.mp h with hnow | ⟨hbefore, hkept⟩
    · rcases concat.mp h' with hnow' | ⟨-, hkept'⟩
      · exact ⟨_, c, hnow, hnow'⟩
      · exact (hkept' (hends' _ _ hnow)).elim
    · rcases concat.mp h' with hnow' | ⟨hbefore', -⟩
      · exact (hkept (hends _ _ hnow')).elim
      · exact ih hbefore hbefore'

theorem mono {starts' ends' : S → C → Prop} (hstart : ∀ s c, starts s c → starts' s c)
    (hend : ∀ s c, ends' s c → ends s c) (h : Since step starts ends s cs) :
    Since step starts' ends' s cs := by
  obtain ⟨before, c, after, heq, hs, halong⟩ := h
  exact ⟨before, c, after, heq, hstart _ _ hs, halong.mono fun s c h he => h (hend s c he)⟩

end Since

end LearningOrbit
