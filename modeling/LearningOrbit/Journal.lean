import Mathlib.Data.List.Basic

/-!
# Machines that keep a journal

A call may leave a record in the journal of the machine. Feeding the records back,
one after another, rebuilds the machine as long as the record of a call, fed to what
replay sees of the state before it, gives what replay sees of the state after it.
-/

namespace LearningOrbit.Journal

variable {S C R P : Type}

/-- Feed records back; the first raise ends the feed. -/
def refeed (redo : S → R → S × Except String P) : S → List R → S × Except String Unit
  | s, [] => (s, .ok ())
  | s, r :: rest =>
    match redo s r with
    | (t, .error e) => (t, .error e)
    | (t, .ok _) => refeed redo t rest

theorem refeed_snoc {redo : S → R → S × Except String P} {s t u : S} {records : List R} {r : R}
    {p : P} (hs : refeed redo s records = (t, .ok ())) (hr : redo t r = (u, .ok p)) :
    refeed redo s (records ++ [r]) = (u, .ok ()) := by
  induction records generalizing s with
  | nil =>
    cases hs
    simp [refeed, hr]
  | cons first records ih =>
    simp only [List.cons_append, refeed] at hs ⊢
    split at hs
    · cases hs
    · rename_i next result heq
      exact ih hs

/-- What each record that is fed back without a raise adds to, the whole feed adds up. -/
theorem refeed_invariant {redo : S → R → S × Except String P} {Inv : List R → S → Prop}
    (hstep : ∀ done s t r p, Inv done s → redo s r = (t, .ok p) → Inv (done ++ [r]) t)
    {s t : S} {done records : List R} (hs : Inv done s)
    (hr : refeed redo s records = (t, .ok ())) : Inv (done ++ records) t := by
  induction records generalizing s done with
  | nil =>
    cases hr
    simpa using hs
  | cons r records ih =>
    simp only [refeed] at hr
    split at hr
    · cases hr
    · rename_i next p hredo
      have := ih (hstep done s next r p hs hredo) hr
      simpa using this

/-- What each record keeps, raised or not, a feed keeps. -/
theorem refeed_keeps {redo : S → R → S × Except String P} {I : S → Prop}
    (hstep : ∀ s r, I s → I (redo s r).1) {s : S} (hs : I s) (records : List R) :
    I (refeed redo s records).1 := by
  induction records generalizing s with
  | nil => exact hs
  | cons r records ih =>
    have hnext := hstep s r hs
    unfold refeed
    split
    · rename_i t e hredo
      rw [hredo] at hnext
      exact hnext
    · rename_i t p hredo
      rw [hredo] at hnext
      exact ih hnext

/-- A feed that raises stops at the first record that raises. -/
theorem refeed_error {redo : S → R → S × Except String P} {s t : S} {records : List R}
    {e : String} (hr : refeed redo s records = (t, .error e)) :
    ∃ before r after u, records = before ++ r :: after ∧
      refeed redo s before = (u, .ok ()) ∧ redo u r = (t, .error e) := by
  induction records generalizing s with
  | nil => cases hr
  | cons r records ih =>
    simp only [refeed] at hr
    split at hr
    · rename_i next message hredo
      cases hr
      exact ⟨[], r, records, s, rfl, rfl, hredo⟩
    · rename_i next p hredo
      obtain ⟨before, bad, after, u, heq, hfed, hbad⟩ := ih hr
      refine ⟨r :: before, bad, after, u, by rw [heq, List.cons_append], ?_, hbad⟩
      simp only [refeed, hredo]
      exact hfed

/-- Records none of which is refused when the feed reaches it. -/
def Feeds (Refuses : S → R → Prop) (redo : S → R → S × Except String P) : S → List R → Prop
  | _, [] => True
  | s, r :: rest => ¬Refuses s r ∧ Feeds Refuses redo (redo s r).1 rest

theorem refeed_ok {redo : S → R → S × Except String P} {Refuses : S → R → Prop}
    (hredo : ∀ s r, ¬Refuses s r → ∃ p, (redo s r).2 = .ok p) {s : S} {records : List R}
    (hf : Feeds Refuses redo s records) : ∃ t, refeed redo s records = (t, .ok ()) := by
  induction records generalizing s with
  | nil => exact ⟨s, rfl⟩
  | cons r records ih =>
    obtain ⟨hone, hrest⟩ := hf
    obtain ⟨p, hp⟩ := hredo s r hone
    have heq : redo s r = ((redo s r).1, .ok p) := Prod.ext rfl hp
    obtain ⟨t, ht⟩ := ih hrest
    refine ⟨t, ?_⟩
    rw [refeed, heq]
    exact ht

/-- What a call does to the journal: nothing at all, or one record that can be fed back. -/
def Faithful (journal : S → List R) (redo : S → R → S × Except String P) (view : S → S)
    (s t : S) : Prop :=
  t = s ∨ ∃ r p, journal t = journal s ++ [r] ∧ redo (view s) r = (view t, .ok p)

/-- The journal of a run of faithful calls rebuilds what replay sees of its end. `Intact`
holds of a state only if it held before the last call. -/
theorem refeed_run (call : S → C → S) (journal : S → List R)
    (redo : S → R → S × Except String P) (view : S → S) (Intact : S → Prop)
    (hback : ∀ s c, Intact (call s c) → Intact s)
    (hcall : ∀ s c, Intact (call s c) → Faithful journal redo view s (call s c))
    {first s : S} {calls : List C}
    (hfirst : refeed redo (view first) (journal s) = (view s, .ok ()))
    (hend : Intact (calls.foldl call s)) :
    refeed redo (view first) (journal (calls.foldl call s)) =
      (view (calls.foldl call s), .ok ()) := by
  induction calls generalizing s with
  | nil => exact hfirst
  | cons c calls ih =>
    have hintact : ∀ (cs : List C) (t : S), Intact (cs.foldl call t) → Intact t := by
      intro cs
      induction cs with
      | nil => exact fun t ht => ht
      | cons d ds ihd => exact fun t ht => hback t d (ihd (call t d) ht)
    refine ih ?_ hend
    rcases hcall s c (hintact calls _ hend) with heq | ⟨r, p, hj, hr⟩
    · rw [heq]
      exact hfirst
    · rw [hj]
      exact refeed_snoc hfirst hr

end LearningOrbit.Journal
