import Mathlib.Dynamics.PeriodicPts.Defs
import Mathlib.Logic.Relation
import LearningOrbit.Dict

/-!
# Following pointers

A table sends some names to others. Following it from a name ends at a name that is
not sent on, or, after as many rounds as the table has entries, where it comes back to
a name it has passed. Without cycles the end is the one name at the end of the chain.
-/

namespace LearningOrbit.Pointers

variable {κ : Type} [DecidableEq κ]

/-- Follow the table until a name is not in it or repeats. -/
def follow (d : Dict κ κ) : Nat → List κ → κ → κ
  | 0, _, current => current
  | fuel + 1, seen, current =>
    if current ∈ seen then current
    else match d.get? current with
      | some next => follow d fuel (current :: seen) next
      | none => current

/-- Each round passes a fresh name of the table, so one round per entry suffices. -/
def root (d : Dict κ κ) (x : κ) : κ := follow d d.size [] x

def Points (d : Dict κ κ) (x y : κ) : Prop := d.get? x = some y

def Reaches (d : Dict κ κ) : κ → κ → Prop := Relation.ReflTransGen (Points d)

def Acyclic (d : Dict κ κ) : Prop := ∀ x, ¬Relation.TransGen (Points d) x x

variable {d : Dict κ κ}

theorem Points.functional {x y z : κ} (hy : Points d x y) (hz : Points d x z) : y = z :=
  Option.some.inj (hy.symm.trans hz)

/-- Two chains from one name: one is the start of the other. -/
theorem Reaches.total {x y z : κ} (hy : Reaches d x y) (hz : Reaches d x z) :
    Reaches d y z ∨ Reaches d z y :=
  Relation.ReflTransGen.total_of_right_unique (fun _ _ _ => Points.functional) hy hz

theorem Reaches.end_eq {x y : κ} (hx : d.get? x = none) (h : Reaches d x y) : y = x := by
  rcases Relation.ReflTransGen.cases_head h with rfl | ⟨z, hz, -⟩
  · rfl
  · exact absurd (hx.symm.trans hz) (by simp)

/-- A name is followed to one end only. -/
theorem Reaches.end_unique {x y z : κ} (hy : Reaches d x y) (hz : Reaches d x z)
    (hye : d.get? y = none) (hze : d.get? z = none) : y = z := by
  rcases hy.total hz with h | h
  · exact (h.end_eq hye).symm
  · exact h.end_eq hze

/-! ## Without cycles -/

/-- The loop of `follow`: what was seen leads to the current name, and each round uses up an
entry. -/
theorem follow_reaches (hd : Acyclic d) {fuel : Nat} {seen : List κ} {current : κ}
    (hseen : ∀ y ∈ seen, Relation.TransGen (Points d) y current) (hnodup : seen.Nodup)
    (hkeys : seen ⊆ d.keys) (hfuel : seen.length + fuel = d.size) :
    Reaches d current (follow d fuel seen current) ∧
      d.get? (follow d fuel seen current) = none := by
  induction fuel generalizing seen current with
  | zero =>
    refine ⟨.refl, ?_⟩
    -- every entry was passed, so the current name is not one of them
    have hperm : seen.Perm d.keys := by
      apply (List.subperm_of_subset hnodup hkeys).perm_of_length_le
      rw [show d.keys.length = d.size from List.length_map ..]
      omega
    change d.get? current = none
    rw [Dict.get?_eq_none]
    intro hmem
    exact hd current (hseen current (hperm.mem_iff.mpr hmem))
  | succ fuel ih =>
    have hnot : current ∉ seen := fun hmem => hd current (hseen current hmem)
    rw [follow, if_neg hnot]
    cases hget : d.get? current with
    | none => exact ⟨.refl, hget⟩
    | some next =>
      have hstep : Points d current next := hget
      have hleads : ∀ y ∈ current :: seen, Relation.TransGen (Points d) y next := by
        intro y hy
        rcases List.mem_cons.mp hy with rfl | hy
        · exact .single hstep
        · exact (hseen y hy).tail hstep
      obtain ⟨hreach, hend⟩ := ih hleads (List.nodup_cons.mpr ⟨hnot, hnodup⟩)
        (List.cons_subset.mpr ⟨Dict.mem_keys.mpr ⟨next, hget⟩, hkeys⟩)
        (by simp only [List.length_cons]; omega)
      exact ⟨.head hstep hreach, hend⟩

theorem root_reaches (hd : Acyclic d) (x : κ) : Reaches d x (root d x) ∧ d.get? (root d x) = none :=
  follow_reaches hd (by simp) List.nodup_nil (List.nil_subset _) (by simp)

theorem root_eq (hd : Acyclic d) {x y : κ} (hy : Reaches d x y) (hend : d.get? y = none) :
    root d x = y :=
  (root_reaches hd x).1.end_unique hy (root_reaches hd x).2 hend

theorem root_eq_of_points (hd : Acyclic d) {x y : κ} (h : Points d x y) : root d x = root d y :=
  root_eq hd (.head h (root_reaches hd y).1) (root_reaches hd y).2

/-! ## On a cycle -/

def next (d : Dict κ κ) (x : κ) : κ := (d.get? x).getD x

theorem Points.next_eq {x y : κ} (h : Points d x y) : next d x = y := by
  unfold next
  rw [h]
  rfl

theorem exists_iterate {x y : κ} (h : Relation.TransGen (Points d) x y) :
    ∃ n, 0 < n ∧ (next d)^[n] x = y := by
  induction h with
  | single h => exact ⟨1, Nat.one_pos, h.next_eq⟩
  | tail _ h ih =>
    obtain ⟨n, -, hn⟩ := ih
    refine ⟨n + 1, Nat.succ_pos n, ?_⟩
    rw [Function.iterate_succ_apply', hn, h.next_eq]

/-- What a cycle leads to lies on the cycle. -/
theorem cycle_of_reaches {x y : κ} (hx : Relation.TransGen (Points d) x x) (h : Reaches d x y) :
    Relation.TransGen (Points d) y y := by
  induction h with
  | refl => exact hx
  | tail _ h ih =>
    obtain ⟨z, hz, hrest⟩ := Relation.TransGen.head'_iff.mp ih
    rw [hz.functional h] at hrest
    exact Relation.TransGen.tail' hrest h

theorem cycle_points {x : κ} (hx : Relation.TransGen (Points d) x x) : Points d x (next d x) := by
  obtain ⟨z, hz, -⟩ := Relation.TransGen.head'_iff.mp hx
  rw [hz.next_eq]
  exact hz

theorem cycle_iterate {x : κ} (hx : Relation.TransGen (Points d) x x) (n : Nat) :
    Relation.TransGen (Points d) ((next d)^[n] x) ((next d)^[n] x) := by
  induction n with
  | zero => exact hx
  | succ n ih =>
    rw [Function.iterate_succ_apply']
    exact cycle_of_reaches ih (.single (cycle_points ih))

/-- The names passed in the first rounds. -/
def trail (d : Dict κ κ) (x : κ) (n : Nat) : List κ :=
  (List.range n).reverse.map fun i => (next d)^[i] x

theorem trail_succ (d : Dict κ κ) (x : κ) (n : Nat) :
    trail d x (n + 1) = (next d)^[n] x :: trail d x n := by
  simp [trail, List.range_succ]

theorem mem_trail {d : Dict κ κ} {x y : κ} {n : Nat} :
    y ∈ trail d x n ↔ ∃ i < n, (next d)^[i] x = y := by
  simp only [trail, List.mem_map, List.mem_reverse, List.mem_range]

/-- Followed from a name on a cycle, the table leads back to that name. -/
theorem root_of_cycle {x : κ} (hx : Relation.TransGen (Points d) x x) : root d x = x := by
  obtain ⟨n, hn, hreturn⟩ := exists_iterate hx
  have hperiod : 0 < Function.minimalPeriod (next d) x :=
    Function.minimalPeriod_pos_of_mem_periodicPts (Function.mk_mem_periodicPts hn hreturn)
  have hinj := Function.iterate_injOn_Iio_minimalPeriod (f := next d) (x := x)
  have hback : (next d)^[Function.minimalPeriod (next d) x] x = x :=
    Function.iterate_minimalPeriod
  generalize Function.minimalPeriod (next d) x = period at hperiod hinj hback
  have hsize : period ≤ d.size := by
    have hnodup : (trail d x period).Nodup := by
      refine List.Nodup.map_on ?_ (List.nodup_reverse.mpr List.nodup_range)
      intro i hi j hj heq
      exact hinj (by simpa using hi) (by simpa using hj) heq
    have hsub : trail d x period ⊆ d.keys := by
      intro y hy
      obtain ⟨i, -, rfl⟩ := mem_trail.mp hy
      exact Dict.mem_keys.mpr ⟨_, cycle_points (cycle_iterate hx i)⟩
    have hle := (List.subperm_of_subset hnodup hsub).length_le
    rw [show d.keys.length = d.size from List.length_map ..] at hle
    simpa [trail] using hle
  -- downwards from the round in which the name comes back
  have hround : ∀ left i, i + left = period →
      follow d (d.size - i) (trail d x i) ((next d)^[i] x) = x := by
    intro left
    induction left with
    | zero =>
      intro i hi
      obtain rfl : i = period := by omega
      have hmem : x ∈ trail d x i := mem_trail.mpr ⟨0, hperiod, rfl⟩
      rw [hback]
      cases d.size - i with
      | zero => rfl
      | succ fuel => rw [follow, if_pos hmem]
    | succ left ih =>
      intro i hi
      obtain ⟨fuel, hfuel⟩ : ∃ fuel, d.size - i = fuel + 1 := ⟨d.size - i - 1, by omega⟩
      have hnot : (next d)^[i] x ∉ trail d x i := by
        intro hmem
        obtain ⟨j, hj, heq⟩ := mem_trail.mp hmem
        have hsame := hinj (show j < period by omega) (show i < period by omega) heq
        omega
      have hpoints : d.get? ((next d)^[i] x) = some ((next d)^[i + 1] x) := by
        rw [Function.iterate_succ_apply']
        exact cycle_points (cycle_iterate hx i)
      have hrest := ih (i + 1) (by omega)
      rw [show d.size - (i + 1) = fuel by omega, trail_succ] at hrest
      rw [hfuel, follow, if_neg hnot, hpoints]
      exact hrest
  exact hround period 0 (by omega)

/-! ## Writing the table -/

variable {a c : κ}

theorem Acyclic.erase (hd : Acyclic d) (a : κ) : Acyclic (d.erase a) := by
  intro x hx
  refine hd x (Relation.TransGen.mono (fun y z hyz => ?_) _ _ hx)
  unfold Points at hyz ⊢
  rw [Dict.get?_erase] at hyz
  split at hyz
  · cases hyz
  · exact hyz

theorem points_set {x y : κ} :
    Points (d.set a c) x y ↔ (x = a ∧ y = c) ∨ Points (d.erase a) x y := by
  unfold Points
  rw [Dict.get?_set, Dict.get?_erase]
  by_cases hx : x = a
  · simp [hx, eq_comm]
  · simp [hx]

/-- A chain in the new table stays in the old one or comes to the name that was written. -/
theorem Reaches.of_set {x y : κ} (h : Reaches (d.set a c) x y) :
    Reaches (d.erase a) x y ∨ Reaches (d.erase a) x a := by
  induction h using Relation.ReflTransGen.head_induction_on with
  | refl => exact .inl .refl
  | head h _ ih =>
    rcases points_set.mp h with ⟨rfl, -⟩ | h
    · exact .inr .refl
    · exact ih.imp (.head h) (.head h)

theorem Reaches.to_set {x y : κ} (h : Reaches (d.erase a) x y) : Reaches (d.set a c) x y :=
  Relation.ReflTransGen.mono (fun _ _ h => points_set.mpr (.inr h)) _ _ h

theorem reaches_iff_root (hd : Acyclic d) : Reaches (d.erase a) c a ↔ root (d.erase a) c = a := by
  have hend : (d.erase a).get? a = none := by rw [Dict.get?_erase, if_pos rfl]
  constructor
  · intro h
    exact root_eq (hd.erase a) h hend
  · intro h
    have hreach := (root_reaches (hd.erase a) c).1
    rw [h] at hreach
    exact hreach

/-- Sending a name on closes a cycle exactly if its new target leads back to it. -/
theorem acyclic_set (hd : Acyclic d) : Acyclic (d.set a c) ↔ root (d.erase a) c ≠ a := by
  rw [ne_eq, ← reaches_iff_root hd]
  have hedge : Points (d.set a c) a c := points_set.mpr (.inl ⟨rfl, rfl⟩)
  constructor
  · intro hacyclic hreach
    exact hacyclic a (.head' hedge hreach.to_set)
  · intro hnot x hx
    have hto : Reaches (d.set a c) x a := by
      obtain ⟨w, hw, hrest⟩ := Relation.TransGen.head'_iff.mp hx
      rcases points_set.mp hw with ⟨rfl, -⟩ | hw'
      · exact .refl
      · rcases Reaches.of_set hrest with hrest | hrest
        · exact absurd (Relation.TransGen.head' hw' hrest) (hd.erase a x)
        · exact .head hw hrest.to_set
    obtain ⟨w, hw, hrest⟩ := Relation.TransGen.head'_iff.mp (cycle_of_reaches hx hto)
    rw [hw.functional hedge] at hrest
    exact hnot ((Reaches.of_set hrest).elim id id)

end LearningOrbit.Pointers
