import Mathlib.Data.List.Nodup
import Mathlib.Data.List.Basic

/-!
# Insertion-ordered dictionaries

A Python `dict` and a JavaScript `Map` have the same shape: keys are unique,
iteration follows first insertion, assigning to a present key keeps its place,
and a key that was removed re-enters at the end. `Dict` carries the uniqueness
of its keys as a field.
-/

namespace LearningOrbit

structure Dict (κ ν : Type) where
  entries : List (κ × ν)
  nodup : (entries.map Prod.fst).Nodup
  deriving DecidableEq

namespace Dict

variable {κ ν μ : Type}

theorem ext_entries {d e : Dict κ ν} (h : d.entries = e.entries) : d = e := by
  cases d; cases e; cases h; rfl

def empty : Dict κ ν := ⟨[], List.nodup_nil⟩

instance : Inhabited (Dict κ ν) := ⟨empty⟩

def keys (d : Dict κ ν) : List κ := d.entries.map Prod.fst

def values (d : Dict κ ν) : List ν := d.entries.map Prod.snd

def size (d : Dict κ ν) : Nat := d.entries.length

theorem keys_nodup (d : Dict κ ν) : d.keys.Nodup := d.nodup

/-- Rewrite every value in place; the keys and their order stay. -/
def mapValues (d : Dict κ ν) (f : κ → ν → μ) : Dict κ μ :=
  ⟨d.entries.map fun e => (e.1, f e.1 e.2), by
    have h : Prod.fst ∘ (fun e : κ × ν => (e.1, f e.1 e.2)) = Prod.fst := rfl
    simpa [List.map_map, h] using d.nodup⟩

@[simp] theorem keys_mapValues (d : Dict κ ν) (f : κ → ν → μ) : (d.mapValues f).keys = d.keys := by
  simp [keys, mapValues]

/-- Give every entry another key; no two of them get the same. -/
def mapKeys {κ' : Type} (d : Dict κ ν) (f : κ → κ') (hf : Function.Injective f) : Dict κ' ν :=
  ⟨d.entries.map fun e => (f e.1, e.2), by
    have h : Prod.fst ∘ (fun e : κ × ν => (f e.1, e.2)) = f ∘ Prod.fst := rfl
    rw [List.map_map, h, ← List.map_map]
    exact d.nodup.map hf⟩

section
variable [DecidableEq κ]

def get? (d : Dict κ ν) (k : κ) : Option ν := d.entries.lookup k

def contains (d : Dict κ ν) (k : κ) : Bool := (d.get? k).isSome

theorem lookup_eq_none {l : List (κ × ν)} {k : κ} : l.lookup k = none ↔ k ∉ l.map Prod.fst := by
  induction l with
  | nil => simp
  | cons e l ih =>
    obtain ⟨a, b⟩ := e
    by_cases h : k = a
    · subst h; simp
    · have hb : (k == a) = false := by simpa using h
      simp only [List.lookup_cons, hb, ih, List.map_cons, List.mem_cons, h, false_or]

theorem lookup_eq_some {l : List (κ × ν)} (hn : (l.map Prod.fst).Nodup) {k : κ} {v : ν} :
    l.lookup k = some v ↔ (k, v) ∈ l := by
  induction l with
  | nil => simp
  | cons e l ih =>
    obtain ⟨a, b⟩ := e
    obtain ⟨ha, hl⟩ := List.nodup_cons.mp hn
    by_cases h : k = a
    · subst h
      have hk : (k, v) ∉ l := fun hv => ha (List.mem_map.mpr ⟨(k, v), hv, rfl⟩)
      simp [hk, eq_comm]
    · have hb : (k == a) = false := by simpa using h
      simp only [List.lookup_cons, hb, ih hl, List.mem_cons, Prod.mk.injEq, h, false_and, false_or]

@[simp] theorem get?_empty (k : κ) : (empty : Dict κ ν).get? k = none := rfl

theorem get?_eq_none {d : Dict κ ν} {k : κ} : d.get? k = none ↔ k ∉ d.keys := lookup_eq_none

theorem get?_eq_some {d : Dict κ ν} {k : κ} {v : ν} : d.get? k = some v ↔ (k, v) ∈ d.entries :=
  lookup_eq_some d.nodup

theorem mem_values {d : Dict κ ν} {v : ν} : v ∈ d.values ↔ ∃ k, d.get? k = some v := by
  simp only [values, List.mem_map, get?_eq_some]
  constructor
  · rintro ⟨⟨k, w⟩, hm, rfl⟩; exact ⟨k, hm⟩
  · rintro ⟨k, hm⟩; exact ⟨(k, v), hm, rfl⟩

theorem mem_keys {d : Dict κ ν} {k : κ} : k ∈ d.keys ↔ ∃ v, d.get? k = some v := by
  constructor
  · intro h
    cases hg : d.get? k with
    | none => exact absurd h (get?_eq_none.mp hg)
    | some v => exact ⟨v, rfl⟩
  · rintro ⟨v, hv⟩
    exact List.mem_map_of_mem (get?_eq_some.mp hv)

theorem contains_iff {d : Dict κ ν} {k : κ} : d.contains k = true ↔ k ∈ d.keys := by
  rw [mem_keys, contains, Option.isSome_iff_exists]

/-- Assign: a present key keeps its place, a new key goes to the end. -/
def set (d : Dict κ ν) (k : κ) (v : ν) : Dict κ ν :=
  if h : k ∈ d.keys then d.mapValues fun a b => if a = k then v else b
  else ⟨d.entries ++ [(k, v)], by
    rw [List.map_append, List.nodup_append]
    refine ⟨d.nodup, by simp, ?_⟩
    intro a ha b hb
    simp only [List.map_cons, List.map_nil, List.mem_singleton] at hb
    subst hb
    exact fun he => h (he ▸ ha)⟩

def erase (d : Dict κ ν) (k : κ) : Dict κ ν :=
  ⟨d.entries.filter fun e => e.1 ≠ k, d.nodup.sublist (List.filter_sublist.map Prod.fst)⟩

theorem get?_mapKeys {κ' : Type} [DecidableEq κ'] (d : Dict κ ν) (f : κ → κ')
    (hf : Function.Injective f) (k : κ) : (d.mapKeys f hf).get? (f k) = d.get? k := by
  unfold get? mapKeys
  dsimp only
  induction d.entries with
  | nil => rfl
  | cons e l ih =>
    obtain ⟨a, b⟩ := e
    by_cases h : k = a
    · subst h
      simp
    · have hne : f k ≠ f a := fun he => h (hf he)
      simp [List.lookup_cons, beq_false_of_ne h, beq_false_of_ne hne, ih]

theorem get?_mapValues (d : Dict κ ν) (f : κ → ν → μ) (k : κ) :
    (d.mapValues f).get? k = (d.get? k).map (f k) := by
  obtain ⟨l, hn⟩ := d
  simp only [get?, mapValues]
  clear hn
  induction l with
  | nil => rfl
  | cons e l ih =>
    obtain ⟨a, b⟩ := e
    by_cases h : k = a
    · subst h; simp
    · have hb : (k == a) = false := by simpa using h
      simp only [List.map_cons, List.lookup_cons, hb, ih]

theorem get?_set (d : Dict κ ν) (k : κ) (v : ν) (a : κ) :
    (d.set k v).get? a = if a = k then some v else d.get? a := by
  unfold set
  split
  · rename_i hk
    rw [get?_mapValues]
    by_cases ha : a = k
    · subst ha
      obtain ⟨w, hw⟩ := mem_keys.mp hk
      simp [hw]
    · simp only [ha, ↓reduceIte]
      cases d.get? a <;> rfl
  · rename_i hk
    simp only [get?, List.lookup_append]
    by_cases ha : a = k
    · subst ha
      have : d.entries.lookup a = none := lookup_eq_none.mpr hk
      simp [this]
    · have hb : (a == k) = false := by simpa using ha
      simp [List.lookup_cons, hb, ha]

@[simp] theorem get?_set_self (d : Dict κ ν) (k : κ) (v : ν) : (d.set k v).get? k = some v := by
  simp [get?_set]

theorem get?_set_of_ne (d : Dict κ ν) {k a : κ} (v : ν) (h : a ≠ k) :
    (d.set k v).get? a = d.get? a := by
  simp [get?_set, h]

theorem get?_erase (d : Dict κ ν) (k a : κ) :
    (d.erase k).get? a = if a = k then none else d.get? a := by
  obtain ⟨l, hn⟩ := d
  simp only [get?, erase]
  clear hn
  induction l with
  | nil => simp
  | cons e l ih =>
    obtain ⟨b, c⟩ := e
    by_cases hb : b = k
    · subst hb
      simp only [List.filter_cons, ne_eq, not_true_eq_false, decide_false, Bool.false_eq_true,
        ↓reduceIte, ih, List.lookup_cons]
      by_cases ha : a = b
      · simp [ha]
      · have hab : (a == b) = false := by simpa using ha
        simp [ha, hab]
    · simp only [List.filter_cons, ne_eq, hb, not_false_eq_true, decide_true, ↓reduceIte,
        List.lookup_cons, ih]
      by_cases ha : a = b
      · subst ha; simp [hb]
      · have hab : (a == b) = false := by simpa using ha
        simp [hab]

theorem mem_keys_set {d : Dict κ ν} {k a : κ} {v : ν} :
    a ∈ (d.set k v).keys ↔ a = k ∨ a ∈ d.keys := by
  simp only [mem_keys, get?_set]
  by_cases h : a = k <;> simp [h]

theorem mem_keys_erase {d : Dict κ ν} {k a : κ} : a ∈ (d.erase k).keys ↔ a ≠ k ∧ a ∈ d.keys := by
  simp only [mem_keys, get?_erase]
  by_cases h : a = k <;> simp [h]

theorem keys_set_of_mem {d : Dict κ ν} {k : κ} (h : k ∈ d.keys) (v : ν) :
    (d.set k v).keys = d.keys := by
  rw [set, dif_pos h, keys_mapValues]

theorem keys_erase (d : Dict κ ν) (k : κ) : (d.erase k).keys = d.keys.filter (· ≠ k) := by
  simp only [keys, erase, List.filter_map]
  rfl

theorem size_erase_lt {d : Dict κ ν} {k : κ} (h : k ∈ d.keys) : (d.erase k).size < d.size := by
  obtain ⟨v, hv⟩ := mem_keys.mp h
  exact List.length_filter_lt_length_iff_exists.mpr ⟨(k, v), get?_eq_some.mp hv, by simp⟩

/-- Keep the keys that satisfy `p`. -/
def filterKeys (d : Dict κ ν) (p : κ → Bool) : Dict κ ν :=
  ⟨d.entries.filter fun e => p e.1, d.nodup.sublist (List.filter_sublist.map Prod.fst)⟩

theorem get?_filterKeys (d : Dict κ ν) (p : κ → Bool) (a : κ) :
    (d.filterKeys p).get? a = if p a then d.get? a else none := by
  obtain ⟨l, hn⟩ := d
  simp only [get?, filterKeys]
  clear hn
  induction l with
  | nil => simp
  | cons e l ih =>
    obtain ⟨b, c⟩ := e
    by_cases ha : a = b
    · subst ha
      cases hp : p a <;> simp [hp, ih]
    · have hab : (a == b) = false := by simpa using ha
      cases hp : p b <;> simp [hp, ih, List.lookup_cons, hab]

/-- Python's `dict.setdefault(k, v)`. -/
def setDefault (d : Dict κ ν) (k : κ) (v : ν) : Dict κ ν :=
  if d.contains k then d else d.set k v

theorem setDefault_of_get? {d : Dict κ ν} {k : κ} {v w : ν} (h : d.get? k = some w) :
    d.setDefault k v = d := by
  unfold setDefault contains
  simp [h]

theorem setDefault_of_none {d : Dict κ ν} {k : κ} {v : ν} (h : d.get? k = none) :
    d.setDefault k v = d.set k v := by
  unfold setDefault contains
  simp [h]

theorem isSome_setDefault {d : Dict κ ν} {k a : κ} {v : ν} :
    ((d.setDefault k v).get? a).isSome = (decide (a = k) || (d.get? a).isSome) := by
  cases h : d.get? k with
  | some w =>
    rw [setDefault_of_get? h]
    by_cases ha : a = k <;> simp [ha, h]
  | none =>
    rw [setDefault_of_none h, get?_set]
    by_cases ha : a = k <;> simp [ha]

/-- Python's `dict.setdefault(k, default)` followed by an in-place change. -/
def modify (d : Dict κ ν) (k : κ) (default : ν) (f : ν → ν) : Dict κ ν :=
  d.set k (f ((d.get? k).getD default))

theorem get?_modify (d : Dict κ ν) (k : κ) (default : ν) (f : ν → ν) (a : κ) :
    (d.modify k default f).get? a =
      if a = k then some (f ((d.get? k).getD default)) else d.get? a := by
  rw [modify, get?_set]

theorem mem_values_set {d : Dict κ ν} {k : κ} {v w : ν} (h : w ∈ (d.set k v).values) :
    w = v ∨ w ∈ d.values := by
  obtain ⟨a, ha⟩ := mem_values.mp h
  rw [get?_set] at ha
  split at ha
  · exact .inl (Option.some.inj ha).symm
  · exact .inr (mem_values.mpr ⟨a, ha⟩)

theorem mem_values_foldl_set {α : Type} {l : List α} {key : α → κ} {val : α → ν} {d : Dict κ ν}
    {w : ν} (h : w ∈ (l.foldl (fun d a => d.set (key a) (val a)) d).values) :
    (∃ a ∈ l, w = val a) ∨ w ∈ d.values := by
  induction l generalizing d with
  | nil => exact .inr h
  | cons a l ih =>
    rcases ih h with ⟨b, hb, hw⟩ | hw
    · exact .inl ⟨b, List.mem_cons_of_mem _ hb, hw⟩
    · rcases mem_values_set hw with hw | hw
      · exact .inl ⟨a, List.mem_cons_self .., hw⟩
      · exact .inr hw

theorem get?_foldl_set_of_not_mem {α : Type} {l : List α} {key : α → κ} {val : α → ν}
    {d : Dict κ ν} {k : κ} (hk : k ∉ l.map key) :
    (l.foldl (fun d a => d.set (key a) (val a)) d).get? k = d.get? k := by
  induction l generalizing d with
  | nil => rfl
  | cons a l ih =>
    obtain ⟨hne, hl⟩ : k ≠ key a ∧ k ∉ l.map key := by
      simpa only [List.map_cons, List.mem_cons, not_or] using hk
    rw [List.foldl_cons, ih hl, get?_set_of_ne _ _ hne]

theorem get?_foldl_set_of_mem {α : Type} {l : List α} (key : α → κ) (val : α → ν) (d : Dict κ ν)
    {k : κ} (hk : k ∈ l.map key) :
    ∃ a ∈ l, key a = k ∧ (l.foldl (fun d a => d.set (key a) (val a)) d).get? k = some (val a) := by
  induction l generalizing d with
  | nil => cases hk
  | cons a l ih =>
    by_cases hl : k ∈ l.map key
    · obtain ⟨b, hb, hbk, hget⟩ := ih (d.set (key a) (val a)) hl
      exact ⟨b, List.mem_cons_of_mem _ hb, hbk, hget⟩
    · have ha : key a = k := by
        rw [List.map_cons, List.mem_cons] at hk
        exact (hk.resolve_right hl).symm
      refine ⟨a, List.mem_cons_self .., ha, ?_⟩
      rw [List.foldl_cons, get?_foldl_set_of_not_mem hl, ← ha, get?_set_self]

theorem mem_values_mapValues {d : Dict κ ν} {f : κ → ν → μ} {w : μ} :
    w ∈ (d.mapValues f).values ↔ ∃ k v, d.get? k = some v ∧ f k v = w := by
  simp only [mem_values, get?_mapValues, Option.map_eq_some_iff]

/-- A record kept for each key collects, in their order, the items of that key. -/
theorem get?_foldl_modify {α : Type} {l : List α} (key : α → κ) (start : ν) (note : ν → α → ν)
    (d : Dict κ ν) (k : κ) :
    (l.foldl (fun d a => d.modify (key a) start (note · a)) d).get? k =
      if (l.filter fun a => key a = k) = [] then d.get? k
      else some ((l.filter fun a => key a = k).foldl note ((d.get? k).getD start)) := by
  induction l generalizing d with
  | nil => rfl
  | cons a l ih =>
    rw [List.foldl_cons, ih, get?_modify]
    by_cases hk : key a = k
    · simp only [List.filter_cons, hk, decide_true, ↓reduceIte, List.foldl_cons, Option.getD_some,
        reduceCtorEq]
      split
      · rename_i hnil
        rw [hnil, List.foldl_nil]
      · rfl
    · simp only [List.filter_cons, hk, decide_false, Bool.false_eq_true, ↓reduceIte, Ne.symm hk]

/-- `update`: the entries of a second dictionary, written over the first in their order. -/
def update (d e : Dict κ ν) : Dict κ ν := e.entries.foldl (fun d entry => d.set entry.1 entry.2) d

end

end Dict

end LearningOrbit
