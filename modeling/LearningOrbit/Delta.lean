import LearningOrbit.Dict
import LearningOrbit.Raise

/-!
# Keyed deltas

The difference of two keyed collections, as the items to add, to replace and to
hide, and what a reader makes of it who holds the first collection. The reader
refuses to add what is there and to replace or hide what is not.
-/

namespace LearningOrbit

structure Delta (κ ν : Type) where
  added : List ν
  updated : List ν
  hidden : List κ
  deriving DecidableEq

namespace Delta

/-- The number of changes. -/
def size {κ ν : Type} (delta : Delta κ ν) : Nat :=
  delta.added.length + delta.updated.length + delta.hidden.length

variable {κ ν : Type} [DecidableEq κ] (key : ν → κ)

/-- Items by key; a later item replaces an earlier one. -/
def index (items : List ν) : Dict κ ν := items.foldl (fun d v => d.set (key v) v) .empty

/-- Every item stands under its own key. -/
def Keyed (d : Dict κ ν) : Prop := ∀ k v, d.get? k = some v → key v = k

/-- The delta from one collection to another, each part in the order of the keys. -/
def between [DecidableEq ν] (sort : List κ → List κ) (prev cur : Dict κ ν) : Delta κ ν where
  added := (sort (cur.keys.filter (· ∉ prev.keys))).filterMap cur.get?
  updated := (sort (cur.keys.filter (· ∈ prev.keys))).filterMap fun k =>
    (cur.get? k).filter fun v => prev.get? k ≠ some v
  hidden := sort (prev.keys.filter (· ∉ cur.keys))

/-- The codes a reader raises. -/
structure Codes where
  addConflict : String
  updateMissing : String
  hideMissing : String

def add (code : String) (d : Dict κ ν) (v : ν) : Except String (Dict κ ν) :=
  if d.contains (key v) then .error code else .ok (d.set (key v) v)

def update (code : String) (d : Dict κ ν) (v : ν) : Except String (Dict κ ν) :=
  if d.contains (key v) then .ok (d.set (key v) v) else .error code

def hide (code : String) (d : Dict κ ν) (k : κ) : Except String (Dict κ ν) :=
  if d.contains k then .ok (d.erase k) else .error code

def apply (codes : Codes) (d : Dict κ ν) (delta : Delta κ ν) : Except String (Dict κ ν) := do
  let d ← delta.added.foldlM (add key codes.addConflict) d
  let d ← delta.updated.foldlM (update key codes.updateMissing) d
  delta.hidden.foldlM (hide codes.hideMissing) d

variable {key}

/-! ## Indexes -/

theorem index_keyed (items : List ν) : Keyed key (index key items) := by
  intro k v hv
  by_cases hk : k ∈ items.map key
  · obtain ⟨a, -, ha, hget⟩ := Dict.get?_foldl_set_of_mem key id .empty hk
    have hget : (index key items).get? k = some a := hget
    rw [hv] at hget
    cases hget
    exact ha
  · have hnone : (index key items).get? k = none := Dict.get?_foldl_set_of_not_mem hk
    rw [hv] at hnone
    cases hnone

theorem mem_of_index {items : List ν} {k : κ} {v : ν} (h : (index key items).get? k = some v) :
    v ∈ items := by
  by_cases hk : k ∈ items.map key
  · obtain ⟨a, ha, -, hget⟩ := Dict.get?_foldl_set_of_mem key id .empty hk
    have hget : (index key items).get? k = some a := hget
    rw [h] at hget
    cases hget
    exact ha
  · have hnone : (index key items).get? k = none := Dict.get?_foldl_set_of_not_mem hk
    rw [h] at hnone
    cases hnone

theorem mem_keys_index {items : List ν} {k : κ} :
    k ∈ (index key items).keys ↔ k ∈ items.map key := by
  constructor
  · intro h
    obtain ⟨v, hv⟩ := Dict.mem_keys.mp h
    exact List.mem_map.mpr ⟨v, mem_of_index hv, index_keyed items k v hv⟩
  · intro h
    obtain ⟨a, -, -, hget⟩ := Dict.get?_foldl_set_of_mem key id .empty h
    exact Dict.mem_keys.mpr ⟨a, hget⟩

/-- The items of a keyed collection index to the collection. -/
theorem get?_index_values {d : Dict κ ν} (hd : Keyed key d) (k : κ) :
    (index key d.values).get? k = d.get? k := by
  cases hget : (index key d.values).get? k with
  | some v =>
    obtain ⟨k', hk'⟩ := Dict.mem_values.mp (mem_of_index hget)
    have heq : k' = k := (hd k' v hk').symm.trans (index_keyed _ k v hget)
    rw [← hk', heq]
  | none =>
    cases hd' : d.get? k with
    | none => rfl
    | some v =>
      have hmem : k ∈ (index key d.values).keys := by
        rw [mem_keys_index]
        exact List.mem_map.mpr ⟨v, Dict.mem_values.mpr ⟨k, hd'⟩, hd k v hd'⟩
      exact absurd hmem (Dict.get?_eq_none.mp hget)

theorem map_values {d : Dict κ ν} (hd : Keyed key d) : d.values.map key = d.keys := by
  unfold Dict.values Dict.keys
  rw [List.map_map]
  exact List.map_congr_left fun e he => hd e.1 e.2 (Dict.get?_eq_some.mpr he)

/-- A collection with the items of a list is empty when the list is. -/
theorem isEmpty_values {d : Dict κ ν} {items : List ν}
    (hd : ∀ k, d.get? k = (index key items).get? k) : d.values.isEmpty = items.isEmpty := by
  have hmem (k : κ) : (∃ v, d.get? k = some v) ↔ k ∈ items.map key := by
    rw [hd, ← Dict.mem_keys, mem_keys_index]
  cases items with
  | nil =>
    have hnil : d.values = [] := by
      rw [List.eq_nil_iff_forall_not_mem]
      intro v hv
      obtain ⟨k, hk⟩ := Dict.mem_values.mp hv
      simpa using (hmem k).mp ⟨v, hk⟩
    simp [hnil]
  | cons v items =>
    obtain ⟨w, hw⟩ := (hmem (key v)).mpr (by simp)
    have hne : d.values ≠ [] := List.ne_nil_of_mem (Dict.mem_values.mpr ⟨_, hw⟩)
    simpa using hne

/-! ## One part of a delta -/

theorem mem_keys_congr {d e : Dict κ ν} (h : ∀ k, d.get? k = e.get? k) {k : κ} :
    k ∈ d.keys ↔ k ∈ e.keys := by
  rw [Dict.mem_keys, Dict.mem_keys, h]

/-- Assigning items one by one, where each step looks only at whether its key is there. -/
theorem foldlM_assign {f : Dict κ ν → ν → Except String (Dict κ ν)} (there : Bool)
    (hf : ∀ d v, (key v ∈ d.keys ↔ there) → f d v = .ok (d.set (key v) v)) {items : List ν}
    {d : Dict κ ν} (hn : (items.map key).Nodup) (hd : ∀ v ∈ items, (key v ∈ d.keys ↔ there)) :
    ∃ d', items.foldlM f d = .ok d' ∧
      ∀ k, d'.get? k = (items.find? fun v => key v = k).or (d.get? k) := by
  induction items generalizing d with
  | nil => exact ⟨d, rfl, fun k => rfl⟩
  | cons v items ih =>
    obtain ⟨hv, hn⟩ := List.nodup_cons.mp hn
    have hne {w : ν} (hw : w ∈ items) : key w ≠ key v :=
      fun he => hv (he ▸ List.mem_map_of_mem hw)
    have hrest : ∀ w ∈ items, (key w ∈ (d.set (key v) v).keys ↔ there) := by
      intro w hw
      rw [Dict.mem_keys_set, or_iff_right (hne hw)]
      exact hd w (List.mem_cons_of_mem _ hw)
    obtain ⟨d', hd', hget⟩ := ih hn hrest
    refine ⟨d', ?_, fun k => ?_⟩
    · rw [List.foldlM_cons, hf d v (hd v (List.mem_cons_self ..))]
      exact hd'
    · rw [hget, Dict.get?_set, List.find?_cons]
      by_cases hk : key v = k
      · have hnone : items.find? (fun w => decide (key w = k)) = none := by
          rw [List.find?_eq_none]
          intro w hw
          simpa [← hk] using hne hw
        simp [hk, hnone]
      · simp [hk, Ne.symm hk]

theorem foldlM_add (code : String) {items : List ν} {d : Dict κ ν} (hn : (items.map key).Nodup)
    (hd : ∀ v ∈ items, key v ∉ d.keys) :
    ∃ d', items.foldlM (add key code) d = .ok d' ∧
      ∀ k, d'.get? k = (items.find? fun v => key v = k).or (d.get? k) := by
  refine foldlM_assign false ?_ hn (fun v hv => by simpa using hd v hv)
  intro d v h
  unfold add
  rw [if_neg]
  simpa [Dict.contains_iff] using h

theorem foldlM_update (code : String) {items : List ν} {d : Dict κ ν}
    (hn : (items.map key).Nodup) (hd : ∀ v ∈ items, key v ∈ d.keys) :
    ∃ d', items.foldlM (update key code) d = .ok d' ∧
      ∀ k, d'.get? k = (items.find? fun v => key v = k).or (d.get? k) := by
  refine foldlM_assign true ?_ hn (fun v hv => by simpa using hd v hv)
  intro d v h
  unfold update
  rw [if_pos]
  simpa [Dict.contains_iff] using h

theorem foldlM_hide (code : String) {ks : List κ} {d : Dict κ ν} (hn : ks.Nodup)
    (hthere : ∀ k ∈ ks, k ∈ d.keys) :
    ∃ d', ks.foldlM (hide code) d = .ok d' ∧
      ∀ k, d'.get? k = if k ∈ ks then none else d.get? k := by
  induction ks generalizing d with
  | nil => exact ⟨d, rfl, fun k => rfl⟩
  | cons a ks ih =>
    obtain ⟨ha, hn⟩ := List.nodup_cons.mp hn
    have hhide : hide code d a = .ok (d.erase a) := by
      unfold hide
      rw [if_pos]
      rw [Dict.contains_iff]
      exact hthere a (List.mem_cons_self ..)
    have hrest : ∀ k ∈ ks, k ∈ (d.erase a).keys := by
      intro k hk
      rw [Dict.mem_keys_erase]
      exact ⟨fun he => ha (he ▸ hk), hthere k (List.mem_cons_of_mem _ hk)⟩
    obtain ⟨d', hd', hget⟩ := ih hn hrest
    refine ⟨d', by rw [List.foldlM_cons, hhide]; exact hd', fun k => ?_⟩
    rw [hget, Dict.get?_erase]
    by_cases hk : k = a <;> by_cases hks : k ∈ ks <;> simp [hk, hks]

/-! ## The whole delta -/

theorem find?_filterMap {f : κ → Option ν} (hf : ∀ k v, f k = some v → key v = k) (ks : List κ)
    (k : κ) :
    ((ks.filterMap f).find? fun v => key v = k) = if k ∈ ks then f k else none := by
  induction ks with
  | nil => rfl
  | cons a ks ih =>
    cases ha : f a with
    | none =>
      rw [List.filterMap_cons_none ha, ih]
      by_cases hk : k = a
      · simp [hk, ha]
      · simp [hk]
    | some v =>
      rw [List.filterMap_cons_some ha, List.find?_cons, ih, hf a v ha]
      by_cases hk : k = a
      · simp [hk, ha]
      · simp [hk, Ne.symm hk]

omit [DecidableEq κ] in
theorem map_filterMap_sublist {f : κ → Option ν} (hf : ∀ k v, f k = some v → key v = k)
    (ks : List κ) : ((ks.filterMap f).map key).Sublist ks := by
  induction ks with
  | nil => exact .slnil
  | cons a ks ih =>
    cases ha : f a with
    | none => rw [List.filterMap_cons_none ha]; exact ih.cons a
    | some v =>
      rw [List.filterMap_cons_some ha, List.map_cons, hf a v ha]
      exact ih.cons_cons a

omit [DecidableEq κ] in
theorem mem_filterMap_key {f : κ → Option ν} (hf : ∀ k v, f k = some v → key v = k) {ks : List κ}
    {v : ν} (hv : v ∈ ks.filterMap f) : key v ∈ ks := by
  obtain ⟨k, hk, hfk⟩ := List.mem_filterMap.mp hv
  rw [hf k v hfk]
  exact hk

omit [DecidableEq κ] in
theorem mem_sort_filter {sort : List κ → List κ} (hsort : ∀ l, (sort l).Perm l) {d : Dict κ ν}
    {p : κ → Bool} {k : κ} : k ∈ sort (d.keys.filter p) ↔ k ∈ d.keys ∧ p k := by
  rw [(hsort _).mem_iff, List.mem_filter]

omit [DecidableEq κ] in
theorem sort_filter_nodup {sort : List κ → List κ} (hsort : ∀ l, (sort l).Perm l) (d : Dict κ ν)
    (p : κ → Bool) : (sort (d.keys.filter p)).Nodup :=
  (hsort _).nodup_iff.mpr (d.keys_nodup.sublist List.filter_sublist)

section Between

variable [DecidableEq ν] {sort : List κ → List κ} (hsort : ∀ l, (sort l).Perm l)
  {prev cur : Dict κ ν} (hcur : Keyed key cur)

include hsort

theorem mem_between_hidden {k : κ} :
    k ∈ (between sort prev cur).hidden ↔ k ∈ prev.keys ∧ k ∉ cur.keys := by
  refine (mem_sort_filter hsort).trans ?_
  simp

include hcur

theorem between_added :
    ((between sort prev cur).added.map key).Nodup ∧
      (∀ v ∈ (between sort prev cur).added, key v ∉ prev.keys) ∧
      ∀ k, ((between sort prev cur).added.find? fun v => key v = k) =
        if k ∈ prev.keys then none else cur.get? k := by
  refine ⟨(sort_filter_nodup hsort cur _).sublist (map_filterMap_sublist hcur _), ?_, ?_⟩
  · intro v hv
    simpa using ((mem_sort_filter hsort).mp (mem_filterMap_key hcur hv)).2
  · intro k
    refine (find?_filterMap hcur _ k).trans ?_
    simp only [mem_sort_filter hsort]
    by_cases hp : k ∈ prev.keys
    · simp [hp]
    · by_cases hc : k ∈ cur.keys
      · simp [hp, hc]
      · simp [hp, hc, Dict.get?_eq_none.mpr hc]

theorem between_updated :
    ((between sort prev cur).updated.map key).Nodup ∧
      (∀ v ∈ (between sort prev cur).updated, key v ∈ prev.keys) ∧
      ∀ k ∈ prev.keys, (((between sort prev cur).updated.find? fun v => key v = k).or
        (prev.get? k)) = (cur.get? k).or (prev.get? k) := by
  have hkey : ∀ k v, ((cur.get? k).filter fun v => prev.get? k ≠ some v) = some v → key v = k :=
    fun k v hv => hcur k v (Option.filter_eq_some_iff.mp hv).1
  refine ⟨(sort_filter_nodup hsort cur _).sublist (map_filterMap_sublist hkey _), ?_, ?_⟩
  · intro v hv
    simpa using ((mem_sort_filter hsort).mp (mem_filterMap_key hkey hv)).2
  · intro k hp
    have hfind := find?_filterMap hkey (sort (cur.keys.filter (· ∈ prev.keys))) k
    simp only [mem_sort_filter hsort] at hfind
    refine (congrArg (·.or (prev.get? k)) hfind).trans ?_
    by_cases hc : k ∈ cur.keys
    · obtain ⟨v, hv⟩ := Dict.mem_keys.mp hc
      by_cases hsame : prev.get? k = some v <;> simp [hc, hp, hv, hsame, Option.filter]
    · simp [hc, Dict.get?_eq_none.mpr hc]

omit hsort in
theorem mem_between {v : ν}
    (hv : v ∈ (between sort prev cur).added ++ (between sort prev cur).updated) :
    cur.get? (key v) = some v := by
  rcases List.mem_append.mp hv with hv | hv
  · obtain ⟨k, -, hk⟩ := List.mem_filterMap.mp hv
    rw [hcur k v hk]
    exact hk
  · obtain ⟨k, -, hk⟩ := List.mem_filterMap.mp hv
    have hget := (Option.filter_eq_some_iff.mp hk).1
    rw [hcur k v hget]
    exact hget

/-- The delta between two collections takes whoever holds the first to the second. -/
theorem apply_between {codes : Codes} {d : Dict κ ν} (hd : ∀ k, d.get? k = prev.get? k) :
    ∃ d', apply key codes d (between sort prev cur) = .ok d' ∧ ∀ k, d'.get? k = cur.get? k := by
  have hkeys {k : κ} : k ∈ d.keys ↔ k ∈ prev.keys := mem_keys_congr hd
  obtain ⟨hn₁, hfresh, hfind₁⟩ := between_added hsort hcur
  obtain ⟨d₁, h₁, hget₁⟩ := foldlM_add codes.addConflict hn₁ fun v hv => by
    rw [hkeys]
    exact hfresh v hv
  have hget₁ (k : κ) : d₁.get? k = if k ∈ prev.keys then prev.get? k else cur.get? k := by
    rw [hget₁, hfind₁, hd]
    by_cases hp : k ∈ prev.keys
    · simp [hp]
    · simp [hp, Dict.get?_eq_none.mpr hp]
  obtain ⟨hn₂, hthere, hfind₂⟩ := between_updated hsort hcur
  obtain ⟨d₂, h₂, hget₂⟩ := foldlM_update codes.updateMissing hn₂ fun v hv => by
    rw [Dict.mem_keys, hget₁, if_pos (hthere v hv)]
    exact Dict.mem_keys.mp (hthere v hv)
  have hget₂ (k : κ) : d₂.get? k = (cur.get? k).or (prev.get? k) := by
    rw [hget₂, hget₁]
    by_cases hp : k ∈ prev.keys
    · rw [if_pos hp, hfind₂ k hp]
    · have hnone : (between sort prev cur).updated.find? (fun v => decide (key v = k)) = none := by
        rw [List.find?_eq_none]
        intro v hv
        simpa using fun he : key v = k => hp (he ▸ hthere v hv)
      simp [hnone, hp, Dict.get?_eq_none.mpr hp]
  have hhidden {k : κ} : k ∈ (between sort prev cur).hidden ↔ k ∈ prev.keys ∧ k ∉ cur.keys :=
    mem_between_hidden hsort
  obtain ⟨d₃, h₃, hget₃⟩ := foldlM_hide codes.hideMissing
    (sort_filter_nodup hsort prev (· ∉ cur.keys)) fun k hk => by
      obtain ⟨hp, hc⟩ := hhidden.mp hk
      rw [Dict.mem_keys, hget₂, Dict.get?_eq_none.mpr hc]
      exact Dict.mem_keys.mp hp
  refine ⟨d₃, bind_eq_ok.mpr ⟨d₁, h₁, bind_eq_ok.mpr ⟨d₂, h₂, h₃⟩⟩, fun k => ?_⟩
  have hget₃ : d₃.get? k = if k ∈ (between sort prev cur).hidden then none else d₂.get? k := hget₃ k
  rw [hget₃, hget₂]
  by_cases hc : k ∈ cur.keys
  · obtain ⟨v, hv⟩ := Dict.mem_keys.mp hc
    simp [hhidden, hc, hv]
  · by_cases hp : k ∈ prev.keys
    · simp [hhidden, hc, hp, Dict.get?_eq_none.mpr hc]
    · simp [hhidden, hp, Dict.get?_eq_none.mpr hp]

end Between

end Delta

end LearningOrbit
