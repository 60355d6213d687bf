import Mathlib.Algebra.BigOperators.Group.List.Basic
import Mathlib.Algebra.GroupWithZero.Nat
import Mathlib.Data.List.Lex

/-!
# UTF-16 texts and their UTF-8 size

A text is a list of UTF-16 code units, which need not pair their surrogates. `charsOf` reads
it as characters, with the replacement character for a surrogate that stands alone.
-/

namespace LearningOrbit.Utf16

/-- A code unit. -/
abbrev CodeUnit := Fin 65536

instance neZeroUnits : NeZero (65536 : Nat) := ⟨by decide⟩

abbrev Text := List CodeUnit

/-- The unit of a character below the surrogates. -/
def unit (c : Char) : CodeUnit := Fin.ofNat 65536 c.toNat

def isHigh (u : CodeUnit) : Bool := 0xd800 ≤ u.val && u.val ≤ 0xdbff

def isLow (u : CodeUnit) : Bool := 0xdc00 ≤ u.val && u.val ≤ 0xdfff

def isSurrogate (u : CodeUnit) : Bool := isHigh u || isLow u

/-- Every surrogate has its partner. -/
def wellFormed : Text → Bool
  | [] => true
  | [u] => !isSurrogate u
  | u :: v :: rest =>
    if isHigh u then isLow v && wellFormed rest else !isLow u && wellFormed (v :: rest)

/-- The character of a unit that is no surrogate. -/
def single (u : CodeUnit) : Char :=
  if isSurrogate u then Char.ofNat 0xfffd else Char.ofNat u.val

/-- The character of a pair of surrogates. -/
def pair (high low : CodeUnit) : Char :=
  Char.ofNat (0x10000 + (high.val - 0xd800) * 0x400 + (low.val - 0xdc00))

def charsOf : Text → List Char
  | [] => []
  | [u] => [single u]
  | u :: v :: rest =>
    if isHigh u && isLow v then pair u v :: charsOf rest else single u :: charsOf (v :: rest)

/-- The units of a character. -/
def unitsOf (c : Char) : Text :=
  if c.toNat < 0x10000 then [Fin.ofNat 65536 c.toNat]
  else [Fin.ofNat 65536 (0xd800 + (c.toNat - 0x10000) / 0x400),
    Fin.ofNat 65536 (0xdc00 + (c.toNat - 0x10000) % 0x400)]

/-- The bytes of a text in UTF-8. -/
def utf8 (t : Text) : ByteArray := (String.ofList (charsOf t)).toByteArray

def byteLength (t : Text) : Nat := ((charsOf t).map Char.utf8Size).sum

/-- Read bytes that must be UTF-8. -/
def decode (bytes : ByteArray) : Option Text :=
  bytes.utf8Decode?.map fun chars => chars.toList.flatMap unitsOf

/-- What a unit adds to the size of a text, at least: half of its pair for a surrogate. -/
def weight (u : CodeUnit) : Nat :=
  if u.val < 0x80 then 1 else if u.val < 0x800 then 2 else if isSurrogate u then 2 else 3

def weigh (t : Text) : Nat := (t.map weight).sum

theorem weigh_append (s t : Text) : weigh (s ++ t) = weigh s + weigh t := by
  simp [weigh]

theorem weigh_cons (u : CodeUnit) (t : Text) : weigh (u :: t) = weight u + weigh t := by
  simp [weigh]

/-! ## Single characters -/

theorem toNat_ofNat {n : Nat} (h : n.isValidChar) : (Char.ofNat n).toNat = n := by
  unfold Char.ofNat
  rw [dif_pos h]
  rfl

theorem utf8Size_eq (c : Char) :
    c.utf8Size = if c.toNat < 0x80 then 1 else if c.toNat < 0x800 then 2
      else if c.toNat < 0x10000 then 3 else 4 := by
  have hle : ∀ n : UInt32, c.val ≤ n ↔ c.toNat ≤ n.toNat := fun n => UInt32.le_iff_toNat_le
  simp only [Char.utf8Size, hle, UInt32.toNat_ofNatLT, Nat.lt_succ_iff.symm]

section

variable {u v : CodeUnit}

theorem isHigh_iff : isHigh u = true ↔ 0xd800 ≤ u.val ∧ u.val ≤ 0xdbff := by
  simp [isHigh]

theorem isLow_iff : isLow u = true ↔ 0xdc00 ≤ u.val ∧ u.val ≤ 0xdfff := by
  simp [isLow]

theorem isSurrogate_eq_false : isSurrogate u = false ↔ u.val < 0xd800 ∨ 0xdfff < u.val := by
  simp [isSurrogate, isHigh, isLow]
  omega

theorem single_valid (h : isSurrogate u = false) : Nat.isValidChar u.val := by
  have hu := u.isLt
  rcases isSurrogate_eq_false.mp h with h | h
  · exact .inl h
  · exact .inr ⟨h, by omega⟩

theorem single_toNat (h : isSurrogate u = false) : (single u).toNat = u.val := by
  simp [single, h, toNat_ofNat (single_valid h)]

theorem unitsOf_single (h : isSurrogate u = false) : unitsOf (single u) = [u] := by
  have hu := u.isLt
  unfold unitsOf
  rw [single_toNat h, if_pos hu]
  congr 1
  exact Fin.ext (Nat.mod_eq_of_lt hu)

theorem pair_toNat (hu : isHigh u = true) (hv : isLow v = true) :
    (pair u v).toNat = 0x10000 + (u.val - 0xd800) * 0x400 + (v.val - 0xdc00) := by
  rw [isHigh_iff] at hu
  rw [isLow_iff] at hv
  exact toNat_ofNat (.inr ⟨by omega, by omega⟩)

theorem unitsOf_pair (hu : isHigh u = true) (hv : isLow v = true) : unitsOf (pair u v) = [u, v] := by
  have hpair := pair_toNat hu hv
  rw [isHigh_iff] at hu
  rw [isLow_iff] at hv
  unfold unitsOf
  rw [hpair, if_neg (by omega)]
  have hhigh : (Fin.ofNat 65536 (0xd800 + (0x10000 + (u.val - 0xd800) * 0x400 + (v.val - 0xdc00)
      - 0x10000) / 0x400)) = u := by
    apply Fin.ext
    rw [Fin.val_ofNat]
    omega
  have hlow : (Fin.ofNat 65536 (0xdc00 + (0x10000 + (u.val - 0xd800) * 0x400 + (v.val - 0xdc00)
      - 0x10000) % 0x400)) = v := by
    apply Fin.ext
    rw [Fin.val_ofNat]
    omega
  rw [hhigh, hlow]

theorem weight_surrogate (h : isSurrogate u = true) : weight u = 2 := by
  have hge : 0xd800 ≤ u.val := by
    by_contra hlt
    rw [isSurrogate_eq_false.mpr (.inl (by omega))] at h
    cases h
  unfold weight
  rw [if_neg (by omega), if_neg (by omega), if_pos h]

theorem utf8Size_single (u : CodeUnit) : weight u ≤ (single u).utf8Size ∧
    (isSurrogate u = false → (single u).utf8Size = weight u) := by
  have hu := u.isLt
  cases hs : isSurrogate u with
  | true =>
    have hsize : (single u).utf8Size = 3 := by
      simp only [single, hs, ↓reduceIte]
      decide
    refine ⟨?_, fun h => by cases h⟩
    rw [hsize, weight_surrogate hs]
    decide
  | false =>
    have hsize : (single u).utf8Size = weight u := by
      rw [utf8Size_eq, single_toNat hs]
      simp only [weight, hs, Bool.false_eq_true, ↓reduceIte, hu]
    exact ⟨Nat.le_of_eq hsize.symm, fun _ => hsize⟩

theorem utf8Size_pair (hu : isHigh u = true) (hv : isLow v = true) :
    (pair u v).utf8Size = weight u + weight v := by
  have hpair := pair_toNat hu hv
  have hhigh := isHigh_iff.mp hu
  have hlow := isLow_iff.mp hv
  rw [utf8Size_eq, hpair, if_neg (by omega), if_neg (by omega), if_neg (by omega),
    weight_surrogate (by simp [isSurrogate, hu]), weight_surrogate (by simp [isSurrogate, hv])]

end

/-! ## Texts -/

theorem flatMap_charsOf {t : Text} (h : wellFormed t = true) : (charsOf t).flatMap unitsOf = t := by
  fun_induction charsOf t with
  | case1 => rfl
  | case2 u =>
    have hs : isSurrogate u = false := by simpa [wellFormed] using h
    simp [unitsOf_single hs]
  | case3 u v rest hpair ih =>
    rw [Bool.and_eq_true] at hpair
    rw [wellFormed, if_pos hpair.1, Bool.and_eq_true] at h
    rw [List.flatMap_cons, ih h.2, unitsOf_pair hpair.1 hpair.2]
    rfl
  | case4 u v rest hpair ih =>
    by_cases hu : isHigh u = true
    · rw [wellFormed, if_pos hu, Bool.and_eq_true] at h
      simp [hu, h.1] at hpair
    · rw [wellFormed, if_neg hu, Bool.and_eq_true, Bool.not_eq_true'] at h
      have hs : isSurrogate u = false := by simp [isSurrogate, h.1, hu]
      rw [List.flatMap_cons, ih h.2, unitsOf_single hs]
      rfl

theorem weigh_le (t : Text) : weigh t ≤ byteLength t := by
  unfold byteLength
  fun_induction charsOf t with
  | case1 => exact Nat.le_refl 0
  | case2 u => simpa [weigh] using (utf8Size_single u).1
  | case3 u v rest hpair ih =>
    rw [Bool.and_eq_true] at hpair
    rw [List.map_cons, List.sum_cons, weigh_cons, weigh_cons, utf8Size_pair hpair.1 hpair.2]
    omega
  | case4 u v rest hpair ih =>
    have hle := (utf8Size_single u).1
    rw [List.map_cons, List.sum_cons, weigh_cons]
    omega

theorem byteLength_eq {t : Text} (h : wellFormed t = true) : byteLength t = weigh t := by
  unfold byteLength
  fun_induction charsOf t with
  | case1 => rfl
  | case2 u =>
    have hs : isSurrogate u = false := by simpa [wellFormed] using h
    simpa [weigh] using (utf8Size_single u).2 hs
  | case3 u v rest hpair ih =>
    rw [Bool.and_eq_true] at hpair
    rw [wellFormed, if_pos hpair.1, Bool.and_eq_true] at h
    rw [List.map_cons, List.sum_cons, weigh_cons, weigh_cons, utf8Size_pair hpair.1 hpair.2, ih h.2]
    omega
  | case4 u v rest hpair ih =>
    by_cases hu : isHigh u = true
    · rw [wellFormed, if_pos hu, Bool.and_eq_true] at h
      simp [hu, h.1] at hpair
    · rw [wellFormed, if_neg hu, Bool.and_eq_true, Bool.not_eq_true'] at h
      have hs : isSurrogate u = false := by simp [isSurrogate, h.1, hu]
      rw [List.map_cons, List.sum_cons, weigh_cons, ih h.2, (utf8Size_single u).2 hs]

theorem utf8_size (t : Text) : (utf8 t).size = byteLength t := by
  unfold utf8 byteLength
  rw [String.toByteArray_ofList]
  induction charsOf t with
  | nil => simp
  | cons c chars ih =>
    rw [List.utf8Encode_cons, ByteArray.size_append, ih, List.utf8Encode_singleton]
    simp

theorem decode_utf8 {t : Text} (h : wellFormed t = true) : decode (utf8 t) = some t := by
  unfold decode utf8
  rw [String.toByteArray_ofList, List.utf8Decode?_utf8Encode]
  simp [flatMap_charsOf h]

theorem wellFormed_append {s t : Text} (hs : wellFormed s = true) (ht : wellFormed t = true) :
    wellFormed (s ++ t) = true := by
  fun_induction wellFormed s with
  | case1 => exact ht
  | case2 u =>
    cases t with
    | nil => simpa [wellFormed] using hs
    | cons v t =>
      have hu : isSurrogate u = false := by simpa using hs
      unfold isSurrogate at hu
      rw [Bool.or_eq_false_iff] at hu
      simp only [List.singleton_append, wellFormed, hu.1, hu.2]
      simpa using ht
  | case3 u v rest hu ih =>
    rw [Bool.and_eq_true] at hs
    simp [wellFormed, hu, hs.1, ih hs.2]
  | case4 u v rest hu ih =>
    rw [Bool.and_eq_true] at hs
    have hrest := ih hs.2
    simp only [List.cons_append] at hrest ⊢
    simp [wellFormed, hu, hs.1, hrest]

theorem wellFormed_cons {u : CodeUnit} (hu : isSurrogate u = false) (t : Text) :
    wellFormed (u :: t) = wellFormed t := by
  cases t with
  | nil => simp [wellFormed, hu]
  | cons v t =>
    unfold isSurrogate at hu
    rw [Bool.or_eq_false_iff] at hu
    simp [wellFormed, hu.1, hu.2]

/-- No unit of the text is past ASCII. -/
def Ascii (t : Text) : Prop := ∀ u ∈ t, u.val < 0x80

instance decidableAscii (t : Text) : Decidable (Ascii t) :=
  List.decidableBAll (fun u : CodeUnit => u.val < 0x80) t

theorem wellFormed_of_ascii {t : Text} (h : Ascii t) : wellFormed t = true := by
  induction t with
  | nil => rfl
  | cons u t ih =>
    have hu := h u List.mem_cons_self
    rw [wellFormed_cons (isSurrogate_eq_false.mpr (.inl (by omega)))]
    exact ih fun v hv => h v (List.mem_cons_of_mem u hv)

theorem weigh_of_ascii {t : Text} (h : Ascii t) : weigh t = t.length := by
  induction t with
  | nil => rfl
  | cons u t ih =>
    have hu := h u List.mem_cons_self
    rw [weigh_cons, ih fun v hv => h v (List.mem_cons_of_mem u hv), weight, if_pos hu,
      List.length_cons]
    omega

theorem charsOf_append {s : Text} (hs : wellFormed s = true) (t : Text) :
    charsOf (s ++ t) = charsOf s ++ charsOf t := by
  fun_induction charsOf s with
  | case1 => rfl
  | case2 u =>
    have hu : isHigh u = false := by
      have hsur : isSurrogate u = false := by simpa [wellFormed] using hs
      unfold isSurrogate at hsur
      exact (Bool.or_eq_false_iff.mp hsur).1
    cases t with
    | nil => rfl
    | cons v t => simp [charsOf, hu]
  | case3 u v rest hpair ih =>
    have huv := (Bool.and_eq_true _ _).mp hpair
    rw [wellFormed, if_pos huv.1, Bool.and_eq_true] at hs
    rw [List.cons_append, List.cons_append, charsOf, if_pos hpair, ih hs.2, List.cons_append]
  | case4 u v rest hpair ih =>
    have hrest : wellFormed (v :: rest) = true := by
      by_cases hu : isHigh u = true
      · rw [wellFormed, if_pos hu, Bool.and_eq_true] at hs
        simp [hu, hs.1] at hpair
      · rw [wellFormed, if_neg hu, Bool.and_eq_true] at hs
        exact hs.2
    rw [List.cons_append, List.cons_append, charsOf, if_neg hpair, ← List.cons_append, ih hrest,
      List.cons_append]

theorem charsOf_cons {u : CodeUnit} (hu : isSurrogate u = false) (t : Text) :
    charsOf (u :: t) = single u :: charsOf t :=
  charsOf_append (s := [u]) (by simp [wellFormed, hu]) t

theorem isValidChar_iff (c : Char) :
    c.toNat < 0xd800 ∨ 0xdfff < c.toNat ∧ c.toNat < 0x110000 := c.valid

/-- The units of a character spell it. -/
theorem charsOf_unitsOf (c : Char) (t : Text) : charsOf (unitsOf c ++ t) = c :: charsOf t := by
  have hvalid := isValidChar_iff c
  unfold unitsOf
  split_ifs with hsmall
  · have hval : (Fin.ofNat 65536 c.toNat).val = c.toNat := Nat.mod_eq_of_lt hsmall
    have hs : isSurrogate (Fin.ofNat 65536 c.toNat) = false :=
      isSurrogate_eq_false.mpr (by omega)
    have hsingle : single (Fin.ofNat 65536 c.toNat) = c := by
      apply Char.toNat_inj.mp
      rw [single_toNat hs, hval]
    rw [List.singleton_append, charsOf_cons hs, hsingle]
  · have hhigh : (Fin.ofNat 65536 (0xd800 + (c.toNat - 0x10000) / 0x400)).val =
        0xd800 + (c.toNat - 0x10000) / 0x400 := Nat.mod_eq_of_lt (by omega)
    have hlow : (Fin.ofNat 65536 (0xdc00 + (c.toNat - 0x10000) % 0x400)).val =
        0xdc00 + (c.toNat - 0x10000) % 0x400 := Nat.mod_eq_of_lt (by omega)
    have hu : isHigh (Fin.ofNat 65536 (0xd800 + (c.toNat - 0x10000) / 0x400)) = true :=
      isHigh_iff.mpr (by omega)
    have hv : isLow (Fin.ofNat 65536 (0xdc00 + (c.toNat - 0x10000) % 0x400)) = true :=
      isLow_iff.mpr (by omega)
    have hpair := pair_toNat hu hv
    rw [List.cons_append, List.cons_append, List.nil_append, charsOf, hu, hv]
    simp only [Bool.and_self, ↓reduceIte, List.cons.injEq, and_true]
    apply Char.toNat_inj.mp
    rw [hpair, hhigh, hlow]
    omega

theorem byteLength_decode {bytes : ByteArray} {t : Text} (h : decode bytes = some t) :
    byteLength t = bytes.size := by
  obtain ⟨chars, hchars, rfl⟩ := Option.map_eq_some_iff.mp h
  have hspelt : ∀ chars : List Char, charsOf (chars.flatMap unitsOf) = chars := by
    intro chars
    induction chars with
    | nil => rfl
    | cons c chars ih => rw [List.flatMap_cons, charsOf_unitsOf, ih]
  have hencode := ByteArray.utf8Encode_get_utf8Decode? (b := bytes) (h := by rw [hchars]; rfl)
  simp only [hchars, Option.get_some] at hencode
  rw [← utf8_size, utf8, hspelt, String.toByteArray_ofList, hencode]

theorem single_unit {c : Char} (h : c.toNat < 0x80) : single (unit c) = c := by
  have hval : (unit c).val = c.toNat := Nat.mod_eq_of_lt (by omega)
  have hs : isSurrogate (unit c) = false := isSurrogate_eq_false.mpr (.inl (by omega))
  simp [single, hs, hval]

theorem charsOf_unit {chars : List Char} (h : ∀ c ∈ chars, c.toNat < 0x80) :
    charsOf (chars.map unit) = chars := by
  induction chars with
  | nil => rfl
  | cons c chars ih =>
    have hc := h c List.mem_cons_self
    have hval : (unit c).val = c.toNat := Nat.mod_eq_of_lt (by omega)
    rw [List.map_cons, charsOf_cons (isSurrogate_eq_false.mpr (.inl (by omega))), single_unit hc,
      ih fun d hd => h d (List.mem_cons_of_mem c hd)]

theorem byteLength_append {s : Text} (hs : wellFormed s = true) (t : Text) :
    byteLength (s ++ t) = byteLength s + byteLength t := by
  unfold byteLength
  rw [charsOf_append hs, List.map_append, List.sum_append]

theorem length_charsOf (t : Text) : (charsOf t).length ≤ t.length := by
  fun_induction charsOf t with
  | case1 => exact Nat.le_refl 0
  | case2 u => exact Nat.le_refl 1
  | case3 u v rest hpair ih =>
    simp only [List.length_cons]
    omega
  | case4 u v rest hpair ih =>
    simp only [List.length_cons] at ih ⊢
    omega

end LearningOrbit.Utf16
