import LearningOrbit.Canonical.Encode

/-!
# The worker's canonical encoder

`canonical_json` of the worker counts a string in characters and orders keys by their UTF-16
bytes, where the server's encoder counts and orders code units. The bytes agree; the length
limit does not. A Python string holds the characters its units spell, a pair being one.
-/

namespace LearningOrbit.Canonical.Worker

open LearningOrbit.Utf16 Json

/-- `len` counts characters, and the strict encoding refuses a lone surrogate. -/
def stringOk (s : Text) : Bool := (charsOf s).length ≤ maxStringLength && wellFormed s

def validate : Json → Nat → Nat → Option Nat := Canonical.validate stringOk

/-- How `json.dumps` writes a character of a string. -/
def escapeChar (c : Char) : List Char :=
  if c = '\x22' then ['\x5c', '\x22']
  else if c = '\x5c' then ['\x5c', '\x5c']
  else if c = '\x08' then ['\x5c', 'b']
  else if c = '\x09' then ['\x5c', 't']
  else if c = '\x0a' then ['\x5c', 'n']
  else if c = '\x0c' then ['\x5c', 'f']
  else if c = '\x0d' then ['\x5c', 'r']
  else if c.toNat < 32 then
    ['\x5c', 'u', '0', '0', Nat.digitChar (c.toNat / 16), Nat.digitChar (c.toNat % 16)]
  else [c]

def dumpsString (s : Text) : List Char := '\x22' :: ((charsOf s).flatMap escapeChar ++ ['\x22'])

def dumpsBool : Bool → List Char
  | true => ['t', 'r', 'u', 'e']
  | false => ['f', 'a', 'l', 's', 'e']

def dumpsInt : Int → List Char
  | .ofNat n => Nat.toDigits 10 n
  | .negSucc n => '-' :: Nat.toDigits 10 (n + 1)

/-- The bytes of a key in big-endian UTF-16. -/
def utf16be (key : Text) : List Nat := key.flatMap fun u => [u.val / 256, u.val % 256]

def sortedFields {α : Type} (fields : List (Text × α)) : List (Text × α) :=
  fields.insertionSort fun a b => utf16be a.1 ≤ utf16be b.1

def dumpsEntry (field : Text × List Char) : List Char := dumpsString field.1 ++ ':' :: field.2

mutual

def serialize : Json → List Char
  | .null => ['n', 'u', 'l', 'l']
  | .bool b => dumpsBool b
  | .num n => dumpsInt n
  | .str s => dumpsString s
  | .arr items => '[' :: (join ',' (serializeItems items) ++ [']'])
  | .obj fields => '{' :: (join ',' ((sortedFields (serializeFields fields)).map dumpsEntry) ++ ['}'])

def serializeItems : List Json → List (List Char)
  | [] => []
  | v :: items => serialize v :: serializeItems items

def serializeFields : List (Text × Json) → List (Text × List Char)
  | [] => []
  | (key, v) :: fields => (key, serialize v) :: serializeFields fields

end

def maxBytes : Nat := 1048576

def canonicalJson (v : Json) : Option ByteArray :=
  (validate v 0 0).bind fun _ =>
    let result := (String.ofList (serialize v)).toByteArray
    if maxBytes < result.size then none else some result

/-! ## The order of keys -/

theorem utf16be_cons (u : CodeUnit) (s : Text) :
    utf16be (u :: s) = u.val / 256 :: u.val % 256 :: utf16be s := rfl

/-- Bytes compare as the units they spell. -/
theorem utf16be_lt {s t : Text} : utf16be s < utf16be t ↔ s < t := by
  induction s generalizing t with
  | nil =>
    cases t with
    | nil => simp [utf16be]
    | cons v t => simp [utf16be]
  | cons u s ih =>
    cases t with
    | nil => simp [utf16be]
    | cons v t =>
      rw [utf16be_cons, utf16be_cons, List.cons_lt_cons_iff, List.cons_lt_cons_iff,
        List.cons_lt_cons_iff, ih, Fin.lt_def, Fin.ext_iff]
      grind

theorem sortedFields_eq {α : Type} (fields : List (Text × α)) :
    sortedFields fields = byKey fields := by
  have hle : ∀ s t : Text, utf16be s ≤ utf16be t ↔ s ≤ t := by
    intro s t
    rw [← not_lt, ← not_lt, utf16be_lt]
  unfold sortedFields byKey
  congr! 4
  exact hle _ _

/-! ## The same text -/

theorem toNat_single {u : CodeUnit} (h : u.val < 0x80) : (single u).toNat = u.val :=
  single_toNat (isSurrogate_eq_false.mpr (.inl (by omega)))

theorem escapeChar_of_le {c : Char} (h : 0x80 ≤ c.toNat) : escapeChar c = [c] := by
  have hne : ∀ d : Char, d.toNat < 0x80 → c ≠ d := by
    rintro d hd rfl
    omega
  unfold escapeChar
  rw [if_neg (hne _ (by decide)), if_neg (hne _ (by decide)), if_neg (hne _ (by decide)),
    if_neg (hne _ (by decide)), if_neg (hne _ (by decide)), if_neg (hne _ (by decide)),
    if_neg (hne _ (by decide)), if_neg (by omega)]

/-- Both escape tables over ASCII. -/
theorem escape_tables : ∀ n < 0x80,
    escape (Fin.ofNat 65536 n) = (escapeChar (single (Fin.ofNat 65536 n))).map unit ∧
      (escapeChar (single (Fin.ofNat 65536 n))).all (·.toNat < 0x80) = true := by
  decide +kernel

theorem charsOf_escape {u : CodeUnit} (hu : isSurrogate u = false) :
    charsOf (escape u) = escapeChar (single u) := by
  by_cases hlt : u.val < 0x80
  · have huv : Fin.ofNat 65536 u.val = u := Fin.ext (Nat.mod_eq_of_lt u.isLt)
    obtain ⟨htext, hascii⟩ := huv ▸ escape_tables u.val hlt
    rw [htext, charsOf_unit fun c hc => of_decide_eq_true (List.all_eq_true.mp hascii c hc)]
  · have hle : 0x80 ≤ (single u).toNat := by
      rw [single_toNat hu]
      omega
    rw [escape_of_le (by omega), escapeChar_of_le hle]
    rfl

theorem charsOf_escaped {s : Text} (h : wellFormed s = true) :
    charsOf (s.flatMap escape) = (charsOf s).flatMap escapeChar := by
  fun_induction charsOf s with
  | case1 => rfl
  | case2 u =>
    have hs : isSurrogate u = false := by simpa [wellFormed] using h
    simp [charsOf_escape hs]
  | case3 u v rest hpair ih =>
    have huv := (Bool.and_eq_true _ _).mp hpair
    rw [wellFormed, if_pos huv.1, Bool.and_eq_true] at h
    have hhigh := isHigh_iff.mp huv.1
    have hlow := isLow_iff.mp huv.2
    have hle : 0x80 ≤ (pair u v).toNat := by
      rw [pair_toNat huv.1 huv.2]
      omega
    rw [List.flatMap_cons, List.flatMap_cons, escape_of_le (by omega), escape_of_le (by omega),
      List.flatMap_cons, escapeChar_of_le hle, ← ih h.2, List.singleton_append,
      List.singleton_append, charsOf, if_pos hpair, List.singleton_append]
  | case4 u v rest hpair ih =>
    by_cases hu : isHigh u = true
    · rw [wellFormed, if_pos hu, Bool.and_eq_true] at h
      simp [hu, h.1] at hpair
    · rw [wellFormed, if_neg hu, Bool.and_eq_true, Bool.not_eq_true'] at h
      have hs : isSurrogate u = false := by simp [isSurrogate, h.1, hu]
      have hone : wellFormed (escape u) = true := by
        have := wellFormed_escaped (s := [u]) (by simp [wellFormed, hs])
        simpa using this
      rw [List.flatMap_cons, charsOf_append hone, charsOf_escape hs, ih h.2, List.flatMap_cons]

theorem charsOf_encodeString {s : Text} (h : wellFormed s = true) :
    charsOf (encodeString s) = dumpsString s := by
  unfold encodeString dumpsString
  rw [charsOf_cons (by decide), charsOf_append (wellFormed_escaped h), charsOf_escaped h]
  congr

theorem charsOf_join {texts : List Text} (h : ∀ t ∈ texts, wellFormed t = true) :
    charsOf (join (unit ',') texts) = join ',' (texts.map charsOf) := by
  fun_induction join (unit ',') texts with
  | case1 => rfl
  | case2 text => rfl
  | case3 text next texts ih =>
    rw [charsOf_append (h text List.mem_cons_self), charsOf_cons (by decide),
      single_unit (by decide), ih fun t ht => h t (List.mem_cons_of_mem text ht)]
    rfl

theorem charsOf_entry {field : Text × Text} (h : wellFormed field.1 = true) :
    charsOf (entry field) = dumpsEntry (field.1, charsOf field.2) := by
  rw [entry, charsOf_append (wellFormed_encodeString h), charsOf_encodeString h,
    charsOf_cons (by decide), single_unit (by decide)]
  rfl

/-- Two brackets around a text. -/
theorem charsOf_within {c d : Char} (hc : c.toNat < 0x80) (hd : d.toNat < 0x80) {t : Text}
    (ht : wellFormed t = true) :
    charsOf (unit c :: (t ++ [unit d])) = c :: (charsOf t ++ [d]) := by
  have hone : charsOf ([d].map unit) = [d] := charsOf_unit (by simpa using hd)
  rw [List.map_singleton] at hone
  have hval : (unit c).val = c.toNat := Nat.mod_eq_of_lt (by omega)
  rw [charsOf_cons (isSurrogate_eq_false.mpr (.inl (by omega))), single_unit hc,
    charsOf_append ht, hone]

theorem charsOf_numberText (n : Int) : charsOf (numberText n) = dumpsInt n := by
  have hdigit : ∀ m, ∀ c ∈ Nat.toDigits 10 m, c.toNat < 0x80 := by
    intro m c hc
    have := unit_digit (Nat.isDigit_of_mem_toDigits (by decide) (by decide) hc)
    omega
  cases n with
  | ofNat n => exact charsOf_unit (hdigit n)
  | negSucc n =>
    rw [numberText, charsOf_cons (by decide), single_unit (by decide), charsOf_unit (hdigit _)]
    rfl

theorem serializeItems_eq (items : List Json) : serializeItems items = items.map serialize := by
  induction items with
  | nil => rfl
  | cons v items ih => rw [serializeItems, ih, List.map_cons]

theorem serializeFields_eq (fields : List (Text × Json)) :
    serializeFields fields = fields.map fun field => (field.1, serialize field.2) := by
  induction fields with
  | nil => rfl
  | cons field fields ih => rw [serializeFields, ih, List.map_cons]

theorem charsOf_serialize {v : Json} (h : ∀ s ∈ v.texts, wellFormed s = true) :
    charsOf (Canonical.serialize v) = serialize v := by
  induction v using Json.induct with
  | null => decide
  | bool b => cases b <;> decide
  | num n => exact charsOf_numberText n
  | str s => exact charsOf_encodeString (h s (by simp [texts]))
  | arr items ih =>
    have hitems : ∀ v ∈ items, ∀ s ∈ v.texts, wellFormed s = true := fun v hv s hs =>
      h s (by simpa [texts, mem_textsOfItems] using ⟨v, hv, hs⟩)
    have htexts : ∀ t ∈ items.map Canonical.serialize, wellFormed t = true := by
      intro t ht
      obtain ⟨v, hv, rfl⟩ := List.mem_map.mp ht
      exact wellFormed_serialize (hitems v hv)
    rw [Canonical.serialize, serialize, Canonical.serializeItems_eq, serializeItems_eq,
      charsOf_within (by decide) (by decide) (wellFormed_join htexts), charsOf_join htexts,
      List.map_map]
    congr 3
    exact List.map_congr_left fun v hv => ih v hv (hitems v hv)
  | obj fields ih =>
    have hfields : ∀ field ∈ fields, wellFormed field.1 = true ∧
        ∀ s ∈ field.2.texts, wellFormed s = true := by
      intro field hfield
      have hmem : ∀ s, s = field.1 ∨ s ∈ field.2.texts → wellFormed s = true := fun s hs =>
        h s (by rw [texts, mem_textsOfFields]; exact ⟨field, hfield, hs⟩)
      exact ⟨hmem _ (.inl rfl), fun s hs => hmem s (.inr hs)⟩
    have hentries : ∀ t ∈ (byKey fields).map fun field =>
        entry (field.1, Canonical.serialize field.2), wellFormed t = true := by
      intro t ht
      obtain ⟨field, hfield, rfl⟩ := List.mem_map.mp ht
      have hok := hfields field ((byKey_perm fields).mem_iff.mp hfield)
      exact wellFormed_entry hok.1 (wellFormed_serialize hok.2)
    rw [Canonical.serialize, serialize, Canonical.serializeFields_eq, serializeFields_eq,
      sortedFields_eq, byKey_map, byKey_map, List.map_map, List.map_map]
    simp only [Function.comp_def]
    rw [charsOf_within (by decide) (by decide) (wellFormed_join hentries), charsOf_join hentries,
      List.map_map]
    congr 3
    apply List.map_congr_left
    intro field hfield
    have hmem := (byKey_perm fields).mem_iff.mp hfield
    have hok := hfields field hmem
    rw [Function.comp_apply, charsOf_entry hok.1, ih field hmem hok.2]

theorem utf8_serialize {v : Json} (h : ∀ s ∈ v.texts, wellFormed s = true) :
    utf8 (Canonical.serialize v) = (String.ofList (serialize v)).toByteArray := by
  rw [utf8, charsOf_serialize h]

theorem canonicalJson_eq_some {v : Json} {bytes : ByteArray} :
    canonicalJson v = some bytes ↔
      Accepted stringOk v ∧ bytes = utf8 (Canonical.serialize v) := by
  simp only [canonicalJson, validate, Option.bind_eq_some_iff, validate_iff v _ _ _, Accepted]
  have hwell : Sound stringOk 0 v → ∀ s ∈ v.texts, wellFormed s = true := fun hsound s hs =>
    ((Bool.and_eq_true _ _).mp (hsound.2.1 s hs)).2
  constructor
  · rintro ⟨m, ⟨hsound, rfl, hm⟩, hbytes⟩
    have htexts := hwell hsound
    rw [← utf8_serialize htexts, utf8_size, byteLength_serialize htexts] at hbytes
    by_cases hlimit : maxBytes < size v
    · rw [if_pos hlimit] at hbytes
      cases hbytes
    · rw [if_neg hlimit, Option.some.injEq] at hbytes
      exact ⟨⟨hsound, by omega, Nat.le_of_not_lt hlimit⟩, hbytes.symm⟩
  · rintro ⟨⟨hsound, hnodes, hsize⟩, rfl⟩
    have htexts := hwell hsound
    refine ⟨_, ⟨hsound, rfl, by omega⟩, ?_⟩
    rw [← utf8_serialize htexts, utf8_size, byteLength_serialize htexts,
      if_neg (show ¬maxBytes < size v from Nat.not_lt.mpr hsize)]

/-! ## Where the encoders part -/

/-- The server's limits are the worker's, and one on the units of each string and key. -/
theorem accepted_iff {v : Json} : Accepted assertWellFormedString v ↔
    Accepted stringOk v ∧ ∀ s ∈ v.texts, s.length ≤ maxStringLength := by
  have hstring : ∀ s, assertWellFormedString s = true ↔
      stringOk s = true ∧ s.length ≤ maxStringLength := by
    intro s
    have hle := length_charsOf s
    simp only [assertWellFormedString, stringOk, Bool.and_eq_true, decide_eq_true_eq]
    constructor
    · rintro ⟨hlength, hwell⟩
      exact ⟨⟨Nat.le_trans hle hlength, hwell⟩, hlength⟩
    · rintro ⟨⟨-, hwell⟩, hlength⟩
      exact ⟨hlength, hwell⟩
  simp only [Accepted, Sound, hstring, forall_and]
  tauto

/-- The encoders answer alike, with the same bytes or a refusal by both, unless the worker
accepts a value with a string or a key of more units than the server allows. -/
theorem encoders_agree_iff (v : Json) : Canonical.canonicalJson v = canonicalJson v ↔
    (Accepted stringOk v → ∀ s ∈ v.texts, s.length ≤ maxStringLength) := by
  constructor
  · intro hagree haccepted
    have hworker := canonicalJson_eq_some.mpr ⟨haccepted, rfl⟩
    rw [← hagree, Canonical.canonicalJson_eq_some, accepted_iff] at hworker
    exact hworker.1.2
  · intro hlengths
    apply Option.ext
    intro bytes
    rw [Canonical.canonicalJson_eq_some, canonicalJson_eq_some, accepted_iff]
    constructor
    · rintro ⟨⟨haccepted, -⟩, hbytes⟩
      exact ⟨haccepted, hbytes⟩
    · rintro ⟨haccepted, hbytes⟩
      exact ⟨⟨haccepted, hlengths haccepted⟩, hbytes⟩

/-- A character outside the basic plane, some times over. -/
def faces (n : Nat) : Text := (List.replicate n [0xd83d, 0xde00]).flatten

theorem faces_spell (n : Nat) : (faces n).length = 2 * n ∧ wellFormed (faces n) = true ∧
    (charsOf (faces n)).length = n ∧ (faces n).flatMap escape = faces n ∧ weigh (faces n) = 4 * n := by
  induction n with
  | zero => decide
  | succ n ih =>
    obtain ⟨hlength, hwell, hchars, hescape, hweigh⟩ := ih
    have hsucc : faces (n + 1) = [0xd83d, 0xde00] ++ faces n := rfl
    have hone : wellFormed [0xd83d, 0xde00] = true := by decide
    rw [hsucc]
    refine ⟨?_, wellFormed_append hone hwell, ?_, ?_, ?_⟩
    · rw [List.length_append, hlength, List.length_cons, List.length_singleton]
      omega
    · rw [charsOf_append hone, List.length_append, hchars]
      exact Nat.add_comm 1 n
    · rw [List.flatMap_append, hescape]
      congr
    · rw [weigh_append, hweigh, show weigh [0xd83d, 0xde00] = 4 by decide]
      omega

/-- 8193 of them are within the worker's limit and past the server's. -/
theorem encoders_disagree : Canonical.canonicalJson (.str (faces 8193)) = none ∧
    canonicalJson (.str (faces 8193)) = some (utf8 (Canonical.serialize (.str (faces 8193)))) := by
  obtain ⟨hlength, hwell, hchars, hescape, hweigh⟩ := faces_spell 8193
  have haccepted : Accepted stringOk (.str (faces 8193)) := by
    refine ⟨⟨by decide, ?_, by simp [numbers]⟩, by decide, ?_⟩
    · simp [texts, stringOk, hwell, hchars, maxStringLength]
    · rw [size, encodeString, hescape, weigh_within (by decide) (by decide), hweigh]
      decide
  refine ⟨?_, canonicalJson_eq_some.mpr ⟨haccepted, rfl⟩⟩
  rw [Option.eq_none_iff_forall_ne_some]
  intro bytes hbytes
  have hserver := (accepted_iff.mp (Canonical.canonicalJson_eq_some.mp hbytes).1).2
  have := hserver (faces 8193) (by simp [texts])
  rw [hlength] at this
  exact absurd this (by decide)

end LearningOrbit.Canonical.Worker
