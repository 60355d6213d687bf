import LearningOrbit.Canonical.Json

/-!
# The server's canonical encoder

`canonicalJson` walks the value once to check it, once more to bound the bytes it will take, and
then writes it. The checks come to one condition on the value, `Accepted`.
-/

namespace LearningOrbit.Canonical

open LearningOrbit.Utf16 Json

def maxInputBytes : Nat := 1048576

def maxOutputBytes : Nat := 1048576

def maxDepth : Nat := 64

def maxNodes : Nat := 10000

def maxStringLength : Nat := 16384

def isSafeInteger (n : Int) : Bool := -(2 ^ 53 - 1) ≤ n && n ≤ 2 ^ 53 - 1

mutual

/-- The walk an encoder makes before it writes: `stringOk` is what it asks of a string or a
key, and `nodes` counts the values it has met. -/
def validate (stringOk : Text → Bool) (v : Json) (depth nodes : Nat) : Option Nat :=
  if maxDepth < depth ∨ maxNodes < nodes + 1 then none
  else match v with
    | .null => some (nodes + 1)
    | .bool _ => some (nodes + 1)
    | .num n => if isSafeInteger n then some (nodes + 1) else none
    | .str s => if stringOk s then some (nodes + 1) else none
    | .arr items => validateItems stringOk items (depth + 1) (nodes + 1)
    | .obj fields => validateFields stringOk fields (depth + 1) (nodes + 1)

def validateItems (stringOk : Text → Bool) (items : List Json) (depth nodes : Nat) : Option Nat :=
  match items with
  | [] => some nodes
  | v :: items => (validate stringOk v depth nodes).bind (validateItems stringOk items depth)

def validateFields (stringOk : Text → Bool) (fields : List (Text × Json)) (depth nodes : Nat) :
    Option Nat :=
  match fields with
  | [] => some nodes
  | (key, v) :: fields =>
    if stringOk key then
      (validate stringOk v depth nodes).bind (validateFields stringOk fields depth)
    else none

end

def assertWellFormedString (s : Text) : Bool := s.length ≤ maxStringLength && wellFormed s

def assertCanonicalValue : Json → Nat → Nat → Option Nat := validate assertWellFormedString

def quote : CodeUnit := 0x22

def backslash : CodeUnit := 0x5c

/-- How `JSON.stringify` writes a unit of a well-formed string. -/
def escape (u : CodeUnit) : Text :=
  if u = quote then [backslash, quote]
  else if u = backslash then [backslash, backslash]
  else if u = 8 then [backslash, unit 'b']
  else if u = 9 then [backslash, unit 't']
  else if u = 10 then [backslash, unit 'n']
  else if u = 12 then [backslash, unit 'f']
  else if u = 13 then [backslash, unit 'r']
  else if u < 32 then
    [backslash, unit 'u', unit '0', unit '0', unit (Nat.digitChar (u.val / 16)),
      unit (Nat.digitChar (u.val % 16))]
  else [u]

def encodeString (s : Text) : Text := quote :: (s.flatMap escape ++ [quote])

def nullText : Text := [unit 'n', unit 'u', unit 'l', unit 'l']

def boolText : Bool → Text
  | true => [unit 't', unit 'r', unit 'u', unit 'e']
  | false => [unit 'f', unit 'a', unit 'l', unit 's', unit 'e']

def numberText : Int → Text
  | .ofNat n => (Nat.toDigits 10 n).map unit
  | .negSucc n => unit '-' :: (Nat.toDigits 10 (n + 1)).map unit

/-- Texts with a comma between them. -/
def join {α : Type} (comma : α) : List (List α) → List α
  | [] => []
  | [text] => text
  | text :: next :: texts => text ++ comma :: join comma (next :: texts)

/-- A field as an object writes it. -/
def entry (field : Text × Text) : Text := encodeString field.1 ++ unit ':' :: field.2

mutual

def serialize : Json → Text
  | .null => nullText
  | .bool b => boolText b
  | .num n => numberText n
  | .str s => encodeString s
  | .arr items => unit '[' :: (join (unit ',') (serializeItems items) ++ [unit ']'])
  -- sorting the written fields by key is writing the fields of the sorted keys
  | .obj fields =>
    unit '{' :: (join (unit ',') ((byKey (serializeFields fields)).map entry) ++ [unit '}'])

def serializeItems : List Json → List Text
  | [] => []
  | v :: items => serialize v :: serializeItems items

def serializeFields : List (Text × Json) → List (Text × Text)
  | [] => []
  | (key, v) :: fields => (key, serialize v) :: serializeFields fields

end

/-- `add` of `assertOutputWithinLimit`. -/
def add (text : Text) (total : Nat) : Option Nat :=
  if maxOutputBytes < total + byteLength text then none else some (total + byteLength text)

/-- Visits one after the other, with a comma before each but the first. -/
def visitAll : List (Nat → Option Nat) → Nat → Option Nat
  | [], total => some total
  | [visit], total => visit total
  | visit :: next :: visits, total =>
    (visit total).bind fun total => (add [unit ','] total).bind (visitAll (next :: visits))

def visitEntry (field : Text × (Nat → Option Nat)) (total : Nat) : Option Nat :=
  (add (encodeString field.1) total).bind fun total => (add [unit ':'] total).bind field.2

mutual

/-- `visit` of `assertOutputWithinLimit`. -/
def visit : Json → Nat → Option Nat
  | .null, total => add nullText total
  | .bool b, total => add (boolText b) total
  | .num n, total => add (numberText n) total
  | .str s, total => add (encodeString s) total
  | .arr items, total =>
    (add [unit '['] total).bind fun total =>
      (visitAll (visitItems items) total).bind (add [unit ']'])
  | .obj fields, total =>
    (add [unit '{'] total).bind fun total =>
      (visitAll ((byKey (visitFields fields)).map visitEntry) total).bind (add [unit '}'])

def visitItems : List Json → List (Nat → Option Nat)
  | [] => []
  | v :: items => visit v :: visitItems items

def visitFields : List (Text × Json) → List (Text × (Nat → Option Nat))
  | [] => []
  | (key, v) :: fields => (key, visit v) :: visitFields fields

end

def assertOutputWithinLimit (v : Json) : Option Nat := visit v 0

def canonicalJson (v : Json) : Option ByteArray :=
  (assertCanonicalValue v 0 0).bind fun _ =>
    (assertOutputWithinLimit v).map fun _ => utf8 (serialize v)

/-! ## What the walk asks -/

section

variable {stringOk : Text → Bool} {items : List Json} {fields : List (Text × Json)} {v : Json}
  {depth nodes m : Nat}

/-- What the walk asks of a value at a depth, the count of its values apart. -/
def Sound (stringOk : Text → Bool) (depth : Nat) (v : Json) : Prop :=
  depth + v.height ≤ maxDepth ∧ (∀ s ∈ v.texts, stringOk s = true) ∧
    ∀ n ∈ v.numbers, isSafeInteger n = true

theorem sound_arr : Sound stringOk depth (.arr items) ↔
    depth ≤ maxDepth ∧ ∀ v ∈ items, Sound stringOk (depth + 1) v := by
  have hheight : depth + heightOfItems items ≤ maxDepth ↔
      depth ≤ maxDepth ∧ ∀ v ∈ items, depth + 1 + v.height ≤ maxDepth := by
    by_cases hd : depth ≤ maxDepth
    · have hle : depth + heightOfItems items ≤ maxDepth ↔
          heightOfItems items ≤ maxDepth - depth := by omega
      rw [hle, heightOfItems_le]
      refine ⟨fun h => ⟨hd, fun v hv => ?_⟩, fun h v hv => ?_⟩
      · have := h v hv
        omega
      · have := h.2 v hv
        omega
    · simp only [hd, false_and, iff_false]
      omega
  simp only [Sound, height, texts, numbers, hheight, mem_textsOfItems, mem_numbersOfItems]
  grind

theorem sound_obj : Sound stringOk depth (.obj fields) ↔
    depth ≤ maxDepth ∧ ∀ field ∈ fields,
      stringOk field.1 = true ∧ Sound stringOk (depth + 1) field.2 := by
  have hheight : depth + heightOfFields fields ≤ maxDepth ↔
      depth ≤ maxDepth ∧ ∀ field ∈ fields, depth + 1 + field.2.height ≤ maxDepth := by
    by_cases hd : depth ≤ maxDepth
    · have hle : depth + heightOfFields fields ≤ maxDepth ↔
          heightOfFields fields ≤ maxDepth - depth := by omega
      rw [hle, heightOfFields_le]
      refine ⟨fun h => ⟨hd, fun field hfield => ?_⟩, fun h field hfield => ?_⟩
      · have := h field hfield
        omega
      · have := h.2 field hfield
        omega
    · simp only [hd, false_and, iff_false]
      omega
  simp only [Sound, height, texts, numbers, hheight, mem_textsOfFields, mem_numbersOfFields]
  constructor
  · rintro ⟨⟨hd, hall⟩, hkeys, hnumbers⟩
    refine ⟨hd, fun field hfield => ⟨hkeys _ ⟨field, hfield, .inl rfl⟩, hall field hfield, ?_, ?_⟩⟩
    · exact fun s hs => hkeys s ⟨field, hfield, .inr hs⟩
    · exact fun n hn => hnumbers n ⟨field, hfield, hn⟩
  · rintro ⟨hd, hall⟩
    refine ⟨⟨hd, fun field hfield => (hall field hfield).2.1⟩, ?_, ?_⟩
    · rintro s ⟨field, hfield, rfl | hs⟩
      · exact (hall field hfield).1
      · exact (hall field hfield).2.2.1 s hs
    · rintro n ⟨field, hfield, hn⟩
      exact (hall field hfield).2.2.2 n hn

/-- The walk passes a value and counts its values. -/
def Walks (stringOk : Text → Bool) (v : Json) : Prop :=
  ∀ depth nodes m, validate stringOk v depth nodes = some m ↔
    Sound stringOk depth v ∧ m = nodes + v.nodes ∧ m ≤ maxNodes

theorem validateItems_iff (h : ∀ v ∈ items, Walks stringOk v) (hnodes : nodes ≤ maxNodes) :
    validateItems stringOk items depth nodes = some m ↔
      (∀ v ∈ items, Sound stringOk depth v) ∧ m = nodes + nodesOfItems items ∧ m ≤ maxNodes := by
  induction items generalizing nodes with
  | nil =>
    simp only [validateItems, Option.some.injEq, nodesOfItems]
    grind
  | cons v items ih =>
    have hv := h v List.mem_cons_self
    have htail := fun w hw => h w (List.mem_cons_of_mem v hw)
    simp only [validateItems, Option.bind_eq_some_iff, hv _ _ _, nodesOfItems, List.forall_mem_cons]
    constructor
    · rintro ⟨a, ⟨hsound, rfl, hle⟩, hrest⟩
      obtain ⟨hall, hm, hmle⟩ := (ih htail hle).mp hrest
      exact ⟨⟨hsound, hall⟩, by omega, hmle⟩
    · rintro ⟨⟨hsound, hall⟩, hm, hmle⟩
      have hle : nodes + v.nodes ≤ maxNodes := by omega
      exact ⟨_, ⟨hsound, rfl, hle⟩, (ih htail hle).mpr ⟨hall, by omega, hmle⟩⟩

theorem validateFields_iff (h : ∀ field ∈ fields, Walks stringOk field.2)
    (hnodes : nodes ≤ maxNodes) :
    validateFields stringOk fields depth nodes = some m ↔
      (∀ field ∈ fields, stringOk field.1 = true ∧ Sound stringOk depth field.2) ∧
        m = nodes + nodesOfFields fields ∧ m ≤ maxNodes := by
  induction fields generalizing nodes with
  | nil =>
    simp only [validateFields, Option.some.injEq, nodesOfFields]
    grind
  | cons field fields ih =>
    obtain ⟨key, v⟩ := field
    have hv := h (key, v) List.mem_cons_self
    have htail := fun w hw => h w (List.mem_cons_of_mem (key, v) hw)
    simp only [validateFields, nodesOfFields, List.forall_mem_cons]
    by_cases hkey : stringOk key = true
    · simp only [hkey, ↓reduceIte, Option.bind_eq_some_iff, hv _ _ _, true_and]
      constructor
      · rintro ⟨a, ⟨hsound, rfl, hle⟩, hrest⟩
        obtain ⟨hall, hm, hmle⟩ := (ih htail hle).mp hrest
        exact ⟨⟨hsound, hall⟩, by omega, hmle⟩
      · rintro ⟨⟨hsound, hall⟩, hm, hmle⟩
        have hle : nodes + v.nodes ≤ maxNodes := by omega
        exact ⟨_, ⟨hsound, rfl, hle⟩, (ih htail hle).mpr ⟨hall, by omega, hmle⟩⟩
    · simp [hkey]

theorem validate_iff (v : Json) : Walks stringOk v := by
  induction v using Json.induct with
  | null | bool b | num n | str s =>
    intro depth nodes m
    simp only [validate, Sound, height, texts, numbers, Json.nodes]
    grind
  | arr items ih =>
    intro depth nodes m
    rw [validate, sound_arr, Json.nodes]
    by_cases hguard : maxDepth < depth ∨ maxNodes < nodes + 1
    · rw [if_pos hguard]
      simp only [reduceCtorEq, false_iff]
      rintro ⟨⟨hd, -⟩, hm, hmle⟩
      omega
    · rw [if_neg hguard, validateItems_iff ih (by omega)]
      grind
  | obj fields ih =>
    intro depth nodes m
    rw [validate, sound_obj, Json.nodes]
    by_cases hguard : maxDepth < depth ∨ maxNodes < nodes + 1
    · rw [if_pos hguard]
      simp only [reduceCtorEq, false_iff]
      rintro ⟨⟨hd, -⟩, hm, hmle⟩
      omega
    · rw [if_neg hguard, validateFields_iff ih (by omega)]
      grind

end

/-! ## The text it writes -/

theorem serializeItems_eq (items : List Json) : serializeItems items = items.map serialize := by
  induction items with
  | nil => rfl
  | cons v items ih => rw [serializeItems, ih, List.map_cons]

theorem serializeFields_eq (fields : List (Text × Json)) :
    serializeFields fields = fields.map fun field => (field.1, serialize field.2) := by
  induction fields with
  | nil => rfl
  | cons field fields ih => rw [serializeFields, ih, List.map_cons]

theorem visitItems_eq (items : List Json) : visitItems items = items.map visit := by
  induction items with
  | nil => rfl
  | cons v items ih => rw [visitItems, ih, List.map_cons]

theorem visitFields_eq (fields : List (Text × Json)) :
    visitFields fields = fields.map fun field => (field.1, visit field.2) := by
  induction fields with
  | nil => rfl
  | cons field fields ih => rw [visitFields, ih, List.map_cons]

theorem unit_digit {c : Char} (h : c.isDigit = true) :
    (unit c).val = c.toNat ∧ 48 ≤ c.toNat ∧ c.toNat ≤ 57 := by
  have hc : 48 ≤ c.toNat ∧ c.toNat ≤ 57 := by
    simp only [Char.isDigit, ge_iff_le, Bool.and_eq_true, decide_eq_true_eq] at h
    exact ⟨UInt32.le_iff_toNat_le.mp h.1, UInt32.le_iff_toNat_le.mp h.2⟩
  refine ⟨?_, hc⟩
  rw [unit, Fin.val_ofNat]
  omega

theorem ascii_digits (n : Nat) : Ascii ((Nat.toDigits 10 n).map unit) := by
  intro u hu
  obtain ⟨c, hc, rfl⟩ := List.mem_map.mp hu
  have hdigit := unit_digit (Nat.isDigit_of_mem_toDigits (by decide) (by decide) hc)
  omega

theorem ascii_numberText (n : Int) : Ascii (numberText n) := by
  cases n with
  | ofNat n => exact ascii_digits n
  | negSucc n =>
    intro u hu
    rcases List.mem_cons.mp hu with rfl | hu
    · decide
    · exact ascii_digits (n + 1) u hu

/-- Only quotes, backslashes and controls are escaped. -/
theorem escape_printable {u : CodeUnit} (hquote : u ≠ quote) (hslash : u ≠ backslash)
    (h : 0x1f < u.val) : escape u = [u] := by
  have hne : ∀ w : CodeUnit, w.val < 0x20 → u ≠ w := by
    rintro w hw rfl
    omega
  have hlt : ¬u < 32 := Nat.not_lt.mpr h
  unfold escape
  rw [if_neg hquote, if_neg hslash, if_neg (hne _ (by decide)), if_neg (hne _ (by decide)),
    if_neg (hne _ (by decide)), if_neg (hne _ (by decide)), if_neg (hne _ (by decide)), if_neg hlt]

theorem escape_of_le {u : CodeUnit} (h : 0x80 ≤ u.val) : escape u = [u] := by
  apply escape_printable _ _ (by omega)
  · rintro rfl
    exact absurd h (by decide)
  · rintro rfl
    exact absurd h (by decide)

theorem ascii_escape {u : CodeUnit} (h : u.val < 0x80) : Ascii (escape u) := by
  have hdigit : ∀ n < 16, (unit (Nat.digitChar n)).val < 0x80 := by decide
  have hhex : u < 32 → (unit (Nat.digitChar (u.val / 16))).val < 0x80 ∧
      (unit (Nat.digitChar (u.val % 16))).val < 0x80 := by
    intro hlt
    have : u.val < 32 := hlt
    exact ⟨hdigit _ (by omega), hdigit _ (by omega)⟩
  have hu : Ascii [u] := by
    intro x hx
    rwa [List.mem_singleton.mp hx]
  unfold escape
  split_ifs with h1 h2 h3 h4 h5 h6 h7 h8
  · decide
  · decide
  · decide
  · decide
  · decide
  · decide
  · decide
  · obtain ⟨hfirst, hsecond⟩ := hhex h8
    simp only [Ascii, List.forall_mem_cons]
    exact ⟨by decide, by decide, by decide, by decide, hfirst, hsecond, List.forall_mem_nil _⟩
  · exact hu

theorem wellFormed_escaped {s : Text} (h : wellFormed s = true) :
    wellFormed (s.flatMap escape) = true := by
  fun_induction wellFormed s with
  | case1 => rfl
  | case2 u =>
    have hs : isSurrogate u = false := by simpa using h
    by_cases hu : u.val < 0x80
    · simpa using wellFormed_of_ascii (ascii_escape hu)
    · simp [escape_of_le (u := u) (by omega), wellFormed, hs]
  | case3 u v rest hu ih =>
    rw [Bool.and_eq_true] at h
    have hhigh := isHigh_iff.mp hu
    have hlow := isLow_iff.mp h.1
    simp [escape_of_le (u := u) (by omega), escape_of_le (u := v) (by omega), wellFormed, hu, h.1,
      ih h.2]
  | case4 u v rest hu ih =>
    rw [Bool.and_eq_true, Bool.not_eq_true'] at h
    have hs : isSurrogate u = false := by simp [isSurrogate, h.1, hu]
    rw [List.flatMap_cons]
    apply wellFormed_append _ (ih h.2)
    by_cases hlt : u.val < 0x80
    · exact wellFormed_of_ascii (ascii_escape hlt)
    · simp [escape_of_le (u := u) (by omega), wellFormed, hs]

theorem wellFormed_encodeString {s : Text} (h : wellFormed s = true) :
    wellFormed (encodeString s) = true := by
  rw [encodeString, wellFormed_cons (by decide)]
  exact wellFormed_append (wellFormed_escaped h) (by decide)

theorem wellFormed_join {texts : List Text} (h : ∀ t ∈ texts, wellFormed t = true) :
    wellFormed (join (unit ',') texts) = true := by
  fun_induction join (unit ',') texts with
  | case1 => rfl
  | case2 text => exact h text List.mem_cons_self
  | case3 text next texts ih =>
    apply wellFormed_append (h text List.mem_cons_self)
    rw [wellFormed_cons (by decide)]
    exact ih fun t ht => h t (List.mem_cons_of_mem text ht)

theorem wellFormed_entry {field : Text × Text} (hkey : wellFormed field.1 = true)
    (htext : wellFormed field.2 = true) : wellFormed (entry field) = true := by
  apply wellFormed_append (wellFormed_encodeString hkey)
  rw [wellFormed_cons (by decide)]
  exact htext

theorem wellFormed_serialize {v : Json} (h : ∀ s ∈ v.texts, wellFormed s = true) :
    wellFormed (serialize v) = true := by
  induction v using Json.induct with
  | null => decide
  | bool b => cases b <;> decide
  | num n => exact wellFormed_of_ascii (ascii_numberText n)
  | str s => exact wellFormed_encodeString (h s (by simp [texts]))
  | arr items ih =>
    rw [serialize, serializeItems_eq, wellFormed_cons (by decide)]
    apply wellFormed_append (wellFormed_join _) (by decide)
    intro t ht
    obtain ⟨v, hv, rfl⟩ := List.mem_map.mp ht
    exact ih v hv fun s hs => h s (by simpa [texts, mem_textsOfItems] using ⟨v, hv, hs⟩)
  | obj fields ih =>
    rw [serialize, serializeFields_eq, wellFormed_cons (by decide)]
    apply wellFormed_append (wellFormed_join _) (by decide)
    intro t ht
    rw [byKey_map, List.map_map] at ht
    obtain ⟨field, hfield, rfl⟩ := List.mem_map.mp ht
    have hmem := (byKey_perm fields).mem_iff.mp hfield
    have htexts : ∀ s, s = field.1 ∨ s ∈ field.2.texts → wellFormed s = true := fun s hs =>
      h s (by rw [texts, mem_textsOfFields]; exact ⟨field, hmem, hs⟩)
    exact wellFormed_entry (htexts _ (.inl rfl)) (ih field hmem fun s hs => htexts s (.inr hs))

/-! ## The bytes it takes -/

/-- Adding two texts one after the other is adding them together. -/
theorem add_bind {s : Text} (hs : wellFormed s = true) (t : Text) (total : Nat) :
    (add s total).bind (add t) = add (s ++ t) total := by
  unfold add
  rw [byteLength_append hs]
  by_cases h : maxOutputBytes < total + byteLength s
  · rw [if_pos h, if_pos (by omega), Option.bind_none]
  · rw [if_neg h, Option.bind_some, Nat.add_assoc]

theorem visitAll_bind {s : Text} (hs : wellFormed s = true) {texts : List Text}
    (h : ∀ t ∈ texts, wellFormed t = true) (total : Nat) :
    (add s total).bind (visitAll (texts.map add)) = add (s ++ join (unit ',') texts) total := by
  induction texts generalizing s total with
  | nil =>
    rw [List.map_nil, join, List.append_nil]
    cases add s total <;> rfl
  | cons text texts ih =>
    have htext := h text List.mem_cons_self
    cases texts with
    | nil => exact add_bind hs text total
    | cons next texts =>
      have hcomma : wellFormed (s ++ text ++ [unit ',']) = true :=
        wellFormed_append (wellFormed_append hs htext) (by decide)
      have hstep : (add s total).bind (visitAll ((text :: next :: texts).map add)) =
          (((add s total).bind (add text)).bind (add [unit ','])).bind
            (visitAll ((next :: texts).map add)) := by
        rw [Option.bind_assoc, Option.bind_assoc]
        rfl
      rw [hstep, add_bind hs, add_bind (wellFormed_append hs htext),
        ih hcomma fun t ht => h t (List.mem_cons_of_mem text ht), join]
      simp

theorem visitEntry_eq (field : Text × Text) (h : wellFormed field.1 = true) :
    visitEntry (field.1, add field.2) = add (entry field) := by
  funext total
  have hkey := wellFormed_encodeString h
  unfold visitEntry
  rw [← Option.bind_assoc, add_bind hkey, add_bind (wellFormed_append hkey (by decide)), entry]
  simp

/-- The text between two brackets. -/
theorem visit_within {texts : List Text} (h : ∀ t ∈ texts, wellFormed t = true) {u w : CodeUnit}
    (hu : isSurrogate u = false) (total : Nat) :
    ((add [u] total).bind fun total => (visitAll (texts.map add) total).bind (add [w])) =
      add (u :: (join (unit ',') texts ++ [w])) total := by
  have hu : wellFormed [u] = true := by simp [wellFormed, hu]
  rw [← Option.bind_assoc, visitAll_bind hu h,
    add_bind (wellFormed_append hu (wellFormed_join h))]
  simp

theorem visit_eq {v : Json} (h : ∀ s ∈ v.texts, wellFormed s = true) :
    visit v = add (serialize v) := by
  induction v using Json.induct with
  | null | bool b | num n | str s =>
    funext total
    rw [visit, serialize]
  | arr items ih =>
    have htexts : ∀ v ∈ items, ∀ s ∈ v.texts, wellFormed s = true := fun v hv s hs =>
      h s (by rw [texts, mem_textsOfItems]; exact ⟨v, hv, hs⟩)
    have hvisits : items.map visit = (items.map serialize).map add := by
      rw [List.map_map]
      exact List.map_congr_left fun v hv => ih v hv (htexts v hv)
    funext total
    rw [visit, serialize, serializeItems_eq, visitItems_eq, hvisits, visit_within _ (by decide)]
    intro t ht
    obtain ⟨v, hv, rfl⟩ := List.mem_map.mp ht
    exact wellFormed_serialize (htexts v hv)
  | obj fields ih =>
    have hkeys : ∀ field ∈ fields, wellFormed field.1 = true := fun field hfield =>
      h _ (by rw [texts, mem_textsOfFields]; exact ⟨field, hfield, .inl rfl⟩)
    have htexts : ∀ field ∈ fields, ∀ s ∈ field.2.texts, wellFormed s = true :=
      fun field hfield s hs =>
        h s (by rw [texts, mem_textsOfFields]; exact ⟨field, hfield, .inr hs⟩)
    have hmem : ∀ field ∈ byKey fields, field ∈ fields := fun field hfield =>
      (byKey_perm fields).mem_iff.mp hfield
    have hvisits : ((byKey fields).map fun field => (field.1, visit field.2)).map visitEntry =
        (((byKey fields).map fun field => (field.1, serialize field.2)).map entry).map add := by
      simp only [List.map_map]
      apply List.map_congr_left
      intro field hfield
      rw [Function.comp_apply, Function.comp_apply, Function.comp_apply,
        ih field (hmem field hfield) (htexts field (hmem field hfield))]
      exact visitEntry_eq (field.1, serialize field.2) (hkeys field (hmem field hfield))
    funext total
    rw [visit, serialize, serializeFields_eq, visitFields_eq, byKey_map, byKey_map, hvisits,
      visit_within _ (by decide)]
    intro t ht
    rw [List.map_map] at ht
    obtain ⟨field, hfield, rfl⟩ := List.mem_map.mp ht
    exact wellFormed_entry (hkeys field (hmem field hfield))
      (wellFormed_serialize (htexts field (hmem field hfield)))

mutual

/-- The bytes a value takes when it is written. -/
def size : Json → Nat
  | .null => 4
  | .bool b => if b then 4 else 5
  | .num n => (numberText n).length
  | .str s => weigh (encodeString s)
  | .arr items => 2 + (sizeOfItems items - 1)
  | .obj fields => 2 + (sizeOfFields fields - 1)

/-- The items, each with a comma after it. -/
def sizeOfItems : List Json → Nat
  | [] => 0
  | v :: items => size v + 1 + sizeOfItems items

def sizeOfFields : List (Text × Json) → Nat
  | [] => 0
  | (key, v) :: fields => weigh (encodeString key) + 1 + size v + 1 + sizeOfFields fields

end

theorem sizeOfItems_eq (items : List Json) :
    sizeOfItems items = (items.map fun v => size v + 1).sum := by
  induction items with
  | nil => rfl
  | cons v items ih => rw [sizeOfItems, ih, List.map_cons, List.sum_cons]

theorem sizeOfFields_eq (fields : List (Text × Json)) : sizeOfFields fields =
    (fields.map fun field => weigh (encodeString field.1) + 1 + size field.2 + 1).sum := by
  induction fields with
  | nil => rfl
  | cons field fields ih => rw [sizeOfFields, ih, List.map_cons, List.sum_cons]

theorem weigh_join (texts : List Text) :
    weigh (join (unit ',') texts) = (texts.map fun t => weigh t + 1).sum - 1 := by
  fun_induction join (unit ',') texts with
  | case1 => rfl
  | case2 text => simp
  | case3 text next texts ih =>
    have hcomma : weight (unit ',') = 1 := by decide
    have hpos : 1 ≤ ((next :: texts).map fun t => weigh t + 1).sum := by
      rw [List.map_cons, List.sum_cons]
      omega
    rw [weigh_append, weigh_cons, ih, hcomma, List.map_cons (l := next :: texts), List.sum_cons]
    omega

theorem weigh_entry (field : Text × Text) :
    weigh (entry field) = weigh (encodeString field.1) + 1 + weigh field.2 := by
  have hcolon : weight (unit ':') = 1 := by decide
  rw [entry, weigh_append, weigh_cons, hcolon]
  omega

/-- Two brackets around a text. -/
theorem weigh_within {u w : CodeUnit} (hu : weight u = 1) (hw : weight w = 1) (t : Text) :
    weigh (u :: (t ++ [w])) = 2 + weigh t := by
  rw [weigh_cons, weigh_append, weigh_cons, hu, hw]
  simp only [weigh, List.map_nil, List.sum_nil]
  omega

theorem weigh_serialize (v : Json) : weigh (serialize v) = size v := by
  induction v using Json.induct with
  | null => decide
  | bool b => cases b <;> decide
  | num n => exact weigh_of_ascii (ascii_numberText n)
  | str s => rw [serialize, size]
  | arr items ih =>
    rw [serialize, size, serializeItems_eq, sizeOfItems_eq, weigh_within (by decide) (by decide),
      weigh_join, List.map_map]
    congr 3
    exact List.map_congr_left fun v hv => by rw [Function.comp_apply, ih v hv]
  | obj fields ih =>
    rw [serialize, size, serializeFields_eq, sizeOfFields_eq, weigh_within (by decide) (by decide),
      weigh_join, byKey_map, List.map_map, List.map_map, ← ((byKey_perm fields).map _).sum_eq]
    congr 3
    apply List.map_congr_left
    intro field hfield
    rw [Function.comp_apply, Function.comp_apply, weigh_entry,
      ih field ((byKey_perm fields).mem_iff.mp hfield)]

/-! ## What it accepts -/

/-- The values an encoder that asks `stringOk` of every string and key accepts. -/
def Accepted (stringOk : Text → Bool) (v : Json) : Prop :=
  Sound stringOk 0 v ∧ v.nodes ≤ maxNodes ∧ size v ≤ maxOutputBytes

theorem byteLength_serialize {v : Json} (h : ∀ s ∈ v.texts, wellFormed s = true) :
    byteLength (serialize v) = size v := by
  rw [byteLength_eq (wellFormed_serialize h), weigh_serialize]

theorem canonicalJson_eq_some {v : Json} {bytes : ByteArray} :
    canonicalJson v = some bytes ↔
      Accepted assertWellFormedString v ∧ bytes = utf8 (serialize v) := by
  simp only [canonicalJson, Option.bind_eq_some_iff, Option.map_eq_some_iff, assertCanonicalValue,
    validate_iff v _ _ _, assertOutputWithinLimit, Accepted]
  constructor
  · rintro ⟨m, ⟨hsound, rfl, hm⟩, total, htotal, rfl⟩
    have htexts : ∀ s ∈ v.texts, wellFormed s = true := fun s hs =>
      (Bool.and_eq_true _ _ ▸ hsound.2.1 s hs).2
    rw [visit_eq htexts, add, byteLength_serialize htexts] at htotal
    by_cases hlimit : maxOutputBytes < 0 + size v
    · rw [if_pos hlimit] at htotal
      cases htotal
    · exact ⟨⟨hsound, by omega, by omega⟩, rfl⟩
  · rintro ⟨⟨hsound, hnodes, hsize⟩, rfl⟩
    have htexts : ∀ s ∈ v.texts, wellFormed s = true := fun s hs =>
      (Bool.and_eq_true _ _ ▸ hsound.2.1 s hs).2
    refine ⟨_, ⟨hsound, rfl, by omega⟩, size v, ?_, rfl⟩
    rw [visit_eq htexts, add, byteLength_serialize htexts, if_neg (by omega), Nat.zero_add]

end LearningOrbit.Canonical
