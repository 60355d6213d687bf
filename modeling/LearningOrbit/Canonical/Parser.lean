import LearningOrbit.Canonical.Encode

/-!
# The parser of canonical bodies

`JsonParser` reads a text unit by unit under the encoder's own limits. What each part of it
reads is told by `Reads`: the units it took, and the least they weigh.
-/

namespace LearningOrbit.Canonical

open LearningOrbit.Utf16 Json

/-- What is left of the input, and how many values were met. -/
structure State where
  rest : Text
  nodes : Nat

def isWhitespace (u : CodeUnit) : Bool := u = 32 || u = 9 || u = 13 || u = 10

def skipWhitespace (t : Text) : Text := t.dropWhile isWhitespace

/-- The text after a keyword. -/
def take (keyword t : Text) : Option Text :=
  if t.take keyword.length = keyword then some (t.drop keyword.length) else none

def hexDigit (u : CodeUnit) : Option Nat :=
  if unit '0' ≤ u ∧ u ≤ unit '9' then some (u.val - 48)
  else if unit 'a' ≤ u ∧ u ≤ unit 'f' then some (u.val - 87)
  else if unit 'A' ≤ u ∧ u ≤ unit 'F' then some (u.val - 55)
  else none

def hexCodeUnit : Text → Option (CodeUnit × Text)
  | a :: b :: c :: d :: rest => do
    let a ← hexDigit a
    let b ← hexDigit b
    let c ← hexDigit c
    let d ← hexDigit d
    return (Fin.ofNat 65536 (((a * 16 + b) * 16 + c) * 16 + d), rest)
  | _ => none

/-- The unit an escape stands for, after its backslash. -/
def unescape : Text → Option (CodeUnit × Text)
  | [] => none
  | escaped :: rest =>
    if escaped = quote ∨ escaped = backslash ∨ escaped = unit '/' then some (escaped, rest)
    else if escaped = unit 'b' then some (8, rest)
    else if escaped = unit 'f' then some (12, rest)
    else if escaped = unit 'n' then some (10, rest)
    else if escaped = unit 'r' then some (13, rest)
    else if escaped = unit 't' then some (9, rest)
    else if escaped = unit 'u' then hexCodeUnit rest
    else none

/-- The next unit of a string that has not ended. -/
def nextUnit : Text → Option (CodeUnit × Text)
  | [] => none
  | current :: rest =>
    if current = backslash then unescape rest
    else if current.val ≤ 0x1f then none
    else some (current, rest)

theorem hexCodeUnit_eq_some {t rest : Text} {u : CodeUnit} (h : hexCodeUnit t = some (u, rest)) :
    ∃ a b c d, t = a :: b :: c :: d :: rest := by
  unfold hexCodeUnit at h
  split at h
  · simp only [Option.bind_eq_bind, Option.bind_eq_some_iff, Option.pure_def, Option.some.injEq,
      Prod.mk.injEq] at h
    obtain ⟨_, -, _, -, _, -, _, -, -, rfl⟩ := h
    exact ⟨_, _, _, _, rfl⟩
  · cases h

theorem unescape_eq_some {t rest : Text} {u : CodeUnit} (h : unescape t = some (u, rest)) :
    (∃ e, t = e :: rest ∧ weigh (escape u) ≤ 2) ∨ ∃ a b c d, t = unit 'u' :: a :: b :: c :: d :: rest := by
  unfold unescape at h
  split at h
  · cases h
  next escaped tail =>
    split_ifs at h with h1 h2 h3 h4 h5 h6 h7
    · cases h
      refine .inl ⟨_, rfl, ?_⟩
      rcases h1 with rfl | rfl | rfl <;> decide
    · cases h
      exact .inl ⟨_, rfl, by decide⟩
    · cases h
      exact .inl ⟨_, rfl, by decide⟩
    · cases h
      exact .inl ⟨_, rfl, by decide⟩
    · cases h
      exact .inl ⟨_, rfl, by decide⟩
    · cases h
      exact .inl ⟨_, rfl, by decide⟩
    · obtain ⟨a, b, c, d, rfl⟩ := hexCodeUnit_eq_some h
      exact .inr ⟨a, b, c, d, by rw [h7]⟩

/-- An escape takes six units at most. -/
theorem weigh_escape_le (u : CodeUnit) : weigh (escape u) ≤ 6 := by
  have hascii : ∀ n < 0x80, weigh (escape (Fin.ofNat 65536 n)) ≤ 6 := by decide +kernel
  by_cases h : u.val < 0x80
  · have hu : Fin.ofNat 65536 u.val = u := Fin.ext (Nat.mod_eq_of_lt u.isLt)
    exact hu ▸ hascii u.val h
  · rw [escape_of_le (by omega), weigh_cons]
    unfold weight
    split_ifs <;> simp [weigh]

theorem weigh_pos (u : CodeUnit) : 1 ≤ weight u := by
  unfold weight
  split_ifs <;> omega

theorem length_le_weigh (t : Text) : t.length ≤ weigh t := by
  induction t with
  | nil => exact Nat.le_refl 0
  | cons u t ih =>
    have hu := weigh_pos u
    rw [weigh_cons, List.length_cons]
    omega

/-- A unit of a string is written again in no more than it was read from. -/
theorem nextUnit_eq_some {t rest : Text} {u : CodeUnit} (h : nextUnit t = some (u, rest)) :
    ∃ units, t = units ++ rest ∧ units ≠ [] ∧
      (t.head? ≠ some quote → weigh (escape u) ≤ weigh units) := by
  unfold nextUnit at h
  split at h
  · cases h
  next current tail =>
    split_ifs at h with hslash hcontrol
    · rcases unescape_eq_some h with ⟨e, rfl, hle⟩ | ⟨a, b, c, d, rfl⟩
      · refine ⟨[current, e], rfl, by simp, fun _ => Nat.le_trans hle ?_⟩
        exact length_le_weigh [current, e]
      · refine ⟨[current, unit 'u', a, b, c, d], rfl, by simp, fun _ => ?_⟩
        exact Nat.le_trans (weigh_escape_le u) (length_le_weigh [current, unit 'u', a, b, c, d])
    · cases h
      refine ⟨[u], rfl, by simp, fun hquote => ?_⟩
      have hu : u ≠ quote := fun hu => hquote (congrArg some hu)
      rw [escape_printable hu hslash (Nat.lt_of_not_le hcontrol)]

/-- The loop of `string` after its quote, over the text already read. -/
def string (result : Text) : Text → Option (Text × Text)
  | [] => none
  | current :: rest =>
    if current = quote then
      if assertWellFormedString result then some (result, rest) else none
    else
      match _ : nextUnit (current :: rest) with
      | none => none
      | some (u, rest') =>
        if maxStringLength < result.length + 1 then none else string (result ++ [u]) rest'
termination_by t => t.length
decreasing_by
  obtain ⟨units, heq, hunits, -⟩ := nextUnit_eq_some ‹nextUnit _ = some _›
  have hlength := congrArg List.length heq
  rw [List.length_append] at hlength
  have hpos := List.length_pos_iff.mpr hunits
  omega

/-- The units of a text that were read, with the least they weigh. -/
def Reads (cost : Nat) (t rest : Text) : Prop := ∃ units, t = units ++ rest ∧ cost ≤ weigh units

theorem string_eq_some {result t s rest : Text} (h : string result t = some (s, rest)) :
    assertWellFormedString s = true ∧
      ∃ more, s = result ++ more ∧ Reads (weigh (more.flatMap escape) + 1) t rest := by
  fun_induction string result t with
  | case1 => cases h
  | case2 result tail hok =>
    cases h
    exact ⟨hok, [], by simp, [quote], rfl, by decide⟩
  | case3 => cases h
  | case4 => cases h
  | case5 => cases h
  | case6 result current tail hquote u rest' hnext hlength ih =>
    obtain ⟨hok, more, rfl, units', hrest', hcost'⟩ := ih h
    obtain ⟨units, heq, -, hcost⟩ := nextUnit_eq_some hnext
    have hle := hcost fun hhead => hquote (Option.some.inj hhead)
    refine ⟨hok, u :: more, by simp, units ++ units', ?_, ?_⟩
    · rw [heq, hrest', List.append_assoc]
    · rw [List.flatMap_cons, weigh_append, weigh_append]
      omega

def isDigit (u : CodeUnit) : Bool := unit '0' ≤ u && u ≤ unit '9'

/-- The digits of an integer, without a leading zero. -/
def digits : Text → Option (Text × Text)
  | [] => none
  | first :: rest =>
    if first = unit '0' then some ([first], rest)
    else if isDigit first then some (first :: rest.takeWhile isDigit, rest.dropWhile isDigit)
    else none

/-- The number some digits spell. -/
def ofDigits (ds : Text) : Nat := ds.foldl (fun n u => 10 * n + (u.val - 48)) 0

/-- `-0` is refused; a number past the safe integers stays past them when it is rounded. -/
def parsed (negative : Bool) (n : Nat) : Option Int :=
  let value : Int := if negative then -n else n
  if isSafeInteger value && !(negative && n = 0) then some value else none

def integer (t : Text) : Option (Int × Text) :=
  let negative : Bool := t.head? = some (unit '-')
  (digits (if negative then t.tail else t)).bind fun (ds, rest) =>
    if rest.head? = some (unit '.') ∨ rest.head? = some (unit 'e') ∨ rest.head? = some (unit 'E') then
      none
    else (parsed negative (ofDigits ds)).map fun value => (value, rest)

theorem isDigit_iff {u : CodeUnit} : isDigit u = true ↔ 48 ≤ u.val ∧ u.val ≤ 57 := by
  simp only [isDigit, Bool.and_eq_true, decide_eq_true_eq]
  exact Iff.rfl

/-- One more digit at the end of a number. -/
theorem toDigits_snoc {n : Nat} (hn : 0 < n) {u : CodeUnit} (hu : isDigit u = true) :
    (Nat.toDigits 10 (10 * n + (u.val - 48))).map unit = (Nat.toDigits 10 n).map unit ++ [u] := by
  have hdigit := isDigit_iff.mp hu
  have hlt : u.val - 48 < 10 := by omega
  have hchar : unit (Nat.digitChar (u.val - 48)) = u := by
    apply Fin.ext
    have hval : (unit (Nat.digitChar (u.val - 48))).val = (Nat.digitChar (u.val - 48)).toNat := by
      refine Nat.mod_eq_of_lt ?_
      rw [Nat.toNat_digitChar_of_lt_ten hlt]
      omega
    rw [hval, Nat.toNat_digitChar_of_lt_ten hlt]
    omega
  rw [← Nat.toDigits_append_toDigits (by decide) hn hlt, Nat.toDigits_of_lt_base hlt, List.map_append,
    List.map_singleton, hchar]

theorem toDigits_foldl {n : Nat} (hn : 0 < n) {ds : Text} (hds : ∀ u ∈ ds, isDigit u = true) :
    (Nat.toDigits 10 (ds.foldl (fun n u => 10 * n + (u.val - 48)) n)).map unit =
      (Nat.toDigits 10 n).map unit ++ ds := by
  induction ds generalizing n with
  | nil => simp
  | cons u ds ih =>
    rw [List.foldl_cons, ih (by omega) fun v hv => hds v (List.mem_cons_of_mem u hv),
      toDigits_snoc hn (hds u List.mem_cons_self), List.append_assoc, List.singleton_append]

/-- The digits read are the ones their number is written with. -/
theorem digits_eq_some {t ds rest : Text} (h : digits t = some (ds, rest)) :
    t = ds ++ rest ∧ ds = (Nat.toDigits 10 (ofDigits ds)).map unit := by
  unfold digits at h
  split at h
  · cases h
  next first tail =>
    split_ifs at h with hzero hdigit
    · cases h
      rw [hzero]
      exact ⟨rfl, by decide⟩
    · cases h
      refine ⟨by rw [List.cons_append, List.takeWhile_append_dropWhile], ?_⟩
      have hbounds := isDigit_iff.mp hdigit
      have hne : first.val ≠ 48 := fun heq => hzero (Fin.ext heq)
      have hfirst : (Nat.toDigits 10 (first.val - 48)).map unit = [first] := by
        have hlt : first.val - 48 < 10 := by omega
        have hval : (Nat.digitChar (first.val - 48)).toNat = first.val := by
          rw [Nat.toNat_digitChar_of_lt_ten hlt]
          omega
        rw [Nat.toDigits_of_lt_base hlt, List.map_singleton, List.singleton_inj]
        apply Fin.ext
        rw [unit, Fin.val_ofNat, hval, Nat.mod_eq_of_lt first.isLt]
      have hpos : 0 < first.val - 48 := by omega
      have hall : ∀ u ∈ tail.takeWhile isDigit, isDigit u = true :=
        List.all_eq_true.mp List.all_takeWhile
      have hfold := toDigits_foldl hpos hall
      rw [hfirst, List.singleton_append] at hfold
      rw [ofDigits, List.foldl_cons, Nat.mul_zero, Nat.zero_add, hfold]

theorem parsed_eq_some {negative : Bool} {n : Nat} {value : Int}
    (h : parsed negative n = some value) : isSafeInteger value = true ∧
      numberText value =
        (if negative then [unit '-'] else []) ++ (Nat.toDigits 10 n).map unit := by
  cases negative with
  | false =>
    simp only [parsed, Bool.false_eq_true, ↓reduceIte, Bool.false_and, Bool.not_false, Bool.and_true,
      Option.ite_none_right_eq_some, Option.some.injEq] at h
    obtain ⟨hsafe, rfl⟩ := h
    exact ⟨hsafe, rfl⟩
  | true =>
    simp only [parsed, ↓reduceIte, Bool.true_and, Bool.and_eq_true, Bool.not_eq_true',
      decide_eq_false_iff_not, Option.ite_none_right_eq_some, Option.some.injEq] at h
    obtain ⟨⟨hsafe, hpos⟩, rfl⟩ := h
    obtain ⟨m, rfl⟩ := Nat.exists_eq_succ_of_ne_zero hpos
    exact ⟨hsafe, rfl⟩

/-- What `integer` read is what `String` writes. -/
theorem integer_eq_some {t rest : Text} {n : Int} (h : integer t = some (n, rest)) :
    t = numberText n ++ rest ∧ isSafeInteger n = true := by
  simp only [integer, Option.bind_eq_some_iff, Prod.exists, Option.ite_none_left_eq_some,
    Option.map_eq_some_iff, Prod.mk.injEq] at h
  obtain ⟨ds, rest, hdigits, -, value, hparsed, rfl, rfl⟩ := h
  obtain ⟨htext, hds⟩ := digits_eq_some hdigits
  obtain ⟨hsafe, hvalue⟩ := parsed_eq_some hparsed
  refine ⟨?_, hsafe⟩
  rw [hvalue, ← hds, List.append_assoc, ← htext]
  by_cases hneg : t.head? = some (unit '-')
  · cases t with
    | nil => cases hneg
    | cons u tail =>
      obtain rfl := Option.some.inj hneg
      simp
  · simp [hneg]

/-! ## Values -/

section

variable {α : Type}

/-- The loop of `array` and `object` over the elements already read: an element, then a comma
or the closing bracket. -/
def elements (element : List α → State → Option (α × State)) (close : CodeUnit) :
    Nat → List α → State → Option (List α × State)
  | 0, _, _ => none
  | fuel + 1, result, s =>
    (element result s).bind fun (a, s) =>
      match skipWhitespace s.rest with
      | [] => none
      | delimiter :: rest =>
        if delimiter = close then some (result ++ [a], ⟨rest, s.nodes⟩)
        else if delimiter = unit ',' then
          elements element close fuel (result ++ [a]) ⟨skipWhitespace rest, s.nodes⟩
        else none

/-- What stands between two brackets, after the first. -/
def bracketed (element : List α → State → Option (α × State)) (close : CodeUnit) (s : State) :
    Option (List α × State) :=
  let rest := skipWhitespace s.rest
  if rest.head? = some close then some ([], ⟨rest.tail, s.nodes⟩)
  else elements element close rest.length [] ⟨rest, s.nodes⟩

end

def array (value : State → Option (Json × State)) (s : State) : Option (Json × State) :=
  (bracketed (fun _ => value) (unit ']') s).map fun (items, s) => (.arr items, s)

/-- A key, which must be new, a colon and a value. -/
def member (value : State → Option (Json × State)) (members : List (Text × Json)) (s : State) :
    Option ((Text × Json) × State) :=
  if s.rest.head? = some quote then
    (string [] s.rest.tail).bind fun (key, rest) =>
      if key ∈ members.map Prod.fst then none
      else if (skipWhitespace rest).head? = some (unit ':') then
        (value ⟨skipWhitespace (skipWhitespace rest).tail, s.nodes⟩).map fun (v, s) => ((key, v), s)
      else none
  else none

def object (value : State → Option (Json × State)) (s : State) : Option (Json × State) :=
  (bracketed (member value) (unit '}') s).map fun (fields, s) => (.obj fields, s)

/-- `value`, with what is left of the depth. -/
def value : Nat → State → Option (Json × State)
  | 0, _ => none
  | budget + 1, s =>
    if maxNodes < s.nodes + 1 then none
    else match s.rest with
      | [] => none
      | next :: rest =>
        if next = unit '{' then object (value budget) ⟨rest, s.nodes + 1⟩
        else if next = unit '[' then array (value budget) ⟨rest, s.nodes + 1⟩
        else if next = quote then
          (string [] rest).map fun (text, rest) => (.str text, ⟨rest, s.nodes + 1⟩)
        else if next = unit 't' then
          (take (boolText true) s.rest).map fun rest => (.bool true, ⟨rest, s.nodes + 1⟩)
        else if next = unit 'f' then
          (take (boolText false) s.rest).map fun rest => (.bool false, ⟨rest, s.nodes + 1⟩)
        else if next = unit 'n' then
          (take nullText s.rest).map fun rest => (.null, ⟨rest, s.nodes + 1⟩)
        else if next = unit '-' ∨ isDigit next then
          (integer s.rest).map fun (n, rest) => (.num n, ⟨rest, s.nodes + 1⟩)
        else none

/-- A body as it is handed over: a text, or bytes to decode. -/
inductive Input
  | text (t : Text)
  | bytes (b : ByteArray)

/-- The fatal decoder drops a byte order mark. -/
def decodeText (bytes : ByteArray) : Option Text :=
  (decode bytes).map fun t => if t.head? = some 0xfeff then t.tail else t

def Input.decoded : Input → Option Text
  | .text t => some t
  | .bytes b => decodeText b

def parse (t : Text) : Option Json :=
  if maxInputBytes < byteLength t then none
  else (value (maxDepth + 1) ⟨skipWhitespace t, 0⟩).bind fun (v, s) =>
    if skipWhitespace s.rest = [] then some v else none

def parseCanonicalJson (input : Input) : Option Json := input.decoded.bind parse

end LearningOrbit.Canonical
