import LearningOrbit.Canonical.Reading

/-!
# Writing and reading back

The parser reads what the encoder wrote as the value that was written, its keys in order; and
what the parser accepts the encoder writes, in no more bytes than it came in.
-/

namespace LearningOrbit.Canonical

open LearningOrbit.Utf16 Json

/-- What may stand after a value the encoder wrote. -/
def Ends (t : Text) : Prop :=
  ∀ u, t.head? = some u → u = unit ',' ∨ u = unit ']' ∨ u = unit '}'

theorem skipWhitespace_of {t : Text} (h : ∀ u, t.head? = some u → isWhitespace u = false) :
    skipWhitespace t = t := by
  cases t with
  | nil => rfl
  | cons u t => exact List.dropWhile_cons_of_neg (by simp [h u rfl])

theorem Ends.skip {t : Text} (h : Ends t) : skipWhitespace t = t := by
  apply skipWhitespace_of
  intro u hu
  rcases h u hu with rfl | rfl | rfl <;> decide

/-! ## Strings -/

theorem nextUnit_escape (u : CodeUnit) (t : Text) :
    nextUnit (escape u ++ t) = some (u, t) ∧ (escape u ++ t).head? ≠ some quote := by
  have hhex : ∀ n < 32, hexDigit (unit (Nat.digitChar (n / 16))) = some (n / 16) ∧
      hexDigit (unit (Nat.digitChar (n % 16))) = some (n % 16) := by decide
  have hslash : some backslash ≠ some quote := by decide
  unfold escape
  split_ifs with h1 h2 h3 h4 h5 h6 h7 h8
  · exact ⟨by rw [h1]; rfl, hslash⟩
  · exact ⟨by rw [h2]; rfl, hslash⟩
  · exact ⟨by rw [h3]; rfl, hslash⟩
  · exact ⟨by rw [h4]; rfl, hslash⟩
  · exact ⟨by rw [h5]; rfl, hslash⟩
  · exact ⟨by rw [h6]; rfl, hslash⟩
  · exact ⟨by rw [h7]; rfl, hslash⟩
  · have hlt : u.val < 32 := h8
    obtain ⟨hfirst, hsecond⟩ := hhex u.val hlt
    have hzero : hexDigit (unit '0') = some 0 := rfl
    have hunit : Fin.ofNat 65536 (((0 * 16 + 0) * 16 + u.val / 16) * 16 + u.val % 16) = u := by
      apply Fin.ext
      rw [Fin.val_ofNat]
      omega
    refine ⟨?_, hslash⟩
    have hcode : hexCodeUnit (unit '0' :: unit '0' :: unit (Nat.digitChar (u.val / 16)) ::
        unit (Nat.digitChar (u.val % 16)) :: t) = some (u, t) := by
      simp only [hexCodeUnit, hzero, hfirst, hsecond, Option.bind_eq_bind, Option.bind_some,
        Option.pure_def, hunit]
    exact hcode
  · have hlt : ¬u.val < 32 := h8
    have hle : ¬u.val ≤ 0x1f := by omega
    refine ⟨?_, fun h => h1 (Option.some.inj h)⟩
    rw [List.singleton_append, nextUnit, if_neg h2, if_neg hle]

theorem string_next {result t rest : Text} {u : CodeUnit} (hquote : t.head? ≠ some quote)
    (hnext : nextUnit t = some (u, rest)) (hlength : result.length + 1 ≤ maxStringLength) :
    string result t = string (result ++ [u]) rest := by
  cases t with
  | nil => cases hnext
  | cons current t =>
    rw [string, if_neg fun h => hquote (congrArg some h)]
    split
    next h =>
      rw [hnext] at h
      cases h
    next u' rest' h =>
      rw [hnext] at h
      cases h
      rw [if_neg (Nat.not_lt.mpr hlength)]

/-- A string is read back, whatever stands after it. -/
theorem string_escaped (result : Text) {s : Text}
    (h : assertWellFormedString (result ++ s) = true) (rest : Text) :
    string result (s.flatMap escape ++ quote :: rest) = some (result ++ s, rest) := by
  induction s generalizing result with
  | nil =>
    rw [List.append_nil] at h ⊢
    rw [List.flatMap_nil, List.nil_append, string, if_pos rfl, if_pos h]
  | cons u s ih =>
    have hlength := of_decide_eq_true ((Bool.and_eq_true _ _).mp h).1
    rw [List.length_append, List.length_cons] at hlength
    have hsplit : result ++ u :: s = result ++ [u] ++ s := by simp
    obtain ⟨hnext, hquote⟩ := nextUnit_escape u (s.flatMap escape ++ quote :: rest)
    rw [List.flatMap_cons, List.append_assoc, string_next hquote hnext (by omega), hsplit]
    rw [hsplit] at h
    exact ih (result ++ [u]) h

/-! ## Numbers -/

theorem isDigit_unit {n : Nat} {c : Char} (hc : c ∈ Nat.toDigits 10 n) : isDigit (unit c) = true := by
  have h := unit_digit (Nat.isDigit_of_mem_toDigits (by decide) (by decide) hc)
  exact isDigit_iff.mpr (by omega)

theorem ofDigits_toDigits (n : Nat) : ofDigits ((Nat.toDigits 10 n).map unit) = n := by
  have hfold : ∀ (chars : List Char), (∀ c ∈ chars, c.isDigit = true) → ∀ m,
      (chars.map unit).foldl (fun n u => 10 * n + (u.val - 48)) m = Nat.ofDigitChars 10 chars m := by
    intro chars hchars
    induction chars with
    | nil => exact fun m => Nat.ofDigitChars_nil.symm
    | cons c chars ih =>
      intro m
      have hval := (unit_digit (hchars c List.mem_cons_self)).1
      rw [List.map_cons, List.foldl_cons, hval, Nat.ofDigitChars_cons,
        ih fun d hd => hchars d (List.mem_cons_of_mem c hd)]
      rfl
  rw [ofDigits, hfold _ fun c hc => Nat.isDigit_of_mem_toDigits (by decide) (by decide) hc,
    Nat.ofDigitChars_ten_toDigits]

/-- A positive number is not written with a leading zero. -/
theorem head_toDigits {n : Nat} (hn : 0 < n) : (Nat.toDigits 10 n).head? ≠ some '0' := by
  induction n using Nat.strong_induction_on with
  | _ n ih =>
    by_cases hlt : n < 10
    · have hdigit : ∀ m < 10, 0 < m → [Nat.digitChar m].head? ≠ some '0' := by decide
      rw [Nat.toDigits_of_lt_base hlt]
      exact hdigit n hlt hn
    · rw [Nat.toDigits_of_base_le (by decide) (by omega)]
      have hhead := ih (n / 10) (by omega) (by omega)
      cases hdigits : Nat.toDigits 10 (n / 10) with
      | nil => exact absurd hdigits Nat.toDigits_ne_nil
      | cons c chars =>
        rw [hdigits] at hhead
        exact hhead

theorem digits_toDigits (n : Nat) {rest : Text}
    (hrest : ∀ u, rest.head? = some u → isDigit u = false) :
    digits ((Nat.toDigits 10 n).map unit ++ rest) = some ((Nat.toDigits 10 n).map unit, rest) := by
  by_cases hn : n = 0
  · subst hn
    rfl
  · have hhead := head_toDigits (Nat.pos_of_ne_zero hn)
    have hall : ∀ c ∈ Nat.toDigits 10 n, isDigit (unit c) = true := fun c hc => isDigit_unit hc
    cases hdigits : Nat.toDigits 10 n with
    | nil => exact absurd hdigits Nat.toDigits_ne_nil
    | cons c chars =>
      rw [hdigits] at hhead hall
      have hzero : unit c ≠ unit '0' := by
        intro heq
        have hchar := unit_digit (Nat.isDigit_of_mem_toDigits (by decide) (by decide)
          (hdigits ▸ List.mem_cons_self : c ∈ Nat.toDigits 10 n))
        have hval : (unit c).val = 48 := congrArg Fin.val heq
        exact hhead (congrArg some (Char.toNat_inj.mp (by rw [← hchar.1, hval]; rfl)))
      have hchars : ∀ u ∈ chars.map unit, isDigit u = true := by
        intro u hu
        obtain ⟨d, hd, rfl⟩ := List.mem_map.mp hu
        exact hall d (List.mem_cons_of_mem c hd)
      have hstop : rest.takeWhile isDigit = [] ∧ rest.dropWhile isDigit = rest := by
        cases rest with
        | nil => exact ⟨rfl, rfl⟩
        | cons u rest => simp [hrest u rfl]
      rw [List.map_cons, List.cons_append, digits, if_neg hzero, if_pos (hall c List.mem_cons_self),
        List.takeWhile_append_of_pos hchars, List.dropWhile_append_of_pos hchars, hstop.1, hstop.2,
        List.append_nil]

theorem Ends.digit {t : Text} (h : Ends t) : ∀ u, t.head? = some u → isDigit u = false := by
  intro u hu
  rcases h u hu with rfl | rfl | rfl <;> decide

theorem integer_numberText {n : Int} (hn : isSafeInteger n = true) {rest : Text} (h : Ends rest) :
    integer (numberText n ++ rest) = some (n, rest) := by
  have hpoint : ¬(rest.head? = some (unit '.') ∨ rest.head? = some (unit 'e') ∨
      rest.head? = some (unit 'E')) := by
    rintro (hu | hu | hu) <;> rcases h _ hu with heq | heq | heq <;> exact absurd heq (by decide)
  cases n with
  | ofNat n =>
    have hneg : ((Nat.toDigits 10 n).map unit ++ rest).head? ≠ some (unit '-') := by
      have hall : ∀ c ∈ Nat.toDigits 10 n, isDigit (unit c) = true := fun c hc => isDigit_unit hc
      cases hdigits : Nat.toDigits 10 n with
      | nil => exact absurd hdigits Nat.toDigits_ne_nil
      | cons c chars =>
        intro hminus
        have hdigit := hall c (hdigits ▸ List.mem_cons_self)
        rw [Option.some.inj hminus] at hdigit
        exact absurd hdigit (by decide)
    have hparsed : parsed false n = some (.ofNat n) := by
      simp only [parsed, Bool.false_eq_true, ↓reduceIte, Bool.false_and, Bool.not_false, Bool.and_true]
      exact if_pos hn
    simp only [integer, numberText, hneg, decide_false, Bool.false_eq_true, ↓reduceIte,
      digits_toDigits n h.digit, Option.bind_some, hpoint, ofDigits_toDigits, hparsed,
      Option.map_some]
  | negSucc n =>
    have hparsed : parsed true (n + 1) = some (.negSucc n) := by
      simp only [parsed, ↓reduceIte, Bool.true_and, Nat.succ_ne_zero, decide_false, Bool.not_false,
        Bool.and_true]
      exact if_pos hn
    simp only [integer, numberText, List.cons_append, List.head?_cons, decide_true, ↓reduceIte,
      List.tail_cons, digits_toDigits (n + 1) h.digit, Option.bind_some, hpoint, ofDigits_toDigits,
      hparsed, Option.map_some]

/-! ## Values -/

/-- How a text the encoder wrote begins: with no blank, bracket or byte order mark. -/
def begins (u : CodeUnit) : Bool :=
  !isWhitespace u && u ≠ 0xfeff && u ≠ unit ']' && u ≠ unit '}'

def Begun (t : Text) : Prop := ∃ u rest, t = u :: rest ∧ begins u = true

theorem begins_digit {u : CodeUnit} (h : isDigit u = true) : begins u = true := by
  have hall : ∀ n < 58, 48 ≤ n → begins (Fin.ofNat 65536 n) = true := by decide
  have hu : Fin.ofNat 65536 u.val = u := Fin.ext (Nat.mod_eq_of_lt u.isLt)
  have hdigit := isDigit_iff.mp h
  exact hu ▸ hall u.val (by omega) (by omega)

theorem begun_numberText (n : Int) : Begun (numberText n) := by
  cases n with
  | negSucc n => exact ⟨_, _, rfl, by decide⟩
  | ofNat n =>
    have hall : ∀ c ∈ Nat.toDigits 10 n, isDigit (unit c) = true := fun c hc => isDigit_unit hc
    change Begun ((Nat.toDigits 10 n).map unit)
    cases hdigits : Nat.toDigits 10 n with
    | nil => exact absurd hdigits Nat.toDigits_ne_nil
    | cons c chars => exact ⟨_, _, rfl, begins_digit (hall c (hdigits ▸ List.mem_cons_self))⟩

theorem begun_encodeString (s : Text) : Begun (encodeString s) := ⟨_, _, rfl, by decide⟩

theorem begun_serialize (v : Json) : Begun (serialize v) := by
  cases v with
  | null => exact ⟨_, _, rfl, by decide⟩
  | bool b => cases b <;> exact ⟨_, _, rfl, by decide⟩
  | num n => exact begun_numberText n
  | str s => exact begun_encodeString s
  | arr items => exact ⟨_, _, serialize.eq_5 items, by decide⟩
  | obj fields => exact ⟨_, _, serialize.eq_6 fields, by decide⟩

theorem Begun.append {t : Text} (h : Begun t) (rest : Text) : Begun (t ++ rest) := by
  obtain ⟨u, t, rfl, hu⟩ := h
  exact ⟨u, t ++ rest, rfl, hu⟩

theorem Begun.skip {t : Text} (h : Begun t) : skipWhitespace t = t := by
  obtain ⟨u, t, rfl, hu⟩ := h
  apply skipWhitespace_of
  rintro w ⟨⟩
  simp only [begins, Bool.and_eq_true, Bool.not_eq_true'] at hu
  exact hu.1.1.1

theorem Begun.head {t : Text} (h : Begun t) : t.head? ≠ some (unit ']') ∧ t.head? ≠ some (unit '}') ∧
    t.head? ≠ some 0xfeff := by
  obtain ⟨u, t, rfl, hu⟩ := h
  simp only [begins, Bool.and_eq_true, decide_eq_true_eq] at hu
  obtain ⟨⟨⟨-, hmark⟩, hsquare⟩, hcurly⟩ := hu
  simp [hmark, hsquare, hcurly]

theorem ends_cons {u : CodeUnit} (h : u = unit ',' ∨ u = unit ']' ∨ u = unit '}') (t : Text) :
    Ends (u :: t) := by
  rintro w ⟨⟩
  exact h

theorem length_join {α : Type} (comma : α) (texts : List (List α)) :
    texts.length ≤ (join comma texts).length + 1 := by
  fun_induction join comma texts with
  | case1 => exact Nat.zero_le _
  | case2 text => simp
  | case3 text next texts ih =>
    simp only [List.length_cons, List.length_append] at ih ⊢
    omega

section

variable {α β : Type} {element : List β → State → Option (β × State)} {close : CodeUnit}
  {text : α → Text} {f : α → β} {count : α → Nat} {all : List α}

/-- Each element of a list reads its own text, after the elements before it. -/
def ReadsEach (element : List β → State → Option (β × State)) (text : α → Text) (f : α → β)
    (count : α → Nat) (all : List α) : Prop :=
  ∀ pre a post, all = pre ++ a :: post → Begun (text a) ∧
    ∀ nodes rest, Ends rest → nodes + count a ≤ maxNodes →
      element (pre.map f) ⟨text a ++ rest, nodes⟩ = some (f a, ⟨rest, nodes + count a⟩)

theorem elements_join (hclose : close = unit ']' ∨ close = unit '}')
    (heach : ReadsEach element text f count all) (pre more : List α) (hall : all = pre ++ more)
    (hmore : more ≠ []) (fuel : Nat) (hfuel : more.length ≤ fuel) (nodes : Nat)
    (hnodes : nodes + (more.map count).sum ≤ maxNodes) (rest : Text) :
    elements element close fuel (pre.map f)
        ⟨join (unit ',') (more.map text) ++ close :: rest, nodes⟩ =
      some (all.map f, ⟨rest, nodes + (more.map count).sum⟩) := by
  induction more generalizing pre fuel nodes with
  | nil => exact absurd rfl hmore
  | cons a more ih =>
    obtain ⟨fuel, rfl⟩ := Nat.exists_eq_succ_of_ne_zero
      (Nat.ne_of_gt (Nat.lt_of_lt_of_le (Nat.succ_pos _) hfuel))
    rw [List.map_cons, List.sum_cons] at hnodes
    have hread := (heach pre a more hall).2 nodes
    have hcomma : unit ',' ≠ close := by rcases hclose with rfl | rfl <;> decide
    cases more with
    | nil =>
      have hends := ends_cons (.inr hclose) rest
      have ha := hread (close :: rest) hends (by omega)
      simp only [List.map_cons, List.map_nil, join, elements, ha, Option.bind_some, hends.skip,
        ↓reduceIte, List.sum_cons, List.sum_nil, Nat.add_zero, hall, List.map_append]
    | cons b more =>
      have htail : (Nat.succ fuel) = fuel + 1 := rfl
      have hends := ends_cons (.inl rfl)
        (join (unit ',') ((b :: more).map text) ++ close :: rest)
      have ha := hread _ hends (by omega)
      have hbegun : Begun (join (unit ',') ((b :: more).map text) ++ close :: rest) := by
        have hb := (heach (pre ++ [a]) b more (by simp [hall])).1
        cases more with
        | nil => exact hb.append _
        | cons c more =>
          rw [List.map_cons, List.map_cons, join, List.append_assoc]
          exact hb.append _
      have hrest := ih (pre ++ [a]) (by simp [hall]) (by simp) fuel (by simpa using hfuel)
        (nodes + count a) (by omega)
      rw [List.map_append] at hrest
      rw [List.map_cons, List.map_cons, join, List.append_assoc, List.cons_append, ← List.map_cons,
        htail, elements, ha, Option.bind_some]
      simp only [hends.skip, hcomma, ↓reduceIte, hbegun.skip]
      rw [List.map_cons, List.map_nil] at hrest
      rw [hrest]
      simp only [List.map_cons, List.sum_cons, Nat.add_assoc]

theorem bracketed_join (hclose : close = unit ']' ∨ close = unit '}')
    (heach : ReadsEach element text f count all) (nodes : Nat)
    (hnodes : nodes + (all.map count).sum ≤ maxNodes) (rest : Text) :
    bracketed element close ⟨join (unit ',') (all.map text) ++ close :: rest, nodes⟩ =
      some (all.map f, ⟨rest, nodes + (all.map count).sum⟩) := by
  cases hall : all with
  | nil =>
    simp only [List.map_nil, join, List.nil_append, bracketed, (ends_cons (.inr hclose) rest).skip,
      List.head?_cons, ↓reduceIte, List.tail_cons, List.sum_nil, Nat.add_zero]
  | cons a more =>
    have hbegun : Begun (join (unit ',') (all.map text) ++ close :: rest) := by
      have ha := (heach [] a more hall).1
      rw [hall]
      cases more with
      | nil => exact ha.append _
      | cons b more =>
        rw [List.map_cons, List.map_cons, join, List.append_assoc]
        exact ha.append _
    have hhead : (join (unit ',') (all.map text) ++ close :: rest).head? ≠ some close := by
      rcases hclose with rfl | rfl
      · exact hbegun.head.1
      · exact hbegun.head.2.1
    have hlength : all.length ≤ (join (unit ',') (all.map text) ++ close :: rest).length := by
      have hjoin := length_join (unit ',') (all.map text)
      rw [List.length_map] at hjoin
      rw [List.length_append, List.length_cons]
      omega
    rw [← hall]
    simp only [bracketed, hbegun.skip, hhead, ↓reduceIte]
    exact elements_join hclose heach [] all rfl (by simp [hall]) _ hlength nodes hnodes rest

end

theorem take_append (keyword rest : Text) : take keyword (keyword ++ rest) = some rest := by
  simp [take]

section

variable {budget nodes : Nat} {rest : Text}

theorem value_literal (hnodes : nodes + 1 ≤ maxNodes) :
    value (budget + 1) ⟨nullText ++ rest, nodes⟩ = some (.null, ⟨rest, nodes + 1⟩) ∧
      ∀ b, value (budget + 1) ⟨boolText b ++ rest, nodes⟩ = some (.bool b, ⟨rest, nodes + 1⟩) := by
  have hlimit : ¬maxNodes < nodes + 1 := Nat.not_lt.mpr hnodes
  refine ⟨?_, fun b => ?_⟩
  · rw [value, if_neg hlimit]
    exact congrArg (Option.map fun rest => (Json.null, (⟨rest, nodes + 1⟩ : State)))
      (take_append nullText rest)
  · rw [value, if_neg hlimit]
    cases b with
    | true =>
      exact congrArg (Option.map fun rest => (Json.bool true, (⟨rest, nodes + 1⟩ : State)))
        (take_append (boolText true) rest)
    | false =>
      exact congrArg (Option.map fun rest => (Json.bool false, (⟨rest, nodes + 1⟩ : State)))
        (take_append (boolText false) rest)

theorem value_numberText (hnodes : nodes + 1 ≤ maxNodes) {n : Int} (hn : isSafeInteger n = true)
    (hrest : Ends rest) :
    value (budget + 1) ⟨numberText n ++ rest, nodes⟩ = some (.num n, ⟨rest, nodes + 1⟩) := by
  have hlimit : ¬maxNodes < nodes + 1 := Nat.not_lt.mpr hnodes
  have hhead : ∃ u t, numberText n = u :: t ∧ (u = unit '-' ∨ isDigit u = true) := by
    cases n with
    | negSucc n => exact ⟨_, _, rfl, .inl rfl⟩
    | ofNat n =>
      have hall : ∀ c ∈ Nat.toDigits 10 n, isDigit (unit c) = true := fun c hc => isDigit_unit hc
      cases hdigits : Nat.toDigits 10 n with
      | nil => exact absurd hdigits Nat.toDigits_ne_nil
      | cons c chars =>
        refine ⟨unit c, chars.map unit, ?_, .inr (hall c (hdigits ▸ List.mem_cons_self))⟩
        exact congrArg (List.map unit) hdigits
  obtain ⟨u, t, htext, hu⟩ := hhead
  have hother : ∀ w, isDigit w = false → w ≠ unit '-' → u ≠ w := by
    rintro w hdigit hminus rfl
    rcases hu with hu | hu
    · exact hminus hu
    · rw [hu] at hdigit
      cases hdigit
  have hinteger := integer_numberText hn hrest
  rw [htext, List.cons_append] at hinteger ⊢
  rw [value, if_neg hlimit]
  simp only [hother (unit '{') (by decide) (by decide), hother (unit '[') (by decide) (by decide),
    hother quote (by decide) (by decide), hother (unit 't') (by decide) (by decide),
    hother (unit 'f') (by decide) (by decide), hother (unit 'n') (by decide) (by decide), hu,
    ↓reduceIte, hinteger, Option.map_some]

theorem value_encodeString (hnodes : nodes + 1 ≤ maxNodes) {s : Text}
    (hs : assertWellFormedString s = true) :
    value (budget + 1) ⟨encodeString s ++ rest, nodes⟩ = some (.str s, ⟨rest, nodes + 1⟩) := by
  have hlimit : ¬maxNodes < nodes + 1 := Nat.not_lt.mpr hnodes
  have hstring := string_escaped [] hs rest
  rw [value, if_neg hlimit]
  have htext : s.flatMap escape ++ [quote] ++ rest = s.flatMap escape ++ quote :: rest := by simp
  rw [← htext] at hstring
  exact congrArg (Option.map fun (read : Text × Text) =>
    (Json.str read.1, (⟨read.2, nodes + 1⟩ : State))) hstring

theorem value_array (hnodes : nodes + 1 ≤ maxNodes) {items : List Json} {t : Text} {s : State}
    (h : bracketed (fun _ => value budget) (unit ']') ⟨t ++ unit ']' :: rest, nodes + 1⟩ =
      some (items, s)) :
    value (budget + 1) ⟨unit '[' :: (t ++ [unit ']']) ++ rest, nodes⟩ = some (.arr items, s) := by
  have hlimit : ¬maxNodes < nodes + 1 := Nat.not_lt.mpr hnodes
  have htext : t ++ [unit ']'] ++ rest = t ++ unit ']' :: rest := by simp
  rw [← htext] at h
  rw [value, if_neg hlimit]
  exact congrArg (Option.map fun (read : List Json × State) => (Json.arr read.1, read.2)) h

theorem value_object (hnodes : nodes + 1 ≤ maxNodes) {fields : List (Text × Json)} {t : Text}
    {s : State}
    (h : bracketed (member (value budget)) (unit '}') ⟨t ++ unit '}' :: rest, nodes + 1⟩ =
      some (fields, s)) :
    value (budget + 1) ⟨unit '{' :: (t ++ [unit '}']) ++ rest, nodes⟩ = some (.obj fields, s) := by
  have hlimit : ¬maxNodes < nodes + 1 := Nat.not_lt.mpr hnodes
  have htext : t ++ [unit '}'] ++ rest = t ++ unit '}' :: rest := by simp
  rw [← htext] at h
  rw [value, if_neg hlimit]
  exact congrArg (Option.map fun (read : List (Text × Json) × State) => (Json.obj read.1, read.2)) h

/-- A member is read back where its key is new. -/
theorem member_entry {v w : Json} {key : Text} {members : List (Text × Json)}
    (hkey : assertWellFormedString key = true) (hnew : key ∉ members.map Prod.fst)
    {valueAt : State → Option (Json × State)} {s : State}
    (h : valueAt ⟨serialize v ++ rest, nodes⟩ = some (w, s)) :
    member valueAt members ⟨entry (key, serialize v) ++ rest, nodes⟩ = some ((key, w), s) := by
  have hstring := string_escaped [] hkey (unit ':' :: (serialize v ++ rest))
  have hcolon : skipWhitespace (unit ':' :: (serialize v ++ rest)) = unit ':' :: (serialize v ++ rest) :=
    skipWhitespace_of (by rintro u ⟨⟩; decide)
  have hvalue : skipWhitespace (serialize v ++ rest) = serialize v ++ rest :=
    ((begun_serialize v).append rest).skip
  have htext : entry (key, serialize v) ++ rest =
      quote :: (key.flatMap escape ++ quote :: unit ':' :: (serialize v ++ rest)) := by
    simp [entry, encodeString]
  simp only [htext, member, List.head?_cons, ↓reduceIte, List.tail_cons, hstring, List.nil_append,
    Option.bind_some, hnew, hcolon, hvalue, h, Option.map_some]

end

theorem budget_succ {v : Json} {budget depth : Nat} (hbudget : depth + budget = maxDepth + 1)
    (hsound : Sound assertWellFormedString depth v) : ∃ left, budget = left + 1 := by
  have hdepth := hsound.1
  exact ⟨budget - 1, by omega⟩

/-- The value at the front of a text is read by its first unit. -/
theorem value_serialize {v : Json} {budget depth nodes : Nat} {rest : Text}
    (hbudget : depth + budget = maxDepth + 1) (hsound : Sound assertWellFormedString depth v)
    (hkeyed : v.Keyed) (hnodes : nodes + v.nodes ≤ maxNodes) (hrest : Ends rest) :
    value budget ⟨serialize v ++ rest, nodes⟩ = some (v.canon, ⟨rest, nodes + v.nodes⟩) := by
  induction v using Json.induct generalizing budget depth nodes rest with
  | null =>
    obtain ⟨budget, rfl⟩ := budget_succ hbudget hsound
    exact (value_literal hnodes).1
  | bool b =>
    obtain ⟨budget, rfl⟩ := budget_succ hbudget hsound
    exact (value_literal hnodes).2 b
  | num n =>
    obtain ⟨budget, rfl⟩ := budget_succ hbudget hsound
    exact value_numberText hnodes (hsound.2.2 n (by simp [numbers])) hrest
  | str s =>
    obtain ⟨budget, rfl⟩ := budget_succ hbudget hsound
    exact value_encodeString hnodes (hsound.2.1 s (by simp [texts]))
  | arr items ih =>
    obtain ⟨budget, rfl⟩ := budget_succ hbudget hsound
    obtain ⟨hdepth, hitems⟩ := sound_arr.mp hsound
    rw [Json.nodes, nodesOfItems_eq] at hnodes ⊢
    have heach : ReadsEach (fun _ => value budget) serialize canon Json.nodes items := by
      rintro pre v post rfl
      have hmem : v ∈ pre ++ v :: post := by simp
      refine ⟨begun_serialize v, fun nodes rest hrest hnodes => ?_⟩
      exact ih v hmem (by omega) (hitems v hmem) (keyedItems_iff.mp hkeyed v hmem) hnodes hrest
    have hbracketed := bracketed_join (.inl rfl) heach (nodes + 1) (by omega) rest
    rw [serialize, serializeItems_eq, canon, canonItems_eq, ← Nat.add_assoc]
    exact value_array (by omega) hbracketed
  | obj fields ih =>
    obtain ⟨budget, rfl⟩ := budget_succ hbudget hsound
    obtain ⟨hdepth, hfields⟩ := sound_obj.mp hsound
    have hperm := byKey_perm fields
    have hsum : ((byKey fields).map fun field => field.2.nodes).sum = nodesOfFields fields := by
      rw [nodesOfFields_eq]
      exact (hperm.map _).sum_eq
    rw [Json.nodes, ← hsum] at hnodes ⊢
    have hkeys : ((byKey fields).map Prod.fst).Nodup := (hperm.map _).nodup_iff.mpr hkeyed.1
    have heach : ReadsEach (member (value budget))
        (fun field : Text × Json => entry (field.1, serialize field.2))
        (fun field => (field.1, field.2.canon)) (fun field => field.2.nodes) (byKey fields) := by
      rintro pre ⟨key, v⟩ post hall
      have hmem : (key, v) ∈ fields := hperm.mem_iff.mp (by rw [hall]; simp)
      obtain ⟨hkey, hsoundv⟩ := hfields _ hmem
      refine ⟨(begun_encodeString key).append _, fun nodes rest hrest hnodes => ?_⟩
      apply member_entry hkey
      · rw [hall, List.map_append, List.nodup_append] at hkeys
        rw [List.map_map]
        intro hold
        exact hkeys.2.2 key hold key (by simp) rfl
      · exact ih _ hmem (by omega) hsoundv (keyedFields_iff.mp hkeyed.2 _ hmem) hnodes hrest
    have hbracketed := bracketed_join (.inr rfl) heach (nodes + 1) (by omega) rest
    rw [serialize, serializeFields_eq, byKey_map, List.map_map, canon, canonFields_eq, byKey_map,
      ← Nat.add_assoc]
    exact value_object (by omega) hbracketed

/-! ## The codec -/

theorem serialize_canon (v : Json) : serialize v.canon = serialize v := by
  induction v using Json.induct with
  | null | bool b | num n | str s => rfl
  | arr items ih =>
    rw [canon, canonItems_eq, serialize, serialize, serializeItems_eq, serializeItems_eq,
      List.map_map]
    congr 3
    exact List.map_congr_left ih
  | obj fields ih =>
    rw [canon, canonFields_eq, serialize, serialize, serializeFields_eq, serializeFields_eq,
      byKey_map, byKey_map, byKey_map, byKey_byKey, byKey_map, List.map_map, List.map_map,
      List.map_map]
    congr 3
    apply List.map_congr_left
    intro field hfield
    simp only [Function.comp_apply, ih field ((byKey_perm fields).mem_iff.mp hfield)]

/-- What the encoder wrote is read back as the value with its keys in order. -/
theorem parse_utf8 {v : Json} (hkeyed : v.Keyed) (h : Accepted assertWellFormedString v) :
    parseCanonicalJson (.bytes (utf8 (serialize v))) = some v.canon := by
  obtain ⟨hsound, hnodes, hsize⟩ := h
  have htexts : ∀ s ∈ v.texts, wellFormed s = true := fun s hs =>
    ((Bool.and_eq_true _ _).mp (hsound.2.1 s hs)).2
  have hbegun := begun_serialize v
  have hlimit : ¬maxInputBytes < byteLength (serialize v) := by
    rw [byteLength_serialize htexts]
    exact Nat.not_lt.mpr hsize
  have hvalue : value (maxDepth + 1) ⟨serialize v ++ [], 0⟩ = some (v.canon, ⟨[], 0 + v.nodes⟩) :=
    value_serialize (Nat.zero_add _) hsound hkeyed (by omega) (by rintro u ⟨⟩)
  rw [List.append_nil] at hvalue
  simp only [parseCanonicalJson, Input.decoded, decodeText, decode_utf8 (wellFormed_serialize htexts),
    Option.map_some, hbegun.head.2.2, ↓reduceIte, Option.bind_some, parse, hlimit, hbegun.skip, hvalue]
  rfl

/-- What the input takes in UTF-8. -/
def Input.size : Input → Nat
  | .text t => byteLength t
  | .bytes b => b.size

theorem Input.decoded_size {input : Input} {t : Text} (h : input.decoded = some t) :
    byteLength t ≤ input.size := by
  cases input with
  | text t => exact Option.some.inj h ▸ Nat.le_refl _
  | bytes b =>
    obtain ⟨u, hdecode, rfl⟩ := Option.map_eq_some_iff.mp h
    rw [Input.size, ← byteLength_decode hdecode]
    split_ifs with hmark
    · obtain ⟨u, rfl⟩ := List.head?_eq_some_iff.mp hmark
      have hcons := byteLength_append (s := [0xfeff]) (by decide) u
      rw [List.tail_cons, ← List.singleton_append, hcons]
      exact Nat.le_add_left _ _
    · exact Nat.le_refl _

end LearningOrbit.Canonical
