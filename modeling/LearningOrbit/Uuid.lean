import Mathlib.Data.List.Basic
import LearningOrbit.Digest

/-!
# UUIDs in text form
-/

namespace LearningOrbit.Uuid

def isHex (c : Char) : Bool := c.isDigit || ('a' ≤ c && c ≤ 'f')

/-- Thirty-two digits in groups of 8, 4, 4, 4 and 12. -/
def format (digits : List Char) : String :=
  String.ofList (digits.take 8 ++ '-' :: (digits.drop 8).take 4 ++ '-' :: (digits.drop 12).take 4 ++
    '-' :: (digits.drop 16).take 4 ++ '-' :: digits.drop 20)

/-- `str(UUID(text))`: letters are lowered and hyphens put where they belong. The `urn:uuid:`
and braced spellings, which no uuid column prints, are not read. -/
def canonical (text : String) : Option String :=
  let digits := (text.toList.filter (· ≠ '-')).map Char.toLower
  if digits.length = 32 ∧ digits.all isHex then some (format digits) else none

/-- The text a uuid column prints. -/
def Stored (id : String) : Prop := canonical id = some id

instance (id : String) : Decidable (Stored id) := inferInstanceAs (Decidable (_ = _))

theorem canonical_length {text id : String} (h : canonical text = some id) : id.length = 36 := by
  unfold canonical at h
  dsimp only at h
  split at h
  · rename_i hd
    have hl := hd.1
    cases h
    simp only [format, String.length_ofList, List.length_append, List.length_cons,
      List.length_take, List.length_drop, hl]
    omega
  · cases h

theorem isHex_ne_hyphen {c : Char} (hc : isHex c = true) : c ≠ '-' := by
  rintro rfl
  cases hc

theorem isHex_toLower {c : Char} (hc : isHex c = true) : c.toLower = c := by
  have hup : ¬ (c.val ≥ 'A'.val ∧ c.val ≤ 'Z'.val) := by
    simp only [isHex, Char.isDigit, Bool.or_eq_true, Bool.and_eq_true, decide_eq_true_eq] at hc
    rintro ⟨hA, hZ⟩
    rcases hc with ⟨-, h9⟩ | ⟨ha, -⟩
    · exact absurd (UInt32.le_trans hA h9) (by decide)
    · exact absurd (UInt32.le_trans (Char.le_def.mp ha) hZ) (by decide)
  unfold Char.toLower
  rw [dif_neg hup]

theorem digits_format {digits : List Char} (hh : digits.all isHex) :
    ((format digits).toList.filter (· ≠ '-')).map Char.toLower = digits := by
  have hhex : ∀ c ∈ digits, isHex c = true := List.all_eq_true.mp hh
  have hkeep {part : List Char} (hp : ∀ c ∈ part, c ∈ digits) :
      part.filter (· ≠ '-') = part := by
    rw [List.filter_eq_self]
    intro c hc
    simpa using isHex_ne_hyphen (hhex c (hp c hc))
  have hgroup (n m : Nat) : ∀ c ∈ (digits.drop n).take m, c ∈ digits :=
    fun c hc => List.mem_of_mem_drop (List.mem_of_mem_take hc)
  have hjoin : digits.take 8 ++ ((digits.drop 8).take 4 ++ ((digits.drop 12).take 4 ++
      ((digits.drop 16).take 4 ++ digits.drop 20))) = digits := by
    have step (n m : Nat) : (digits.drop n).take m ++ digits.drop (n + m) = digits.drop n := by
      rw [← List.drop_drop]
      exact List.take_append_drop m _
    rw [step 16 4, step 12 4, step 8 4, List.take_append_drop]
  have hfilter : (format digits).toList.filter (· ≠ '-') = digits := by
    unfold format
    rw [String.toList_ofList]
    simp only [List.append_assoc, List.cons_append, List.filter_append, List.filter_cons,
      hkeep fun c hc => List.mem_of_mem_take hc, hkeep (hgroup 8 4), hkeep (hgroup 12 4),
      hkeep (hgroup 16 4), hkeep fun c hc => List.mem_of_mem_drop hc]
    simpa using hjoin
  rw [hfilter]
  exact (List.map_congr_left fun c hc => isHex_toLower (hhex c hc)).trans (List.map_id digits)

/-- The text a uuid column prints is stored as it is. -/
theorem canonical_stored {text id : String} (h : canonical text = some id) : Stored id := by
  unfold canonical at h
  dsimp only at h
  split at h
  · rename_i hd
    cases h
    unfold Stored canonical
    dsimp only
    rw [digits_format hd.2, if_pos hd]
  · cases h

theorem mem_format {digits : List Char} {c : Char} (hc : c ∈ (format digits).toList) :
    c ∈ digits ∨ c = '-' := by
  have hpart {n m : Nat} (h : c ∈ (digits.drop n).take m) : c ∈ digits :=
    List.mem_of_mem_drop (List.mem_of_mem_take h)
  rw [format, String.toList_ofList] at hc
  simp only [List.append_assoc, List.cons_append, List.mem_append, List.mem_cons] at hc
  rcases hc with h | h | h | h | h | h | h | h | h
  · exact .inl (List.mem_of_mem_take h)
  · exact .inr h
  · exact .inl (hpart h)
  · exact .inr h
  · exact .inl (hpart h)
  · exact .inr h
  · exact .inl (hpart h)
  · exact .inr h
  · exact .inl (List.mem_of_mem_drop h)

/-- A uuid column prints small letters. -/
theorem Stored.lower {id : String} (h : Stored id) :
    String.ofList (id.toList.map Char.toLower) = id := by
  unfold Stored canonical at h
  dsimp only at h
  split at h
  · rename_i hd
    have hlower : ∀ c ∈ id.toList, c.toLower = c := by
      intro c hc
      rw [← Option.some.inj h] at hc
      rcases mem_format hc with hdigit | rfl
      · exact isHex_toLower (List.all_eq_true.mp hd.2 c hdigit)
      · decide
    rw [List.map_congr_left hlower, List.map_id', String.ofList_toList]
  · cases h

end LearningOrbit.Uuid

namespace LearningOrbit.Digest

/-! ## Name-based uuids -/

theorem digits_length (w k x : Nat) : (digits w k x).length = k := by
  induction k generalizing x with
  | zero => rfl
  | succ k ih => rw [digits, List.length_append, ih, List.length_singleton]

theorem digits_lt {w k x b : Nat} (hb : b ∈ digits w k x) : b < 2 ^ w := by
  induction k generalizing x with
  | zero => cases hb
  | succ k ih =>
    rw [digits, List.mem_append, List.mem_singleton] at hb
    rcases hb with hb | rfl
    · exact ih hb
    · exact Nat.mod_lt _ (Nat.two_pow_pos w)

theorem Sha1.round_length (state : List Nat) (wi : Nat × Nat) :
    (Sha1.round state wi).length = state.length := by
  unfold Sha1.round
  split <;> rfl

theorem Sha1.compress_length (state block : List Nat) :
    (Sha1.compress state block).length = state.length := by
  have hfold (l : List (Nat × Nat)) (s : List Nat) : (l.foldl Sha1.round s).length = s.length := by
    induction l generalizing s with
    | nil => rfl
    | cons wi l ih => rw [List.foldl_cons, ih, Sha1.round_length]
  unfold Sha1.compress
  rw [List.length_zipWith, hfold, Nat.min_self]

theorem Sha1.digest_length (message : List Nat) : (Sha1.digest message).length = 20 := by
  have hfold (l : List (List Nat)) (s : List Nat) :
      (l.foldl Sha1.compress s).length = s.length := by
    induction l generalizing s with
    | nil => rfl
    | cons block l ih => rw [List.foldl_cons, ih, Sha1.compress_length]
  have hbytes (l : List Nat) : (l.flatMap (digits 8 4)).length = 4 * l.length := by
    induction l with
    | nil => rfl
    | cons x l ih =>
      rw [List.flatMap_cons, List.length_append, digits_length, ih, List.length_cons]
      omega
  unfold Sha1.digest
  rw [hbytes, hfold]
  rfl

theorem Sha1.digest_lt {message : List Nat} {b : Nat} (hb : b ∈ Sha1.digest message) : b < 256 := by
  obtain ⟨x, -, hb⟩ := List.mem_flatMap.mp hb
  exact digits_lt hb

theorem Sha256.round_length (state : List Nat) (kw : Nat × Nat) :
    (Sha256.round state kw).length = state.length := by
  unfold Sha256.round
  split <;> rfl

theorem Sha256.compress_length (state block : List Nat) :
    (Sha256.compress state block).length = state.length := by
  have hfold (l : List (Nat × Nat)) (s : List Nat) :
      (l.foldl Sha256.round s).length = s.length := by
    induction l generalizing s with
    | nil => rfl
    | cons kw l ih => rw [List.foldl_cons, ih, Sha256.round_length]
  unfold Sha256.compress
  dsimp only
  rw [List.length_zipWith, hfold, Nat.min_self]

theorem Sha256.digest_length (message : List Nat) :
    (Sha256.digest message).length = 32 := by
  have hfold (l : List (List Nat)) (s : List Nat) :
      (l.foldl Sha256.compress s).length = s.length := by
    induction l generalizing s with
    | nil => rfl
    | cons block l ih => rw [List.foldl_cons, ih, Sha256.compress_length]
  have hbytes (l : List Nat) : (l.flatMap (digits 8 4)).length = 4 * l.length := by
    induction l with
    | nil => rfl
    | cons x l ih =>
      rw [List.flatMap_cons, List.length_append, digits_length, ih, List.length_cons]
      omega
  unfold Sha256.digest
  rw [hbytes, hfold]
  rfl

theorem isHex_hexDigit : ∀ n < 16, Uuid.isHex (hexDigit n) = true := by decide

theorem hex_length (bytes : List Nat) : (hex bytes).length = 2 * bytes.length := by
  induction bytes with
  | nil => rfl
  | cons b bytes ih =>
    change (hex bytes).length + 1 + 1 = _
    rw [ih, List.length_cons]
    omega

theorem hex_isHex {bytes : List Nat} (hb : ∀ b ∈ bytes, b < 256) :
    (hex bytes).all Uuid.isHex := by
  rw [List.all_eq_true]
  intro c hc
  obtain ⟨b, hmem, hc⟩ := List.mem_flatMap.mp hc
  have hlt := hb b hmem
  rcases List.mem_pair.mp hc with rfl | rfl
  · exact isHex_hexDigit _ (by omega)
  · exact isHex_hexDigit _ (by omega)

/-- A name-based uuid is the text a uuid column prints. -/
theorem uuid5_stored (ns name : String) : Uuid.Stored (uuid5 ns name) := by
  let d := ((Sha1.digest (uuidBytes ns ++ bytes name)).take 16).mapIdx fun i b =>
    if i = 6 then 0x50 + b % 16 else if i = 8 then 0x80 + b % 64 else b
  have hlen : (hex d).length = 32 := by
    rw [hex_length, List.length_mapIdx, List.length_take, Sha1.digest_length]
    rfl
  have hhex : (hex d).all Uuid.isHex := by
    apply hex_isHex
    intro b hb
    obtain ⟨i, hi, rfl⟩ := List.mem_mapIdx.mp hb
    have hlt := Sha1.digest_lt (List.mem_of_mem_take (List.getElem_mem hi))
    split
    · omega
    · split
      · omega
      · exact hlt
  change Uuid.canonical (Uuid.format (hex d)) = some (Uuid.format (hex d))
  unfold Uuid.canonical
  dsimp only
  rw [Uuid.digits_format hhex, if_pos ⟨hlen, hhex⟩]

end LearningOrbit.Digest
