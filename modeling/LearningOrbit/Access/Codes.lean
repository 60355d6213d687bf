import Mathlib.Data.List.Sort
import LearningOrbit.Uuid

/-!
# Room and seat codes

A code is stored as the version of a pepper and the digest of the code under it. Older
peppers stay readable, so a stored code is checked with the pepper it names, and a code that
is looked up is tried with all of them.
-/

namespace LearningOrbit.Access

/-- `CODE_ALPHABET`. -/
def codeAlphabet : List Char := "ABCDEFGHJKLMNPQRSTUVWXYZ23456789".toList

/-- `code6` and `code10` of the schema, for the two lengths. -/
def isCode (length : Nat) (text : String) : Bool :=
  text.toList.length = length && text.toList.all (· ∈ codeAlphabet)

def isRoomCode (text : String) : Bool := isCode 6 text

def isSeatCode (text : String) : Bool := isCode 10 text

/-- `createHmac("sha256", key)`: blocks of 64 bytes, a longer key is digested first. -/
def hmac (key message : List Nat) : List Nat :=
  let short := if 64 < key.length then Digest.Sha256.digest key else key
  let block := short ++ List.replicate (64 - short.length) 0
  Digest.Sha256.digest (block.map (Nat.xor 0x5c) ++
    Digest.Sha256.digest (block.map (Nat.xor 0x36) ++ message))

/-- What `trim` takes off an ASCII text. -/
def isBlank (c : Char) : Bool := c = ' ' || ('\t' ≤ c && c ≤ '\r')

/-- `value.trim().toUpperCase()`, for ASCII texts. -/
def normalizeCode (value : String) : String :=
  String.ofList ((value.toList.dropWhile isBlank).reverse.dropWhile isBlank |>.reverse.map Char.toUpper)

/-- `readUInt16BE` of what `writeUInt16BE` put at the front. -/
def storedVersion (stored : List Nat) : Nat := stored.getD 0 0 * 256 + stored.getD 1 0

/-- A version and the digest under its pepper. -/
def hashUnder (version : Nat) (pepper : List Nat) (value : String) : List Nat :=
  [version / 256, version % 256] ++ hmac pepper (Digest.bytes (normalizeCode value))

/-- The peppers in the order of the `Map`. -/
structure CodeHasher where
  currentVersion : Nat
  peppers : List (Nat × List Nat)
  versions : ∀ p ∈ peppers, 1 ≤ p.1 ∧ p.1 ≤ 65535
  long : ∀ p ∈ peppers, 32 ≤ p.2.length
  keys : (peppers.map Prod.fst).Nodup
  distinct : (peppers.map Prod.snd).Nodup
  configured : currentVersion ∈ peppers.map Prod.fst

def assertVersion (version : Nat) : Except String Unit :=
  if version < 1 || 65535 < version then .error "CODE_PEPPER_VERSION_INVALID" else .ok ()

/-- The loop of the constructor; `seen` holds the peppers before. -/
def ownPeppers : List (List Nat) → List (Nat × List Nat) → Except String Unit
  | _, [] => .ok ()
  | seen, (version, pepper) :: rest => do
    assertVersion version
    if pepper.length < 32 then .error "CODE_PEPPER_TOO_SHORT"
    else if pepper ∈ seen then .error "CODE_PEPPER_DUPLICATE"
    else ownPeppers (pepper :: seen) rest

theorem ownPeppers_ok {seen : List (List Nat)} {peppers : List (Nat × List Nat)}
    (h : ownPeppers seen peppers = .ok ()) :
    (∀ p ∈ peppers, 1 ≤ p.1 ∧ p.1 ≤ 65535) ∧ (∀ p ∈ peppers, 32 ≤ p.2.length) ∧
      (∀ p ∈ peppers, p.2 ∉ seen) ∧ (peppers.map Prod.snd).Nodup := by
  induction peppers generalizing seen with
  | nil => exact ⟨by simp, by simp, by simp, List.nodup_nil⟩
  | cons p rest ih =>
    obtain ⟨version, pepper⟩ := p
    unfold ownPeppers assertVersion at h
    by_cases hv : version < 1 || 65535 < version
    · rw [if_pos hv] at h
      cases h
    · rw [if_neg hv] at h
      change (if pepper.length < 32 then _ else _) = _ at h
      by_cases hl : pepper.length < 32
      · rw [if_pos hl] at h
        cases h
      · rw [if_neg hl] at h
        by_cases hs : pepper ∈ seen
        · rw [if_pos hs] at h
          cases h
        · rw [if_neg hs] at h
          obtain ⟨hversions, hlong, hnew, hnodup⟩ := ih h
          simp only [Bool.or_eq_true, decide_eq_true_eq, not_or, not_lt] at hv
          refine ⟨?_, ?_, ?_, ?_⟩
          · exact List.forall_mem_cons.mpr ⟨hv, hversions⟩
          · exact List.forall_mem_cons.mpr ⟨not_lt.mp hl, hlong⟩
          · refine List.forall_mem_cons.mpr ⟨hs, fun q hq hmem => ?_⟩
            exact hnew q hq (List.mem_cons_of_mem _ hmem)
          · rw [List.map_cons, List.nodup_cons]
            refine ⟨fun hmem => ?_, hnodup⟩
            obtain ⟨q, hq, heq⟩ := List.mem_map.mp hmem
            refine hnew q hq ?_
            rw [heq]
            exact List.mem_cons_self

/-- The constructor; a `Map` has every key once. -/
def CodeHasher.make (currentVersion : Nat) (peppers : List (Nat × List Nat))
    (keys : (peppers.map Prod.fst).Nodup) : Except String CodeHasher :=
  match assertVersion currentVersion with
  | .error e => .error e
  | .ok () =>
    match h : ownPeppers [] peppers with
    | .error e => .error e
    | .ok () =>
      if hc : currentVersion ∈ peppers.map Prod.fst then
        .ok {
          currentVersion
          peppers
          versions := (ownPeppers_ok h).1
          long := (ownPeppers_ok h).2.1
          keys
          distinct := (ownPeppers_ok h).2.2.2
          configured := hc }
      else .error "CODE_PEPPER_NOT_CONFIGURED"

namespace CodeHasher

def current (h : CodeHasher) : List Nat :=
  (h.peppers.lookup h.currentVersion).getD []

def hash (h : CodeHasher) (value : String) : List Nat :=
  hashUnder h.currentVersion h.current value

/-- One hash for each pepper, by version. -/
def candidateHashes (h : CodeHasher) (value : String) : List (List Nat) :=
  (h.peppers.mergeSort fun p q => p.1 ≤ q.1).map fun p => hashUnder p.1 p.2 value

/-- `room_code_hash = ANY(candidates)`. -/
def answers (h : CodeHasher) (value : String) (stored : List Nat) : Bool :=
  (h.candidateHashes value).any fun hash => hash = stored

def verify (h : CodeHasher) (value : String) (stored : List Nat) : Bool :=
  if stored.length ≠ 34 then false
  else
    match h.peppers.lookup (storedVersion stored) with
    | none => false
    | some pepper => stored = hashUnder (storedVersion stored) pepper value

end CodeHasher

theorem hmac_length (key message : List Nat) : (hmac key message).length = 32 :=
  Digest.Sha256.digest_length _

attribute [irreducible] hmac

theorem hashUnder_length (version : Nat) (pepper : List Nat) (value : String) :
    (hashUnder version pepper value).length = 34 := by
  rw [hashUnder, List.length_append, hmac_length]
  rfl

theorem storedVersion_hashUnder (version : Nat) (pepper : List Nat) (value : String) :
    storedVersion (hashUnder version pepper value) = version := by
  change version / 256 * 256 + version % 256 = version
  omega

namespace CodeHasher

variable {h : CodeHasher} {value : String} {stored : List Nat}

@[simp]
theorem answers_iff : h.answers value stored = true ↔ stored ∈ h.candidateHashes value := by
  simp [answers]

theorem lookup_iff {version : Nat} {pepper : List Nat} :
    h.peppers.lookup version = some pepper ↔ (version, pepper) ∈ h.peppers := by
  have hgen : ∀ l : List (Nat × List Nat), (l.map Prod.fst).Nodup →
      (l.lookup version = some pepper ↔ (version, pepper) ∈ l) := by
    intro l hl
    induction l with
    | nil => simp
    | cons p rest ih =>
      obtain ⟨v, q⟩ := p
      rw [List.map_cons, List.nodup_cons] at hl
      rw [List.lookup_cons, List.mem_cons]
      by_cases hv : version = v
      · subst hv
        have hnot : (version, pepper) ∉ rest := fun hm =>
          hl.1 (List.mem_map.mpr ⟨_, hm, rfl⟩)
        simp [hnot, eq_comm]
      · rw [beq_eq_false_iff_ne.mpr hv]
        simp [hv, ih hl.2]
  exact hgen h.peppers h.keys

theorem mem_candidateHashes : stored ∈ h.candidateHashes value ↔
    ∃ version pepper, (version, pepper) ∈ h.peppers ∧ stored = hashUnder version pepper value := by
  simp only [candidateHashes, List.mem_map, List.mem_mergeSort, Prod.exists, eq_comm]

theorem current_mem (h : CodeHasher) : (h.currentVersion, h.current) ∈ h.peppers := by
  obtain ⟨p, hp, hv⟩ := List.mem_map.mp h.configured
  have hl : h.peppers.lookup h.currentVersion = some p.2 := by
    rw [lookup_iff, ← hv]
    exact hp
  rw [← lookup_iff, current, hl]
  rfl

theorem hash_mem (h : CodeHasher) (value : String) : h.hash value ∈ h.candidateHashes value :=
  mem_candidateHashes.mpr ⟨_, _, h.current_mem, rfl⟩

/-- A stored code is accepted by its version exactly if it is one of the hashes that a look-up
would try. -/
theorem verify_iff : h.verify value stored = true ↔ stored ∈ h.candidateHashes value := by
  rw [mem_candidateHashes]
  unfold verify
  constructor
  · intro hv
    by_cases hl : stored.length ≠ 34
    · rw [if_pos hl] at hv
      cases hv
    · rw [if_neg hl] at hv
      cases hp : h.peppers.lookup (storedVersion stored) with
      | none =>
        rw [hp] at hv
        cases hv
      | some pepper =>
        rw [hp] at hv
        exact ⟨_, pepper, lookup_iff.mp hp, of_decide_eq_true hv⟩
  · rintro ⟨version, pepper, hmem, rfl⟩
    rw [if_neg (by simp [hashUnder_length]), storedVersion_hashUnder, lookup_iff.mpr hmem]
    simp

/-- A hasher that keeps the peppers of another reads what the other wrote. -/
theorem verify_of_subset {h' : CodeHasher} (hsub : h.peppers ⊆ h'.peppers)
    (hv : h.verify value stored = true) : h'.verify value stored = true := by
  rw [verify_iff, mem_candidateHashes] at *
  obtain ⟨version, pepper, hmem, heq⟩ := hv
  exact ⟨version, pepper, hsub hmem, heq⟩

end CodeHasher

end LearningOrbit.Access
