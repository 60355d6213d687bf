import LearningOrbit.Media.Sanitize
import LearningOrbit.Text

/-!
# Malware scanning

The upload goes to the scanner in frames of a length and as many bytes, and an empty frame ends
it. An answer that is not a plain pass is not one.
-/

namespace LearningOrbit.Media.Scan

open LearningOrbit.Frames
open Sanitize (be16 be32)

def maxScanBytes : ℕ := 25 * 1024 * 1024

def chunkBytes : ℕ := 64 * 1024

/-- `struct.pack(">I", n)` -/
def packBe32 (n : ℕ) : Bytes :=
  [UInt8.ofNat (n / 16777216), UInt8.ofNat (n / 65536), UInt8.ofNat (n / 256), UInt8.ofNat n]

/-- `_frames`, joined. -/
def frames (data : Bytes) : Bytes :=
  if data = [] then packBe32 0
  else
    packBe32 (data.take chunkBytes).length ++ data.take chunkBytes ++ frames (data.drop chunkBytes)
termination_by data.length
decreasing_by
  have hpos : 0 < data.length := List.length_pos_iff.mpr ‹_›
  simp only [List.length_drop, chunkBytes]
  omega

structure ScanResult where
  clean : Bool
  code : String
  signature : Option String
  deriving DecidableEq

def endsWith (text ending : String) : Bool := ending.toList.isSuffixOf text.toList

/-- `text.split(":", 1)[1]`, or the text. -/
def afterColon (text : String) : String :=
  match text.toList.dropWhile (· ≠ ':') with
  | [] => text
  | _ :: rest => String.ofList rest

/-- `signature or None` -/
def orNone (text : String) : Option String := if text = "" then none else some text

def safeSignature (h : Host) (text : String) : Option String :=
  let body := if ':' ∈ text.toList then Text.strip (afterColon text) else text
  match orNone (Text.strip (String.ofList (body.toList.take (body.length - 5)))) with
  | none => none
  | some signature =>
    orNone (String.ofList ((signature.toList.filter fun c =>
      h.isAlnum c || c ∈ ['.', '_', '-']).take 64))

/-- An error is a `ScanUnavailable`. -/
def interpret (h : Host) (line : String) : Except String ScanResult :=
  let text := Text.strip line
  if text = "" then .error "MEDIA_SCAN_EMPTY_RESPONSE"
  else if endsWith text "OK" && !Text.isSubstring "FOUND" text then
    .ok ⟨true, "MEDIA_SCAN_CLEAN", none⟩
  else if endsWith text "FOUND" then .ok ⟨false, "MEDIA_SCAN_INFECTED", safeSignature h text⟩
  else if endsWith text "ERROR" then .error "MEDIA_SCAN_ENGINE_ERROR"
  else .error "MEDIA_SCAN_RESPONSE_UNRECOGNISED"

/-- The scanner passed what it was sent. -/
def Passes (line : String) : Prop :=
  endsWith (Text.strip line) "OK" = true ∧ Text.isSubstring "FOUND" (Text.strip line) = false

instance decidablePasses (line : String) : Decidable (Passes line) :=
  inferInstanceAs (Decidable (_ ∧ _))

theorem interpret_clean {h : Host} {line : String} {result : ScanResult}
    (hok : interpret h line = .ok result) : result.clean = true ↔ Passes line := by
  unfold interpret at hok
  dsimp only at hok
  split at hok
  · cases hok
  · split at hok
    next hpass =>
      cases hok
      simpa [Passes] using hpass
    next hpass =>
      have hnot : ¬ Passes line := by simpa [Passes] using hpass
      split at hok
      · cases hok
        simpa using hnot
      · split at hok <;> cases hok

/-! ## What the scanner receives -/

/-- The bytes of a frame. -/
abbrev Chunk := { c : Bytes // c.length < 2 ^ 32 }

theorem be16_lt (t : Bytes) : be16 t < 2 ^ 16 := by
  match t with
  | [] => exact Nat.two_pow_pos 16
  | [_] => exact Nat.two_pow_pos 16
  | hi :: lo :: t =>
    have hhi := hi.toNat_lt
    have hlo := lo.toNat_lt
    simp only [be16]
    omega

theorem be32_lt (t : Bytes) : be32 t < 2 ^ 32 := by
  have hhi := be16_lt t
  have hlo := be16_lt (t.drop 2)
  simp only [be32]
  omega

theorem be32_packBe32 {n : ℕ} (h : n < 2 ^ 32) (t : Bytes) : be32 (packBe32 n ++ t) = n := by
  simp only [be32, be16, packBe32, List.cons_append, List.nil_append, List.drop_succ_cons,
    List.drop_zero, UInt8.toNat_ofNat']
  omega

theorem readChunk_long (t : Bytes) : ((t.drop 4).take (be32 t)).length < 2 ^ 32 := by
  have hlt := be32_lt t
  rw [List.length_take]
  omega

/-- A frame as the scanner reads it. -/
def readChunk (t : Bytes) : Except Unit (Chunk × Bytes) :=
  if t.length < 4 + be32 t then .error ()
  else .ok (⟨(t.drop 4).take (be32 t), readChunk_long t⟩, t.drop (4 + be32 t))

def Chunk.write (c : Chunk) : Bytes := packBe32 c.val.length ++ c.val

theorem readChunk_write (c : Chunk) (after : Bytes) : readChunk (c.write ++ after) = .ok (c, after) := by
  obtain ⟨c, hc⟩ := c
  have hbe : be32 ((packBe32 c.length ++ c) ++ after) = c.length := by
    rw [List.append_assoc, be32_packBe32 hc]
  unfold readChunk Chunk.write
  rw [if_neg (by rw [hbe]; simp [packBe32]; omega)]
  simp only [hbe]
  simp [packBe32, ← List.drop_drop]

def instream : Format Unit UInt8 Chunk where
  read := readChunk
  write := Chunk.write
  last c := c.val = []
  write_pos c := by simp [Chunk.write, packBe32]
  shrinks {t a rest} h := by
    unfold readChunk at h
    split at h
    · cases h
    next hlength =>
      cases h
      simp [Chunk.write, packBe32]
      omega
  read_write _ _ after := readChunk_write _ after
  read_last {t a rest} _ _ := by
    have hwrite := readChunk_write a []
    rwa [List.append_nil] at hwrite

/-- The scanner is sent these bytes. -/
def Received (payload data : Bytes) : Prop :=
  ∃ chunks, instream.Stream payload chunks [] ∧ data = chunks.flatMap Subtype.val

theorem instream_read (t : Bytes) : instream.read t = readChunk t := rfl

def emptyChunk : Chunk := ⟨[], Nat.two_pow_pos 32⟩

theorem stream_empty : instream.Stream (packBe32 0) [emptyChunk] [] := by
  have hwrite : emptyChunk.write = packBe32 0 := by simp [Chunk.write, emptyChunk]
  have hread := readChunk_write emptyChunk []
  rw [List.append_nil, hwrite, ← instream_read] at hread
  exact .last hread (by simp [instream, emptyChunk])

theorem stream_frames (data : Bytes) :
    ∃ chunks, instream.Stream (frames data) chunks [] ∧ chunks.flatMap Subtype.val = data := by
  fun_induction frames data with
  | case1 => exact ⟨_, stream_empty, rfl⟩
  | case2 data hne ih =>
    obtain ⟨chunks, hstream, hdata⟩ := ih
    have hlt : (data.take chunkBytes).length < 2 ^ 32 := by
      rw [List.length_take]
      simp only [chunkBytes]
      omega
    have hread := readChunk_write ⟨data.take chunkBytes, hlt⟩ (frames (data.drop chunkBytes))
    rw [← instream_read] at hread
    refine ⟨_, .more hread ?_ hstream, ?_⟩
    · simp [instream, chunkBytes, hne]
    · rw [List.flatMap_cons, hdata, List.take_append_drop]

/-- The scanner is sent the upload, whole and nothing else. -/
theorem received_frames {data data' : Bytes} : Received (frames data) data' ↔ data' = data := by
  obtain ⟨chunks, hstream, hdata⟩ := stream_frames data
  constructor
  · rintro ⟨chunks', hstream', rfl⟩
    rw [(hstream'.unique hstream).1, hdata]
  · rintro rfl
    exact ⟨chunks, hstream, hdata.symm⟩

end LearningOrbit.Media.Scan
