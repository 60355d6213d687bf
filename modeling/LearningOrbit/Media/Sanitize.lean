import LearningOrbit.Frames
import LearningOrbit.Raise
import Mathlib.Data.Nat.Notation

/-!
# Images without their metadata

The worker walks the segments of a JPEG or the chunks of a PNG, copies what an image needs to
look right and drops what describes the camera, the place or the time. Pixels are never
decoded.
-/

namespace LearningOrbit.Media

open LearningOrbit.Frames

abbrev Bytes := List UInt8

namespace Sanitize

def jpegSoi : Bytes := [0xff, 0xd8]

def pngMagic : Bytes := [0x89, 0x50, 0x4e, 0x47, 0x0d, 0x0a, 0x1a, 0x0a]

/-- `_STANDALONE`: markers with no payload length. -/
def standalone : List UInt8 :=
  [0xd8, 0xd9, 0xd0, 0xd1, 0xd2, 0xd3, 0xd4, 0xd5, 0xd6, 0xd7, 0x01]

/-- `_JPEG_DROP` -/
def jpegDrop : List UInt8 :=
  [0xe1, 0xe3, 0xe4, 0xe5, 0xe6, 0xe7, 0xe8, 0xe9, 0xea, 0xeb, 0xec, 0xed, 0xee, 0xef, 0xfe]

def ascii (name : String) : Bytes := name.toList.map fun c => UInt8.ofNat c.toNat

/-- `_PNG_KEEP` -/
def pngKeep : List Bytes :=
  ["IHDR", "PLTE", "IDAT", "IEND", "tRNS", "gAMA", "cHRM", "sRGB", "iCCP", "sBIT", "bKGD",
    "pHYs"].map ascii

/-- `SanitizeError` -/
inductive Refusal
  | notJpeg | jpegMalformed | jpegTruncated
  | notPng | pngMalformed | pngCrc | pngTruncated
  | formatUnsupported
  deriving DecidableEq

def Refusal.code : Refusal → String
  | .notJpeg => "MEDIA_SANITIZE_NOT_JPEG"
  | .jpegMalformed => "MEDIA_SANITIZE_JPEG_MALFORMED"
  | .jpegTruncated => "MEDIA_SANITIZE_JPEG_TRUNCATED"
  | .notPng => "MEDIA_SANITIZE_NOT_PNG"
  | .pngMalformed => "MEDIA_SANITIZE_PNG_MALFORMED"
  | .pngCrc => "MEDIA_SANITIZE_PNG_CRC"
  | .pngTruncated => "MEDIA_SANITIZE_PNG_TRUNCATED"
  | .formatUnsupported => "MEDIA_SANITIZE_FORMAT_UNSUPPORTED"

inductive ImageFormat
  | jpeg | png
  deriving DecidableEq

structure SanitizeResult where
  data : Bytes
  removed : List String
  format : ImageFormat
  deriving DecidableEq

def be16 : Bytes → ℕ
  | hi :: lo :: _ => hi.toNat * 256 + lo.toNat
  | _ => 0

def be32 (t : Bytes) : ℕ := be16 t * 65536 + be16 (t.drop 2)

/-! ## JPEG -/

/-- A segment and its marker; `sized` holds the length too. -/
inductive Segment
  | bare (marker : UInt8)
  | scan (data : Bytes)
  | sized (marker : UInt8) (segment : Bytes)
  deriving DecidableEq

def Segment.write : Segment → Bytes
  | .bare marker => [0xff, marker]
  | .scan data => 0xff :: 0xda :: data
  | .sized marker segment => 0xff :: marker :: segment

def Segment.isScan : Segment → Bool
  | .scan _ => true
  | _ => false

def Segment.kept : Segment → Bool
  | .sized marker _ => marker ∉ jpegDrop
  | _ => true

def appName (marker : UInt8) : String :=
  if 0xe0 ≤ marker ∧ marker ≤ 0xef then "APP" ++ toString (marker.toNat - 0xe0) else "COM"

def Segment.name : Segment → String
  | .sized marker _ => appName marker
  | _ => ""

/-- The segment that starts at the marker. -/
def readMarked (marker : UInt8) (rest : Bytes) : Except Refusal (Segment × Bytes) :=
  if marker ∈ standalone then .ok (.bare marker, rest)
  -- Everything after the start of scan is entropy-coded data.
  else if marker = 0xda then .ok (.scan rest, [])
  else if rest.length < 2 then .error .jpegTruncated
  else if be16 rest < 2 ∨ rest.length < be16 rest then .error .jpegMalformed
  else .ok (.sized marker (rest.take (be16 rest)), rest.drop (be16 rest))

/-- One turn of the loop of `sanitize_jpeg`. Fill bytes may stand before a marker. -/
def readSegment : Bytes → Except Refusal (Segment × Bytes)
  | [] => .error .jpegTruncated
  | b :: t =>
    if b ≠ 0xff then .error .jpegMalformed
    else
      match t.dropWhile (· = 0xff) with
      | [] => .error .jpegTruncated
      | marker :: rest => readMarked marker rest

theorem readMarked_eq_ok {marker : UInt8} {t rest : Bytes} {a : Segment}
    (h : readMarked marker t = .ok (a, rest)) :
    (marker ∈ standalone ∧ a = .bare marker ∧ rest = t) ∨
    (marker = 0xda ∧ a = .scan t ∧ rest = []) ∨
    (marker ∉ standalone ∧ marker ≠ 0xda ∧ 2 ≤ be16 t ∧ be16 t ≤ t.length ∧
      a = .sized marker (t.take (be16 t)) ∧ rest = t.drop (be16 t)) := by
  unfold readMarked at h
  split at h
  next hbare =>
    cases h
    exact .inl ⟨hbare, rfl, rfl⟩
  next hbare =>
    split at h
    next hscan =>
      cases h
      exact .inr (.inl ⟨hscan, rfl, rfl⟩)
    next hscan =>
      split at h
      · cases h
      · split at h
        · cases h
        next hsize =>
          cases h
          exact .inr (.inr ⟨hbare, hscan, by omega, by omega, rfl, rfl⟩)

theorem readSegment_marker {marker : UInt8} (h : marker ≠ 0xff) (t : Bytes) :
    readSegment (0xff :: marker :: t) = readMarked marker t := by
  simp [readSegment, h]

theorem readSegment_eq_ok {t rest : Bytes} {a : Segment} (h : readSegment t = .ok (a, rest)) :
    ∃ marker t', marker ≠ 0xff ∧ t'.length + 2 ≤ t.length ∧
      readMarked marker t' = .ok (a, rest) := by
  cases t with
  | nil => cases h
  | cons b t =>
    simp only [readSegment] at h
    split at h
    · cases h
    · split at h
      · cases h
      next marker t' hdrop =>
        have hne : (marker = 0xff) = False := by
          have := List.head?_dropWhile_not (fun b : UInt8 => decide (b = 0xff)) t
          rw [hdrop] at this
          simpa using this
        have hlength := (List.dropWhile_sublist (l := t) fun b : UInt8 => decide (b = 0xff)).length_le
        rw [hdrop, List.length_cons] at hlength
        exact ⟨marker, t', by simp [hne], by simp; omega, h⟩

theorem be16_append {t : Bytes} (h : 2 ≤ t.length) (after : Bytes) :
    be16 (t ++ after) = be16 t := by
  match t, h with
  | hi :: lo :: t, _ => rfl

theorem be16_take {t : Bytes} {n : ℕ} (hn : 2 ≤ n) : be16 (t.take n) = be16 t := by
  obtain ⟨n, rfl⟩ := Nat.exists_eq_add_of_le' hn
  match t with
  | [] => rfl
  | [_] => rfl
  | hi :: lo :: t => rfl

/-- A sized segment is read back from what it is written as, whatever comes after it. -/
theorem readMarked_sized {marker : UInt8} {t : Bytes} (hbare : marker ∉ standalone)
    (hscan : marker ≠ 0xda) (hsize : 2 ≤ be16 t) (hlength : be16 t ≤ t.length) (after : Bytes) :
    readMarked marker (t.take (be16 t) ++ after) =
      .ok (.sized marker (t.take (be16 t)), after) := by
  have htake : (t.take (be16 t)).length = be16 t := by simp; omega
  have hbe : be16 (t.take (be16 t) ++ after) = be16 t := by
    rw [be16_append (by omega), be16_take hsize]
  unfold readMarked
  rw [if_neg hbare, if_neg hscan, if_neg (by simp; omega), hbe,
    if_neg (by simp only [List.length_append]; omega), List.take_left' htake,
    List.drop_left' htake]

def jpegFormat : Format Refusal UInt8 Segment where
  read := readSegment
  write := Segment.write
  last := Segment.isScan
  write_pos a := by cases a <;> simp [Segment.write]
  shrinks {t a rest} h := by
    obtain ⟨marker, t', -, hlength, hread⟩ := readSegment_eq_ok h
    obtain ⟨-, rfl, rfl⟩ | ⟨-, rfl, rfl⟩ | ⟨-, -, -, hle, rfl, rfl⟩ := readMarked_eq_ok hread
    · simp [Segment.write]; omega
    · simp [Segment.write]; omega
    · simp [Segment.write]; omega
  read_write {t a rest} h hlast after := by
    obtain ⟨marker, t', hfill, -, hread⟩ := readSegment_eq_ok h
    obtain ⟨hbare, rfl, -⟩ | ⟨-, rfl, -⟩ | ⟨hbare, hscan, hsize, hle, rfl, -⟩ :=
      readMarked_eq_ok hread
    · simp only [Segment.write, List.cons_append, List.nil_append]
      rw [readSegment_marker hfill, readMarked, if_pos hbare]
    · cases hlast
    · simp only [Segment.write, List.cons_append]
      rw [readSegment_marker hfill, readMarked_sized hbare hscan hsize hle]
  read_last {t a rest} h hlast := by
    cases a with
    | scan data => rfl
    | bare marker => cases hlast
    | sized marker segment => cases hlast

/-! ## PNG -/

/-- A chunk is a length, a name, data of this length and a checksum. -/
structure Chunk where
  name : Bytes
  chunk : Bytes
  long : 12 ≤ chunk.length
  deriving DecidableEq

def Chunk.isEnd (c : Chunk) : Bool := c.name = ascii "IEND"

def Chunk.kept (c : Chunk) : Bool := c.name ∈ pngKeep

/-- `name.decode("ascii", "replace")` -/
def Chunk.label (c : Chunk) : String :=
  String.ofList (c.name.map fun b => if b < 0x80 then Char.ofNat b.toNat else '\ufffd')

def crcBit (crc : UInt32) : UInt32 :=
  if crc &&& 1 = 1 then (crc >>> 1) ^^^ 0xedb88320 else crc >>> 1

/-- `zlib.crc32` -/
def crc32 (data : Bytes) : UInt32 :=
  data.foldl (fun crc b => Nat.repeat crcBit 8 (crc ^^^ b.toUInt32)) 0xffffffff ^^^ 0xffffffff

example : crc32 (ascii "123456789") = 0xcbf43926 := by decide +kernel

/-- One turn of the loop of `sanitize_png`. -/
def readChunk (t : Bytes) : Except Refusal (Chunk × Bytes) :=
  if t.length < 8 then .error .pngTruncated
  else if h : t.length < be32 t + 12 then .error .pngMalformed
  else
    let chunk := t.take (be32 t + 12)
    let checked := (chunk.drop 4).take (be32 t + 4)
    if (crc32 checked).toNat ≠ be32 (chunk.drop (be32 t + 8)) then .error .pngCrc
    else .ok (⟨(t.drop 4).take 4, chunk, by simp [chunk]; omega⟩, t.drop (be32 t + 12))

theorem be32_append {t : Bytes} (h : 4 ≤ t.length) (after : Bytes) :
    be32 (t ++ after) = be32 t := by
  unfold be32
  rw [be16_append (by omega), List.drop_append_of_le_length (by omega),
    be16_append (by simp; omega)]

theorem be32_take {t : Bytes} {n : ℕ} (hn : 4 ≤ n) : be32 (t.take n) = be32 t := by
  unfold be32
  rw [be16_take (by omega), List.drop_take, be16_take (by omega)]

theorem readChunk_eq_ok {t rest : Bytes} {a : Chunk} (h : readChunk t = .ok (a, rest)) :
    be32 t + 12 ≤ t.length ∧ a.name = (t.drop 4).take 4 ∧ a.chunk = t.take (be32 t + 12) ∧
      rest = t.drop (be32 t + 12) ∧
      (crc32 ((a.chunk.drop 4).take (be32 t + 4))).toNat = be32 (a.chunk.drop (be32 t + 8)) := by
  unfold readChunk at h
  split at h
  · cases h
  · split at h
    · cases h
    next hlength =>
      dsimp only at h
      split at h
      · cases h
      next hcrc =>
        cases h
        exact ⟨by omega, rfl, rfl, rfl, not_not.mp hcrc⟩

/-- A chunk is read back from its own bytes, whatever comes after them. -/
theorem readChunk_append {t rest : Bytes} {a : Chunk} (h : readChunk t = .ok (a, rest))
    (after : Bytes) : readChunk (a.chunk ++ after) = .ok (a, after) := by
  obtain ⟨name, chunk, long⟩ := a
  obtain ⟨hle, rfl, rfl, -, hcrc⟩ := readChunk_eq_ok h
  dsimp only at hcrc ⊢
  have htake : (t.take (be32 t + 12)).length = be32 t + 12 := by simp; omega
  have hbe : be32 (t.take (be32 t + 12) ++ after) = be32 t := by
    rw [be32_append (by omega), be32_take (by omega)]
  have hname : ((t.take (be32 t + 12) ++ after).drop 4).take 4 = (t.drop 4).take 4 := by
    rw [List.drop_append_of_le_length (by omega), List.take_append_of_le_length (by simp; omega),
      List.drop_take, List.take_take, Nat.min_eq_left (by omega)]
  unfold readChunk
  rw [if_neg (by simp; omega), dif_neg (by rw [hbe]; simp; omega)]
  simp only [hbe, List.take_left' htake, List.drop_left' htake, hname, hcrc, ne_eq,
    not_true_eq_false, if_false]

def pngFormat : Format Refusal UInt8 Chunk where
  read := readChunk
  write := Chunk.chunk
  last := Chunk.isEnd
  write_pos a := by have := a.long; omega
  shrinks {t a rest} h := by
    obtain ⟨hle, -, hchunk, rfl, -⟩ := readChunk_eq_ok h
    rw [hchunk]
    simp
    omega
  read_write h _ after := readChunk_append h after
  read_last {t a rest} h _ := by
    have happend := readChunk_append h []
    rwa [List.append_nil] at happend

/-! ## Images -/

def sanitizeJpeg (data : Bytes) : Except Refusal SanitizeResult :=
  if !jpegSoi.isPrefixOf data then .error .notJpeg
  else (jpegFormat.copy Segment.kept jpegSoi [] (data.drop jpegSoi.length)).map fun (out, removed) =>
    ⟨out, removed.map Segment.name, .jpeg⟩

def sanitizePng (data : Bytes) : Except Refusal SanitizeResult :=
  if !pngMagic.isPrefixOf data then .error .notPng
  else (pngFormat.copy Chunk.kept pngMagic [] (data.drop pngMagic.length)).map fun (out, removed) =>
    ⟨out, removed.map Chunk.label, .png⟩

/-- The format is decided by the file's own magic bytes. -/
def sanitizeImage (data : Bytes) : Except Refusal SanitizeResult :=
  if jpegSoi.isPrefixOf data then sanitizeJpeg data
  else if pngMagic.isPrefixOf data then sanitizePng data
  else .error .formatUnsupported

/-- What a file is made of, after its magic bytes. -/
inductive Image
  | jpeg (segments : List Segment)
  | png (chunks : List Chunk)

namespace Image

/-- The file is the image; a PNG may be followed by anything. -/
inductive ReadFrom : Bytes → Image → Prop
  | jpeg {t rest : Bytes} {segments : List Segment} (stream : jpegFormat.Stream t segments rest) :
      ReadFrom (jpegSoi ++ t) (.jpeg segments)
  | png {t rest : Bytes} {chunks : List Chunk} (stream : pngFormat.Stream t chunks rest) :
      ReadFrom (pngMagic ++ t) (.png chunks)

/-- Nothing in the image describes the camera, the place or the time. -/
def Clean : Image → Prop
  | .jpeg segments => ∀ marker segment, .sized marker segment ∈ segments → marker ∉ jpegDrop
  | .png chunks => ∀ c ∈ chunks, c.name ∈ pngKeep

def stripped : Image → Image
  | .jpeg segments => .jpeg (segments.filter Segment.kept)
  | .png chunks => .png (chunks.filter Chunk.kept)

def removed : Image → List String
  | .jpeg segments => (Format.dropped Segment.kept segments).map Segment.name
  | .png chunks => (Format.dropped Chunk.kept chunks).map Chunk.label

def text : Image → Bytes
  | .jpeg segments => jpegSoi ++ segments.flatMap Segment.write
  | .png chunks => pngMagic ++ chunks.flatMap Chunk.chunk

def format : Image → ImageFormat
  | .jpeg _ => .jpeg
  | .png _ => .png

theorem stripped_clean (image : Image) : image.stripped.Clean := by
  cases image with
  | jpeg segments =>
    intro marker segment hmem
    simpa [Segment.kept] using (List.mem_filter.mp hmem).2
  | png chunks =>
    intro c hmem
    simpa [Chunk.kept] using (List.mem_filter.mp hmem).2

end Image

open Image

theorem isPrefixOf_iff {magic data : Bytes} :
    magic.isPrefixOf data = true ↔ ∃ t, data = magic ++ t := by
  rw [List.isPrefixOf_iff_prefix]
  exact ⟨fun ⟨t, h⟩ => ⟨t, h.symm⟩, fun ⟨t, h⟩ => ⟨t, h.symm⟩⟩

theorem sanitizeJpeg_eq_ok {t : Bytes} {result : SanitizeResult} :
    sanitizeJpeg (jpegSoi ++ t) = .ok result ↔ ∃ segments rest, jpegFormat.Stream t segments rest ∧
      result = ⟨(Image.jpeg segments).stripped.text, (Image.jpeg segments).removed, .jpeg⟩ := by
  have hmagic : jpegSoi.isPrefixOf (jpegSoi ++ t) = true := isPrefixOf_iff.mpr ⟨t, rfl⟩
  rw [sanitizeJpeg, hmagic, Bool.not_true, if_neg Bool.false_ne_true, List.drop_left, map_eq_ok]
  constructor
  · rintro ⟨⟨out, removed⟩, hcopy, rfl⟩
    obtain ⟨segments, rest, hstream, rfl, rfl⟩ := Format.copy_eq_ok.mp hcopy
    exact ⟨segments, rest, hstream, rfl⟩
  · rintro ⟨segments, rest, hstream, rfl⟩
    exact ⟨_, Format.copy_eq_ok.mpr ⟨segments, rest, hstream, rfl, rfl⟩, rfl⟩

theorem sanitizePng_eq_ok {t : Bytes} {result : SanitizeResult} :
    sanitizePng (pngMagic ++ t) = .ok result ↔ ∃ chunks rest, pngFormat.Stream t chunks rest ∧
      result = ⟨(Image.png chunks).stripped.text, (Image.png chunks).removed, .png⟩ := by
  have hmagic : pngMagic.isPrefixOf (pngMagic ++ t) = true := isPrefixOf_iff.mpr ⟨t, rfl⟩
  rw [sanitizePng, hmagic, Bool.not_true, if_neg Bool.false_ne_true, List.drop_left, map_eq_ok]
  constructor
  · rintro ⟨⟨out, removed⟩, hcopy, rfl⟩
    obtain ⟨chunks, rest, hstream, rfl, rfl⟩ := Format.copy_eq_ok.mp hcopy
    exact ⟨chunks, rest, hstream, rfl⟩
  · rintro ⟨chunks, rest, hstream, rfl⟩
    exact ⟨_, Format.copy_eq_ok.mpr ⟨chunks, rest, hstream, rfl, rfl⟩, rfl⟩

/-- An image is accepted exactly when it is a stream of well-formed frames; what is written is
the frames that are kept, in their order and byte for byte, and what is dropped is told. -/
theorem sanitizeImage_eq_ok {data : Bytes} {result : SanitizeResult} :
    sanitizeImage data = .ok result ↔
      ∃ image, ReadFrom data image ∧ result = ⟨image.stripped.text, image.removed, image.format⟩ := by
  unfold sanitizeImage
  constructor
  · intro h
    split at h
    next hjpeg =>
      obtain ⟨t, rfl⟩ := isPrefixOf_iff.mp hjpeg
      obtain ⟨segments, rest, hstream, rfl⟩ := sanitizeJpeg_eq_ok.mp h
      exact ⟨_, .jpeg hstream, rfl⟩
    next =>
      split at h
      next hpng =>
        obtain ⟨t, rfl⟩ := isPrefixOf_iff.mp hpng
        obtain ⟨chunks, rest, hstream, rfl⟩ := sanitizePng_eq_ok.mp h
        exact ⟨_, .png hstream, rfl⟩
      · cases h
  · rintro ⟨image, hread, rfl⟩
    cases hread with
    | @jpeg t rest segments hstream =>
      rw [if_pos (isPrefixOf_iff.mpr ⟨t, rfl⟩)]
      exact sanitizeJpeg_eq_ok.mpr ⟨segments, rest, hstream, rfl⟩
    | @png t rest chunks hstream =>
      rw [if_neg (by simp [jpegSoi, pngMagic]), if_pos (isPrefixOf_iff.mpr ⟨t, rfl⟩)]
      exact sanitizePng_eq_ok.mpr ⟨chunks, rest, hstream, rfl⟩

theorem readFrom_stripped {data : Bytes} {image : Image} (h : ReadFrom data image) :
    ReadFrom image.stripped.text image.stripped := by
  cases h with
  | jpeg hstream =>
    exact .jpeg (hstream.filter fun a ha => by cases a <;> first | rfl | cases ha)
  | png hstream =>
    refine .png (hstream.filter fun a ha => ?_)
    rw [Chunk.kept, of_decide_eq_true ha]
    decide

theorem stripped_stripped (image : Image) : image.stripped.stripped = image.stripped := by
  cases image <;> simp [stripped, List.filter_filter]

theorem removed_stripped (image : Image) : image.stripped.removed = [] := by
  cases image <;> simp [stripped, removed, Format.dropped_filter]

theorem length_text_stripped {data : Bytes} {image : Image} (h : ReadFrom data image) :
    image.stripped.text.length ≤ data.length := by
  cases h with
  | @jpeg t rest segments hstream =>
    have hle : (jpegFormat.kept Segment.kept segments).length + rest.length ≤ t.length :=
      hstream.length_kept
    simp only [stripped, text, List.length_append]
    exact Nat.add_le_add_left (Nat.le_of_add_right_le hle) _
  | @png t rest chunks hstream =>
    have hle : (pngFormat.kept Chunk.kept chunks).length + rest.length ≤ t.length :=
      hstream.length_kept
    simp only [stripped, text, List.length_append]
    exact Nat.add_le_add_left (Nat.le_of_add_right_le hle) _

/-- What was sanitized holds no metadata, is sanitized to itself, and is no longer than the
upload. -/
theorem sanitizeImage_sanitized {data : Bytes} {result : SanitizeResult} (h : sanitizeImage data = .ok result) :
    (∃ image, ReadFrom result.data image ∧ image.Clean ∧ image.text = result.data) ∧
      sanitizeImage result.data = .ok ⟨result.data, [], result.format⟩ ∧
      result.data ≠ [] ∧ result.data.length ≤ data.length := by
  obtain ⟨image, hread, rfl⟩ := sanitizeImage_eq_ok.mp h
  refine ⟨⟨_, readFrom_stripped hread, image.stripped_clean, rfl⟩, ?_, ?_,
    length_text_stripped hread⟩
  · refine sanitizeImage_eq_ok.mpr ⟨_, readFrom_stripped hread, ?_⟩
    rw [stripped_stripped, removed_stripped]
    cases image <;> rfl
  · cases image <;> simp [stripped, text, jpegSoi, pngMagic]

/-- A photograph with a place and a comment in it, and a fill byte before its scan. -/
def photo : Bytes :=
  jpegSoi ++ [0xff, 0xe0, 0x00, 0x03, 0x4a] ++ [0xff, 0xe1, 0x00, 0x04, 0x47, 0x50]
    ++ [0xff, 0xfe, 0x00, 0x03, 0x21] ++ [0xff, 0xff, 0xda, 0x01, 0x02, 0xff, 0xd9]

def sanitizedPhoto : SanitizeResult :=
  ⟨jpegSoi ++ [0xff, 0xe0, 0x00, 0x03, 0x4a] ++ [0xff, 0xda, 0x01, 0x02, 0xff, 0xd9],
    ["APP1", "COM"], .jpeg⟩

theorem sanitizeImage_photo : sanitizeImage photo = .ok sanitizedPhoto := by decide +kernel

theorem sanitizeImage_sanitized_photo :
    sanitizeImage sanitizedPhoto.data = .ok ⟨sanitizedPhoto.data, [], .jpeg⟩ :=
  (sanitizeImage_sanitized sanitizeImage_photo).2.1

end Sanitize
end LearningOrbit.Media
