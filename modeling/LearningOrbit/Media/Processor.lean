import LearningOrbit.Threads
import LearningOrbit.Media.Scan
import LearningOrbit.Media.Outcome

/-!
# The media processor

The worker reads the staged upload, scans it, strips it, writes the copy to its own key and
reports. Nothing after the scan runs on a file that was not passed, and the copy is written
once: a second attempt finds the first one's and has to describe that.
-/

namespace LearningOrbit.Media.Processor

open LearningOrbit.Threads (Program)
open LearningOrbit.Jobs (JobClaim)
open Sanitize (sanitizeImage ImageFormat)

def sha256Hex (data : Bytes) : String :=
  String.ofList (Digest.hex (Digest.Sha256.digest (data.map UInt8.toNat)))

/-- A digest is one the server accepts. -/
theorem sha256Text_sha256Hex (data : Bytes) : sha256Text (sha256Hex data) = true := by
  have hlt : ∀ b ∈ Digest.Sha256.digest (data.map UInt8.toNat), b < 256 := by
    intro b hb
    obtain ⟨x, -, hb⟩ := List.mem_flatMap.mp hb
    exact Digest.digits_lt hb
  simp only [sha256Text, sha256Hex, String.length_ofList, String.toList_ofList, Digest.hex_length,
    Digest.Sha256.digest_length, Digest.hex_isHex hlt, decide_true, Bool.and_self]

inductive MediaKind
  | image | audio
  deriving DecidableEq

/-- What `load_media_row` selects. -/
structure AssetRow where
  roomId : String
  kind : MediaKind
  objectKey : Option String
  sha256 : Option String
  detectedMime : Option String
  deriving DecidableEq

structure MediaRow where
  mediaId : String
  roomId : String
  kind : MediaKind
  objectKey : String
  sha256 : String
  detectedMime : Option String
  deriving DecidableEq

/-! ## Calls -/

inductive Op
  | load (mediaId : String)
  | get (objectKey : String)
  /-- A PUT with `If-None-Match: *`. -/
  | put (objectKey : String) (data : Bytes) (contentType : String)
  | clamd (payload : Bytes)
  | ffmpeg (inputFormat : String) (data : Bytes)
  | uuid4
  | post (request : OutcomeRequest)

inductive ClamdAnswer
  | line (text : String)
  | timeout
  | unreachable

inductive FfmpegAnswer
  | exited (code : Int) (out : Bytes)
  | timeout
  | notFound
  | failed

/-- The two members of a response body that are read. -/
structure Reply where
  status : Option String
  code : Option String

/-- A store that does not answer, and a route that cannot be called, give nothing. -/
@[reducible] def Ans : Op → Type
  | .load _ => Option AssetRow
  | .get _ => Option (ℕ × Bytes)
  | .put .. => Option ℕ
  | .clamd _ => ClamdAnswer
  | .ffmpeg .. => FfmpegAnswer
  | .uuid4 => String
  | .post _ => Option Reply

abbrev Attempt (ε α : Type) := Program Op Ans (Except ε α)

def fail {ε α : Type} (error : ε) : Attempt ε α := .done (.error error)

/-! ## The store -/

def maxObjectBytes : ℕ := 25 * 1024 * 1024

/-- The key can climb out of its prefix. -/
def keyRefused (objectKey : String) : Bool :=
  objectKey = "" || objectKey.toList.head? = some '/' || ['.', '.'] ∈ objectKey.toList.splitOn '/'

/-- `PrivateObjectStore.get` -/
def get (objectKey : String) : Attempt String (Bytes × String) :=
  if keyRefused objectKey then fail "MEDIA_STORE_KEY_INVALID"
  else .call (.get objectKey) fun
    | none => fail "MEDIA_STORE_UNREACHABLE"
    | some (status, body) =>
      if status = 404 then fail "MEDIA_STORE_OBJECT_ABSENT"
      else if status ≠ 200 then fail "MEDIA_STORE_READ_REFUSED"
      else if maxObjectBytes < body.length then fail "MEDIA_STORE_OBJECT_TOO_LARGE"
      else .done (.ok (body, sha256Hex body))

/-- `PrivateObjectStore.put`, write-once. -/
def put (objectKey : String) (data : Bytes) (contentType : String) : Attempt String String :=
  if maxObjectBytes < data.length then fail "MEDIA_STORE_OBJECT_TOO_LARGE"
  else if keyRefused objectKey then fail "MEDIA_STORE_KEY_INVALID"
  else .call (.put objectKey data contentType) fun
    | none => fail "MEDIA_STORE_UNREACHABLE"
    | some status =>
      if status = 412 then fail "MEDIA_STORE_ALREADY_WRITTEN"
      else if status ∉ [200, 201, 204] then fail "MEDIA_STORE_WRITE_REFUSED"
      else .done (.ok (sha256Hex data))

/-! ## The derivative -/

def kindText : DerivativeKind → String
  | .thumbnail => "thumbnail"
  | .sanitizedImage => "sanitized_image"
  | .playbackAudio => "playback_audio"
  | .waveform => "waveform"

/-- `SAFE_DERIVATIVE_KINDS` -/
def safeKind : DerivativeKind → Bool
  | .sanitizedImage | .playbackAudio => true
  | _ => false

def derivativeKey (roomId mediaId : String) (kind : DerivativeKind) : String :=
  "rooms/" ++ roomId ++ "/derivative/" ++ mediaId ++ "/" ++ kindText kind

/-- `safe_derivative_object_key` -/
def safeDerivativeObjectKey (roomId mediaId : String) (kind : DerivativeKind) :
    Except String String :=
  if !safeKind kind then .error "MEDIA_DERIVATIVE_KIND_INVALID"
  else if !Rooms.uuidPattern roomId || !Rooms.uuidPattern mediaId then
    .error "MEDIA_DERIVATIVE_IDENTITY_INVALID"
  else .ok (derivativeKey roomId mediaId kind)

def maxDerivativeBytes : ℕ := 26214400

def maxMimeLength : ℕ := 127

/-- The entry of the outcome, under the digest of the object at the key. -/
def describe (kind : DerivativeKind) (objectKey mime : String) (data : Bytes) (digest : String) :
    Attempt String NewDerivative :=
  if !sha256Text digest then fail "MEDIA_DERIVATIVE_DIGEST_INVALID"
  else .call .uuid4 fun derivativeId =>
    .done (.ok ⟨derivativeId, kind, objectKey, mime, data.length, digest⟩)

/-- `write_derivative` -/
def writeDerivative (roomId mediaId : String) (kind : DerivativeKind) (data : Bytes)
    (mime : String) : Attempt String NewDerivative :=
  match safeDerivativeObjectKey roomId mediaId kind with
  | .error code => fail code
  | .ok objectKey =>
    if mime = "" ∨ maxMimeLength < mime.length then fail "MEDIA_DERIVATIVE_MIME_INVALID"
    else if data = [] then fail "MEDIA_DERIVATIVE_EMPTY"
    else if maxDerivativeBytes < data.length then fail "MEDIA_DERIVATIVE_TOO_LARGE"
    else (put objectKey data mime).bind fun
      | .ok digest => describe kind objectKey mime data digest
      | .error code =>
        if code ≠ "MEDIA_STORE_ALREADY_WRITTEN" then fail code
        -- The first copy stands, and the digest has to describe that one.
        else (get objectKey).bind fun
          | .error code => fail code
          | .ok (_, digest) =>
            if digest ≠ sha256Hex data then fail "MEDIA_DERIVATIVE_CONFLICT"
            else describe kind objectKey mime data digest

/-! ## Audio -/

/-- `INPUT_FORMATS` -/
def inputFormats : List (String × String) :=
  [("audio/mpeg", "mp3"), ("audio/mp4", "mp4"), ("audio/aac", "aac"), ("audio/ogg", "ogg"),
    ("audio/webm", "webm"), ("audio/wav", "wav"), ("audio/x-wav", "wav")]

/-- `(mime or "").split(";", 1)[0].strip().lower()` -/
def mimeEssence (mime : Option String) : String :=
  let essence := (mime.getD "").toList.takeWhile (· ≠ ';')
  String.ofList ((Text.strip (String.ofList essence)).toList.map Char.toLower)

def outputContentType : String := "audio/ogg"

def maxOutputBytes : ℕ := 25 * 1024 * 1024

/-- `transcode_audio` -/
def transcodeAudio (data : Bytes) (declaredMime : Option String) : Attempt String Bytes :=
  match inputFormats.lookup (mimeEssence declaredMime) with
  | none => fail "MEDIA_TRANSCODE_FORMAT_UNSUPPORTED"
  | some inputFormat => .call (.ffmpeg inputFormat data) fun
    | .timeout => fail "MEDIA_TRANSCODE_TIMEOUT"
    | .notFound => fail "MEDIA_TRANSCODE_UNAVAILABLE"
    | .failed => fail "MEDIA_TRANSCODE_FAILED"
    | .exited code out =>
      if code ≠ 0 then fail "MEDIA_TRANSCODE_REJECTED"
      else if out = [] then fail "MEDIA_TRANSCODE_EMPTY"
      else if maxOutputBytes < out.length then fail "MEDIA_TRANSCODE_OUTPUT_TOO_LARGE"
      else .done (.ok out)

/-- What ends a job that is not settled. -/
inductive Raised
  | retryable (code : String)
  | terminal (code : String)
  | store (code : String)
  | transcode (code : String)
  | http
  deriving DecidableEq

/-- `FfmpegTranscoder`; a `DerivativeError` is a wait. -/
def transcode (row : MediaRow) (data : Bytes) : Attempt Raised (List NewDerivative) :=
  (transcodeAudio data row.detectedMime).bind fun
    | .error code => fail (.transcode code)
    | .ok out =>
      (writeDerivative row.roomId row.mediaId .playbackAudio out outputContentType).bind fun
        | .error code => fail (.retryable code)
        | .ok derivative => .done (.ok [derivative])

/-! ## The processor -/

/-- What `load_media_row` makes of the row. -/
def mediaRow (mediaId roomId : String) : Option AssetRow → Except Raised MediaRow
  | none => .error (.terminal "MEDIA_ASSET_ABSENT")
  | some row =>
    if row.roomId ≠ roomId then .error (.terminal "MEDIA_ASSET_ROOM_MISMATCH")
    else
      match row.objectKey, row.sha256 with
      | some objectKey, some sha256 =>
        if objectKey = "" ∨ sha256 = "" then .error (.retryable "MEDIA_ASSET_NOT_STAGED")
        else .ok ⟨mediaId, row.roomId, row.kind, objectKey, sha256, row.detectedMime⟩
      | _, _ => .error (.retryable "MEDIA_ASSET_NOT_STAGED")

/-- `ClamAvScanner.scan` -/
def scan (h : Host) (data : Bytes) : Attempt String Scan.ScanResult :=
  if Scan.maxScanBytes < data.length then fail "MEDIA_SCAN_TOO_LARGE"
  else .call (.clamd (Scan.frames data)) fun
    | .timeout => fail "MEDIA_SCAN_TIMEOUT"
    | .unreachable => fail "MEDIA_SCAN_UNREACHABLE"
    | .line text => .done (Scan.interpret h text)

inductive HandlerOutcome
  | success | lostLease
  deriving DecidableEq

/-- Who processes, and for which job. -/
structure Job where
  host : Host
  claim : JobClaim
  mediaId : String
  roomId : String
  internalHttp : Bool
  transcoder : Bool

def Job.request (job : Job) (row : MediaRow) (transitionId : String) (state : OutcomeState)
    (failureCode : Option String) (derivatives : List NewDerivative) : OutcomeRequest where
  claim := { job.claim with
    jobType := "media.process.v1", roomId := some row.roomId, sourceEventId := none }
  mediaId := row.mediaId
  transitionId
  state
  failureCode
  derivatives

/-- `_report` -/
def report (job : Job) (row : MediaRow) (state : OutcomeState) (failureCode : Option String)
    (derivatives : List NewDerivative) : Attempt Raised HandlerOutcome :=
  if !job.internalHttp then fail (.retryable "INTERNAL_HTTP_UNAVAILABLE")
  else .call .uuid4 fun transitionId =>
    .call (.post (job.request row transitionId state failureCode derivatives)) fun
      | none => fail .http
      | some reply =>
        if reply.status = some "applied" ∨ reply.status = some "already_applied" then
          .done (.ok .success)
        else if reply.code = some "JOB_CLAIM_STALE" then .done (.ok .lostLease)
        else fail (.retryable ("MEDIA_OUTCOME_" ++ reply.code.getD "REJECTED"))

/-- `SANITIZED_IMAGE_MIME` -/
def sanitizedImageMime : ImageFormat → String
  | .jpeg => "image/jpeg"
  | .png => "image/png"

/-- After the scan. -/
def publish (job : Job) (row : MediaRow) (data : Bytes) : Attempt Raised HandlerOutcome :=
  match row.kind with
  | .image =>
    match sanitizeImage data with
    | .error refusal => report job row .failed (some refusal.code) []
    | .ok sanitized =>
      (writeDerivative row.roomId row.mediaId .sanitizedImage sanitized.data
          (sanitizedImageMime sanitized.format)).bind fun
        | .error code => fail (.retryable code)
        | .ok derivative => report job row .ready none [derivative]
  | .audio =>
    if !job.transcoder then report job row .failed (some "MEDIA_TRANSCODER_UNAVAILABLE") []
    else (transcode row data).bind fun
      | .error raised => fail raised
      | .ok derivatives => report job row .ready none derivatives

/-- After the read. -/
def judge (job : Job) (row : MediaRow) (data : Bytes) (digest : String) :
    Attempt Raised HandlerOutcome :=
  if digest ≠ row.sha256 then report job row .failed (some "MEDIA_CONTENT_HASH_MISMATCH") []
  else (scan job.host data).bind fun
    | .error code => fail (.retryable code)
    | .ok verdict =>
      if !verdict.clean then report job row .quarantined (some verdict.code) []
      else publish job row data

/-- `MediaProcessor.__call__` -/
def process (job : Job) : Attempt Raised HandlerOutcome :=
  .call (.load job.mediaId) fun found =>
    match mediaRow job.mediaId job.roomId found with
    | .error raised => fail raised
    | .ok row => (get row.objectKey).bind fun
      | .error code => fail (.store code)
      | .ok (data, digest) => judge job row data digest

end LearningOrbit.Media.Processor
