import LearningOrbit.Media.ProcessorRuns

/-!
# Downloads

The server signs a URL for the one key where the derivative of a media belongs, after it has
compared what the store holds there with what the worker reported.
-/

namespace LearningOrbit.Media.Download

open LearningOrbit (Dict)
open LearningOrbit.Threads (Pool)
open Processor
open Sanitize (sanitizeImage SanitizeResult)

/-- The row of the media. -/
structure MediaAssetRecord where
  mediaId : String
  roomId : String
  kind : MediaKind
  state : MediaState

structure ObjectStat where
  objectKey : String
  sizeBytes : ℕ
  sha256 : String
  detectedMime : String

def maxImageBytes : ℕ := 10 * 1024 * 1024

def maxAudioBytes : ℕ := 25 * 1024 * 1024

/-- `IMAGE_MIME` -/
def imageMime : List String := ["image/png", "image/jpeg", "image/webp"]

/-- `AUDIO_MIME` -/
def audioMime : List String :=
  ["audio/webm", "audio/mpeg", "audio/mp4", "audio/wav", "audio/ogg"]

def safeKindOf : MediaKind → DerivativeKind
  | .image => .sanitizedImage
  | .audio => .playbackAudio

/-- `safeDerivativeObjectKey` of the server, of a media. -/
def expectedKey (record : MediaAssetRecord) : Except String String :=
  if !Rooms.uuidPattern record.roomId || !Rooms.uuidPattern record.mediaId then
    .error "INVALID_MEDIA_STATE"
  else .ok (derivativeKey record.roomId record.mediaId (safeKindOf record.kind))

/-- The row the repository selects; `(media_id, kind)` is unique. -/
def selectDerivative (record : MediaAssetRecord) (table : Dict String Derivative) :
    Option Derivative :=
  if record.state = .ready then
    table.values.find? fun d => d.mediaId = record.mediaId && d.kind = safeKindOf record.kind
  else none

def getSafeDerivative (record : MediaAssetRecord) (table : Dict String Derivative) :
    Except String (Option Derivative) :=
  if !Rooms.uuidPattern record.mediaId || !Rooms.uuidPattern record.roomId then
    .error "INVALID_MEDIA_COMMAND"
  else
    match selectDerivative record table with
    | none => .ok none
    | some d => do
      let key ← expectedKey record
      if d.objectKey ≠ key || !sha256Text d.sha256 then .error "INVALID_MEDIA_STATE"
      else return some d

def mimeAllowed : MediaKind → String → Bool
  | .image, mime => mime ∈ imageMime
  | .audio, mime => mime ∈ audioMime

def maxBytes : MediaKind → ℕ
  | .image => maxImageBytes
  | .audio => maxAudioBytes

def assertSafeDerivative (record : MediaAssetRecord) (d : Derivative) : Except String Unit := do
  let key ← expectedKey record
  if d.mediaId ≠ record.mediaId || d.kind ≠ safeKindOf record.kind || d.objectKey ≠ key
      || !mimeAllowed record.kind d.mime || d.sizeBytes < 1 || maxBytes record.kind < d.sizeBytes
      || !sha256Text d.sha256 then .error "INVALID_MEDIA_STATE"
  else return ()

/-- `stat` throws on an object that is not there. -/
def verifiedSafeDerivative (record : MediaAssetRecord) (table : Dict String Derivative)
    (stat : String → Except String ObjectStat) : Except String Derivative := do
  match ← getSafeDerivative record table with
  | none => .error "MEDIA_NOT_READY"
  | some d =>
    assertSafeDerivative record d
    let stored ← stat d.objectKey
    if stored.objectKey ≠ d.objectKey || stored.sizeBytes ≠ d.sizeBytes
        || stored.sha256 ≠ d.sha256 || stored.detectedMime ≠ d.mime then
      .error "STORAGE_DERIVATIVE_IDENTITY_MISMATCH"
    else return d

/-- `createDownloadGrant` up to the key that it signs. -/
def createDownloadGrant (record : Option MediaAssetRecord) (table : Dict String Derivative)
    (stat : String → Except String ObjectStat) : Except String String :=
  match record with
  | none => .error "MEDIA_NOT_FOUND"
  | some record =>
    if record.state ≠ .ready then .error "MEDIA_NOT_READY"
    else do
      let d ← verifiedSafeDerivative record table stat
      return d.objectKey

/-- The store tells what it holds. -/
def Truthful (stat : String → Except String ObjectStat) (w : Site) : Prop :=
  ∀ key stored, stat key = .ok stored → ∃ body, w.objects key = some body ∧
    stored = ⟨key, body.data.length, sha256Hex body.data, body.contentType⟩

theorem expectedKey_ok {record : MediaAssetRecord} {key : String}
    (h : expectedKey record = .ok key) :
    Rooms.uuidPattern record.roomId = true ∧ Rooms.uuidPattern record.mediaId = true ∧
      key = derivativeKey record.roomId record.mediaId (safeKindOf record.kind) := by
  unfold expectedKey at h
  split at h
  · cases h
  next hids =>
    cases h
    simp only [Bool.or_eq_true, Bool.not_eq_true', not_or, Bool.not_eq_false] at hids
    exact ⟨hids.1, hids.2, rfl⟩

theorem verifiedSafeDerivative_ok {record : MediaAssetRecord} {table : Dict String Derivative}
    {stat : String → Except String ObjectStat} {d : Derivative}
    (h : verifiedSafeDerivative record table stat = .ok d) :
    ∃ stored, expectedKey record = .ok d.objectKey ∧ stat d.objectKey = .ok stored ∧
      stored.sizeBytes = d.sizeBytes ∧ stored.sha256 = d.sha256 ∧ stored.detectedMime = d.mime := by
  unfold verifiedSafeDerivative at h
  obtain ⟨found, -, h⟩ := bind_eq_ok.mp h
  split at h
  · cases h
  next d' =>
    obtain ⟨_, hassert, h⟩ := bind_eq_ok.mp h
    obtain ⟨stored, hstat, h⟩ := bind_eq_ok.mp h
    split at h
    · cases h
    next hsame =>
      cases h
      simp only [ne_eq, Bool.or_eq_true, decide_eq_true_eq, not_or, not_not] at hsame
      unfold assertSafeDerivative at hassert
      obtain ⟨key, hkey, hassert⟩ := bind_eq_ok.mp hassert
      split at hassert
      · cases hassert
      next hchecks =>
        simp only [ne_eq, Bool.or_eq_true, decide_eq_true_eq, not_or, not_not] at hchecks
        obtain ⟨⟨⟨⟨⟨⟨-, -⟩, hobject⟩, -⟩, -⟩, -⟩, -⟩ := hchecks
        exact ⟨stored, hobject ▸ hkey, hstat, hsame.1.1.2, hsame.1.2, hsame.2⟩

theorem verifiedSafeDerivative_of {record : MediaAssetRecord} {table : Dict String Derivative}
    {stat : String → Except String ObjectStat} {d : Derivative}
    (hkey : expectedKey record = .ok d.objectKey) (hselect : selectDerivative record table = some d)
    (hmedia : d.mediaId = record.mediaId) (hkind : d.kind = safeKindOf record.kind)
    (hmime : mimeAllowed record.kind d.mime = true) (hpos : 1 ≤ d.sizeBytes)
    (hle : d.sizeBytes ≤ maxBytes record.kind) (hsha : sha256Text d.sha256 = true)
    (hstat : stat d.objectKey = .ok ⟨d.objectKey, d.sizeBytes, d.sha256, d.mime⟩) :
    verifiedSafeDerivative record table stat = .ok d := by
  obtain ⟨hroom, hid, -⟩ := expectedKey_ok hkey
  have hget : getSafeDerivative record table = .ok (some d) := by
    simp [getSafeDerivative, hroom, hid, hselect, hkey, hsha, bind, Except.bind, pure, Except.pure]
  have hassert : assertSafeDerivative record d = .ok () := by
    have hlow : ¬ d.sizeBytes < 1 := by omega
    have hhigh : ¬ maxBytes record.kind < d.sizeBytes := by omega
    simp [assertSafeDerivative, hkey, hmedia, hkind, hmime, hlow, hhigh, hsha, bind, Except.bind,
      pure, Except.pure]
  simp [verifiedSafeDerivative, hget, hassert, hstat, bind, Except.bind, pure, Except.pure]

/-- What the server signs a URL for is made of an upload that the row names and the scanner
passed, and is what the worker reported. -/
theorem downloaded_made {start : Site} {pool : Pool Site Op Ans (Except Raised HandlerOutcome)}
    {record : MediaAssetRecord} {table : Dict String Derivative}
    {stat : String → Except String ObjectStat} {key : String}
    (hfresh : Fresh start) (h : Processing start pool) (hstat : Truthful stat pool.world)
    (hgrant : createDownloadGrant (some record) table stat = .ok key) :
    ∃ body, pool.world.objects key = some body ∧
      Made pool.world record.roomId record.mediaId (safeKindOf record.kind) body := by
  unfold createDownloadGrant at hgrant
  dsimp only at hgrant
  split at hgrant
  · cases hgrant
  · obtain ⟨d, hd, hgrant⟩ := bind_eq_ok.mp hgrant
    cases hgrant
    obtain ⟨stored, hkey, hstored, -⟩ := verifiedSafeDerivative_ok hd
    obtain ⟨body, hbody, -⟩ := hstat _ _ hstored
    obtain ⟨hroom, hmedia, hkey⟩ := expectedKey_ok hkey
    refine ⟨body, hbody, ?_⟩
    rw [hkey] at hbody
    exact (published hfresh h).objects _ _ _ _ hroom hmedia hbody

/-- The row of a derivative is the one the repository selects. -/
theorem selectDerivative_inserted {record : MediaAssetRecord} {before table : Dict String Derivative}
    {d : NewDerivative} (hinsert : insertDerivative record.mediaId before d = .ok table)
    (hstate : record.state = .ready) (hkind : d.kind = safeKindOf record.kind) :
    selectDerivative record table =
      some ⟨record.mediaId, d.kind, d.objectKey, d.mime, d.sizeBytes, d.sha256⟩ := by
  unfold insertDerivative at hinsert
  split at hinsert
  · cases hinsert
  · split at hinsert
    · cases hinsert
    · split at hinsert
      · cases hinsert
      next hfresh =>
        cases hinsert
        let row : Derivative := ⟨record.mediaId, d.kind, d.objectKey, d.mime, d.sizeBytes, d.sha256⟩
        have hrow : row ∈ (before.set d.derivativeId row).values :=
          Dict.mem_values.mpr ⟨d.derivativeId, Dict.get?_set_self _ _ _⟩
        obtain ⟨found, hfound⟩ : ∃ found, selectDerivative record
            (before.set d.derivativeId row) = some found := by
          rw [selectDerivative, if_pos hstate, ← Option.isSome_iff_exists, List.find?_isSome]
          exact ⟨row, hrow, by simp [row, hkind]⟩
        rw [selectDerivative, if_pos hstate] at hfound ⊢
        have hmatches := List.find?_some hfound
        rw [hfound]
        obtain rfl | hold := Dict.mem_values_set (List.mem_of_find?_eq_some hfound)
        · rfl
        · rw [Bool.not_eq_true, List.any_eq_false] at hfresh
          rw [← hkind] at hmatches
          exact absurd hmatches (hfresh found hold)

theorem image_unique {w : Site} {roomId mediaId : String} {body body' : Body}
    (h : Made w roomId mediaId .sanitizedImage body)
    (h' : Made w roomId mediaId .sanitizedImage body')
    (hone : ∀ data data', Passed w roomId mediaId .image data →
      Passed w roomId mediaId .image data' → data = data') : body = body' := by
  cases h with
  | image passed made =>
    cases h' with
    | image passed' made' =>
      obtain rfl := hone _ _ passed passed'
      rw [made] at made'
      cases made'
      rfl

theorem image_bounds {w : Site} {roomId mediaId : String} {body : Body}
    (h : Made w roomId mediaId .sanitizedImage body)
    (hsize : ∀ data, Passed w roomId mediaId .image data → data.length ≤ maxImageBytes) :
    mimeAllowed .image body.contentType = true ∧ body.data.length ≤ maxImageBytes := by
  cases h with
  | @image data sanitized passed made =>
    refine ⟨?_, ?_⟩
    · cases sanitized.format <;> rfl
    · exact Nat.le_trans (Sanitize.sanitizeImage_sanitized made).2.2.2 (hsize data passed)

/-- What the worker reported of an image is served, as long as its object is there, its media has
the one upload, and the upload is no larger than an image may be. -/
theorem reported_served {start : Site} {pool : Pool Site Op Ans (Except Raised HandlerOutcome)}
    {r : OutcomeRequest} {roomId : String} {d : NewDerivative} {body : Body}
    {before table : Dict String Derivative} {stat : String → Except String ObjectStat}
    (hfresh : Fresh start) (h : Processing start pool) (hposted : r ∈ pool.world.posted)
    (hready : r.state = .ready) (hroom : r.claim.roomId = some roomId) (hd : d ∈ r.derivatives)
    (hkind : d.kind = .sanitizedImage) (hinsert : insertDerivative r.mediaId before d = .ok table)
    (hbody : pool.world.objects d.objectKey = some body)
    (hstat : stat d.objectKey =
      .ok ⟨d.objectKey, body.data.length, sha256Hex body.data, body.contentType⟩)
    (hone : ∀ data data', Passed pool.world roomId r.mediaId .image data →
      Passed pool.world roomId r.mediaId .image data' → data = data')
    (hsize : ∀ data, Passed pool.world roomId r.mediaId .image data →
      data.length ≤ maxImageBytes) :
    createDownloadGrant (some ⟨r.mediaId, roomId, .image, .ready⟩) table stat =
      .ok d.objectKey := by
  have hpublished := published hfresh h
  obtain ⟨roomId', d', described, hroom', hderivatives, hmade, hdescribes⟩ :=
    (hpublished.posted r hposted).ready hready
  obtain rfl : roomId' = roomId := Option.some.inj (hroom'.symm.trans hroom)
  obtain rfl : d = d' := by simpa [hderivatives] using hd
  rw [hkind] at hmade
  have hkey : d.objectKey = derivativeKey roomId' r.mediaId .sanitizedImage := by
    rw [hdescribes.objectKey, hkind]
  have hstored : Made pool.world roomId' r.mediaId .sanitizedImage body := by
    rw [hkey] at hbody
    exact hpublished.objects _ _ _ _ hdescribes.room hdescribes.media hbody
  obtain rfl := image_unique hmade hstored hone
  obtain ⟨hmime, hle⟩ := image_bounds hmade hsize
  have haccepted := hdescribes.accepted
  simp only [NewDerivative.accepted, Bool.and_eq_true, decide_eq_true_eq] at haccepted
  obtain ⟨⟨⟨-, hpos⟩, -⟩, hsha⟩ := haccepted
  let record : MediaAssetRecord := ⟨r.mediaId, roomId', .image, .ready⟩
  have hexpected : expectedKey record = .ok d.objectKey := by
    simp only [expectedKey, record, hdescribes.room, hdescribes.media, hkey]
    rfl
  have hselect : selectDerivative record table = some _ :=
    selectDerivative_inserted hinsert rfl hkind
  have hverified := verifiedSafeDerivative_of hexpected hselect rfl hkind
    (hdescribes.mime ▸ hmime) hpos (hdescribes.sizeBytes ▸ hle) hsha
    (hdescribes.mime ▸ hdescribes.sizeBytes ▸ hdescribes.sha256 ▸ hstat)
  rw [createDownloadGrant, if_neg (by simp), hverified]
  rfl

/-! ## The photograph of a leaf -/

/-- A store that is reachable. -/
def statOf (w : Site) (key : String) : Except String ObjectStat :=
  match w.objects key with
  | none => .error "MEDIA_NOT_FOUND"
  | some body => .ok ⟨key, body.data.length, sha256Hex body.data, body.contentType⟩

theorem statOf_truthful (w : Site) : Truthful (statOf w) w := by
  intro key stored h
  unfold statOf at h
  split at h
  · cases h
  next body hbody =>
    cases h
    exact ⟨body, hbody, rfl⟩

theorem statOf_body {w : Site} {key : String} {body : Body} (h : w.objects key = some body) :
    statOf w key = .ok ⟨key, body.data.length, sha256Hex body.data, body.contentType⟩ := by
  simp [statOf, h]

def leafEntry : NewDerivative := leafProcess.imageEntry Sanitize.sanitizedPhoto leafDerivative

def leafRecord : MediaAssetRecord := ⟨leafId, leafRoom, .image, .ready⟩

/-- The row of the report. -/
def leafTable : Dict String Derivative :=
  Dict.empty.set leafDerivative
    ⟨leafId, .sanitizedImage, leafEntry.objectKey, leafEntry.mime, leafEntry.sizeBytes,
      leafEntry.sha256⟩

theorem leafTable_inserted : insertDerivative leafId Dict.empty leafEntry = .ok leafTable := rfl

theorem downloaded_made_leaf : ∃ w body, Processing leafSite ⟨w, [.done (.ok .success)]⟩ ∧
    createDownloadGrant (some leafRecord) leafTable (statOf w) = .ok leafProcess.imageKey ∧
    w.objects leafProcess.imageKey = some body ∧ Made w leafRoom leafId .sanitizedImage body := by
  obtain ⟨w, hruns, hbody, -, -⟩ := leaf_runs
  have hselect : selectDerivative leafRecord leafTable = some _ :=
    selectDerivative_inserted leafTable_inserted rfl rfl
  have hverified := verifiedSafeDerivative_of (by decide +kernel) hselect rfl rfl (by decide)
    (by decide) (by decide) (sha256Text_sha256Hex _) (statOf_body hbody)
  have hgrant : createDownloadGrant (some leafRecord) leafTable (statOf w) =
      .ok leafProcess.imageKey := by
    rw [createDownloadGrant, if_neg (by decide), hverified]
    rfl
  obtain ⟨body, hobject, hmade⟩ :=
    downloaded_made leafSite_fresh hruns (statOf_truthful w) hgrant
  exact ⟨w, body, hruns, hgrant, hobject, hmade⟩

theorem reported_served_leaf : ∃ w, Processing leafSite ⟨w, [.done (.ok .success)]⟩ ∧
    createDownloadGrant (some leafRecord) leafTable (statOf w) = .ok leafProcess.imageKey := by
  obtain ⟨w, hruns, hbody, hscanned, hposted⟩ := leaf_runs
  have hphoto : ∀ data, Passed w leafRoom leafId .image data → data = Sanitize.photo := by
    rintro data ⟨_, line, -, -, -, -, hmem, -⟩
    rw [hscanned, List.mem_singleton] at hmem
    exact congrArg Prod.fst hmem
  have hentry : leafEntry ∈ leafRequest.derivatives := List.mem_cons_self
  have hgrant : createDownloadGrant (some ⟨leafRequest.mediaId, leafRoom, .image, .ready⟩) leafTable
      (statOf w) = .ok leafEntry.objectKey :=
    reported_served (r := leafRequest) (d := leafEntry) leafSite_fresh hruns hposted rfl rfl hentry
      rfl leafTable_inserted hbody (statOf_body hbody)
      (fun data data' h h' => (hphoto data h).trans (hphoto data' h').symm)
      (fun data h => (hphoto data h) ▸ by decide)
  exact ⟨w, hruns, hgrant⟩

end LearningOrbit.Media.Download
