import LearningOrbit.Media.Processor
import LearningOrbit.Media.Uploads

/-!
# Attempts at one bucket

Any number of workers process any uploads at once: attempts start, stop and are repeated, the
store and the scanner answer or do not, answers are lost, rows change, objects come and go. What
stands at the key of a derivative is always made of an upload that was passed.
-/

namespace LearningOrbit.Media.Processor

open LearningOrbit.Threads (Program System Keeps Leads Gives Pool Runs)
open Sanitize (sanitizeImage SanitizeResult)

/-- An object and its content type. -/
structure Body where
  data : Bytes
  contentType : String
  deriving DecidableEq

/-- The tables and the bucket, and what was read, scanned, transcoded and reported so far. -/
structure Site where
  rows : String → Option AssetRow
  objects : String → Option Body
  loaded : List (String × AssetRow)
  scanned : List (Bytes × String)
  transcoded : List (String × Bytes × ℤ × Bytes)
  posted : List OutcomeRequest

def Site.store (w : Site) (key : String) (body : Body) : Site :=
  { w with objects := fun k => if k = key then some body else w.objects k }

def Site.erase (w : Site) (key : String) : Site :=
  { w with objects := fun k => if k = key then none else w.objects k }

/-! ## What a call finds -/

inductive Answers (w : Site) : (op : Op) → Ans op → Site → Prop
  | absent {mediaId : String} (h : w.rows mediaId = none) : Answers w (.load mediaId) none w
  | loaded {mediaId : String} {row : AssetRow} (h : w.rows mediaId = some row) :
      Answers w (.load mediaId) (some row) { w with loaded := (mediaId, row) :: w.loaded }
  | unread {key : String} : Answers w (.get key) none w
  | read {key : String} {status : ℕ} {body : Bytes}
      (h : status = 200 → ∃ o, w.objects key = some o ∧ body = o.data.take (maxObjectBytes + 1)) :
      Answers w (.get key) (some (status, body)) w
  /-- The object was not there, and is now. The answer may be lost, or be an error. -/
  | written {key contentType : String} {data : Bytes} {answer : Option ℕ}
      (h : w.objects key = none) (hanswer : answer ≠ some 412) :
      Answers w (.put key data contentType) answer (w.store key ⟨data, contentType⟩)
  | unwritten {key contentType : String} {data : Bytes} {answer : Option ℕ}
      (h : ∀ status, answer = some status → status ∉ [200, 201, 204]) :
      Answers w (.put key data contentType) answer w
  | scanned {payload data : Bytes} {text : String} (h : Scan.Received payload data) :
      Answers w (.clamd payload) (.line text) { w with scanned := (data, text) :: w.scanned }
  | unscanned {payload : Bytes} {answer : ClamdAnswer} (h : ∀ text, answer ≠ .line text) :
      Answers w (.clamd payload) answer w
  | transcoded {inputFormat : String} {data out : Bytes} {code : ℤ} :
      Answers w (.ffmpeg inputFormat data) (.exited code out)
        { w with transcoded := (inputFormat, data, code, out) :: w.transcoded }
  | untranscoded {inputFormat : String} {data : Bytes} {answer : FfmpegAnswer}
      (h : ∀ code out, answer ≠ .exited code out) : Answers w (.ffmpeg inputFormat data) answer w
  | uuid {id : String} (h : Rooms.uuidFormat id = true) : Answers w .uuid4 id w
  | posted {request : OutcomeRequest} {answer : Option Reply} :
      Answers w (.post request) answer { w with posted := request :: w.posted }
  | unposted {request : OutcomeRequest} : Answers w (.post request) none w

/-- Clients write staged uploads and the server promotes them; rows change, and any object may be
deleted. -/
inductive Disturbs (w : Site) : Site → Prop
  | rows (rows : String → Option AssetRow) : Disturbs w { w with rows }
  | upload {key : String} (body : Body)
      (h : keyPattern "staging" key = true ∨ keyPattern "original" key = true) :
      Disturbs w (w.store key body)
  | erase (key : String) : Disturbs w (w.erase key)

/-- Nothing that was seen is unseen. -/
structure Later (w w' : Site) : Prop where
  loaded : w.loaded ⊆ w'.loaded
  scanned : w.scanned ⊆ w'.scanned
  transcoded : w.transcoded ⊆ w'.transcoded
  posted : w.posted ⊆ w'.posted

theorem Later.refl (w : Site) : Later w w :=
  ⟨List.Subset.refl _, List.Subset.refl _, List.Subset.refl _, List.Subset.refl _⟩

theorem Later.trans {u v w : Site} (h : Later u v) (h' : Later v w) : Later u w :=
  ⟨List.Subset.trans h.loaded h'.loaded, List.Subset.trans h.scanned h'.scanned,
    List.Subset.trans h.transcoded h'.transcoded, List.Subset.trans h.posted h'.posted⟩

theorem Answers.later {w w' : Site} {op : Op} {ans : Ans op} (h : Answers w op ans w') :
    Later w w' := by
  cases h with
  | loaded => exact { Later.refl w with loaded := List.subset_cons_self _ _ }
  | scanned => exact { Later.refl w with scanned := List.subset_cons_self _ _ }
  | transcoded => exact { Later.refl w with transcoded := List.subset_cons_self _ _ }
  | posted => exact { Later.refl w with posted := List.subset_cons_self _ _ }
  | written => exact { Later.refl w with }
  | absent | unread | read | unwritten | unscanned | untranscoded | uuid | unposted =>
    exact Later.refl w

theorem Disturbs.later {w w' : Site} (h : Disturbs w w') : Later w w' := by
  cases h with
  | rows => exact { Later.refl w with }
  | upload => exact { Later.refl w with }
  | erase => exact { Later.refl w with }

def bucket : System Site Op Ans where
  answers := Answers
  disturbs := Disturbs
  later := Later
  later_refl := Later.refl
  later_trans := Later.trans
  answers_later := Answers.later
  disturbs_later := Disturbs.later

/-! ## Keys -/

theorem uuidPattern_length {id : String} (h : Rooms.uuidPattern id = true) : id.length = 36 := by
  simp only [Rooms.uuidPattern, Rooms.uuidFormat, Bool.and_eq_true, decide_eq_true_eq] at h
  have hlength := Uuid.canonical_length h.1.1
  rw [← String.length_toList] at hlength ⊢
  simpa [Rooms.column] using hlength

theorem kindText_injective : Function.Injective kindText := by
  intro a b h
  cases a <;> cases b <;> first | rfl | exact absurd h (by decide)

theorem derivativeKey_toList (roomId mediaId : String) (kind : DerivativeKind) :
    (derivativeKey roomId mediaId kind).toList = "rooms/".toList ++ (roomId.toList ++
      ("/derivative/".toList ++ (mediaId.toList ++ ("/".toList ++ (kindText kind).toList)))) := by
  simp [derivativeKey]

theorem derivativeKey_inj {roomId mediaId roomId' mediaId' : String} {kind kind' : DerivativeKind}
    (hroom : roomId.length = 36) (hmedia : mediaId.length = 36) (hroom' : roomId'.length = 36)
    (hmedia' : mediaId'.length = 36)
    (h : derivativeKey roomId mediaId kind = derivativeKey roomId' mediaId' kind') :
    roomId = roomId' ∧ mediaId = mediaId' ∧ kind = kind' := by
  have hlist := congrArg String.toList h
  rw [derivativeKey_toList, derivativeKey_toList] at hlist
  have hrest := List.append_cancel_left hlist
  obtain ⟨hr, hrest⟩ := List.append_inj hrest (by simp only [String.length_toList, hroom, hroom'])
  obtain ⟨hm, hrest⟩ := List.append_inj (List.append_cancel_left hrest) 
    (by simp only [String.length_toList, hmedia, hmedia'])
  have hk := List.append_cancel_left hrest
  exact ⟨String.toList_injective hr, String.toList_injective hm,
    kindText_injective (String.toList_injective hk)⟩

/-- An upload is at no key of a derivative. -/
theorem keyPattern_derivativeKey {roomId mediaId folder : String} {kind : DerivativeKind}
    (hroom : roomId.length = 36) (hfolder : folder = "staging" ∨ folder = "original") :
    keyPattern folder (derivativeKey roomId mediaId kind) = false := by
  have hlength : (roomId.toList.map Char.toLower).length = 36 := by
    rw [List.length_map, String.length_toList, hroom]
  have htext : (derivativeKey roomId mediaId kind).toList.map Char.toLower =
      "rooms/".toList ++ (roomId.toList.map Char.toLower ++ ("/derivative/".toList ++
        (mediaId.toList ++ ("/".toList ++ (kindText kind).toList)).map Char.toLower)) := by
    rw [derivativeKey_toList]
    simp
  unfold keyPattern
  simp only [htext]
  rw [List.drop_left' (by decide : ("rooms/".toList).length = 6), List.drop_left' hlength]
  rcases hfolder with rfl | rfl <;> simp

/-! ## What is published -/

/-- The row of the media names the upload, and the scanner passed it. -/
def Passed (w : Site) (roomId mediaId : String) (kind : MediaKind) (data : Bytes) : Prop :=
  ∃ row line, (mediaId, row) ∈ w.loaded ∧ row.roomId = roomId ∧ row.kind = kind ∧
    row.sha256 = some (sha256Hex data) ∧ (data, line) ∈ w.scanned ∧ Scan.Passes line

/-- The object is what processing makes of an upload that was passed. -/
inductive Made (w : Site) (roomId mediaId : String) : DerivativeKind → Body → Prop
  | image {data : Bytes} {sanitized : SanitizeResult}
      (passed : Passed w roomId mediaId .image data) (made : sanitizeImage data = .ok sanitized) :
      Made w roomId mediaId .sanitizedImage
        ⟨sanitized.data, sanitizedImageMime sanitized.format⟩
  | audio {data out : Bytes} {inputFormat : String}
      (passed : Passed w roomId mediaId .audio data)
      (made : (inputFormat, data, 0, out) ∈ w.transcoded) :
      Made w roomId mediaId .playbackAudio ⟨out, outputContentType⟩

/-- The entry tells where the object is and what it is, in the shape the server accepts. -/
structure Describes (d : NewDerivative) (roomId mediaId : String) (body : Body) : Prop where
  room : Rooms.uuidPattern roomId = true
  media : Rooms.uuidPattern mediaId = true
  objectKey : d.objectKey = derivativeKey roomId mediaId d.kind
  mime : d.mime = body.contentType
  sizeBytes : d.sizeBytes = body.data.length
  sha256 : d.sha256 = sha256Hex body.data
  accepted : d.accepted = true

/-- The scanner did not pass the upload that the row of the media names. -/
def Stopped (w : Site) (roomId mediaId : String) : Prop :=
  ∃ row data line, (mediaId, row) ∈ w.loaded ∧ row.roomId = roomId ∧
    row.sha256 = some (sha256Hex data) ∧ (data, line) ∈ w.scanned ∧ ¬ Scan.Passes line

/-- The report stands for what was found. -/
structure Honest (w : Site) (r : OutcomeRequest) : Prop where
  paired : r.paired = true
  finished : r.state ≠ .processing
  ready : r.state = .ready → ∃ roomId d body, r.claim.roomId = some roomId ∧ r.derivatives = [d] ∧
    Made w roomId r.mediaId d.kind body ∧ Describes d roomId r.mediaId body
  quarantined : r.state = .quarantined → ∃ roomId, r.claim.roomId = some roomId ∧
    Stopped w roomId r.mediaId

structure Published (w : Site) : Prop where
  objects : ∀ roomId mediaId kind body, Rooms.uuidPattern roomId = true →
    Rooms.uuidPattern mediaId = true → w.objects (derivativeKey roomId mediaId kind) = some body →
    Made w roomId mediaId kind body
  posted : ∀ r ∈ w.posted, Honest w r

section Later

variable {w w' : Site} (hlater : Later w w')
include hlater

theorem Passed.later {roomId mediaId : String} {kind : MediaKind} {data : Bytes}
    (h : Passed w roomId mediaId kind data) : Passed w' roomId mediaId kind data := by
  obtain ⟨row, line, hrow, hroom, hkind, hsha, hscan, hpasses⟩ := h
  exact ⟨row, line, hlater.loaded hrow, hroom, hkind, hsha, hlater.scanned hscan, hpasses⟩

theorem Made.later {roomId mediaId : String} {kind : DerivativeKind} {body : Body}
    (h : Made w roomId mediaId kind body) : Made w' roomId mediaId kind body := by
  cases h with
  | image passed made => exact .image (passed.later hlater) made
  | audio passed made => exact .audio (passed.later hlater) (hlater.transcoded made)

theorem Stopped.later {roomId mediaId : String} (h : Stopped w roomId mediaId) :
    Stopped w' roomId mediaId := by
  obtain ⟨row, data, line, hrow, hroom, hsha, hscan, hpasses⟩ := h
  exact ⟨row, data, line, hlater.loaded hrow, hroom, hsha, hlater.scanned hscan, hpasses⟩

theorem Honest.later {r : OutcomeRequest} (h : Honest w r) : Honest w' r where
  paired := h.paired
  finished := h.finished
  ready hr := by
    obtain ⟨roomId, d, body, hroom, hd, hmade, hdescribes⟩ := h.ready hr
    exact ⟨roomId, d, body, hroom, hd, hmade.later hlater, hdescribes⟩
  quarantined hq := by
    obtain ⟨roomId, hroom, hstopped⟩ := h.quarantined hq
    exact ⟨roomId, hroom, hstopped.later hlater⟩

/-- What writes no derivative and posts nothing keeps what is published. -/
theorem Published.later (h : Published w) (hposted : w'.posted = w.posted)
    (hobjects : ∀ roomId mediaId kind body, Rooms.uuidPattern roomId = true →
      w'.objects (derivativeKey roomId mediaId kind) = some body →
      w.objects (derivativeKey roomId mediaId kind) = some body) : Published w' where
  objects roomId mediaId kind body hroom hmedia hbody :=
    (h.objects roomId mediaId kind body hroom hmedia
      (hobjects roomId mediaId kind body hroom hbody)).later hlater
  posted r hr := (h.posted r (hposted ▸ hr)).later hlater

end Later

theorem Published.disturbs {w w' : Site} (h : Published w) (hd : Disturbs w w') :
    Published w' := by
  refine h.later hd.later (by cases hd <;> rfl) ?_
  intro roomId mediaId kind body hroom hbody
  cases hd with
  | rows => exact hbody
  | @upload key body' hkey =>
    have hne : derivativeKey roomId mediaId kind ≠ key := by
      rintro rfl
      have hlength := uuidPattern_length hroom
      rcases hkey with hkey | hkey
      · rw [keyPattern_derivativeKey hlength (.inl rfl)] at hkey
        cases hkey
      · rw [keyPattern_derivativeKey hlength (.inr rfl)] at hkey
        cases hkey
    simpa [Site.store, hne] using hbody
  | erase key =>
    simp only [Site.erase] at hbody
    split at hbody
    · cases hbody
    · exact hbody

/-! ## What a call keeps -/

abbrev Safe {α : Type} (post : α → Site → Prop) : Program Op Ans α → Site → Prop :=
  Keeps bucket Published post

theorem get_keeps (objectKey : String) (w : Site) :
    Safe (fun r _ => ∀ data digest, r = .ok (data, digest) → digest = sha256Hex data)
      (get objectKey) w := by
  unfold get
  split
  · rintro data digest ⟨⟩
  · intro w₁ ans w₂ _ hi hans
    cases hans with
    | unread =>
      refine ⟨hi, ?_⟩
      rintro data digest ⟨⟩
    | @read _ status body _ =>
      refine ⟨hi, ?_⟩
      dsimp only
      split
      · rintro data digest ⟨⟩
      · split
        · rintro data digest ⟨⟩
        · split
          · rintro data digest ⟨⟩
          · rintro data digest ⟨⟩
            rfl

theorem Published.store {w : Site} {roomId mediaId : String} {kind : DerivativeKind} {body : Body}
    (h : Published w) (hroom : Rooms.uuidPattern roomId = true)
    (hmedia : Rooms.uuidPattern mediaId = true) (hmade : Made w roomId mediaId kind body) :
    Published (w.store (derivativeKey roomId mediaId kind) body) := by
  have hlater : Later w (w.store (derivativeKey roomId mediaId kind) body) :=
    { Later.refl w with }
  refine ⟨?_, fun r hr => (h.posted r hr).later hlater⟩
  intro roomId' mediaId' kind' body' hroom' hmedia' hbody
  simp only [Site.store] at hbody
  split at hbody
  next hkey =>
    cases hbody
    obtain ⟨rfl, rfl, rfl⟩ := derivativeKey_inj (uuidPattern_length hroom')
      (uuidPattern_length hmedia') (uuidPattern_length hroom) (uuidPattern_length hmedia) hkey
    exact hmade.later hlater
  next => exact (h.objects roomId' mediaId' kind' body' hroom' hmedia' hbody).later hlater

theorem put_keeps {w : Site} {roomId mediaId contentType : String} {kind : DerivativeKind}
    {data : Bytes} (hroom : Rooms.uuidPattern roomId = true)
    (hmedia : Rooms.uuidPattern mediaId = true)
    (hmade : Made w roomId mediaId kind ⟨data, contentType⟩) :
    Safe (fun r _ => ∀ digest, r = .ok digest → digest = sha256Hex data)
      (put (derivativeKey roomId mediaId kind) data contentType) w := by
  unfold put
  split
  · rintro digest ⟨⟩
  · split
    · rintro digest ⟨⟩
    · intro w₁ ans w₂ hlater hi hans
      have hi₂ : Published w₂ := by
        cases hans with
        | written => exact hi.store hroom hmedia (hmade.later hlater)
        | unwritten => exact hi
      refine ⟨hi₂, ?_⟩
      rcases ans with _ | status
      · rintro digest ⟨⟩
      · dsimp only
        split
        · rintro digest ⟨⟩
        · split
          · rintro digest ⟨⟩
          · rintro digest ⟨⟩
            rfl

theorem derivativeKey_length {roomId mediaId : String} (kind : DerivativeKind)
    (hroom : roomId.length = 36) (hmedia : mediaId.length = 36) :
    1 ≤ (derivativeKey roomId mediaId kind).length ∧
      (derivativeKey roomId mediaId kind).length ≤ 512 := by
  have hkind : (kindText kind).length ≤ 15 := by cases kind <;> decide
  have hlength : (derivativeKey roomId mediaId kind).length = 91 + (kindText kind).length := by
    simp only [derivativeKey, String.length_append, hroom, hmedia]
    have hparts : "rooms/".length = 6 ∧ "/derivative/".length = 12 ∧ "/".length = 1 := by decide
    omega
  omega

theorem describe_keeps {roomId mediaId mime digest : String} {kind : DerivativeKind} {data : Bytes}
    (hroom : Rooms.uuidPattern roomId = true) (hmedia : Rooms.uuidPattern mediaId = true)
    (hmime : ¬ (mime = "" ∨ maxMimeLength < mime.length)) (hempty : data ≠ [])
    (hsize : ¬ maxDerivativeBytes < data.length) (hdigest : digest = sha256Hex data) (w : Site) :
    Safe (fun r _ => ∀ d, r = .ok d → d.kind = kind ∧ Describes d roomId mediaId ⟨data, mime⟩)
      (describe kind (derivativeKey roomId mediaId kind) mime data digest) w := by
  unfold describe
  split
  · rintro d ⟨⟩
  next hsha =>
    intro w₁ ans w₂ _ hi hans
    cases hans with
    | uuid hid =>
      refine ⟨hi, ?_⟩
      rintro d ⟨⟩
      have hkey := derivativeKey_length kind (uuidPattern_length hroom) (uuidPattern_length hmedia)
      have hpos := List.length_pos_iff.mpr hempty
      rw [not_or] at hmime
      have hmimepos : 1 ≤ mime.length := by
        rw [Nat.one_le_iff_ne_zero]
        exact fun h => hmime.1 (String.length_eq_zero_iff.mp h)
      refine ⟨rfl, hroom, hmedia, rfl, rfl, rfl, hdigest, ?_⟩
      simp only [maxMimeLength, maxDerivativeBytes] at hmime hsize
      simp only [NewDerivative.accepted, hid, Bool.true_and, Bool.and_eq_true, decide_eq_true_eq]
      refine ⟨⟨⟨⟨⟨⟨hkey.1, hkey.2⟩, hmimepos⟩, by omega⟩, hpos⟩, by omega⟩, by simpa using hsha⟩

theorem safeDerivativeObjectKey_ok {roomId mediaId key : String} {kind : DerivativeKind}
    (h : safeDerivativeObjectKey roomId mediaId kind = .ok key) :
    Rooms.uuidPattern roomId = true ∧ Rooms.uuidPattern mediaId = true ∧
      key = derivativeKey roomId mediaId kind := by
  unfold safeDerivativeObjectKey at h
  split at h
  · cases h
  · split at h
    · cases h
    next hids =>
      cases h
      simp only [Bool.or_eq_true, Bool.not_eq_true', not_or, Bool.not_eq_false] at hids
      exact ⟨hids.1, hids.2, rfl⟩

/-- What is written is described as what is there, by this attempt or by an earlier one. -/
theorem writeDerivative_keeps {w : Site} {roomId mediaId mime : String} {kind : DerivativeKind}
    {data : Bytes} (hmade : Made w roomId mediaId kind ⟨data, mime⟩) :
    Safe (fun r _ => ∀ d, r = .ok d → d.kind = kind ∧ Describes d roomId mediaId ⟨data, mime⟩)
      (writeDerivative roomId mediaId kind data mime) w := by
  unfold writeDerivative
  split
  · rintro d ⟨⟩
  next key hkey =>
    obtain ⟨hroom, hmedia, rfl⟩ := safeDerivativeObjectKey_ok hkey
    split
    · rintro d ⟨⟩
    next hmime =>
      split
      · rintro d ⟨⟩
      next hempty =>
        split
        · rintro d ⟨⟩
        next hsize =>
          refine Keeps.bind ((put_keeps hroom hmedia hmade).weaken ?_)
          rintro (code | digest) w' hdigest
          · dsimp only
            split
            · rintro d ⟨⟩
            · refine Keeps.bind ((get_keeps _ w').weaken ?_)
              rintro (code | ⟨stored, digest⟩) w'' -
              · rintro d ⟨⟩
              · dsimp only
                split
                · rintro d ⟨⟩
                next hsame =>
                  exact describe_keeps hroom hmedia hmime hempty hsize (not_not.mp hsame) w''
          · exact describe_keeps hroom hmedia hmime hempty hsize (hdigest digest rfl) w'

theorem transcodeAudio_keeps (data : Bytes) (declaredMime : Option String) (w : Site) :
    Safe (fun r w' => ∀ out, r = .ok out →
        ∃ inputFormat, (inputFormat, data, 0, out) ∈ w'.transcoded)
      (transcodeAudio data declaredMime) w := by
  unfold transcodeAudio
  split
  · rintro out ⟨⟩
  next inputFormat _ =>
    intro w₁ ans w₂ _ hi hans
    cases hans with
    | @transcoded _ _ out code =>
      have hlater : Later w₁ { w₁ with
          transcoded := (inputFormat, data, code, out) :: w₁.transcoded } :=
        { Later.refl w₁ with transcoded := List.subset_cons_self _ _ }
      refine ⟨hi.later hlater rfl fun _ _ _ _ _ h => h, ?_⟩
      dsimp only
      split
      · rintro out ⟨⟩
      next hcode =>
        split
        · rintro out ⟨⟩
        · split
          · rintro out ⟨⟩
          · rintro out' ⟨⟩
            rw [not_not.mp hcode]
            exact ⟨inputFormat, List.mem_cons_self⟩
    | untranscoded hans =>
      refine ⟨hi, ?_⟩
      rcases ans with ⟨code, out⟩ | _ | _ | _
      · exact absurd rfl (hans code out)
      · rintro out ⟨⟩
      · rintro out ⟨⟩
      · rintro out ⟨⟩

-- Elaboration would look for a call in them, and run the text of the MIME type for it.
attribute [local irreducible] transcodeAudio transcode

/-- The derivative of a report that the upload is ready. -/
def Ready (row : MediaRow) (r : Except Raised (List NewDerivative)) (w : Site) : Prop :=
  ∀ derivatives, r = .ok derivatives → ∃ d body, derivatives = [d] ∧
    Made w row.roomId row.mediaId d.kind body ∧ Describes d row.roomId row.mediaId body

theorem transcode_keeps {w : Site} {row : MediaRow} {data : Bytes}
    (hpassed : Passed w row.roomId row.mediaId .audio data) :
    Safe (Ready row) (transcode row data) w := by
  unfold transcode
  refine Keeps.bind ((transcodeAudio_keeps data row.detectedMime w).ends.weaken ?_)
  rintro (code | out) w₁ ⟨hlater, hout⟩
  · rintro derivatives ⟨⟩
  · obtain ⟨inputFormat, hmem⟩ := hout out rfl
    have hmade : Made w₁ row.roomId row.mediaId .playbackAudio ⟨out, outputContentType⟩ :=
      .audio (hpassed.later hlater) hmem
    refine Keeps.bind ((writeDerivative_keeps hmade).ends.weaken ?_)
    rintro (code | d) w₂ ⟨hlater₂, hd⟩
    · rintro derivatives ⟨⟩
    · rintro derivatives ⟨⟩
      obtain ⟨hkind, hdescribes⟩ := hd d rfl
      exact ⟨d, _, rfl, hkind ▸ hmade.later hlater₂, hdescribes⟩

theorem scan_keeps (h : Host) (data : Bytes) (w : Site) :
    Safe (fun r w' => ∀ verdict, r = .ok verdict →
        ∃ line, (data, line) ∈ w'.scanned ∧ (verdict.clean = true ↔ Scan.Passes line))
      (scan h data) w := by
  unfold scan
  split
  · rintro verdict ⟨⟩
  · intro w₁ ans w₂ _ hi hans
    cases hans with
    | @scanned _ data' text hreceived =>
      have hlater : Later w₁ { w₁ with scanned := (data', text) :: w₁.scanned } :=
        { Later.refl w₁ with scanned := List.subset_cons_self _ _ }
      refine ⟨hi.later hlater rfl fun _ _ _ _ _ h => h, ?_⟩
      obtain rfl := Scan.received_frames.mp hreceived
      intro verdict hverdict
      exact ⟨text, List.mem_cons_self, Scan.interpret_clean hverdict⟩
    | unscanned hans =>
      refine ⟨hi, ?_⟩
      rcases ans with text | _ | _
      · exact absurd rfl (hans text)
      · rintro verdict ⟨⟩
      · rintro verdict ⟨⟩

theorem report_keeps {w : Site} {job : Job} {row : MediaRow} {state : OutcomeState}
    {failureCode : Option String} {derivatives : List NewDerivative}
    (hhonest : ∀ id, Honest w (job.request row id state failureCode derivatives)) :
    Safe (fun _ _ => True) (report job row state failureCode derivatives) w := by
  unfold report
  split
  · trivial
  · intro w₁ id w₂ hlater₁ hi₁ hans₁
    have hi₂ : Published w₂ := by
      cases hans₁ with
      | uuid => exact hi₁
    have hlater₂ : Later w w₂ := hlater₁.trans hans₁.later
    refine ⟨hi₂, ?_⟩
    intro w₃ ans w₄ hlater₃ hi₃ hans₃
    have hi₄ : Published w₄ := by
      cases hans₃ with
      | posted =>
        have hlater : Later w₃ { w₃ with
            posted := job.request row id state failureCode derivatives :: w₃.posted } :=
          { Later.refl w₃ with posted := List.subset_cons_self _ _ }
        refine ⟨fun roomId mediaId kind body hroom hmedia hbody =>
          (hi₃.objects roomId mediaId kind body hroom hmedia hbody).later hlater, ?_⟩
        intro r hr
        obtain rfl | hr := List.mem_cons.mp hr
        · exact (hhonest id).later ((hlater₂.trans hlater₃).trans hlater)
        · exact (hi₃.posted r hr).later hlater
      | unposted => exact hi₃
    refine ⟨hi₄, ?_⟩
    rcases ans with _ | reply
    · trivial
    · dsimp only
      split
      · trivial
      · split <;> trivial

/-! ## Whole attempts -/

section Attempts

variable {w : Site} {job : Job} {row : MediaRow}

theorem honest_failed (code : String) (id : String) :
    Honest w (job.request row id .failed (some code) []) where
  paired := rfl
  finished := by simp [Job.request]
  ready h := by cases h
  quarantined h := by cases h

theorem honest_quarantined (hstopped : Stopped w row.roomId row.mediaId) (code : String)
    (id : String) : Honest w (job.request row id .quarantined (some code) []) where
  paired := rfl
  finished := by simp [Job.request]
  ready h := by cases h
  quarantined _ := ⟨row.roomId, rfl, hstopped⟩

theorem honest_ready {d : NewDerivative} {body : Body}
    (hmade : Made w row.roomId row.mediaId d.kind body)
    (hdescribes : Describes d row.roomId row.mediaId body) (id : String) :
    Honest w (job.request row id .ready none [d]) where
  paired := by simp [OutcomeRequest.paired, Job.request]
  finished := by simp [Job.request]
  ready _ := ⟨row.roomId, d, body, rfl, rfl, hmade, hdescribes⟩
  quarantined h := by cases h

theorem publish_keeps {data : Bytes} (hpassed : Passed w row.roomId row.mediaId row.kind data) :
    Safe (fun _ _ => True) (publish job row data) w := by
  unfold publish
  split
  next hkind =>
    rw [hkind] at hpassed
    split
    · exact report_keeps (honest_failed _)
    next sanitized hok =>
      have hmade : Made w row.roomId row.mediaId .sanitizedImage
          ⟨sanitized.data, sanitizedImageMime sanitized.format⟩ := .image hpassed hok
      refine Keeps.bind ((writeDerivative_keeps hmade).ends.weaken ?_)
      rintro (code | d) w₁ ⟨hlater, hd⟩
      · trivial
      · obtain ⟨hd_kind, hdescribes⟩ := hd d rfl
        exact report_keeps (honest_ready (hd_kind ▸ hmade.later hlater) hdescribes)
  next hkind =>
    rw [hkind] at hpassed
    split
    · exact report_keeps (honest_failed _)
    · refine Keeps.bind ((transcode_keeps hpassed).weaken ?_)
      rintro (raised | derivatives) w₁ hready
      · trivial
      · obtain ⟨d, body, rfl, hmade, hdescribes⟩ := hready derivatives rfl
        exact report_keeps (honest_ready hmade hdescribes)

/-- An attempt read the row. -/
def Named (w : Site) (row : MediaRow) : Prop :=
  ∃ found, (row.mediaId, found) ∈ w.loaded ∧ found.roomId = row.roomId ∧ found.kind = row.kind ∧
    found.sha256 = some row.sha256

theorem mediaRow_ok {mediaId roomId : String} {found : Option AssetRow}
    (h : mediaRow mediaId roomId found = .ok row) :
    ∃ a, found = some a ∧ row.mediaId = mediaId ∧ a.roomId = row.roomId ∧ a.kind = row.kind ∧
      a.sha256 = some row.sha256 := by
  unfold mediaRow at h
  split at h
  · cases h
  next a =>
    split at h
    · cases h
    · split at h
      next objectKey sha256 _ hsha =>
        split at h
        · cases h
        · cases h
          exact ⟨a, rfl, rfl, rfl, rfl, hsha⟩
      · cases h

theorem judge_keeps {data : Bytes} {digest : String} (hnamed : Named w row)
    (hdigest : digest = sha256Hex data) :
    Safe (fun _ _ => True) (judge job row data digest) w := by
  unfold judge
  split
  · exact report_keeps (honest_failed _)
  next hsame =>
    refine Keeps.bind ((scan_keeps job.host data w).ends.weaken ?_)
    rintro (code | verdict) w₁ ⟨hlater, hverdict⟩
    · trivial
    · obtain ⟨line, hscan, hclean⟩ := hverdict verdict rfl
      obtain ⟨found, hfound, hroom, hkind, hsha⟩ := hnamed
      have hnames : found.sha256 = some (sha256Hex data) := by
        rw [hsha, ← not_not.mp hsame, hdigest]
      dsimp only
      split
      next hnot =>
        have hpasses : ¬ Scan.Passes line := by
          rw [← hclean]
          simpa using hnot
        exact report_keeps (honest_quarantined
          ⟨found, data, line, hlater.loaded hfound, hroom, hnames, hscan, hpasses⟩ _)
      next hclear =>
        have hpasses : Scan.Passes line := hclean.mp (by simpa using hclear)
        exact publish_keeps
          ⟨found, line, hlater.loaded hfound, hroom, hkind, hnames, hscan, hpasses⟩

theorem process_keeps (job : Job) (w : Site) : Safe (fun _ _ => True) (process job) w := by
  intro w₁ found w₂ _ hi₁ hans
  have hi₂ : Published w₂ := by
    cases hans with
    | absent => exact hi₁
    | @loaded _ row _ =>
      have hlater : Later w₁ { w₁ with loaded := (job.mediaId, row) :: w₁.loaded } :=
        { Later.refl w₁ with loaded := List.subset_cons_self _ _ }
      exact hi₁.later hlater rfl fun _ _ _ _ _ h => h
  refine ⟨hi₂, ?_⟩
  dsimp only
  split
  · trivial
  next row hrow =>
    obtain ⟨a, rfl, hmedia, hroom, hkind, hsha⟩ := mediaRow_ok hrow
    have hnamed : Named w₂ row := by
      cases hans with
      | loaded => exact ⟨a, hmedia ▸ List.mem_cons_self, hroom, hkind, hsha⟩
    refine Keeps.bind ((get_keeps row.objectKey w₂).ends.weaken ?_)
    rintro (code | ⟨data, digest⟩) w₃ ⟨hlater, hdigest⟩
    · trivial
    · obtain ⟨found, hfound, hfound'⟩ := hnamed
      exact judge_keeps ⟨found, hlater.loaded hfound, hfound'⟩ (hdigest data digest rfl)

end Attempts

/-- Any number of workers, on any jobs. -/
abbrev Processing : Site → Pool Site Op Ans (Except Raised HandlerOutcome) → Prop :=
  Runs bucket fun p => ∃ job, p = process job

/-- Nothing is published yet. -/
structure Fresh (w : Site) : Prop where
  empty : ∀ roomId mediaId kind, Rooms.uuidPattern roomId = true →
    Rooms.uuidPattern mediaId = true → w.objects (derivativeKey roomId mediaId kind) = none
  silent : w.posted = []

theorem published {start : Site} {pool : Pool Site Op Ans (Except Raised HandlerOutcome)}
    (hfresh : Fresh start) (h : Processing start pool) : Published pool.world := by
  refine h.invariant ?_ (fun _ _ => Published.disturbs) ⟨?_, ?_⟩
  · rintro p ⟨job, rfl⟩ w
    exact process_keeps job w
  · intro roomId mediaId kind body hroom hmedia hbody
    rw [hfresh.empty roomId mediaId kind hroom hmedia] at hbody
    cases hbody
  · intro r hr
    rw [hfresh.silent] at hr
    cases hr

/-- However attempts interleave, stop and are repeated, every report stands for what was found: a
media is reported ready only with the derivative that processing makes of an upload that its row
names and the scanner passed, and quarantined only if the scanner did not pass it. -/
theorem processing_honest {start : Site} {pool : Pool Site Op Ans (Except Raised HandlerOutcome)}
    (hfresh : Fresh start) (h : Processing start pool) {r : OutcomeRequest}
    (hr : r ∈ pool.world.posted) : Honest pool.world r :=
  (published hfresh h).posted r hr

/-! ## An attempt that is answered -/

abbrev Calls := List (Σ op, Ans op)

theorem uuidPattern_chars {id : String} (h : Rooms.uuidPattern id = true) : '.' ∉ id.toList := by
  intro hdot
  simp only [Rooms.uuidPattern, Rooms.uuidFormat, Bool.and_eq_true, decide_eq_true_eq] at h
  have hcanonical := h.1.1
  have hmem : '.' ∈ (Rooms.column id).toList := by
    simp only [Rooms.column, String.toList_ofList]
    exact List.mem_map_of_mem (f := Char.toLower) hdot
  unfold Uuid.canonical at hcanonical
  dsimp only at hcanonical
  split at hcanonical
  next hdigits =>
    rw [← Option.some.inj hcanonical] at hmem
    rcases Uuid.mem_format hmem with hmem | hmem
    · exact absurd (List.all_eq_true.mp hdigits.2 _ hmem) (by decide)
    · exact absurd hmem (by decide)
  · cases hcanonical

theorem mem_of_mem_splitOn {x c : Char} {text part : List Char} (hpart : part ∈ text.splitOn x)
    (hc : c ∈ part) : c ∈ text := by
  induction text generalizing part with
  | nil =>
    rw [List.splitOn_nil, List.mem_singleton] at hpart
    rwa [hpart] at hc
  | cons d text ih =>
    rw [List.splitOn_cons_eq_if_modifyHead] at hpart
    split at hpart
    · obtain rfl | hpart := List.mem_cons.mp hpart
      · cases hc
      · exact List.mem_cons_of_mem _ (ih hpart hc)
    · cases hsplit : text.splitOn x with
      | nil =>
        rw [hsplit] at hpart
        cases hpart
      | cons head parts =>
        rw [hsplit] at ih hpart
        obtain rfl | hpart := List.mem_cons.mp hpart
        · obtain rfl | hc := List.mem_cons.mp hc
          · exact List.mem_cons_self
          · exact List.mem_cons_of_mem _ (ih List.mem_cons_self hc)
        · exact List.mem_cons_of_mem _ (ih (List.mem_cons_of_mem _ hpart) hc)

/-- The key of a derivative stays inside its prefix. -/
theorem keyRefused_derivativeKey {roomId mediaId : String} (kind : DerivativeKind)
    (hroom : Rooms.uuidPattern roomId = true) (hmedia : Rooms.uuidPattern mediaId = true) :
    keyRefused (derivativeKey roomId mediaId kind) = false := by
  have hhead : (derivativeKey roomId mediaId kind).toList.head? = some 'r' := by
    rw [derivativeKey_toList]
    rfl
  have hdots : '.' ∉ (derivativeKey roomId mediaId kind).toList := by
    have hkind : '.' ∉ (kindText kind).toList := by cases kind <;> decide
    rw [derivativeKey_toList]
    simp [uuidPattern_chars hroom, uuidPattern_chars hmedia, hkind]
  have hne : derivativeKey roomId mediaId kind ≠ "" := by
    intro h
    rw [h] at hhead
    cases hhead
  have hparts : ['.', '.'] ∉ (derivativeKey roomId mediaId kind).toList.splitOn '/' :=
    fun hpart => hdots (mem_of_mem_splitOn hpart List.mem_cons_self)
  simp [keyRefused, hne, hhead, hparts]

theorem get_leads {key : String} {data : Bytes} (hkey : keyRefused key = false)
    (hsize : data.length ≤ maxObjectBytes) :
    Leads (get key) [⟨.get key, some (200, data)⟩] (.done (.ok (data, sha256Hex data))) := by
  unfold get
  rw [hkey, if_neg Bool.false_ne_true]
  refine Leads.call _ _ ?_
  dsimp only
  rw [if_neg (by decide), if_neg (by decide), if_neg (by omega)]
  exact .here _

/-- What the store is asked when the copy is written: whether it was there or not, it is there
afterwards. -/
def storeCalls (key : String) (body : Body) (there : Bool) : Calls :=
  if there then
    [⟨.put key body.data body.contentType, some (412 : ℕ)⟩, ⟨.get key, some ((200 : ℕ), body.data)⟩]
  else [⟨.put key body.data body.contentType, some (200 : ℕ)⟩]

theorem put_leads {key mime : String} {data : Bytes} (hkey : keyRefused key = false)
    (hsize : data.length ≤ maxObjectBytes) :
    Leads (put key data mime) [⟨.put key data mime, some (200 : ℕ)⟩]
      (.done (.ok (sha256Hex data))) := by
  unfold put
  rw [if_neg (by omega), hkey, if_neg Bool.false_ne_true]
  exact Leads.call _ _ (.here _)

theorem put_there_leads {key mime : String} {data : Bytes} (hkey : keyRefused key = false)
    (hsize : data.length ≤ maxObjectBytes) :
    Leads (put key data mime) [⟨.put key data mime, some (412 : ℕ)⟩]
      (fail "MEDIA_STORE_ALREADY_WRITTEN") := by
  unfold put
  rw [if_neg (by omega), hkey, if_neg Bool.false_ne_true]
  exact Leads.call _ _ (.here _)

theorem describe_leads {kind : DerivativeKind} {key mime derivativeId : String} {data : Bytes} :
    Leads (describe kind key mime data (sha256Hex data)) [⟨.uuid4, derivativeId⟩]
      (.done (.ok ⟨derivativeId, kind, key, mime, data.length, sha256Hex data⟩)) := by
  unfold describe
  rw [sha256Text_sha256Hex, Bool.not_true, if_neg Bool.false_ne_true]
  exact Leads.call _ _ (.here _)

theorem writeDerivative_leads {roomId mediaId mime derivativeId : String} {kind : DerivativeKind}
    {data : Bytes} (hroom : Rooms.uuidPattern roomId = true)
    (hmedia : Rooms.uuidPattern mediaId = true) (hkind : safeKind kind = true)
    (hmime : ¬ (mime = "" ∨ maxMimeLength < mime.length)) (hempty : data ≠ [])
    (hsize : data.length ≤ maxObjectBytes) (there : Bool) :
    Leads (writeDerivative roomId mediaId kind data mime)
      (storeCalls (derivativeKey roomId mediaId kind) ⟨data, mime⟩ there ++ [⟨.uuid4, derivativeId⟩])
      (.done (.ok ⟨derivativeId, kind, derivativeKey roomId mediaId kind, mime, data.length,
        sha256Hex data⟩)) := by
  have hkey := keyRefused_derivativeKey kind hroom hmedia
  have hsafe : safeDerivativeObjectKey roomId mediaId kind =
      .ok (derivativeKey roomId mediaId kind) := by
    simp [safeDerivativeObjectKey, hkind, hroom, hmedia]
  have hbytes : ¬ maxDerivativeBytes < data.length := by
    simp only [maxObjectBytes, maxDerivativeBytes] at hsize ⊢
    omega
  unfold writeDerivative
  rw [hsafe]
  dsimp only
  rw [if_neg hmime, if_neg hempty, if_neg hbytes]
  cases there with
  | true =>
    change Leads _ (([⟨.put (derivativeKey roomId mediaId kind) data mime, some (412 : ℕ)⟩] : Calls)
      ++ (([⟨.get (derivativeKey roomId mediaId kind), some ((200 : ℕ), data)⟩] : Calls)
        ++ [⟨.uuid4, derivativeId⟩])) _
    refine (put_there_leads hkey hsize).andThen ?_
    dsimp only
    rw [if_neg (by simp)]
    refine (get_leads hkey hsize).andThen ?_
    dsimp only
    rw [if_neg (by simp)]
    exact describe_leads
  | false => exact (put_leads hkey hsize).andThen describe_leads

/-! ### An image -/

section Image

variable {job : Job} {row : AssetRow} {key sha256 line derivativeId transitionId : String}
  {data : Bytes} {sanitized : SanitizeResult}

/-- A job for an image that its row names and the scanner passes. -/
structure Good (job : Job) (row : AssetRow) (key line : String) (data : Bytes)
    (sanitized : SanitizeResult) : Prop where
  room : row.roomId = job.roomId
  kind : row.kind = .image
  objectKey : row.objectKey = some key
  notEmpty : key ≠ ""
  refused : keyRefused key = false
  sha256 : row.sha256 = some (sha256Hex data)
  size : data.length ≤ maxObjectBytes
  passes : Scan.Passes line
  sanitizes : sanitizeImage data = .ok sanitized
  roomUuid : Rooms.uuidPattern job.roomId = true
  mediaUuid : Rooms.uuidPattern job.mediaId = true
  http : job.internalHttp = true

def Job.imageKey (job : Job) : String := derivativeKey job.roomId job.mediaId .sanitizedImage

def imageBody (sanitized : SanitizeResult) : Body :=
  ⟨sanitized.data, sanitizedImageMime sanitized.format⟩

def Job.imageEntry (job : Job) (sanitized : SanitizeResult) (derivativeId : String) :
    NewDerivative :=
  ⟨derivativeId, .sanitizedImage, job.imageKey, sanitizedImageMime sanitized.format,
    sanitized.data.length, sha256Hex sanitized.data⟩

def imageRow (job : Job) (row : AssetRow) (key : String) (data : Bytes) : MediaRow :=
  ⟨job.mediaId, row.roomId, row.kind, key, sha256Hex data, row.detectedMime⟩

def imageRequest (job : Job) (row : AssetRow) (key derivativeId transitionId : String)
    (data : Bytes) (sanitized : SanitizeResult) : OutcomeRequest :=
  job.request (imageRow job row key data) transitionId .ready none
    [job.imageEntry sanitized derivativeId]

def applied : Reply := ⟨some "applied", none⟩

def imageCalls (job : Job) (row : AssetRow) (key line derivativeId transitionId : String)
    (data : Bytes) (sanitized : SanitizeResult) (there : Bool) : Calls :=
  [⟨.load job.mediaId, some row⟩] ++ ([⟨.get key, some ((200 : ℕ), data)⟩] ++
    ([⟨.clamd (Scan.frames data), ClamdAnswer.line line⟩] ++
      ((storeCalls job.imageKey (imageBody sanitized) there ++ [⟨.uuid4, derivativeId⟩]) ++
        [⟨.uuid4, transitionId⟩,
          ⟨.post (imageRequest job row key derivativeId transitionId data sanitized),
            some applied⟩])))

theorem scan_leads (h : Host) (hsize : data.length ≤ maxObjectBytes) (hpasses : Scan.Passes line) :
    Leads (scan h data) [⟨.clamd (Scan.frames data), ClamdAnswer.line line⟩]
      (.done (.ok ⟨true, "MEDIA_SCAN_CLEAN", none⟩)) := by
  have hinterpret : Scan.interpret h line = .ok ⟨true, "MEDIA_SCAN_CLEAN", none⟩ := by
    have hempty : Text.strip line ≠ "" := by
      intro h
      have hok := hpasses.1
      rw [h] at hok
      revert hok
      decide
    simp [Scan.interpret, hempty, hpasses.1, hpasses.2]
  unfold scan
  rw [if_neg (by simp only [Scan.maxScanBytes, maxObjectBytes] at hsize ⊢; omega)]
  refine Leads.call _ _ ?_
  dsimp only
  rw [hinterpret]
  exact .here _

theorem process_leads (hgood : Good job row key line data sanitized)
    (derivativeId transitionId : String) (there : Bool) :
    Leads (process job)
      (imageCalls job row key line derivativeId transitionId data sanitized there)
      (.done (.ok .success)) := by
  have hrow : mediaRow job.mediaId job.roomId (some row) = .ok (imageRow job row key data) := by
    have hsha : sha256Hex data ≠ "" := by
      intro h
      have htext := sha256Text_sha256Hex data
      rw [h] at htext
      cases htext
    simp [mediaRow, hgood.room, hgood.objectKey, hgood.sha256, hgood.notEmpty, hsha, imageRow]
  obtain ⟨-, -, hempty, hlength⟩ := Sanitize.sanitizeImage_sanitized hgood.sanitizes
  have hmime : ¬ (sanitizedImageMime sanitized.format = "" ∨
      maxMimeLength < (sanitizedImageMime sanitized.format).length) := by
    cases sanitized.format <;> decide
  refine Leads.call _ _ ?_
  rw [hrow]
  refine (get_leads hgood.refused hgood.size).andThen ?_
  dsimp only [judge]
  rw [if_neg (by simp [imageRow])]
  refine (scan_leads job.host hgood.size hgood.passes).andThen ?_
  dsimp only
  rw [if_neg (by simp)]
  have hkind : (imageRow job row key data).kind = .image := hgood.kind
  unfold publish
  rw [hkind]
  dsimp only
  rw [hgood.sanitizes]
  have hroom : Rooms.uuidPattern row.roomId = true := hgood.room ▸ hgood.roomUuid
  have hwrite : Leads (writeDerivative row.roomId job.mediaId .sanitizedImage sanitized.data
      (sanitizedImageMime sanitized.format))
      (storeCalls (derivativeKey row.roomId job.mediaId .sanitizedImage) (imageBody sanitized) there
        ++ [⟨.uuid4, derivativeId⟩]) _ :=
    writeDerivative_leads hroom hgood.mediaUuid rfl hmime hempty
      (Nat.le_trans hlength hgood.size) there
  have hkey : derivativeKey row.roomId job.mediaId .sanitizedImage = job.imageKey := by
    rw [Job.imageKey, hgood.room]
  rw [hkey] at hwrite
  refine Leads.andThen hwrite ?_
  dsimp only [report]
  rw [hgood.http, if_neg (by simp)]
  refine Leads.call _ _ (Leads.call _ _ ?_)
  exact .here _

theorem read_whole {w : Site} {key : String} {body : Body} (h : w.objects key = some body)
    (hsize : body.data.length ≤ maxObjectBytes) :
    Answers w (.get key) (some (200, body.data)) w :=
  .read fun _ => ⟨body, h, (List.take_of_length_le (by omega)).symm⟩

theorem storeCalls_given {w : Site} {key : String} {body : Body} {there : Bool}
    (hthere : w.objects key = if there then some body else none)
    (hsize : body.data.length ≤ maxObjectBytes) :
    ∃ w', Gives bucket w (storeCalls key body there) w' ∧ w'.objects key = some body ∧
      w'.scanned = w.scanned := by
  cases there with
  | true =>
    have hbody : w.objects key = some body := hthere
    refine ⟨w, .call (.unwritten ?_) (.call (read_whole hbody hsize) (.here w)), hbody, rfl⟩
    rintro status ⟨⟩
    decide
  | false =>
    refine ⟨w.store key body, .call (.written hthere ?_) (.here _), ?_, rfl⟩
    · simp
    · simp [Site.store]

theorem imageCalls_given {w : Site} {original : Body} {there : Bool}
    (hgood : Good job row key line data sanitized) (hrow : w.rows job.mediaId = some row)
    (horiginal : w.objects key = some original) (hdata : original.data = data)
    (hthere : w.objects job.imageKey = if there then some (imageBody sanitized) else none)
    (hderivative : Rooms.uuidFormat derivativeId = true)
    (htransition : Rooms.uuidFormat transitionId = true) :
    ∃ w', Gives bucket w
        (imageCalls job row key line derivativeId transitionId data sanitized there) w' ∧
      w'.objects job.imageKey = some (imageBody sanitized) ∧
      w'.scanned = (data, line) :: w.scanned ∧
      imageRequest job row key derivativeId transitionId data sanitized ∈ w'.posted := by
  subst hdata
  have hlength := (Sanitize.sanitizeImage_sanitized hgood.sanitizes).2.2.2
  let w₁ : Site := { w with loaded := (job.mediaId, row) :: w.loaded }
  let w₂ : Site := { w₁ with scanned := (original.data, line) :: w₁.scanned }
  obtain ⟨w₃, hstore, hbody, hscanned⟩ : ∃ w₃, Gives bucket w₂ (storeCalls job.imageKey
      (imageBody sanitized) there) w₃ ∧ w₃.objects job.imageKey = some (imageBody sanitized) ∧
      w₃.scanned = w₂.scanned := storeCalls_given hthere (Nat.le_trans hlength hgood.size)
  let request := imageRequest job row key derivativeId transitionId original.data sanitized
  refine ⟨{ w₃ with posted := request :: w₃.posted }, ?_, hbody, hscanned, List.mem_cons_self⟩
  refine .call (.loaded hrow) ?_
  refine .call (read_whole (w := w₁) horiginal hgood.size) ?_
  refine .call (.scanned (Scan.received_frames.mpr rfl)) ?_
  refine (hstore.trans (.call (.uuid hderivative) (.here w₃))).trans ?_
  exact .call (.uuid htransition) (.call .posted (.here _))

/-- An attempt that is answered reports its image, beside any others and after any number of
attempts that were not: it writes the copy, or finds it. -/
theorem image_reported {start w : Site}
    {running : List (Program Op Ans (Except Raised HandlerOutcome))} {original : Body}
    (hfresh : Fresh start) (h : Processing start ⟨w, running⟩)
    (hgood : Good job row key line data sanitized) (hrow : w.rows job.mediaId = some row)
    (horiginal : w.objects key = some original) (hdata : original.data = data)
    (hone : ∀ data', Passed w job.roomId job.mediaId .image data' → data' = data)
    (hderivative : Rooms.uuidFormat derivativeId = true)
    (htransition : Rooms.uuidFormat transitionId = true) :
    ∃ w', Processing start ⟨w', .done (.ok .success) :: running⟩ ∧
      w'.objects job.imageKey = some (imageBody sanitized) ∧
      imageRequest job row key derivativeId transitionId data sanitized ∈ w'.posted := by
  obtain ⟨there, hthere⟩ : ∃ there : Bool,
      w.objects job.imageKey = if there then some (imageBody sanitized) else none := by
    cases hobject : w.objects job.imageKey with
    | none => exact ⟨false, rfl⟩
    | some body =>
      refine ⟨true, congrArg some ?_⟩
      have hmade := (published hfresh h).objects _ _ _ _ hgood.roomUuid hgood.mediaUuid hobject
      cases hmade with
      | image passed made =>
        rw [hone _ passed, hgood.sanitizes] at made
        cases made
        rfl
  obtain ⟨w', hgives, hbody, -, hposted⟩ :=
    imageCalls_given hgood hrow horiginal hdata hthere hderivative htransition
  have hstart : Processing start ⟨w, process job :: running⟩ := h.step (.start _ ⟨job, rfl⟩)
  exact ⟨w', hstart.leads (process_leads hgood derivativeId transitionId there) hgives, hbody,
    hposted⟩

end Image

/-! ## One photograph of a leaf -/

def leafKey : String := "rooms/leaf/original/leaf"

def leafRow : AssetRow := ⟨leafRoom, .image, some leafKey, some (sha256Hex Sanitize.photo), none⟩

/-- The photograph is uploaded. -/
def leafSite : Site where
  rows := fun mediaId => if mediaId = leafId then some leafRow else none
  objects := fun key => if key = leafKey then some ⟨Sanitize.photo, "image/jpeg"⟩ else none
  loaded := []
  scanned := []
  transcoded := []
  posted := []

def leafProcess : Job := ⟨.ascii, (leafReport .ready "").claim, leafId, leafRoom, true, true⟩

theorem leafSite_fresh : Fresh leafSite where
  empty roomId mediaId kind hroom hmedia := by
    have hne : derivativeKey roomId mediaId kind ≠ leafKey := by
      intro h
      have hlength := congrArg String.length h
      simp only [derivativeKey, String.length_append, uuidPattern_length hroom,
        uuidPattern_length hmedia] at hlength
      have hparts : "rooms/".length = 6 ∧ leafKey.length = 24 := by decide
      omega
    simp [leafSite, hne]
  silent := rfl

theorem leaf_good :
    Good leafProcess leafRow leafKey "stream: OK" Sanitize.photo Sanitize.sanitizedPhoto where
  room := rfl
  kind := rfl
  objectKey := rfl
  notEmpty := by decide
  refused := by decide +kernel
  sha256 := rfl
  size := by decide
  passes := by decide +kernel
  sanitizes := Sanitize.sanitizeImage_photo
  roomUuid := by decide +kernel
  mediaUuid := by decide +kernel
  http := rfl

def leafDerivative : String := "88888888-8888-4888-8888-888888888888"

def leafRequest : OutcomeRequest :=
  imageRequest leafProcess leafRow leafKey leafDerivative leafTransition Sanitize.photo
    Sanitize.sanitizedPhoto

theorem leaf_runs : ∃ w, Processing leafSite ⟨w, [.done (.ok .success)]⟩ ∧
    w.objects leafProcess.imageKey = some (imageBody Sanitize.sanitizedPhoto) ∧
    w.scanned = [(Sanitize.photo, "stream: OK")] ∧ leafRequest ∈ w.posted := by
  have hthere : leafSite.objects leafProcess.imageKey = none :=
    leafSite_fresh.empty _ _ _ leaf_good.roomUuid leaf_good.mediaUuid
  obtain ⟨w, hgives, hbody, hscanned, hposted⟩ :
      ∃ w, Gives bucket leafSite (imageCalls leafProcess leafRow leafKey "stream: OK" leafDerivative
          leafTransition Sanitize.photo Sanitize.sanitizedPhoto false) w ∧
        w.objects leafProcess.imageKey = some (imageBody Sanitize.sanitizedPhoto) ∧
        w.scanned = (Sanitize.photo, "stream: OK") :: leafSite.scanned ∧ leafRequest ∈ w.posted :=
    imageCalls_given leaf_good rfl rfl rfl hthere (by decide +kernel) (by decide +kernel)
  have hstart : Processing leafSite ⟨leafSite, [process leafProcess]⟩ :=
    Runs.start.step (.start _ ⟨leafProcess, rfl⟩)
  exact ⟨w, hstart.leads (process_leads leaf_good _ _ false) hgives, hbody, hscanned, hposted⟩

theorem processing_honest_leaf : ∃ w, Processing leafSite ⟨w, [.done (.ok .success)]⟩ ∧
    leafRequest ∈ w.posted ∧ Honest w leafRequest := by
  obtain ⟨w, hruns, -, -, hposted⟩ := leaf_runs
  exact ⟨w, hruns, hposted, processing_honest leafSite_fresh hruns hposted⟩

theorem image_reported_leaf : ∃ w, Processing leafSite ⟨w, [.done (.ok .success)]⟩ ∧
    w.objects leafProcess.imageKey = some (imageBody Sanitize.sanitizedPhoto) ∧
    leafRequest ∈ w.posted :=
  image_reported leafSite_fresh .start leaf_good rfl rfl rfl
    (fun _ ⟨_, _, hmem, _⟩ => absurd hmem (List.not_mem_nil)) (by decide +kernel)
    (by decide +kernel)

end LearningOrbit.Media.Processor
