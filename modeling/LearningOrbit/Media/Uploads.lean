import LearningOrbit.Media.Outcome

/-!
# Finalizing an upload

`finalizeUpload` holds the room's session lock from its first transaction to its last, and
talks to the object store in between. Each of its steps is a definition of its own, since a
call may stop after any of them; what the room and its write gate refuse comes in as
`refusal`. Ids the database generates and its transaction timestamps are arguments.
-/

namespace LearningOrbit.Media

open LearningOrbit (Dict)
open LearningOrbit.Jobs (Queue NewJob)

/-- What `stat` says about an object. -/
structure StoredObject where
  sha256 : String
  sizeBytes : Nat
  detectedMime : String
  etag : String
  deriving DecidableEq

def stagingKey (roomId grantId : String) : String := "rooms/" ++ roomId ++ "/staging/" ++ grantId

def originalKey (roomId mediaId : String) : String := "rooms/" ++ roomId ++ "/original/" ++ mediaId

/-- `STAGING_KEY_PATTERN` and `ORIGINAL_KEY_PATTERN`, which ignore case. -/
def keyPattern (folder key : String) : Bool :=
  let isId := fun cs : List Char => cs.length = 36 && cs.all fun c => Uuid.isHex c || c = '-'
  let middle := ("/" ++ folder ++ "/").toList
  let text := key.toList.map Char.toLower
  let rest := text.drop 6
  text.take 6 = "rooms/".toList && isId (rest.take 36)
    && (rest.drop 36).take middle.length = middle && isId (rest.drop (36 + middle.length))

def MediaDb.setGrant (db : MediaDb) (grantId : String) (g : UploadGrant) : MediaDb :=
  { db with grants := db.grants.set grantId g }

/-- The grant of a media; `media_id` is unique. -/
def MediaDb.grantFor? (db : MediaDb) (mediaId roomId : String) : Option (String × UploadGrant) :=
  db.grants.entries.find? fun e => e.2.mediaId = mediaId && e.2.roomId = roomId

structure LockedMedia where
  record : MediaAsset
  grantId : String
  grant : UploadGrant

def lockOwnedMediaAndGrant (db : MediaDb) (mediaId roomId ownerActorId : String) :
    Except String LockedMedia :=
  match (db.asset? mediaId roomId).filter fun a => a.ownerActorId = ownerActorId,
    db.grantFor? mediaId roomId with
  | some record, some (grantId, grant) => .ok ⟨record, grantId, grant⟩
  | _, _ => .error "MEDIA_NOT_FOUND"

/-! ## The jobs -/

def mediaJob (jobType roomId mediaId correlationId jobId : String) (now : Int) : NewJob where
  jobId := jobId
  jobType := jobType
  roomId := some roomId
  sourceEventId := none
  dedupeKey := jobType ++ ":" ++ mediaId
  correlationId := correlationId
  payload := Dict.empty.set "mediaId" (.text mediaId)
  runAfter := now
  createdAt := now

def reconcileJob := mediaJob "media.reconcile-upload.v1"

def processJob := mediaJob "media.process.v1"

/-! ## The repository -/

structure PromotionIntent where
  grantId : String
  objectKey : String
  promotionSourceEtag : String
  promotionSha256 : String
  promotionDestinationKey : String
  promotionCorrelationId : String
  deriving DecidableEq

/-- The grant with a promotion recorded; `window` is how long a copy may take to settle. -/
def UploadGrant.intends (g : UploadGrant) (source : StoredObject) (destinationKey : String)
    (correlationId : String) (window : Nat) (now : Int) : UploadGrant :=
  { g with
    promotionSourceEtag := some source.etag
    promotionSha256 := some source.sha256
    promotionDestinationKey := some destinationKey
    promotionCorrelationId := some (g.promotionCorrelationId.getD correlationId)
    promotionWriteNotAfter :=
      some (max (g.promotionWriteNotAfter.getD (now + window)) (now + window)) }

def recordPromotionIntent (db : MediaDb) (grantId : String) (g : UploadGrant)
    (source : StoredObject) (destinationKey correlationId : String) (window : Nat)
    (jobId : String) (now : Int) : Except String (MediaDb × PromotionIntent) :=
  if !keyPattern "staging" g.objectKey then .error "INVALID_MEDIA_STATE"
  else if !keyPattern "original" destinationKey then .error "INVALID_MEDIA_COMMAND"
  else if !sha256Text source.sha256 || source.etag = "" then .error "OBJECT_IDENTITY_CHANGED"
  else do
    let promotionCorrelationId := g.promotionCorrelationId.getD correlationId
    let queue ← Jobs.insertJobOnce db.queue
      (reconcileJob g.roomId g.mediaId promotionCorrelationId jobId now)
    return ({ db.setGrant grantId (g.intends source destinationKey correlationId window now)
        with queue },
      ⟨grantId, g.objectKey, source.etag, source.sha256, destinationKey, promotionCorrelationId⟩)

def UploadGrant.extended (g : UploadGrant) (window : Nat) (now : Int) : UploadGrant :=
  { g with
    promotionWriteNotAfter := some (max (g.promotionWriteNotAfter.getD now) (now + window)) }

def extendPromotionWriteFenceFromDbTime (db : MediaDb) (grantId : String) (window : Nat)
    (now : Int) : Except String MediaDb :=
  match db.grants.get? grantId with
  | some g => .ok (db.setGrant grantId (g.extended window now))
  | none => .error "MEDIA_UPLOAD_NOT_FOUND"

def MediaAsset.promotes (a : MediaAsset) (objectKey sha256 detectedMime correlationId : String) :
    MediaAsset :=
  { a with
    state := .uploaded
    objectKey := some objectKey
    sha256 := some sha256
    detectedMime := some detectedMime
    promotionCorrelationId := some correlationId
    promotedCk := fun _ => ⟨rfl, rfl, rfl⟩ }

/-- Another asset has the object key, which is unique. -/
def objectKeyTaken (db : MediaDb) (mediaId objectKey : String) : Bool :=
  db.assets.entries.any fun (id, a) => id ≠ mediaId && a.objectKey = some objectKey

/-- The three writes that finalize and reconcile share. -/
def writePromotion (db : MediaDb) (roomId mediaId : String) (a : MediaAsset) (grantId : String)
    (g : UploadGrant) (objectKey sha256 detectedMime correlationId jobId : String) (now : Int) :
    Except String MediaDb :=
  if objectKeyTaken db mediaId objectKey then .error "media_asset_object_key_key"
  else do
    let queue ← Jobs.insertJobOnce db.queue (processJob roomId mediaId correlationId jobId now)
    return { (db.setAsset mediaId (a.promotes objectKey sha256 detectedMime correlationId)).setGrant
      grantId { g with state := .promoted } with queue }

structure Complete where
  state : MediaState
  enqueued : Bool
  deriving DecidableEq

def commitPromotionAndEnqueue (db : MediaDb) (roomId mediaId ownerActorId : String)
    (intent : PromotionIntent) (immutable : StoredObject) (jobId : String) (now : Int) :
    Except String (MediaDb × Complete) :=
  if !keyPattern "original" intent.promotionDestinationKey || !sha256Text immutable.sha256 then
    .error "OBJECT_PROMOTION_MISMATCH"
  else do
    let locked ← lockOwnedMediaAndGrant db mediaId roomId ownerActorId
    if locked.grant.promotionCorrelationId.any (· ≠ intent.promotionCorrelationId) then
      .error "PROMOTION_IDENTITY_MISMATCH"
    else if locked.record.state ≠ .uploadPending then
      if locked.record.objectKey ≠ some intent.promotionDestinationKey
          || locked.record.sha256 ≠ some immutable.sha256 then
        .error "OBJECT_IDENTITY_CHANGED"
      else .ok (db, ⟨.uploaded, false⟩)
    else do
      let db' ← writePromotion db roomId mediaId locked.record locked.grantId locked.grant
        intent.promotionDestinationKey immutable.sha256 immutable.detectedMime
        intent.promotionCorrelationId jobId now
      return (db', ⟨.uploaded, "media.process.v1:" ++ mediaId ∉ db.queue.dedupeKeys⟩)

/-! ## `finalizeUpload` -/

/-- How far a call has come. -/
inductive FinalizeStage
  | locked
  | staged (staging : StoredObject)
  | intended (intent : PromotionIntent)
  | fenced (intent : PromotionIntent)
  | copied (intent : PromotionIntent)
  | checked (intent : PromotionIntent) (immutable : StoredObject)
  deriving DecidableEq

/-- A call under way: its input, what its first transaction read, and where it is. -/
structure Finalizing where
  mediaId : String
  actorId : String
  correlationId : String
  locked : LockedMedia
  stage : FinalizeStage

/-- A conditional copy that has been sent to the store. -/
structure Copy where
  grantId : String
  stagingKey : String
  destinationKey : String
  sourceEtag : String
  expectedSha256 : String
  deriving DecidableEq

/-- A call that is through, or one that goes on. -/
inductive Finalized
  | done (response : Complete)
  | goes (f : Finalizing)

/-- The first transaction and what is decided on it. `clock` is the server's own. -/
def finalizeLocks (db : MediaDb) (stat : String → Option StoredObject) (roomId : String)
    (refusal : Option String) (mediaId actorId correlationId : String) (clock : Int) :
    Except String Finalized :=
  if !Rooms.uuidFormat mediaId || !Rooms.uuidFormat correlationId then
    .error "INVALID_MEDIA_COMMAND"
  else
    match refusal with
    | some error => .error error
    | none => do
      let locked ← lockOwnedMediaAndGrant db mediaId roomId actorId
      match locked.record.state with
      | .quarantined => .error "MEDIA_QUARANTINED"
      | .failed => .error "MEDIA_FAILED"
      | .deleted => .error "MEDIA_DELETED"
      | .uploaded | .processing | .ready =>
        match locked.record.objectKey, locked.record.sha256 with
        | some objectKey, some sha256 =>
          match stat objectKey with
          | none => .error "STORAGE_UNAVAILABLE"
          | some immutable =>
            if immutable.sha256 ≠ sha256 || immutable.sizeBytes ≠ locked.record.sizeBytes then
              .error "OBJECT_IDENTITY_CHANGED"
            else .ok (.done ⟨locked.record.state, false⟩)
        | _, _ => .error "OBJECT_IDENTITY_CHANGED"
      | .uploadPending =>
        if locked.grant.state ≠ .active then .error "MEDIA_UPLOAD_NOT_SETTLED"
        else if clock < locked.grant.effectiveWriteNotAfter && locked.grant.expiresAt < clock then
          .error "MEDIA_UPLOAD_EXPIRED"
        else .ok (.goes ⟨mediaId, actorId, correlationId, locked, .locked⟩)

/-- The staging object is the one that was declared. -/
def finalizeStages (stat : String → Option StoredObject) (f : Finalizing) :
    Except String Finalizing :=
  match stat f.locked.grant.objectKey with
  | none => .error "STORAGE_UNAVAILABLE"
  | some staging =>
    if staging.sizeBytes ≠ f.locked.record.sizeBytes
        || staging.sha256 ≠ f.locked.record.declaredSha256 then
      .error "OBJECT_IDENTITY_CHANGED"
    else .ok { f with stage := .staged staging }

/-- The transaction that records the promotion. -/
def finalizeIntends (db : MediaDb) (roomId : String) (refusal : Option String) (f : Finalizing)
    (staging : StoredObject) (window : Nat) (jobId : String) (now : Int) :
    Except String (MediaDb × Finalizing) :=
  match refusal with
  | some error => .error error
  | none => do
    let latest ← lockOwnedMediaAndGrant db f.mediaId roomId f.actorId
    if latest.grant.promotionCorrelationId.any (· ≠ f.correlationId) then
      .error "PROMOTION_IDENTITY_MISMATCH"
    else do
      let (db, intent) ← recordPromotionIntent db latest.grantId latest.grant staging
        (originalKey roomId f.mediaId) f.correlationId window jobId now
      return (db, { f with stage := .intended intent })

def finalizeExtends (db : MediaDb) (f : Finalizing) (intent : PromotionIntent) (window : Nat)
    (now : Int) : Except String (MediaDb × Finalizing) := do
  let db ← extendPromotionWriteFenceFromDbTime db intent.grantId window now
  return (db, { f with stage := .fenced intent })

/-- `promoteStagingObject` is sent. -/
def finalizeCopies (f : Finalizing) (intent : PromotionIntent) : Copy × Finalizing :=
  (⟨intent.grantId, intent.objectKey, intent.promotionDestinationKey, intent.promotionSourceEtag,
    intent.promotionSha256⟩, { f with stage := .copied intent })

/-- The copy is the object that was promised. -/
def finalizeChecks (stat : String → Option StoredObject) (f : Finalizing)
    (intent : PromotionIntent) : Except String Finalizing :=
  match stat intent.promotionDestinationKey with
  | none => .error "STORAGE_UNAVAILABLE"
  | some immutable =>
    if immutable.sha256 ≠ intent.promotionSha256
        || immutable.sizeBytes ≠ f.locked.record.sizeBytes then
      .error "OBJECT_PROMOTION_MISMATCH"
    else .ok { f with stage := .checked intent immutable }

def finalizeCommits (db : MediaDb) (roomId : String) (refusal : Option String) (f : Finalizing)
    (intent : PromotionIntent) (immutable : StoredObject) (jobId : String) (now : Int) :
    Except String (MediaDb × Complete) :=
  match refusal with
  | some error => .error error
  | none => commitPromotionAndEnqueue db roomId f.mediaId f.actorId intent immutable jobId now

end LearningOrbit.Media
