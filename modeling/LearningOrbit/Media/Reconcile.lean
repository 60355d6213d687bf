import LearningOrbit.Media.Uploads

/-!
# Reconciling an upload

The reconcile job asks the server what became of a recorded promotion. The route reads the
rows and the store first and then writes what it found, in one transaction under the room
lock.
-/

namespace LearningOrbit.Media

open LearningOrbit (Dict)
open LearningOrbit.Jobs (Queue JobClaim JobRow)

structure ReconcileRequest where
  claim : JobClaim
  mediaId : String

inductive ReconcileResponse
  | completed (code : String)
  | retryable (code : String) (notBefore : Int)
  | rejected (code : String)
  deriving DecidableEq

/-- `parses` leaves no request without one. -/
def ReconcileRequest.roomId (r : ReconcileRequest) : String := r.claim.roomId.getD ""

/-- `mediaInternalReconcileContract.parseRequest`. -/
def ReconcileRequest.parses (r : ReconcileRequest) : Bool :=
  parseClaim "media.reconcile-upload.v1" r.claim && Rooms.uuidFormat r.mediaId

/-- What the route finds before it writes anything. -/
inductive Finding
  | answers (response : ReconcileResponse)
  /-- The asset is uploaded, processing or ready already. -/
  | already
  /-- The copy could not be seen, and its fence has passed. -/
  | abandoned (a : MediaAsset) (grantId : String) (g : UploadGrant)
  | mismatched (a : MediaAsset)
  | settled (a : MediaAsset) (grantId : String) (g : UploadGrant) (destinationKey : String)
    (immutable : StoredObject)

/-- The rows of a media say whether its promotion settled. -/
def promotionFinding (stat : String → Option StoredObject) (clock : Int) (correlationId : String)
    (a : MediaAsset) (grantId : String) (g : UploadGrant) : Finding :=
  if g.promotionCorrelationId.any (· ≠ correlationId) then
    .answers (.rejected "MEDIA_JOB_IDENTITY_MISMATCH")
  else if g.promotionCorrelationId.isNone && a.promotionCorrelationId.any (· ≠ correlationId) then
    .answers (.rejected "MEDIA_JOB_IDENTITY_MISMATCH")
  else if a.objectKey.isSome && a.sha256.isSome && a.state.promoted then .already
  else
    match g.promotionDestinationKey, g.promotionSha256, g.promotionCorrelationId with
    | some destinationKey, some sha256, some _ =>
      match stat destinationKey with
      | none =>
        if clock < g.effectiveWriteNotAfter then
          .answers (.retryable "PROMOTION_NOT_SETTLED" g.effectiveWriteNotAfter)
        else .abandoned a grantId g
      | some immutable =>
        if immutable.sha256 ≠ sha256 || immutable.sizeBytes ≠ a.sizeBytes then .mismatched a
        else .settled a grantId g destinationKey immutable
    | _, _, _ => .answers (.retryable "PROMOTION_NOT_SETTLED" g.effectiveWriteNotAfter)

def reconcileFinding (db : MediaDb) (stat : String → Option StoredObject) (clock : Int)
    (r : ReconcileRequest) : Finding :=
  if !((db.queue.jobs.get? r.claim.jobId).any fun row =>
      jobIdentity r.claim r.mediaId row && row.payload.size = 1) then
    .answers (.rejected "MEDIA_JOB_IDENTITY_MISMATCH")
  else
    match Jobs.requireCurrent "JOB_CLAIM_STALE" db.queue r.claim with
    | .error _ => .answers (.rejected "JOB_CLAIM_STALE")
    | .ok _ =>
      match db.asset? r.mediaId r.roomId, db.grantFor? r.mediaId r.roomId with
      | some a, some (grantId, g) => promotionFinding stat clock r.claim.correlationId a grantId g
      | _, _ => .answers (.rejected "MEDIA_JOB_IDENTITY_MISMATCH")

def MediaAsset.fails (a : MediaAsset) (code : String) : MediaAsset :=
  { a with
    state := .failed
    failureCode := some code
    promotedCk := nofun }

def completeReconcile (db : MediaDb) (claim : JobClaim) (code : String) :
    Except String (ReconcileResponse × MediaDb) := do
  let queue ← Jobs.completeBusiness db.queue claim "MEDIA_RECONCILE_COMPLETED"
  return (.completed code, { db with queue })

/-- What the route makes of its finding. `swept` says whether the staging object is gone. -/
def reconcileWrites (db : MediaDb) (r : ReconcileRequest) (swept : Bool) (clock : Int)
    (jobId : String) (now : Int) : Finding → Except String (ReconcileResponse × MediaDb)
  | .answers response => .ok (response, db)
  | .already => completeReconcile db r.claim "ALREADY_PROMOTED"
  | .abandoned a grantId g =>
    if !swept then .ok (.retryable "PROMOTION_NOT_SETTLED" (clock + 1000000), db)
    else
      let db := (db.setAsset r.mediaId (a.fails "PROMOTION_ABANDONED")).setGrant grantId
        { g with state := .closed }
      completeReconcile db r.claim "PROMOTION_ABANDONED"
  | .mismatched a =>
    completeReconcile (db.setAsset r.mediaId (a.fails "PROMOTION_IDENTITY_MISMATCH")) r.claim
      "PROMOTION_IDENTITY_MISMATCH"
  | .settled a grantId g destinationKey immutable => do
    let db ← writePromotion db r.roomId r.mediaId a grantId g destinationKey immutable.sha256
      immutable.detectedMime r.claim.correlationId jobId now
    completeReconcile db r.claim "PROMOTION_COMMITTED"

/-- `MediaInternalReconcileRoute.handle` up to its finding; `refusal` is what `transact` refuses
the room with. -/
def reconcileBegins (db : MediaDb) (stat : String → Option StoredObject) (assertion : Assertion)
    (refusal : Option String) (r : ReconcileRequest) (clock : Int) : Except String Finding :=
  if !r.parses then .ok (.answers (.rejected "MEDIA_JOB_IDENTITY_MISMATCH"))
  else if !assertion.authorized then .ok (.answers (.rejected "SERVICE_ASSERTION_INVALID"))
  else
    match refusal with
    | some error => .error error
    | none => .ok (reconcileFinding db stat clock r)

/-- `MediaInternalReconcileRoute.handle`. -/
def handleReconcile (db : MediaDb) (stat : String → Option StoredObject) (assertion : Assertion)
    (refusal : Option String) (r : ReconcileRequest) (swept : Bool) (clock : Int) (jobId : String)
    (now : Int) : Except String (ReconcileResponse × MediaDb) := do
  let finding ← reconcileBegins db stat assertion refusal r clock
  match reconcileWrites db r swept clock jobId now finding with
  | .error "JOB_CLAIM_STALE" => .ok (.rejected "JOB_CLAIM_STALE", db)
  | result => result

/-- The staging key the route has the store delete. -/
def Finding.sweeps : Finding → Option String
  | .abandoned _ _ g => some g.objectKey
  | _ => none

end LearningOrbit.Media
