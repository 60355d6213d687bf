import LearningOrbit.Jobs.Queue
import LearningOrbit.Rooms.Ledger

/-!
# Media tables

Assets, upload grants and derivatives as their tables hold them, and the service
assertion every internal route asks for first.
-/

namespace LearningOrbit.Media

open LearningOrbit (Dict)
open LearningOrbit.Jobs (Queue JobClaim JobRow)

inductive MediaState
  | uploadPending | uploaded | processing | ready | quarantined | failed | deleted
  deriving DecidableEq

/-- The states in which an asset names a promoted object. -/
def MediaState.promoted : MediaState → Bool
  | .uploaded | .processing | .ready => true
  | _ => false

/-- The states processing ends in. -/
def MediaState.finished : MediaState → Bool
  | .ready | .quarantined | .failed => true
  | _ => false

structure MediaAsset where
  roomId : String
  ownerActorId : String
  state : MediaState
  detectedMime : Option String
  sizeBytes : Nat
  declaredSha256 : String
  sha256 : Option String
  objectKey : Option String
  failureCode : Option String
  promotionCorrelationId : Option String
  outcomeTransitionId : Option String
  promotedCk : state.promoted = true →
    objectKey.isSome ∧ sha256.isSome ∧ promotionCorrelationId.isSome
  deriving DecidableEq

inductive GrantState
  | issuing | active | promoted | revoked | expired | closed
  deriving DecidableEq

/-- Times are the database's, in microseconds. -/
structure UploadGrant where
  mediaId : String
  roomId : String
  objectKey : String
  state : GrantState
  expiresAt : Int
  writeNotAfter : Int
  promotionSourceEtag : Option String
  promotionSha256 : Option String
  promotionDestinationKey : Option String
  promotionCorrelationId : Option String
  promotionWriteNotAfter : Option Int
  deriving DecidableEq

/-- `effectiveWriteNotAfter`, and the `greatest(…)` of the statements. -/
def UploadGrant.effectiveWriteNotAfter (g : UploadGrant) : Int :=
  max g.writeNotAfter (g.promotionWriteNotAfter.getD g.writeNotAfter)

inductive DerivativeKind
  | thumbnail | sanitizedImage | playbackAudio | waveform
  deriving DecidableEq

structure Derivative where
  mediaId : String
  kind : DerivativeKind
  objectKey : String
  mime : String
  sizeBytes : Nat
  sha256 : String
  deriving DecidableEq

/-- Assets by media id, grants by grant id, derivatives by derivative id. -/
structure MediaDb where
  queue : Queue
  assets : Dict String MediaAsset
  grants : Dict String UploadGrant
  derivatives : Dict String Derivative
  deriving DecidableEq

def MediaDb.asset? (db : MediaDb) (mediaId roomId : String) : Option MediaAsset :=
  (db.assets.get? mediaId).filter fun a => a.roomId = roomId

def MediaDb.setAsset (db : MediaDb) (mediaId : String) (a : MediaAsset) : MediaDb :=
  { db with assets := db.assets.set mediaId a }

/-- What `verifyServiceAssertionEnvelope` found, and `authorizeServiceAssertion` for the claim
of the request. -/
structure Assertion where
  envelope : Bool
  authorized : Bool

/-- The dedupe key of a job type: thirty-six small digits and hyphens after it. -/
def typedKey (jobType key : String) : Bool :=
  let front := (jobType ++ ":").toList
  let rest := key.toList.drop front.length
  key.toList.take front.length = front && rest.length = 36
    && rest.all fun c => Uuid.isHex c || c = '-'

/-- The members a request of an internal media route takes from its claim. Uuids are written
as their columns print them. -/
def parseClaim (jobType : String) (claim : JobClaim) : Bool :=
  Rooms.uuidFormat claim.jobId && claim.jobType = jobType
    && claim.roomId.any Rooms.uuidFormat && claim.sourceEventId = none
    && typedKey jobType claim.dedupeKey && Rooms.uuidFormat claim.correlationId
    && 1 ≤ claim.claimGeneration && claim.claimGeneration < 10 ^ 19
    && Rooms.uuidFormat claim.claimToken && 1 ≤ claim.workerId.length
    && claim.workerId.length ≤ 128

/-- The job row is the one the claim names, for this media. -/
def jobIdentity (claim : JobClaim) (mediaId : String) (row : JobRow) : Bool :=
  row.jobType = claim.jobType && row.roomId = claim.roomId && row.sourceEventId = none
    && row.dedupeKey = claim.dedupeKey && row.correlationId = claim.correlationId
    && row.payload.get? "mediaId" = some (.text mediaId)

end LearningOrbit.Media
