import LearningOrbit.Media.Reconcile
import LearningOrbit.Text

/-!
# The staging janitor

`MediaStagingJanitor.sweep` treats its candidates one by one: the staging object goes
first, then the grant is closed under the room lock, and for an abandoned promotion the
original goes before the rows that name it.
-/

namespace LearningOrbit.Media

open LearningOrbit (Dict)

structure Candidate where
  grantId : String
  mediaId : String
  roomId : String
  objectKey : String
  deriving DecidableEq

/-- `greatest(…) <= transaction_timestamp()`. -/
def UploadGrant.pastFence (g : UploadGrant) (now : Int) : Bool := g.effectiveWriteNotAfter ≤ now

/-- `#candidates`, for one grant. Which grants a sweep gets depends on its order and batch. -/
def candidate? (db : MediaDb) (now : Int) (grantId : String) : Option Candidate :=
  match db.grants.get? grantId with
  | some g =>
    if g.state ≠ .expired && db.assets.contains g.mediaId && g.pastFence now then
      some ⟨grantId, g.mediaId, g.roomId, g.objectKey⟩
    else none
  | none => none

/-- `#lockedView`. -/
def lockedView (db : MediaDb) (c : Candidate) : Option (MediaAsset × UploadGrant) :=
  match db.asset? c.mediaId c.roomId, db.grants.get? c.grantId with
  | some a, some g => some (a, g)
  | _, _ => none

inductive AbandonVerdict
  | keep
  | rowsOnly
  | object (destinationKey : String)
  deriving DecidableEq

/-- `#reconcileSettled`. -/
def reconcileSettled (db : MediaDb) (mediaId : String) : Bool :=
  db.queue.jobs.values.all fun row =>
    !(row.jobType = "media.reconcile-upload.v1"
      && row.dedupeKey = "media.reconcile-upload.v1:" ++ mediaId && !row.status.terminal)

/-- `#erasableDestinationKey`. -/
def erasableDestinationKey (c : Candidate) (destinationKey : String) : Bool :=
  destinationKey = originalKey c.roomId c.mediaId && !Text.isSubstring ".." destinationKey
    && (destinationKey.toList.all fun ch => 32 ≤ ch.toNat && ch.toNat ≠ 127)
    && destinationKey.utf8ByteSize ≤ 1024

/-- `#abandonVerdict`. -/
def abandonVerdict (db : MediaDb) (c : Candidate) (a : MediaAsset) (g : UploadGrant) :
    AbandonVerdict :=
  if a.state ≠ .failed || a.failureCode ≠ some "PROMOTION_ABANDONED" then .keep
  else if a.objectKey.isSome then .keep
  else if !reconcileSettled db c.mediaId then .keep
  else
    match g.promotionDestinationKey with
    | none => .rowsOnly
    | some destinationKey =>
      if !erasableDestinationKey c destinationKey then .keep
      else if db.assets.values.any fun other => other.objectKey = some destinationKey then .keep
      else .object destinationKey

/-- `DELETE FROM media_asset`, with the derivatives that go with it. -/
def MediaDb.eraseAsset (db : MediaDb) (mediaId : String) : MediaDb :=
  { db with
    assets := db.assets.erase mediaId
    derivatives := db.derivatives.filterKeys fun id =>
      (db.derivatives.get? id).all fun d => d.mediaId ≠ mediaId }

def MediaDb.eraseGrant (db : MediaDb) (grantId : String) : MediaDb :=
  { db with grants := db.grants.erase grantId }

/-- `#deleteAbandonedRows`: both rows or neither. -/
def deleteAbandonedRows (db : MediaDb) (c : Candidate) (destinationKey : Option String) :
    Except String MediaDb :=
  let grant := (db.grants.get? c.grantId).any fun g =>
    g.mediaId = c.mediaId && g.roomId = c.roomId && g.promotionDestinationKey = destinationKey
  let asset := (db.asset? c.mediaId c.roomId).any fun a =>
    a.state = .failed && a.failureCode = some "PROMOTION_ABANDONED"
  if !grant || !asset then .error "MEDIA_ABANDONED_LEDGER_UNSTABLE"
  else .ok ((db.eraseGrant c.grantId).eraseAsset c.mediaId)

/-- The first transaction: the grant is closed, and a promotion that named no object retired. -/
def sweepCloses (db : MediaDb) (c : Candidate) (now : Int) :
    Except String (MediaDb × AbandonVerdict) :=
  match lockedView db c with
  | none => .error "deferred"
  | some (a, g) =>
    if !g.pastFence now then .error "deferred"
    else
      let db := if g.state ≠ .closed then db.setGrant c.grantId { g with state := .closed } else db
      match abandonVerdict db c a g with
      | .rowsOnly => (deleteAbandonedRows db c none).map (·, .rowsOnly)
      | verdict => .ok (db, verdict)

/-- The second transaction asks the same question again before the rows go. -/
def sweepRetires (db : MediaDb) (c : Candidate) (authorisedKey : String) (now : Int) :
    Except String MediaDb :=
  match lockedView db c with
  | none => .error "deferred"
  | some (a, g) =>
    if !g.pastFence now then .error "deferred"
    else if abandonVerdict db c a g ≠ .object authorisedKey then .error "deferred"
    else deleteAbandonedRows db c (some authorisedKey)

/-- How far a sweep has come with a candidate. -/
inductive SweepStage
  | selected
  | swept
  | authorised (destinationKey : String)
  | erased (destinationKey : String)
  deriving DecidableEq

structure Sweep where
  candidate : Candidate
  stage : SweepStage
  deriving DecidableEq

end LearningOrbit.Media
