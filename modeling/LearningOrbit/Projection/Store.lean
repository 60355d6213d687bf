import LearningOrbit.Dict
import LearningOrbit.Raise
import LearningOrbit.Uuid

/-!
# The projection store

`persist_and_advance` keeps one immutable snapshot, and for ECHO one patch, for
each version of an epoch, and moves the room head to it. The tables are keyed by
their unique columns; the store is generic in what a snapshot and a patch carry.
-/

namespace LearningOrbit.Projection

open LearningOrbit (Dict)

/-- The fields of a projection envelope that the store reads. -/
structure Snapshot (α : Type) where
  roomId : String
  projectionKey : String
  analysisEpoch : String
  algorithmVersion : String
  parameterHash : String
  projectionVersion : Int
  baseVersion : Int
  completeThroughRoomSeq : Int
  watermarkEventTime : String
  requiresReplay : Bool
  warnings : List String
  payload : α
  deriving DecidableEq

/-- A patch envelope; `body` is the compact payload that is stored. -/
structure Patch (β : Type) where
  roomId : Option String
  projectionKey : Option String
  analysisEpoch : String
  algorithmVersion : String
  parameterHash : String
  projectionVersion : Int
  baseVersion : Int
  completeThroughRoomSeq : Int
  requiresReplay : Bool
  body : β
  deriving DecidableEq

/-- What the store takes from outside: the closed parsers, the content hashes, the text a
timestamp column prints, and the comparison of a stored value with a given one. -/
structure Formats (α β : Type) where
  schema : Snapshot α → Bool
  patchShape : String → Patch β → Bool
  payloadHash : α → String
  patchHash : Patch β → String
  bodyHash : β → String
  warningsHash : List String → String
  timestampText : String → String
  samePayload : α → α → Bool
  sameBody : β → β → Bool

/-- The unique columns of a snapshot, patch or outbox row. -/
structure RowKey where
  roomId : String
  projectionKey : String
  analysisEpoch : String
  version : Int
  deriving DecidableEq

structure SnapshotRow (α : Type) where
  snapshotId : String
  completeThroughSeq : Int
  watermarkEventTime : String
  requiresReplay : Bool
  algorithmVersion : String
  parameterHash : String
  warnings : List String
  warningsSha256 : String
  payload : α
  contentSha256 : String
  deriving DecidableEq

structure PatchRow (β : Type) where
  baseVersion : Int
  completeThroughSeq : Int
  algorithmVersion : String
  parameterHash : String
  payload : β
  contentSha256 : String
  deriving DecidableEq

structure HeadRow where
  analysisEpoch : String
  version : Int
  completeThroughSeq : Int
  algorithmVersion : String
  parameterHash : String
  maxSeenEventTime : String
  watermarkEventTime : String
  requiresReplay : Bool
  snapshotId : Option String
  deriving DecidableEq

structure OutboxRow where
  completeThroughRoomSeq : Int
  snapshotUrl : String
  deriving DecidableEq

structure Tables (α β : Type) where
  snapshots : Dict RowKey (SnapshotRow α)
  patches : Dict RowKey (PatchRow β)
  heads : Dict (String × String) HeadRow
  outbox : Dict RowKey OutboxRow
  deriving DecidableEq

def Tables.empty {α β : Type} : Tables α β := ⟨.empty, .empty, .empty, .empty⟩

/-- The arguments of `persist_and_advance`, with the id `gen_random_uuid()` yields for a new
snapshot row. -/
structure Call (α β : Type) where
  snapshot : Snapshot α
  payloadHash : String
  patch : Option (Patch β)
  patchHash : Option String
  snapshotId : String
  deriving DecidableEq

def projectionKeys : List String :=
  ["echo.teacher_shadow", "echo.student_approved", "trace.teacher_bundle", "trace.student_bundle"]

def isEcho (projectionKey : String) : Bool := "echo.".toList.isPrefixOf projectionKey.toList

section Store

variable {α β : Type} (F : Formats α β)

/-- `_validate_snapshot`. -/
def validateSnapshot (snapshot : Snapshot α) (payloadHash : String) : Except String Unit :=
  if !F.schema snapshot ∨ (Uuid.canonical snapshot.roomId).isNone ∨
      (Uuid.canonical snapshot.analysisEpoch).isNone ∨
      snapshot.projectionKey ∉ projectionKeys ∨
      snapshot.projectionVersion < 1 ∨ snapshot.baseVersion < 0 ∨
      snapshot.projectionVersion ≠ snapshot.baseVersion + 1 ∨
      payloadHash ≠ F.payloadHash snapshot.payload then
    .error "INVALID_PROJECTION_SNAPSHOT"
  else .ok ()

/-- `_validate_patch`: a patch repeats the identity of its snapshot. -/
def validatePatch (snapshot : Snapshot α) :
    Option (Patch β) → Option String → Except String Unit
  | none, none => .ok ()
  | none, some _ => .error "INVALID_PROJECTION_PATCH"
  | some patch, patchHash =>
    if !isEcho snapshot.projectionKey ∨ !F.patchShape snapshot.projectionKey patch ∨
        patch.roomId.getD snapshot.roomId ≠ snapshot.roomId ∨
        patch.projectionKey.getD snapshot.projectionKey ≠ snapshot.projectionKey ∨
        patch.analysisEpoch ≠ snapshot.analysisEpoch ∨
        patch.algorithmVersion ≠ snapshot.algorithmVersion ∨
        patch.parameterHash ≠ snapshot.parameterHash ∨
        patch.projectionVersion ≠ snapshot.projectionVersion ∨
        patch.baseVersion ≠ snapshot.baseVersion ∨
        patch.completeThroughRoomSeq ≠ snapshot.completeThroughRoomSeq ∨
        patch.requiresReplay ≠ snapshot.requiresReplay ∨
        patchHash ≠ some (F.patchHash patch) then
      .error "INVALID_PROJECTION_PATCH"
    else .ok ()

/-- The key of a call's rows, in the text the uuid columns print. -/
def Snapshot.rowKey (snapshot : Snapshot α) : RowKey where
  roomId := (Uuid.canonical snapshot.roomId).getD snapshot.roomId
  projectionKey := snapshot.projectionKey
  analysisEpoch := (Uuid.canonical snapshot.analysisEpoch).getD snapshot.analysisEpoch
  version := snapshot.projectionVersion

def RowKey.head (key : RowKey) : String × String := (key.roomId, key.projectionKey)

/-- `_existing_snapshot_matches` for a row under the key of the snapshot. -/
def existingSnapshotMatches (row : Option (SnapshotRow α)) (snapshot : Snapshot α)
    (payloadHash : String) : Bool :=
  match row with
  | none => false
  | some row =>
    snapshot.rowKey.roomId = snapshot.roomId &&
    snapshot.rowKey.analysisEpoch = snapshot.analysisEpoch &&
    row.completeThroughSeq = snapshot.completeThroughRoomSeq &&
    row.watermarkEventTime = snapshot.watermarkEventTime &&
    row.requiresReplay = snapshot.requiresReplay &&
    row.algorithmVersion = snapshot.algorithmVersion &&
    row.parameterHash = snapshot.parameterHash &&
    row.warnings = snapshot.warnings &&
    row.warningsSha256 = F.warningsHash snapshot.warnings &&
    F.samePayload row.payload snapshot.payload &&
    row.contentSha256 = payloadHash

/-- `_existing_patch_matches` for a row under the key of the snapshot. -/
def existingPatchMatches (row : Option (PatchRow β)) (snapshot : Snapshot α) (patch : Patch β) :
    Bool :=
  match row with
  | none => false
  | some row =>
    snapshot.rowKey.roomId = snapshot.roomId &&
    snapshot.rowKey.analysisEpoch = patch.analysisEpoch &&
    snapshot.rowKey.version = patch.projectionVersion &&
    row.baseVersion = patch.baseVersion &&
    row.completeThroughSeq = patch.completeThroughRoomSeq &&
    row.algorithmVersion = patch.algorithmVersion &&
    row.parameterHash = patch.parameterHash &&
    F.sameBody row.payload patch.body &&
    row.contentSha256 = F.bodyHash patch.body &&
    F.bodyHash row.payload = F.bodyHash patch.body

/-- The row `ensure_head` inserts. -/
def initialHead (snapshot : Snapshot α) : HeadRow where
  analysisEpoch := snapshot.rowKey.analysisEpoch
  version := 0
  completeThroughSeq := 0
  algorithmVersion := snapshot.algorithmVersion
  parameterHash := snapshot.parameterHash
  maxSeenEventTime := F.timestampText snapshot.watermarkEventTime
  watermarkEventTime := F.timestampText snapshot.watermarkEventTime
  requiresReplay := false
  snapshotId := none

/-- `ensure_head`: a head at version 0 unless there is one. -/
def ensureHead (t : Tables α β) (snapshot : Snapshot α) : Tables α β :=
  { t with heads := t.heads.setDefault snapshot.rowKey.head (initialHead F snapshot) }

def snapshotRow (call : Call α β) : SnapshotRow α where
  snapshotId := call.snapshotId
  completeThroughSeq := call.snapshot.completeThroughRoomSeq
  watermarkEventTime := F.timestampText call.snapshot.watermarkEventTime
  requiresReplay := call.snapshot.requiresReplay
  algorithmVersion := call.snapshot.algorithmVersion
  parameterHash := call.snapshot.parameterHash
  warnings := call.snapshot.warnings
  warningsSha256 := F.warningsHash call.snapshot.warnings
  payload := call.snapshot.payload
  contentSha256 := call.payloadHash

def patchRow (snapshot : Snapshot α) (patch : Patch β) : PatchRow β where
  baseVersion := patch.baseVersion
  completeThroughSeq := snapshot.completeThroughRoomSeq
  algorithmVersion := snapshot.algorithmVersion
  parameterHash := snapshot.parameterHash
  payload := patch.body
  contentSha256 := F.bodyHash patch.body

/-- The head at a snapshot. -/
def headRow (snapshot : Snapshot α) (snapshotId : String) : HeadRow where
  analysisEpoch := snapshot.rowKey.analysisEpoch
  version := snapshot.projectionVersion
  completeThroughSeq := snapshot.completeThroughRoomSeq
  algorithmVersion := snapshot.algorithmVersion
  parameterHash := snapshot.parameterHash
  maxSeenEventTime := F.timestampText snapshot.watermarkEventTime
  watermarkEventTime := F.timestampText snapshot.watermarkEventTime
  requiresReplay := snapshot.requiresReplay
  snapshotId := some snapshotId

def outboxRow (snapshot : Snapshot α) : OutboxRow where
  completeThroughRoomSeq := snapshot.completeThroughRoomSeq
  snapshotUrl := "/v1/rooms/" ++ snapshot.roomId ++ "/analytics/" ++ snapshot.projectionKey ++
    "/latest"

/-- A call for a version the head has reached is only compared with what is stored. -/
def confirmStored (t : Tables α β) (call : Call α β) : Except String Unit :=
  if !existingSnapshotMatches F (t.snapshots.get? call.snapshot.rowKey) call.snapshot
      call.payloadHash then .error "ANALYTICS_SNAPSHOT_CONFLICT"
  else match call.patch with
    | none => .ok ()
    | some patch =>
      if existingPatchMatches F (t.patches.get? call.snapshot.rowKey) call.snapshot patch then
        .ok ()
      else .error "ANALYTICS_PATCH_CONFLICT"

/-- The snapshot insert, `ON CONFLICT … DO NOTHING`, and the id of the row under the key. -/
def insertSnapshot (t : Tables α β) (call : Call α β) : Except String (Tables α β × String) :=
  match t.snapshots.get? call.snapshot.rowKey with
  | some row =>
    if existingSnapshotMatches F (some row) call.snapshot call.payloadHash then
      .ok (t, row.snapshotId)
    else .error "ANALYTICS_SNAPSHOT_CONFLICT"
  | none =>
    if t.snapshots.values.any (·.snapshotId = call.snapshotId) then
      .error "analysis_projection_snapshots_pkey"
    else .ok ({ t with snapshots := t.snapshots.set call.snapshot.rowKey (snapshotRow F call) },
      call.snapshotId)

/-- The patch insert, `ON CONFLICT … DO NOTHING`. -/
def insertPatch (t : Tables α β) (call : Call α β) : Except String (Tables α β) :=
  match call.patch with
  | none => .ok t
  | some patch =>
    match t.patches.get? call.snapshot.rowKey with
    | some row =>
      if existingPatchMatches F (some row) call.snapshot patch then .ok t
      else .error "ANALYTICS_PATCH_CONFLICT"
    | none =>
      .ok { t with
        patches := t.patches.set call.snapshot.rowKey (patchRow F call.snapshot patch) }

/-- The compare-and-swap of the head. -/
def advanceHead (t : Tables α β) (snapshot : Snapshot α) (read : HeadRow) (snapshotId : String) :
    Except String (Tables α β) :=
  match t.heads.get? snapshot.rowKey.head with
  | none => .error "ANALYTICS_HEAD_CAS_FAILED"
  | some head =>
    if head.analysisEpoch ≠ read.analysisEpoch ∨ head.version ≠ read.version then
      .error "ANALYTICS_HEAD_CAS_FAILED"
    else .ok { t with
      heads := t.heads.set snapshot.rowKey.head (headRow F snapshot snapshotId) }

/-- The outbox insert, `ON CONFLICT … DO NOTHING`. -/
def insertOutbox (t : Tables α β) (snapshot : Snapshot α) : Tables α β :=
  { t with outbox := t.outbox.setDefault snapshot.rowKey (outboxRow snapshot) }

/-- Write the rows of a new version and move the head to it. -/
def install (t : Tables α β) (call : Call α β) (head : HeadRow) :
    Except String (Tables α β) := do
  let (t, snapshotId) ← insertSnapshot F t call
  let t ← insertPatch F t call
  let t ← advanceHead F t call.snapshot head snapshotId
  return insertOutbox t call.snapshot

/-- The version a call has to follow: that of the head, or none in a new epoch. -/
def existingVersion (head : HeadRow) (snapshot : Snapshot α) : Int :=
  if head.analysisEpoch ≠ snapshot.analysisEpoch then 0 else head.version

/-- `persist_and_advance`. -/
def persistAndAdvance (t : Tables α β) (call : Call α β) : Except String (Tables α β) := do
  validateSnapshot F call.snapshot call.payloadHash
  validatePatch F call.snapshot call.patch call.patchHash
  let t := ensureHead F t call.snapshot
  match t.heads.get? call.snapshot.rowKey.head with
  | none => .error "ANALYTICS_HEAD_UNAVAILABLE"
  | some head =>
    if call.snapshot.projectionVersion ≤ existingVersion head call.snapshot then do
      confirmStored F t call
      return t
    else if existingVersion head call.snapshot + 1 ≠ call.snapshot.projectionVersion then
      .error "ANALYTICS_VERSION_CONFLICT"
    else install F t call head

/-- A sequence of calls, each in its own transaction. -/
def persistAll (t : Tables α β) (calls : List (Call α β)) : Tables α β :=
  commitAll (persistAndAdvance F) t calls

end Store

end LearningOrbit.Projection
