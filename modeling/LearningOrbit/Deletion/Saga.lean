import LearningOrbit.Jobs.Queue
import LearningOrbit.Text
import LearningOrbit.Uuid

/-!
# The room deletion saga

`requestDeletion` freezes the row counts of eight surfaces and enqueues one job for
each. `delete_surface_handler` verifies a surface once every surface before it in
`DELETE_ORDER` is verified; the last one removes the room and writes the receipt.
Failed attempts are projected onto the status of the saga.
-/

namespace LearningOrbit.Deletion

open LearningOrbit (Dict)
open Jobs (Queue JobStore JobClaim WorkerJob Failure Member NewJob Settled)

inductive Surface
  | events
  | media
  | derivatives
  | artifacts
  | projections
  | agentRuns
  | caches
  | providerCopies
  deriving DecidableEq

def Surface.name : Surface → String
  | .events => "events"
  | .media => "media"
  | .derivatives => "derivatives"
  | .artifacts => "artifacts"
  | .projections => "projections"
  | .agentRuns => "agent_runs"
  | .caches => "caches"
  | .providerCopies => "provider_copies"

/-- `SURFACES`, the order in which the jobs are inserted. -/
def surfaces : List Surface :=
  [.events, .media, .derivatives, .artifacts, .projections, .agentRuns, .caches, .providerCopies]

/-- `DELETE_ORDER`, the order in which they have to finish. -/
def deleteOrder : List Surface :=
  [.providerCopies, .media, .derivatives, .artifacts, .projections, .agentRuns, .caches, .events]

/-- The surfaces that come before this one. -/
def prior (surface : Surface) : List Surface := deleteOrder.takeWhile (· ≠ surface)

/-- How many rows of the room each counted table holds. `learnerText` and `providerText` split
`derived_text_artifact` by its provider. -/
structure Rows where
  roomEvent : Nat
  mediaAsset : Nat
  mediaDerivative : Nat
  learnerText : Nat
  providerText : Nat
  extractionArtifacts : Nat
  analyticsReviewDetail : Nat
  projectionSnapshots : Nat
  projectionPatches : Nat
  projectionOutbox : Nat
  roomHeads : Nat
  studentPromotion : Nat
  agentRun : Nat
  deriving DecidableEq

/-- `_surface_count`; `freezeDeletionSurfaces` runs the same counts. -/
def surfaceCount (rows : Rows) : Surface → Nat
  | .events => rows.roomEvent
  | .media => rows.mediaAsset
  | .derivatives => rows.mediaDerivative
  | .artifacts =>
    rows.learnerText + rows.providerText + rows.extractionArtifacts + rows.analyticsReviewDetail
  | .projections =>
    rows.projectionSnapshots + rows.projectionPatches + rows.projectionOutbox + rows.roomHeads
      + rows.studentPromotion
  | .agentRuns => rows.agentRun
  | .caches => 0
  | .providerCopies => rows.mediaAsset + rows.agentRun + rows.providerText

/-- `_delete_surface`. -/
def deleteSurface (rows : Rows) : Surface → Rows
  | .derivatives => { rows with mediaDerivative := 0 }
  | .artifacts =>
    { rows with
      learnerText := 0
      providerText := 0
      extractionArtifacts := 0
      analyticsReviewDetail := 0 }
  | .projections =>
    { rows with
      projectionSnapshots := 0
      projectionPatches := 0
      projectionOutbox := 0
      roomHeads := 0
      studentPromotion := 0 }
  | .agentRuns => { rows with agentRun := 0 }
  | .events | .media | .caches | .providerCopies => rows

inductive SagaStatus
  | queued
  | running
  | retryable
  | completed
  | dead
  deriving DecidableEq

inductive ManifestStatus
  | frozen
  | running
  | verified
  | dead
  deriving DecidableEq

structure Manifest where
  expectedItemCount : Nat
  status : ManifestStatus
  deriving DecidableEq

structure Receipt where
  receiptVersion : Nat
  surfacesVerified : List Surface
  deriving DecidableEq

/-- The rows of one deletion: its `deletion_job`, the eight manifests, the receipt, and the room
with the rows that hang off it. `roomRef` is `deletion_job.room_id`. -/
structure Saga where
  queue : Queue
  roomId : String
  room : Option Rows
  deletionJobId : String
  correlationId : String
  roomRef : Option String
  status : SagaStatus
  manifests : Surface → Manifest
  receipt : Option Receipt

def Saga.verified (s : Saga) (surface : Surface) : Bool :=
  (s.manifests surface).status = .verified

def Saga.setVerified (s : Saga) (surface : Surface) : Saga :=
  { s with
    manifests := fun other =>
      if other = surface then { s.manifests other with status := .verified }
      else s.manifests other }

/-- What a handler raises: a lost lease, or an error that `JobStore.fail` records. -/
inductive Raised
  | stale
  | failed (error : Failure)
  deriving DecidableEq

/-- `RetryableJobError` and `TerminalJobError`. -/
def retryable (code : String) : Raised := .failed (.raised (some code) false)

def terminal (code : String) : Raised := .failed (.raised (some code) true)

/-- How the errors of `JobClaims` reach the runner: only `StaleClaim` is told apart. -/
def raisedBy (error : String) : Raised :=
  if error = "JOB_CLAIM_STALE" then .stale else .failed (.raised none false)

def memberText : Member → String
  | .text s => s
  | .number n => toString n

def surfaceNamed (name : String) : Option Surface := surfaces.find? fun x => x.name = name

def jobType : String := "room.delete-surface.v1"

def dedupeKey (deletionId : String) (surface : Surface) : String :=
  jobType ++ ":" ++ deletionId ++ ":" ++ surface.name

/-- `_payload`. -/
def payload (job : WorkerJob) : Except Raised (String × Surface) :=
  if job.claim.jobType ≠ jobType || job.claim.roomId.isSome || job.claim.sourceEventId.isSome then
    .error (terminal "LIFECYCLE_JOB_IDENTITY_INVALID")
  else
    match job.payload.get? "deletionJobId", job.payload.get? "surface" with
    | some value, some (.text name) =>
      if job.payload.size ≠ 2 then .error (terminal "LIFECYCLE_JOB_PAYLOAD_INVALID")
      else
        match Uuid.canonical (memberText value), surfaceNamed name with
        | some deletionId, some surface =>
          if job.claim.dedupeKey ≠ dedupeKey deletionId surface then
            .error (terminal "LIFECYCLE_JOB_IDENTITY_INVALID")
          else if (Uuid.canonical job.claim.correlationId).isNone then
            .error (terminal "LIFECYCLE_JOB_IDENTITY_INVALID")
          else .ok (deletionId, surface)
        | _, _ => .error (terminal "LIFECYCLE_JOB_PAYLOAD_INVALID")
    | _, _ => .error (terminal "LIFECYCLE_JOB_PAYLOAD_INVALID")

/-- `_verify_all_manifests`. -/
def verifyAllManifests (s : Saga) : Bool := surfaces.all s.verified

/-- `_valid_receipt`. -/
def validReceipt : Option Receipt → Bool
  | none => false
  | some receipt =>
    receipt.receiptVersion = 1 && receipt.surfacesVerified.length = surfaces.length
      && surfaces.all (· ∈ receipt.surfacesVerified)

/-- `list(sorted(SURFACES))`. -/
def sortedSurfaces : List Surface :=
  [.agentRuns, .artifacts, .caches, .derivatives, .events, .media, .projections, .providerCopies]

/-- `complete_business` in the handler's transaction. -/
def completeSurface (s : Saga) (job : WorkerJob) : Except Raised Saga :=
  match Jobs.completeBusiness s.queue job.claim "LIFECYCLE_SURFACE_COMPLETED" with
  | .ok queue => .ok { s with queue }
  | .error e => .error (raisedBy e)

/-- `DELETE FROM classroom_room`: jobs bound to the room and their receipts go with it, and
`deletion_job.room_id` becomes null. -/
def deleteRoom (s : Saga) : Saga :=
  let kept := fun jobId => (s.queue.jobs.get? jobId).all fun row => row.roomId ≠ some s.roomId
  { s with
    room := none
    roomRef := none
    queue := {
      jobs := s.queue.jobs.filterKeys kept
      completions := s.queue.completions.filterKeys fun key => kept key.1 } }

/-- The final surface: the room, its manifest, the receipt and the saga in one transaction. -/
def verifyEvents (s : Saga) : Except Raised Saga :=
  if !(deleteOrder.dropLast.all s.verified) then
    .error (retryable "LIFECYCLE_DEPENDENCY_PENDING")
  else
    let s := (deleteRoom s).setVerified .events
    if !verifyAllManifests s then .error (retryable "LIFECYCLE_DEPENDENCY_PENDING")
    else
      let s := { s with receipt := some (s.receipt.getD ⟨1, sortedSurfaces⟩) }
      if !validReceipt s.receipt then .error (terminal "LIFECYCLE_RECEIPT_INVALID")
      else .ok { s with status := .completed, roomRef := none }

/-- The rows left after the sweep: what was frozen and is still there is deleted. -/
def sweep (s : Saga) (surface : Surface) (rows : Rows) : Rows :=
  if 0 < (s.manifests surface).expectedItemCount && 0 < surfaceCount rows surface then
    deleteSurface rows surface
  else rows

/-- The other surfaces: sweep and count again. -/
def verifyRows (s : Saga) (surface : Surface) (rows : Rows) : Except Raised Saga :=
  if surfaceCount (sweep s surface rows) surface ≠ 0 then
    .error (retryable "LIFECYCLE_SURFACE_NOT_EMPTY")
  else .ok ({ s with room := some (sweep s surface rows) }.setVerified surface)

/-- The handler from the count on. With media left it asks the server's media route; that
transaction needs the job row this one holds locked, so no answer can verify the surface before
this one ends. -/
def verifySurface (s : Saga) (surface : Surface) (rows : Rows) : Except Raised Saga :=
  let expected := (s.manifests surface).expectedItemCount
  let current := surfaceCount rows surface
  if surface = .media && (0 < expected || 0 < current) then
    .error (retryable "MEDIA_SURFACE_PENDING")
  else if surface = .providerCopies && (0 < expected || 0 < current) then
    .error (retryable "PROVIDER_COPY_DEPENDENCY_PENDING")
  else if surface ≠ .providerCopies && current ≠ expected then
    .error (retryable "LIFECYCLE_SURFACE_COUNT_CHANGED")
  else if surface = .events then verifyEvents s
  else verifyRows s surface rows

/-- The handler once the saga is known to be active. -/
def advanceSurface (s : Saga) (job : WorkerJob) (surface : Surface) : Except Raised Saga :=
  match (s.manifests surface).status with
  | .dead => .error (terminal "LIFECYCLE_SURFACE_NOT_ACTIVE")
  | .verified => completeSurface s job
  | .frozen | .running =>
    match s.roomRef, s.room with
    | some _, some rows =>
      if !((prior surface).all s.verified) then .error (retryable "LIFECYCLE_DEPENDENCY_PENDING")
      else do
        let s ← verifySurface s surface rows
        completeSurface s job
    | _, _ => .error (retryable "LIFECYCLE_ROOM_REFERENCE_MISSING")

/-- `delete_surface_handler`, one transaction. -/
def deleteSurfaceHandler (s : Saga) (job : WorkerJob) : Except Raised Saga := do
  let (deletionId, surface) ← payload job
  match Jobs.requireCurrent "JOB_CLAIM_STALE" s.queue job.claim with
  | .error e => .error (raisedBy e)
  | .ok _ =>
    if deletionId ≠ s.deletionJobId || s.correlationId ≠ job.claim.correlationId then
      .error (terminal "LIFECYCLE_JOB_IDENTITY_INVALID")
    else
      match s.status with
      | .dead => .error (terminal "LIFECYCLE_JOB_NOT_ACTIVE")
      | .completed =>
        if !validReceipt s.receipt || !verifyAllManifests s then
          .error (terminal "LIFECYCLE_RECEIPT_INVALID")
        else completeSurface s job
      | .queued | .running | .retryable => advanceSurface { s with status := .running } job surface

/-- The `CASE` both failure paths use: finished sagas keep their status. -/
def SagaStatus.project (status next : SagaStatus) : SagaStatus :=
  match status with
  | .completed | .dead => status
  | .queued | .running | .retryable => next

/-- `_lifecycle_deletion_id`. -/
def lifecycleDeletionId (job : WorkerJob) : Option String :=
  if job.claim.jobType ≠ jobType then none
  else
    match job.payload.get? "deletionJobId" with
    | some value => Uuid.canonical (memberText value)
    | none => none

/-- `_sync_lifecycle_status`. -/
def syncLifecycleStatus (s : Saga) (job : WorkerJob) (next : SagaStatus) : Saga :=
  if lifecycleDeletionId job = some s.deletionJobId then
    { s with status := s.status.project next }
  else s

/-- `JobStore.fail` with its projection; an attempt whose work committed projects nothing. -/
def failJob (store : JobStore) (now : Int) (s : Saga) (job : WorkerJob) (error : Failure) :
    Except String Saga := do
  let (queue, left) ← store.fail now s.queue job.claim error
  let s := { s with queue }
  match left with
  | .succeeded => return s
  | .dead => return syncLifecycleStatus s job .dead
  | _ => return syncLifecycleStatus s job .retryable

/-- The `lifecycle_dead` expression of `SETTLE_SQL`. -/
def lifecycleDead (s : Saga) (candidate : String) : Saga :=
  match s.queue.jobs.get? candidate with
  | some row =>
    if row.jobType = jobType
        && (row.payload.get? "deletionJobId").map memberText = some s.deletionJobId then
      { s with status := s.status.project .dead }
    else s
  | none => s

def claimJob (store : JobStore) (s : Saga) (now : Int) (token candidate : String) :
    Except String (Saga × List WorkerJob) := do
  let (queue, settled, jobs) ← store.claim s.queue now token candidate
  let s := { s with queue }
  return (if settled = .exhausted then lifecycleDead s candidate else s, jobs)

/-- One transaction on the saga. -/
inductive Call
  | claim (store : JobStore) (now : Int) (token candidate : String)
  | heartbeat (store : JobStore) (now : Int) (job : WorkerJob)
  | handle (job : WorkerJob)
  | succeed (store : JobStore) (job : WorkerJob)
  | fail (store : JobStore) (now : Int) (job : WorkerJob) (error : Failure)
  | cancel (store : JobStore) (job : WorkerJob) (code : String)

def step (s : Saga) : Call → Except Raised Saga
  | .claim store now token candidate =>
    match claimJob store s now token candidate with
    | .ok (s', _) => .ok s'
    | .error e => .error (raisedBy e)
  | .heartbeat store now job =>
    match store.heartbeat now s.queue job.claim with
    | .ok queue => .ok { s with queue }
    | .error e => .error (raisedBy e)
  | .handle job => deleteSurfaceHandler s job
  | .succeed store job =>
    match store.succeed s.queue job.claim with
    | .ok queue => .ok { s with queue }
    | .error e => .error (raisedBy e)
  | .fail store now job error =>
    match failJob store now s job error with
    | .ok s' => .ok s'
    | .error e => .error (raisedBy e)
  | .cancel store job code =>
    match store.cancel s.queue job.claim code with
    | .ok queue => .ok { s with queue }
    | .error e => .error (raisedBy e)

/-- The room before the request, and what the request brings. -/
structure Request where
  queue : Queue
  roomId : String
  teacherId : String
  rows : Rows
  unfinishedDeletion : Bool
  principal : Option String
  confirmation : String
  deletionJobId : String
  correlationId : String
  now : Int

/-- `stableUuid`, a name-based UUID under the deletion namespace. -/
def stableUuid (parts : List String) : String :=
  Digest.uuid5 "4d3f1a0e-6b9c-42d8-a1f0-e5c7b2d64980" (Text.join "\x00" parts)

def surfaceJob (deletionJobId correlationId : String) (now : Int) (surface : Surface) :
    NewJob where
  jobId := stableUuid [deletionJobId, surface.name]
  jobType := jobType
  roomId := none
  sourceEventId := none
  dedupeKey := dedupeKey deletionJobId surface
  correlationId := correlationId
  payload := (Dict.empty.set "deletionJobId" (.text deletionJobId)).set "surface" (.text surface.name)
  runAfter := now
  createdAt := now

def enqueueDeletionSurfaceJobs (queue : Queue) (deletionJobId correlationId : String) (now : Int) :
    Except String Queue :=
  surfaces.foldlM (fun queue surface =>
    Jobs.insertJobOnce queue (surfaceJob deletionJobId correlationId now surface)) queue

/-- Every live job of the room is cancelled, analytics included. -/
def cancelLiveJobs (queue : Queue) (roomId : String) : Queue :=
  { queue with
    jobs := queue.jobs.mapValues fun _ row =>
      if row.roomId = some roomId && !row.status.terminal then { row with status := .cancelled }
      else row }

/-- `GovernanceService.requestDeletion`. -/
def requestDeletion (r : Request) : Except String Saga :=
  match r.principal with
  | none => .error "AUTH_REQUIRED"
  | some teacher =>
    if teacher ≠ r.teacherId then .error "ROOM_NOT_FOUND"
    else if r.confirmation ≠ "DELETE " ++ r.roomId then .error "INVALID_DELETE_REQUEST"
    else if r.unfinishedDeletion then .error "DELETION_IN_PROGRESS"
    else do
      let queue ← enqueueDeletionSurfaceJobs (cancelLiveJobs r.queue r.roomId) r.deletionJobId
        r.correlationId r.now
      return {
        queue
        roomId := r.roomId
        room := some r.rows
        deletionJobId := r.deletionJobId
        correlationId := r.correlationId
        roomRef := some r.roomId
        status := .queued
        manifests := fun surface => ⟨surfaceCount r.rows surface, .frozen⟩
        receipt := none }

end LearningOrbit.Deletion
