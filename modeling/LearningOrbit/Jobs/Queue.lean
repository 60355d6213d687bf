import LearningOrbit.Dict
import LearningOrbit.Digest
import LearningOrbit.Raise

/-!
# The worker queue

The `worker_job` and `worker_job_completion` tables and every statement that
workers and rooms run on them: `CLAIM_SQL` and `SETTLE_SQL` in one transaction,
the fenced calls of `JobStore` and `JobClaims`, and `cancelRoomJobs`. Times are
microseconds; a `uuid` column is the canonical text of its value.
-/

namespace LearningOrbit.Jobs

open LearningOrbit (Dict)
open Digest (sha256Hex)

/-- A member of a job's JSON payload. -/
inductive Member
  | text (s : String)
  | number (n : Int)
  deriving DecidableEq

structure Lease where
  claimToken : String
  lockedAt : Int
  lockedBy : String
  deriving DecidableEq

/-- The status and lease columns in one: `worker_job_lease_check` lets a row hold a token, a
time and a worker exactly while it is running. -/
inductive Status
  | queued
  | running (lease : Lease)
  | succeeded
  | retryable
  | dead
  | cancelled
  deriving DecidableEq

def Status.terminal : Status → Bool
  | .succeeded | .dead | .cancelled => true
  | .queued | .running _ | .retryable => false

def analyticsType (jobType : String) : Bool :=
  jobType = "analytics.consume.v1" || jobType = "analytics.replay-room.v1"

/-- `worker_job_analytics_order_ck`, over `(analytics_order_seq, analytics_order_kind)`. -/
def analyticsOrderCk (jobType : String) : Option (Int × Int) → Bool
  | some (seq, kind) =>
    (jobType = "analytics.consume.v1" && 0 < seq && kind = 0)
      || (jobType = "analytics.replay-room.v1" && 0 ≤ seq && kind = 1)
  | none => !analyticsType jobType

structure JobRow where
  jobType : String
  roomId : Option String
  sourceEventId : Option String
  dedupeKey : String
  correlationId : String
  payload : Dict String Member
  status : Status
  attempts : Nat
  maxAttempts : Nat
  runAfter : Int
  claimGeneration : Nat
  lastError : Option String
  createdAt : Int
  analyticsOrder : Option (Int × Int)
  orderCk : analyticsOrderCk jobType analyticsOrder = true
  deriving DecidableEq

structure Completion where
  claimTokenHash : String
  completionCode : String
  deriving DecidableEq

/-- `worker_job` by its id and `worker_job_completion` by `(job_id, claim_generation)`. -/
structure Queue where
  jobs : Dict String JobRow
  completions : Dict (String × Nat) Completion
  deriving DecidableEq

def Queue.empty : Queue := ⟨.empty, .empty⟩

def Queue.setJob (q : Queue) (jobId : String) (row : JobRow) : Queue :=
  { q with jobs := q.jobs.set jobId row }

/-- The columns an `INSERT INTO worker_job` gives; the others take their defaults. -/
structure NewJob where
  jobId : String
  jobType : String
  roomId : Option String
  sourceEventId : Option String
  dedupeKey : String
  correlationId : String
  payload : Dict String Member
  maxAttempts : Nat := 5
  runAfter : Int
  createdAt : Int
  analyticsOrder : Option (Int × Int) := none

def NewJob.row (job : NewJob) (h : analyticsOrderCk job.jobType job.analyticsOrder = true) :
    JobRow where
  jobType := job.jobType
  roomId := job.roomId
  sourceEventId := job.sourceEventId
  dedupeKey := job.dedupeKey
  correlationId := job.correlationId
  payload := job.payload
  status := .queued
  attempts := 0
  maxAttempts := job.maxAttempts
  runAfter := job.runAfter
  claimGeneration := 0
  lastError := none
  createdAt := job.createdAt
  analyticsOrder := job.analyticsOrder
  orderCk := h

def Queue.dedupeKeys (q : Queue) : List String := q.jobs.values.map (·.dedupeKey)

/-- A plain insert: the unique columns and the order check raise. -/
def insertJob (q : Queue) (job : NewJob) : Except String Queue :=
  if h : analyticsOrderCk job.jobType job.analyticsOrder = true then
    if q.jobs.contains job.jobId then .error "worker_job_pkey"
    else if job.dedupeKey ∈ q.dedupeKeys then .error "worker_job_dedupe_key_key"
    else .ok (q.setJob job.jobId (job.row h))
  else .error "worker_job_analytics_order_ck"

/-- `ON CONFLICT (dedupe_key) DO NOTHING`. -/
def insertJobOnce (q : Queue) (job : NewJob) : Except String Queue :=
  if analyticsOrderCk job.jobType job.analyticsOrder && job.dedupeKey ∈ q.dedupeKeys then .ok q
  else insertJob q job

def leaseInterval : Int := 120000000

def retryDelay : Int := 5000000

/-- `locked_at < now() - interval '2 minutes'`. -/
def leaseExpired (now : Int) (lease : Lease) : Bool := lease.lockedAt < now - leaseInterval

/-- `(seq, kind, job_id) < (seq, kind, job_id)`. -/
def orderBefore (a : Int × Int) (i : String) (b : Int × Int) (j : String) : Bool :=
  a.1 < b.1 || (a.1 = b.1 && (a.2 < b.2 || (a.2 = b.2 && i < j)))

/-- `prior` is an analytics job of the same room with a smaller order. -/
def precedes (priorId : String) (prior : JobRow) (jobId : String) (row : JobRow) : Bool :=
  analyticsType row.jobType && analyticsType prior.jobType
    && prior.roomId.isSome && prior.roomId = row.roomId
    && match prior.analyticsOrder, row.analyticsOrder with
      | some a, some b => orderBefore a priorId b jobId
      | _, _ => false

/-- The `NOT EXISTS` barrier of both statements. -/
def unblocked (q : Queue) (jobId : String) (row : JobRow) : Bool :=
  q.jobs.entries.all fun (priorId, prior) =>
    !precedes priorId prior jobId row || prior.status = .succeeded

def claimable (now : Int) (row : JobRow) : Bool :=
  match row.status with
  | .queued | .retryable => true
  | .running lease => leaseExpired now lease
  | .succeeded | .dead | .cancelled => false

/-- The rows `CLAIM_SQL` selects from. Which of them it returns depends on its order and on the
rows other transactions hold locked. -/
def selects (q : Queue) (now : Int) (jobId : String) : Bool :=
  (q.jobs.get? jobId).any fun row =>
    row.runAfter ≤ now && claimable now row && unblocked q jobId row

/-- A receipt of this lease: its generation and the hash of its token. -/
def receipt (q : Queue) (jobId : String) (row : JobRow) (lease : Lease) : Bool :=
  (q.completions.get? (jobId, row.claimGeneration)).any fun c =>
    c.claimTokenHash = sha256Hex lease.claimToken

def recovered (q : Queue) (now : Int) (jobId : String) (row : JobRow) : Bool :=
  match row.status with
  | .running lease => receipt q jobId row lease && leaseExpired now lease
  | _ => false

def exhausted (q : Queue) (now : Int) (jobId : String) (row : JobRow) : Bool :=
  match row.status with
  | .running lease =>
    leaseExpired now lease && decide (row.maxAttempts ≤ row.attempts) && !recovered q now jobId row
  | _ => false

def picked (q : Queue) (now : Int) (jobId : String) (row : JobRow) : Bool :=
  decide (row.attempts < row.maxAttempts) && !recovered q now jobId row
    && !exhausted q now jobId row && claimable now row && unblocked q jobId row

/-- What the common table expressions of `SETTLE_SQL` do to the selected row. -/
inductive Settled
  | recovered
  | exhausted
  | picked
  | unchanged
  deriving DecidableEq

def JobRow.release (row : JobRow) (status : Status) (lastError : Option String) : JobRow :=
  { row with status, lastError }

def JobRow.take (row : JobRow) (worker token : String) (now : Int) : JobRow :=
  { row with
    status := .running ⟨token, now, worker⟩
    claimGeneration := row.claimGeneration + 1
    attempts := row.attempts + 1 }

def deleteCompletions (q : Queue) (jobId : String) : Queue :=
  { q with completions := q.completions.filterKeys fun k => k.1 ≠ jobId }

/-- `SETTLE_SQL` for one id: every branch reads the same snapshot. -/
def settle (q : Queue) (worker token : String) (now : Int) (jobId : String) : Queue × Settled :=
  match q.jobs.get? jobId with
  | none => (q, .unchanged)
  | some row =>
    if recovered q now jobId row then
      (deleteCompletions (q.setJob jobId (row.release .succeeded none)) jobId, .recovered)
    else if exhausted q now jobId row then
      (q.setJob jobId (row.release .dead (some "JOB_LEASE_EXPIRED_MAX_ATTEMPTS")), .exhausted)
    else if picked q now jobId row then (q.setJob jobId (row.take worker token now), .picked)
    else (q, .unchanged)

/-- The identity of one attempt, as `WorkerJob.claim` gives it. -/
structure JobClaim where
  jobId : String
  jobType : String
  roomId : Option String
  sourceEventId : Option String
  dedupeKey : String
  correlationId : String
  claimGeneration : Nat
  claimToken : String
  workerId : String
  deriving DecidableEq

/-- A claimed row; the identity of the attempt and what a handler reads. -/
structure WorkerJob where
  claim : JobClaim
  payload : Dict String Member
  attempts : Nat
  analyticsOrder : Option (Int × Int)
  deriving DecidableEq

def JobRow.attempt (row : JobRow) (jobId : String) (lease : Lease) : WorkerJob where
  claim := {
    jobId
    jobType := row.jobType
    roomId := row.roomId
    sourceEventId := row.sourceEventId
    dedupeKey := row.dedupeKey
    correlationId := row.correlationId
    claimGeneration := row.claimGeneration
    claimToken := lease.claimToken
    workerId := lease.lockedBy }
  payload := row.payload
  attempts := row.attempts
  analyticsOrder := row.analyticsOrder

def orderInvariant (row : JobRow) : Bool :=
  (row.analyticsOrder.all fun (seq, kind) => 0 ≤ seq && (kind = 0 || kind = 1))
    && if row.jobType = "analytics.consume.v1" then
        row.analyticsOrder.any fun (seq, kind) => kind = 0 && 1 ≤ seq
      else if row.jobType = "analytics.replay-room.v1" then
        row.analyticsOrder.any fun (_, kind) => kind = 1
      else row.analyticsOrder.isNone

/-- `_job_from_row`. A `uuid` is never falsy, so of the two lease checks only the worker's name
can fail. -/
def jobFromRow (jobId : String) (row : JobRow) : Except String WorkerJob :=
  match row.status with
  | .running lease =>
    if lease.lockedBy = "" then .error "WORKER_JOB_CLAIM_INVARIANT"
    else if !orderInvariant row then .error "WORKER_JOB_ANALYTICS_ORDER_INVARIANT"
    else if row.claimGeneration < 1 then .error "WORKER_JOB_CLAIM_GENERATION_INVARIANT"
    else .ok (row.attempt jobId lease)
  | _ => .error "WORKER_JOB_CLAIM_INVARIANT"

/-- One worker's view of the queue; the constructor refuses other names. -/
structure JobStore where
  workerId : String
  valid : workerId ≠ "" ∧ workerId.length ≤ 128
  deriving DecidableEq

/-- `JobStore.claim` when `CLAIM_SQL` returns `candidate`; `token` is the value
`gen_random_uuid()` yields. -/
def JobStore.claim (store : JobStore) (q : Queue) (now : Int) (token candidate : String) :
    Except String (Queue × Settled × List WorkerJob) :=
  if !selects q now candidate then .ok (q, .unchanged, [])
  else
    let (q', settled) := settle q store.workerId token now candidate
    match settled, q'.jobs.get? candidate with
    | .picked, some row => do
      let job ← jobFromRow candidate row
      return (q', .picked, [job])
    | _, _ => .ok (q', settled, [])

def Queue.running? (q : Queue) (jobId : String) : Option (JobRow × Lease) :=
  match q.jobs.get? jobId with
  | some row =>
    match row.status with
    | .running lease => some (row, lease)
    | _ => none
  | none => none

/-- The row and lease hold the generation and token of the attempt, for this worker. -/
def attemptOf (row : JobRow) (lease : Lease) (job : JobClaim) (worker : String) : Bool :=
  row.claimGeneration = job.claimGeneration && lease.claimToken = job.claimToken
    && lease.lockedBy = worker

def identityOf (row : JobRow) (job : JobClaim) : Bool :=
  row.jobType = job.jobType && row.roomId = job.roomId && row.sourceEventId = job.sourceEventId
    && row.dedupeKey = job.dedupeKey && row.correlationId = job.correlationId

/-- `require_current`; `stale` is the code the caller's class raises. -/
def requireCurrent (stale : String) (q : Queue) (job : JobClaim) :
    Except String (JobRow × Lease) :=
  if job.workerId = "" then .error "WORKER_JOB_CLAIM_INVARIANT"
  else
    match q.running? job.jobId with
    | none => .error stale
    | some (row, lease) =>
      if identityOf row job && attemptOf row lease job job.workerId then .ok (row, lease)
      else .error stale

/-- `JobStore.heartbeat`; the worker it compares is the store's own. -/
def JobStore.heartbeat (store : JobStore) (now : Int) (q : Queue) (job : JobClaim) :
    Except String Queue :=
  match q.running? job.jobId with
  | none => .error "STALE_CLAIM"
  | some (row, lease) =>
    if attemptOf row lease job store.workerId then
      .ok (q.setJob job.jobId { row with status := .running { lease with lockedAt := now } })
    else .error "STALE_CLAIM"

/-- `[A-Z0-9_]{1,64}`. -/
def validCode (code : String) : Bool :=
  1 ≤ code.length && code.length ≤ 64
    && code.toList.all fun c => ('A' ≤ c && c ≤ 'Z') || ('0' ≤ c && c ≤ '9') || c = '_'

/-- `INSERT INTO worker_job_completion … ON CONFLICT (job_id, claim_generation) DO NOTHING`. -/
def insertCompletion (q : Queue) (job : JobClaim) (code : String) : Except String Queue :=
  if job.claimGeneration = 0 then .error "worker_job_completion_claim_generation_check"
  else if q.completions.contains (job.jobId, job.claimGeneration) then .ok q
  else if q.completions.entries.any fun (key, c) =>
      key.1 = job.jobId && c.claimTokenHash = sha256Hex job.claimToken then
    .error "worker_job_completion_job_id_claim_token_hash_key"
  else
    .ok { q with
      completions := q.completions.set (job.jobId, job.claimGeneration)
        ⟨sha256Hex job.claimToken, code⟩ }

/-- `JobClaims.complete_business`. -/
def completeBusiness (q : Queue) (job : JobClaim) (code : String) : Except String Queue :=
  if !validCode code then .error "JOB_COMPLETION_CODE_INVALID"
  else do
    let _ ← requireCurrent "JOB_CLAIM_STALE" q job
    let q' ← insertCompletion q job code
    match q'.completions.get? (job.jobId, job.claimGeneration) with
    | some marker =>
      if marker.claimTokenHash = sha256Hex job.claimToken && marker.completionCode = code then
        .ok q'
      else .error "JOB_COMPLETION_CONFLICT"
    | none => .error "JOB_COMPLETION_CONFLICT"

/-- The receipt that `succeed` and `fail` look for. -/
def markerMatches (q : Queue) (job : JobClaim) : Bool :=
  (q.completions.get? (job.jobId, job.claimGeneration)).any fun c =>
    c.claimTokenHash = sha256Hex job.claimToken

def finishSucceeded (q : Queue) (job : JobClaim) (row : JobRow) : Queue :=
  { jobs := q.jobs.set job.jobId (row.release .succeeded none)
    completions := q.completions.erase (job.jobId, job.claimGeneration) }

def JobStore.succeed (store : JobStore) (q : Queue) (job : JobClaim) : Except String Queue := do
  let (row, lease) ← requireCurrent "STALE_CLAIM" q job
  if !markerMatches q job then .error "COMPLETION_MISSING"
  else if lease.lockedBy ≠ store.workerId then .error "STALE_CLAIM"
  else .ok (finishSucceeded q job row)

/-- The error a handler ended with: an exception with its `code` and `terminal` attributes, or
a plain string. -/
inductive Failure
  | raised (code : Option String) (terminal : Bool)
  | text (code : String)
  deriving DecidableEq

def Failure.terminal : Failure → Bool
  | .raised _ terminal => terminal
  | .text _ => false

def Failure.code : Failure → String
  | .raised (some code) _ => if validCode code then code else "JOB_HANDLER_FAILED"
  | .raised none _ => "JOB_HANDLER_FAILED"
  | .text code => if validCode code then code else "JOB_HANDLER_FAILED"

/-- The row after a failed attempt. -/
def JobRow.failed (row : JobRow) (now : Int) (error : Failure) : JobRow :=
  if error.terminal || row.maxAttempts ≤ row.attempts then row.release .dead (some error.code)
  else { row.release .retryable (some error.code) with runAfter := now + retryDelay }

/-- `JobStore.fail`, with the status it leaves. -/
def JobStore.fail (store : JobStore) (now : Int) (q : Queue) (job : JobClaim) (error : Failure) :
    Except String (Queue × Status) := do
  let (row, lease) ← requireCurrent "STALE_CLAIM" q job
  -- The business work committed: a later failure must not undo it.
  if markerMatches q job then .ok (finishSucceeded q job row, .succeeded)
  else if lease.lockedBy ≠ store.workerId then .error "STALE_CLAIM"
  else
    let failed := row.failed now error
    .ok (q.setJob job.jobId failed, failed.status)

def JobStore.cancel (store : JobStore) (q : Queue) (job : JobClaim) (code : String) :
    Except String Queue :=
  if !validCode code then .error "JOB_COMPLETION_CODE_INVALID"
  else do
    let (row, lease) ← requireCurrent "STALE_CLAIM" q job
    if lease.lockedBy ≠ store.workerId then .error "STALE_CLAIM"
    else .ok (q.setJob job.jobId (row.release .cancelled (some code)))

/-- The rows `cancelRoomJobs` updates. -/
def cancels (roomId : String) (preserve : Option String) (jobId : String) (row : JobRow) : Bool :=
  row.roomId = some roomId && !row.status.terminal && !analyticsType row.jobType
    && preserve ≠ some jobId

def cancelRoomJobs (q : Queue) (roomId : String) (preserve : Option String) : Queue :=
  { q with
    jobs := q.jobs.mapValues fun jobId row =>
      if cancels roomId preserve jobId row then { row with status := .cancelled } else row }

/-- One transaction on the queue. -/
inductive Call
  | enqueue (job : NewJob)
  | claim (store : JobStore) (now : Int) (token candidate : String)
  | heartbeat (store : JobStore) (now : Int) (job : JobClaim)
  | completeBusiness (job : JobClaim) (code : String)
  | succeed (store : JobStore) (job : JobClaim)
  | fail (store : JobStore) (now : Int) (job : JobClaim) (error : Failure)
  | cancel (store : JobStore) (job : JobClaim) (code : String)
  | cancelRoomJobs (roomId : String) (preserve : Option String)

def step (q : Queue) : Call → Except String Queue
  | .enqueue job => insertJob q job
  | .claim store now token candidate => (store.claim q now token candidate).map (·.1)
  | .heartbeat store now job => store.heartbeat now q job
  | .completeBusiness job code => completeBusiness q job code
  | .succeed store job => store.succeed q job
  | .fail store now job error => (store.fail now q job error).map (·.1)
  | .cancel store job code => store.cancel q job code
  | .cancelRoomJobs roomId preserve => .ok (cancelRoomJobs q roomId preserve)

/-- Transactions one after the other; a lease expires as the `now` of later calls grows. -/
def run (calls : List Call) : Queue := commitAll step .empty calls

end LearningOrbit.Jobs
