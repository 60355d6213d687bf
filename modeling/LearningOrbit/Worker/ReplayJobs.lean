import LearningOrbit.Reference.Events
import LearningOrbit.Rows
import LearningOrbit.Uuid

/-!
# Replay authority

Idempotent enqueue of `analytics.replay-room.v1` jobs. The dedupe key names the
room, the reason and a token; a row found under it must agree in every
immutable field.
-/

namespace LearningOrbit.Worker

open LearningOrbit (Host)

inductive ReplayReason
  | lateEvent | artifactAvailable | analyticsReview | operatorRebuild
  deriving DecidableEq

def ReplayReason.str : ReplayReason → String
  | .lateEvent => "late_event"
  | .artifactAvailable => "artifact_available"
  | .analyticsReview => "analytics_review"
  | .operatorRebuild => "operator_rebuild"

structure ReplayPayload where
  reason : ReplayReason
  requestedThroughRoomSeq : Nat
  deriving DecidableEq

/-- The immutable columns of a replay job in `worker_job`. -/
structure ReplayJob where
  jobId : String
  jobType : String
  roomId : String
  sourceEventId : Option String
  dedupeKey : String
  correlationId : String
  payload : ReplayPayload
  analyticsOrderSeq : Nat
  analyticsOrderKind : Nat
  deriving DecidableEq

/-- A row of `analytics_replay_request`. -/
structure ReplayRequest where
  jobId : String
  roomId : String
  sourceEventId : Option String
  reason : ReplayReason
  requestedThroughRoomSeq : Nat
  dedupeKey : String
  correlationId : String
  deriving DecidableEq

/-- The two tables with their primary keys and unique columns. -/
structure ReplayTables where
  jobs : List ReplayJob
  requests : List ReplayRequest
  jobIds : (jobs.map (·.jobId)).Nodup
  jobKeys : (jobs.map (·.dedupeKey)).Nodup
  requestIds : (requests.map (·.jobId)).Nodup
  requestKeys : (requests.map (·.dedupeKey)).Nodup

namespace ReplayTables

def empty : ReplayTables := ⟨[], [], .nil, .nil, .nil, .nil⟩

/-- `INSERT INTO worker_job … ON CONFLICT (dedupe_key) DO NOTHING`. -/
def insertJob (t : ReplayTables) (job : ReplayJob) : Except String ReplayTables :=
  if hk : job.dedupeKey ∈ t.jobs.map (·.dedupeKey) then .ok t
  else if hi : job.jobId ∈ t.jobs.map (·.jobId) then .error "worker_job_pkey"
  else .ok { t with
    jobs := t.jobs ++ [job]
    jobIds := Rows.nodup_concat t.jobIds hi
    jobKeys := Rows.nodup_concat t.jobKeys hk }

/-- `INSERT INTO analytics_replay_request … ON CONFLICT (job_id) DO NOTHING`. -/
def insertRequest (t : ReplayTables) (request : ReplayRequest) : Except String ReplayTables :=
  if hi : request.jobId ∈ t.requests.map (·.jobId) then .ok t
  else if hk : request.dedupeKey ∈ t.requests.map (·.dedupeKey) then
    .error "analytics_replay_request_dedupe_key_key"
  else .ok { t with
    requests := t.requests ++ [request]
    requestIds := Rows.nodup_concat t.requestIds hi
    requestKeys := Rows.nodup_concat t.requestKeys hk }

end ReplayTables

/-- The arguments of `enqueue_analytics_replay`. -/
structure ReplayArgs where
  roomId : String
  sourceEventId : Option String
  requestedThroughRoomSeq : Nat
  reason : ReplayReason
  dedupeToken : String
  correlationId : String

/-- Its three UUIDs in canonical form. -/
def ReplayArgs.canonical (args : ReplayArgs) : Option ReplayArgs := do
  let roomId ← Uuid.canonical args.roomId
  let sourceEventId ← match args.sourceEventId with
    | none => some none
    | some id => (Uuid.canonical id).map some
  let correlationId ← Uuid.canonical args.correlationId
  return { args with roomId, sourceEventId, correlationId }

def REPLAY_JOB_NAMESPACE : String := "00000000-0000-5000-8000-000000000033"

def ReplayArgs.dedupeKey (h : Host) (args : ReplayArgs) : String :=
  "analytics.replay-room.v1:" ++
    h.sha256Hex (args.roomId ++ "\x00" ++ args.reason.str ++ "\x00" ++ args.dedupeToken)

def ReplayArgs.jobId (h : Host) (args : ReplayArgs) : String :=
  h.uuid5 REPLAY_JOB_NAMESPACE (args.dedupeKey h)

/-- The job row the arguments stand for. -/
def ReplayArgs.job (h : Host) (args : ReplayArgs) : ReplayJob where
  jobId := args.jobId h
  jobType := "analytics.replay-room.v1"
  roomId := args.roomId
  sourceEventId := args.sourceEventId
  dedupeKey := args.dedupeKey h
  correlationId := args.correlationId
  payload := ⟨args.reason, args.requestedThroughRoomSeq⟩
  analyticsOrderSeq := args.requestedThroughRoomSeq
  analyticsOrderKind := 1

/-- The authority row the arguments stand for. -/
def ReplayArgs.request (h : Host) (args : ReplayArgs) : ReplayRequest where
  jobId := args.jobId h
  roomId := args.roomId
  sourceEventId := args.sourceEventId
  reason := args.reason
  requestedThroughRoomSeq := args.requestedThroughRoomSeq
  dedupeKey := args.dedupeKey h
  correlationId := args.correlationId

/-- `enqueue_analytics_replay`: insert both rows unless they are there, then compare every
immutable field with what is stored. -/
def enqueueAnalyticsReplay (h : Host) (t : ReplayTables) (args : ReplayArgs) :
    Except String (ReplayTables × String) :=
  match args.canonical with
  | none => .error "INVALID_REPLAY_REQUEST"
  | some args =>
    if args.dedupeToken.length < 1 ∨ 160 < args.dedupeToken.length then
      .error "INVALID_REPLAY_REQUEST"
    else do
      let t ← t.insertJob (args.job h)
      match t.jobs.find? fun row => row.dedupeKey = args.dedupeKey h with
      | none => .error "REPLAY_AUTHORITY_CONFLICT"
      | some row =>
        if row ≠ args.job h then .error "REPLAY_AUTHORITY_CONFLICT"
        else do
          let t ← t.insertRequest (args.request h)
          match t.requests.find? fun row => row.jobId = args.jobId h with
          | none => .error "REPLAY_AUTHORITY_CONFLICT"
          | some row =>
            if row ≠ args.request h then .error "REPLAY_AUTHORITY_CONFLICT"
            else .ok (t, args.jobId h)

section Enqueue

variable {h : Host} {t : ReplayTables} {args : ReplayArgs}

/-- A request the enqueue accepts as it is written. -/
structure ReplayArgs.Valid (args : ReplayArgs) : Prop where
  canonical : args.canonical = some args
  token : 1 ≤ args.dedupeToken.length ∧ args.dedupeToken.length ≤ 160

/-- A request nobody made before is entered into both tables. -/
theorem enqueue_new (hv : args.Valid)
    (hjob : ∀ row ∈ t.jobs, row.dedupeKey ≠ args.dedupeKey h ∧ row.jobId ≠ args.jobId h)
    (hreq : ∀ row ∈ t.requests, row.dedupeKey ≠ args.dedupeKey h ∧ row.jobId ≠ args.jobId h) :
    ∃ t', enqueueAnalyticsReplay h t args = .ok (t', args.jobId h) ∧
      t'.jobs = t.jobs ++ [args.job h] ∧ t'.requests = t.requests ++ [args.request h] := by
  have hlen : ¬ (args.dedupeToken.length < 1 ∨ 160 < args.dedupeToken.length) := by
    have := hv.token
    omega
  have hjk : (args.job h).dedupeKey ∉ t.jobs.map (·.dedupeKey) := by
    rintro hm
    obtain ⟨row, hr, he⟩ := List.mem_map.mp hm
    exact (hjob row hr).1 he
  have hji : (args.job h).jobId ∉ t.jobs.map (·.jobId) := by
    rintro hm
    obtain ⟨row, hr, he⟩ := List.mem_map.mp hm
    exact (hjob row hr).2 he
  have hri : (args.request h).jobId ∉ t.requests.map (·.jobId) := by
    rintro hm
    obtain ⟨row, hr, he⟩ := List.mem_map.mp hm
    exact (hreq row hr).2 he
  have hrk : (args.request h).dedupeKey ∉ t.requests.map (·.dedupeKey) := by
    rintro hm
    obtain ⟨row, hr, he⟩ := List.mem_map.mp hm
    exact (hreq row hr).1 he
  have hfindJob : (t.jobs ++ [args.job h]).find? (fun row => row.dedupeKey = args.dedupeKey h) =
      some (args.job h) :=
    Rows.find?_concat (fun r hr => by simpa using (hjob r hr).1) (by simp [ReplayArgs.job])
  have hfindReq : (t.requests ++ [args.request h]).find? (fun row => row.jobId = args.jobId h) =
      some (args.request h) :=
    Rows.find?_concat (fun r hr => by simpa using (hreq r hr).2) (by simp [ReplayArgs.request])
  unfold enqueueAnalyticsReplay
  simp only [hv.canonical, hlen, ↓reduceIte, ReplayTables.insertJob, hjk, hji, ↓reduceDIte,
    bind, Except.bind, hfindJob, ne_eq, not_true_eq_false, ReplayTables.insertRequest, hri, hrk,
    hfindReq]
  exact ⟨_, rfl, rfl, rfl⟩

/-- A request found under its key with another content is refused. -/
theorem enqueue_conflict (hv : args.Valid) {row : ReplayJob} (hr : row ∈ t.jobs)
    (hk : row.dedupeKey = args.dedupeKey h) (hne : row ≠ args.job h) :
    enqueueAnalyticsReplay h t args = .error "REPLAY_AUTHORITY_CONFLICT" := by
  have hlen : ¬ (args.dedupeToken.length < 1 ∨ 160 < args.dedupeToken.length) := by
    have := hv.token
    omega
  have hjk : (args.job h).dedupeKey ∈ t.jobs.map (·.dedupeKey) :=
    List.mem_map.mpr ⟨row, hr, hk⟩
  have hfind : t.jobs.find? (fun row => row.dedupeKey = args.dedupeKey h) = some row :=
    Rows.find?_unique t.jobKeys hr hk
  unfold enqueueAnalyticsReplay
  simp only [hv.canonical, hlen, ↓reduceIte, ReplayTables.insertJob, hjk, ↓reduceDIte, bind,
    Except.bind, hfind, ne_eq, hne, not_false_eq_true]

end Enqueue

end LearningOrbit.Worker
