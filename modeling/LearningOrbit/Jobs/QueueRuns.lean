import LearningOrbit.Jobs.Fencing

/-!
# Runs of the queue

Fencing, progress and order over every sequence of transactions, by any number of
workers.
-/

namespace LearningOrbit.Jobs

open LearningOrbit (Dict)
open Digest (sha256Hex)

/-- The attempt a fenced call is made with, and the worker it is compared for: `heartbeat` reads
the worker from its store, the other calls from the claim. -/
def Call.attempt : Call → Option (JobClaim × String)
  | .heartbeat store _ job => some (job, store.workerId)
  | .completeBusiness job _ => some (job, job.workerId)
  | .succeed _ job => some (job, job.workerId)
  | .fail _ _ job _ => some (job, job.workerId)
  | .cancel _ job _ => some (job, job.workerId)
  | .enqueue _ | .claim .. | .cancelRoomJobs .. => none

/-- The claim is the job's current generation, token and worker. -/
def Current (q : Queue) (job : JobClaim) (worker : String) : Prop :=
  ∃ row lease, Holds q job worker row lease

theorem step_current {q q' : Queue} {call : Call} {job : JobClaim} {worker : String}
    (h : step q call = .ok q') (ha : call.attempt = some (job, worker)) : Current q job worker := by
  cases call with
  | heartbeat store now job₁ =>
    cases ha
    obtain ⟨row, lease, hh, -⟩ := JobStore.heartbeat_holds h
    exact ⟨row, lease, hh⟩
  | completeBusiness job₁ code =>
    cases ha
    exact (completeBusiness_eq h).1
  | succeed store job₁ =>
    cases ha
    obtain ⟨row, lease, hh, -⟩ := JobStore.succeed_eq h
    exact ⟨row, lease, hh⟩
  | fail store now job₁ error =>
    cases ha
    obtain ⟨⟨q₁, status⟩, hf, -⟩ := map_eq_ok.mp h
    obtain ⟨row, lease, hh, -⟩ := JobStore.fail_eq hf
    exact ⟨row, lease, hh⟩
  | cancel store job₁ code =>
    cases ha
    obtain ⟨row, lease, hh, -⟩ := JobStore.cancel_eq h
    exact ⟨row, lease, hh⟩
  | _ => cases ha

/-- A call that does not hold the current attempt raises, so its transaction rolls back. -/
theorem step_stale {q : Queue} {call : Call} {job : JobClaim} {worker : String}
    (ha : call.attempt = some (job, worker)) (hc : ¬ Current q job worker) :
    ∃ e, step q call = .error e ∧ commit step q call = q := by
  cases h : step q call with
  | error e => exact ⟨e, rfl, commit_of_error h⟩
  | ok q' => exact absurd (step_current h ha) hc

/-- A claim some worker was handed names its own worker: whichever store sends its heartbeat,
it counts only while it is current. -/
theorem heartbeat_stale {calls : List Call} {job : JobClaim} (hj : job ∈ issued .empty calls)
    (hc : ¬ Current (run calls) job job.workerId) (store : JobStore) (now : Int) :
    ∃ e, store.heartbeat now (run calls) job = .error e := by
  cases h : store.heartbeat now (run calls) job with
  | error e => exact ⟨e, rfl⟩
  | ok q' =>
    obtain ⟨row, lease, hh, -⟩ := JobStore.heartbeat_holds h
    obtain ⟨row₁, hrow₁, -, hlease⟩ := issued_given _ calls hj
    have he : row₁ = row := Option.some.inj (hrow₁.symm.trans hh.stored)
    subst he
    obtain ⟨ht, hw⟩ := hlease lease hh.running hh.generation
    exact absurd ⟨row₁, lease, hh.stored, hh.running, hh.generation, ht, hw⟩ hc

theorem run_append (calls more : List Call) :
    run (calls ++ more) = commitAll step (run calls) more :=
  commitAll_append ..

theorem claim_strict {store : JobStore} {q q' : Queue} {now : Int} {token candidate : String}
    {settled : Settled} {jobs : List WorkerJob}
    (h : store.claim q now token candidate = .ok (q', settled, jobs)) {job : WorkerJob}
    (hj : job ∈ jobs) : ∃ row row', q.jobs.get? candidate = some row ∧
      q'.jobs.get? candidate = some row' ∧ row.claimGeneration < row'.claimGeneration ∧
      job.claim.jobId = candidate ∧ job.claim.claimGeneration = row'.claimGeneration := by
  obtain ⟨row, hrow, rfl, rfl⟩ := JobStore.claim_job h hj
  exact ⟨row, row.take store.workerId token now, hrow, by simp, Nat.lt_succ_self _, rfl, rfl⟩

/-- Fencing over every interleaving: `calls` is what happened so far, `more` what follows. -/
theorem claims_fenced (calls more : List Call) :
    -- the generation never decreases, and finished jobs stay as they are
    (∀ id row, (run calls).jobs.get? id = some row →
      ∃ row', (run (calls ++ more)).jobs.get? id = some row' ∧
        row.claimGeneration ≤ row'.claimGeneration ∧
        (row.status.terminal = true → row' = row)) ∧
    -- every claim that hands a job out increases it
    (∀ store now token candidate q' settled jobs,
      JobStore.claim store (run calls) now token candidate = .ok (q', settled, jobs) →
      ∀ job ∈ jobs, ∃ row row', (run calls).jobs.get? candidate = some row ∧
        q'.jobs.get? candidate = some row' ∧ row.claimGeneration < row'.claimGeneration ∧
        job.claim.jobId = candidate ∧ job.claim.claimGeneration = row'.claimGeneration) ∧
    -- a call made with another attempt raises and changes nothing
    (∀ call job worker, Call.attempt call = some (job, worker) →
      ¬ Current (run calls) job worker →
      ∃ e, step (run calls) call = .error e ∧ commit step (run calls) call = run calls) ∧
    (∀ job ∈ issued .empty calls, ¬ Current (run calls) job job.workerId →
      ∀ store now, ∃ e, JobStore.heartbeat store now (run calls) job = .error e) ∧
    -- at most one receipt is ever committed for a job
    (∀ id, (committed id .empty calls).length ≤ 1) ∧
    -- a running job with the receipt of its attempt only ends in success or cancellation
    (∀ id row lease, (run calls).jobs.get? id = some row → row.status = .running lease →
      receipt (run calls) id row lease = true →
      ∃ row', (run (calls ++ more)).jobs.get? id = some row' ∧
        row'.claimGeneration = row.claimGeneration ∧
        (row'.status = .succeeded ∨ row'.status = .cancelled ∨
          ∃ lease', row'.status = .running lease' ∧
            receipt (run (calls ++ more)) id row' lease' = true)) := by
  rw [run_append]
  refine ⟨commitAll_onward (run calls) more, ?_, ?_, ?_, ?_, ?_⟩
  · intro store now token candidate q' settled jobs h job hj
    exact claim_strict h hj
  · intro call job worker ha hc
    exact step_stale ha hc
  · intro job hj hc store now
    exact heartbeat_stale hj hc store now
  · exact fun id => committed_length id .empty calls
  · intro id row lease hrow hrunning hreceipt
    have hs : Sealed id row.claimGeneration (run calls) :=
      ⟨row, hrow, rfl, .inr (.inr ⟨lease, hrunning, hreceipt⟩)⟩
    exact hs.commitAll more

section Progress

variable {q q' : Queue} {id : String}

/-- A waiting job has an attempt left. -/
def Budgeted (q : Queue) : Prop :=
  ∀ id row, q.jobs.get? id = some row → row.status = .queued ∨ row.status = .retryable →
    row.attempts < row.maxAttempts

def hasAttempt (job : NewJob) : Prop := 1 ≤ job.maxAttempts

theorem Budgeted.moves (hq : Budgeted q) (h : ∀ id, Moves hasAttempt q q' id) : Budgeted q' := by
  intro id row' hget hs
  cases h id with
  | stays hsame hr => exact hq id row' (hsame ▸ hget) hs
  | enters job h ha hnone hrow' hr =>
    rw [hrow'] at hget
    cases hget
    exact ha
  | picked row worker token now hrow hattempts hclaimable hreceipt hunblocked hrow' hr =>
    rw [hrow'] at hget
    cases hget
    rcases hs with hs | hs <;> cases hs
  | renewed row lease now hrow hrunning hrow' hr =>
    rw [hrow'] at hget
    cases hget
    rcases hs with hs | hs <;> cases hs
  | receipted row lease c hrow hrunning hrow' hc hnone hr =>
    rw [hrow'] at hget
    cases hget
    exact hq id row' hrow hs
  | succeeded row lease hrow hrunning hreceipt hrow' hnone hr =>
    rw [hrow'] at hget
    cases hget
    rcases hs with hs | hs <;> cases hs
  | died row lease code hrow hrunning hreceipt hrow' hr =>
    rw [hrow'] at hget
    cases hget
    rcases hs with hs | hs <;> cases hs
  | retries row lease code now hrow hrunning hreceipt hattempts hrow' hr =>
    rw [hrow'] at hget
    cases hget
    exact hattempts
  | cancelled row code hrow hlive hrow' hr =>
    rw [hrow'] at hget
    cases hget
    rcases hs with hs | hs <;> cases hs

theorem run_budgeted {calls : List Call}
    (hmax : ∀ job, Call.enqueue job ∈ calls → hasAttempt job) : Budgeted (run calls) := by
  refine commitAll_invariant_of_mem (fun q call q' hc hq h => hq.moves fun id => ?_)
    (fun id row hget => by cases hget)
  exact step_moves (fun job he => hmax job (he ▸ hc)) h id

/-- What `CLAIM_SQL` selects is covered by one of the branches of `SETTLE_SQL`. -/
theorem settle_selected (hq : Budgeted q) {worker token : String} {now : Int}
    (hsel : selects q now id = true) : ∃ row row', q.jobs.get? id = some row ∧
      (settle q worker token now id).1.jobs.get? id = some row' ∧
      (row'.status = .succeeded ∧ row.status ≠ .succeeded ∨
        row'.status = .dead ∧ row.status ≠ .dead ∨
        row' = row.take worker token now) := by
  unfold selects at hsel
  cases hrow : q.jobs.get? id with
  | none => simp [hrow] at hsel
  | some row =>
    simp only [hrow, Option.any_some, Bool.and_eq_true] at hsel
    obtain ⟨⟨-, hcl⟩, hun⟩ := hsel
    refine ⟨row, ?_⟩
    unfold settle
    simp only [hrow]
    cases hrec : recovered q now id row with
    | true =>
      refine ⟨row.release .succeeded none, trivial, by simp [deleteCompletions], .inl ⟨rfl, ?_⟩⟩
      intro hs
      simp [recovered, hs] at hrec
    | false =>
      cases hexh : exhausted q now id row with
      | true =>
        refine ⟨row.release .dead (some "JOB_LEASE_EXPIRED_MAX_ATTEMPTS"), trivial, by simp,
          .inr (.inl ⟨rfl, ?_⟩)⟩
        intro hs
        simp [exhausted, hs] at hexh
      | false =>
        -- Neither recovered nor exhausted: the attempt bound must hold, or the lease would have
        -- been exhausted.
        have hatt : row.attempts < row.maxAttempts := by
          cases hs : row.status with
          | queued => exact hq id row hrow (.inl hs)
          | retryable => exact hq id row hrow (.inr hs)
          | running lease =>
            have hexp : leaseExpired now lease = true := by simpa [claimable, hs] using hcl
            simpa [exhausted, hs, hexp, hrec] using hexh
          | _ => simp [claimable, hs] at hcl
        have hpick : picked q now id row = true := by
          simp [picked, hatt, hrec, hexh, hcl, hun]
        exact ⟨row.take worker token now, trivial, by simp [hpick], .inr (.inr rfl)⟩

end Progress

section Order

variable {q q' : Queue} {id : String}

/-- A job that becomes running was picked. -/
theorem Moves.starts {Admitted : NewJob → Prop} {row' : JobRow} {lease : Lease}
    (h : Moves Admitted q q' id) (hrow' : q'.jobs.get? id = some row')
    (hrunning' : row'.status = .running lease)
    (hstart : ∀ row lease, q.jobs.get? id = some row → row.status = .running lease →
      row.claimGeneration ≠ row'.claimGeneration) :
    ∃ row worker token now, q.jobs.get? id = some row ∧ unblocked q id row = true ∧
      row' = row.take worker token now := by
  cases h with
  | stays hsame hr => exact absurd rfl (hstart row' lease (hsame ▸ hrow') hrunning')
  | enters job h ha hnone hrow₁ hr =>
    rw [hrow₁] at hrow'
    cases hrow'
    cases hrunning'
  | picked row worker token now hrow hattempts hclaimable hreceipt hunblocked hrow₁ hr =>
    rw [hrow₁] at hrow'
    cases hrow'
    exact ⟨row, worker, token, now, hrow, hunblocked, rfl⟩
  | renewed row lease₁ now hrow hrunning hrow₁ hr =>
    rw [hrow₁] at hrow'
    cases hrow'
    exact absurd rfl (hstart row lease₁ hrow hrunning)
  | receipted row lease₁ c hrow hrunning hrow₁ hc hnone hr =>
    rw [hrow₁] at hrow'
    cases hrow'
    exact absurd rfl (hstart row' lease₁ hrow hrunning)
  | succeeded row lease₁ hrow hrunning hreceipt hrow₁ hnone hr =>
    rw [hrow₁] at hrow'
    cases hrow'
    cases hrunning'
  | died row lease₁ code hrow hrunning hreceipt hrow₁ hr =>
    rw [hrow₁] at hrow'
    cases hrow'
    cases hrunning'
  | retries row lease₁ code now hrow hrunning hreceipt hattempts hrow₁ hr =>
    rw [hrow₁] at hrow'
    cases hrow'
    cases hrunning'
  | cancelled row code hrow hlive hrow₁ hr =>
    rw [hrow₁] at hrow'
    cases hrow'
    cases hrunning'

/-- The columns the order reads are never updated. -/
theorem Moves.identity {row' : JobRow} (h : Moves (fun _ => False) q q' id)
    (hrow' : q'.jobs.get? id = some row') : ∃ row, q.jobs.get? id = some row ∧
      row'.jobType = row.jobType ∧ row'.roomId = row.roomId ∧
      row'.analyticsOrder = row.analyticsOrder := by
  cases h with
  | stays hsame hr => exact ⟨row', hsame ▸ hrow', rfl, rfl, rfl⟩
  | enters job h ha hnone hrow₁ hr => exact ha.elim
  | picked row worker token now hrow hattempts hclaimable hreceipt hunblocked hrow₁ hr =>
    rw [hrow₁] at hrow'
    cases hrow'
    exact ⟨row, hrow, rfl, rfl, rfl⟩
  | renewed row lease now hrow hrunning hrow₁ hr =>
    rw [hrow₁] at hrow'
    cases hrow'
    exact ⟨row, hrow, rfl, rfl, rfl⟩
  | receipted row lease c hrow hrunning hrow₁ hc hnone hr =>
    rw [hrow₁] at hrow'
    cases hrow'
    exact ⟨row', hrow, rfl, rfl, rfl⟩
  | succeeded row lease hrow hrunning hreceipt hrow₁ hnone hr =>
    rw [hrow₁] at hrow'
    cases hrow'
    exact ⟨row, hrow, rfl, rfl, rfl⟩
  | died row lease code hrow hrunning hreceipt hrow₁ hr =>
    rw [hrow₁] at hrow'
    cases hrow'
    exact ⟨row, hrow, rfl, rfl, rfl⟩
  | retries row lease code now hrow hrunning hreceipt hattempts hrow₁ hr =>
    rw [hrow₁] at hrow'
    cases hrow'
    exact ⟨row, hrow, rfl, rfl, rfl⟩
  | cancelled row code hrow hlive hrow₁ hr =>
    rw [hrow₁] at hrow'
    cases hrow'
    exact ⟨row, hrow, rfl, rfl, rfl⟩

theorem precedes_congr {priorId : String} {prior prior' row row' : JobRow}
    (hp : prior'.jobType = prior.jobType ∧ prior'.roomId = prior.roomId ∧
      prior'.analyticsOrder = prior.analyticsOrder)
    (hr : row'.jobType = row.jobType ∧ row'.roomId = row.roomId ∧
      row'.analyticsOrder = row.analyticsOrder) :
    precedes priorId prior' id row' = precedes priorId prior id row := by
  unfold precedes
  rw [hp.1, hp.2.1, hp.2.2, hr.1, hr.2.1, hr.2.2]

theorem unblocked_succeeded {row prior : JobRow} {priorId : String}
    (h : unblocked q id row = true) (hprior : q.jobs.get? priorId = some prior)
    (hp : precedes priorId prior id row = true) : prior.status = .succeeded := by
  have := List.all_eq_true.mp h (priorId, prior) (Dict.get?_eq_some.mp hprior)
  simpa [hp] using this

/-- An insert starts nothing: what runs after it ran before it. -/
theorem insertJob_starts_none {new : NewJob} {row' : JobRow} {lease : Lease}
    (h : insertJob q new = .ok q') (hrow' : q'.jobs.get? id = some row')
    (hrunning' : row'.status = .running lease) : q.jobs.get? id = some row' := by
  obtain ⟨hck, -, -, rfl⟩ := insertJob_eq h
  rw [setJob_get?] at hrow'
  split at hrow'
  · cases hrow'
    cases hrunning'
  · exact hrow'

/-- When a job becomes running, every analytics job of its room before it has succeeded. -/
theorem step_order {call : Call} {row' prior : JobRow} {lease : Lease} {priorId : String}
    (h : step q call = .ok q') (hrow' : q'.jobs.get? id = some row')
    (hrunning' : row'.status = .running lease)
    (hstart : ∀ row lease, q.jobs.get? id = some row → row.status = .running lease →
      row.claimGeneration ≠ row'.claimGeneration)
    (hprior : q'.jobs.get? priorId = some prior) (hp : precedes priorId prior id row' = true) :
    prior.status = .succeeded := by
  by_cases hcall : ∃ new, call = .enqueue new
  · obtain ⟨new, rfl⟩ := hcall
    exact absurd rfl (hstart row' lease (insertJob_starts_none h hrow' hrunning') hrunning')
  · have hmoves : ∀ id, Moves (fun _ => False) q q' id :=
      step_moves (fun new he => hcall ⟨new, he⟩) h
    obtain ⟨row, worker, token, now, hrow, hun, rfl⟩ := (hmoves id).starts hrow' hrunning' hstart
    obtain ⟨prior₀, hprior₀, hsame⟩ := (hmoves priorId).identity hprior
    have hs : prior₀.status = .succeeded := by
      refine unblocked_succeeded hun hprior₀ ?_
      rw [← hp]
      exact (precedes_congr hsame ⟨rfl, rfl, rfl⟩).symm
    obtain ⟨prior₁, hprior₁, -, ht⟩ := (hmoves priorId).onward hprior₀
    have he : prior₁ = prior := Option.some.inj (hprior₁.symm.trans hprior)
    rw [← he, ht (by simp [hs, Status.terminal]), hs]

end Order

/-- Progress and order over every interleaving of jobs that were inserted with an attempt. -/
theorem queue_progress (calls : List Call)
    (hmax : ∀ job, Call.enqueue job ∈ calls → 1 ≤ job.maxAttempts) :
    -- a waiting job has an attempt left
    (∀ id row, (run calls).jobs.get? id = some row →
      row.status = .queued ∨ row.status = .retryable → row.attempts < row.maxAttempts) ∧
    -- every selected job is settled by the transaction that selected it
    (∀ (store : JobStore) now token id, selects (run calls) now id = true →
      ∃ q' settled jobs row row', store.claim (run calls) now token id = .ok (q', settled, jobs) ∧
        (run calls).jobs.get? id = some row ∧ q'.jobs.get? id = some row' ∧ row' ≠ row ∧
        (row'.status = .succeeded ∨ row'.status = .dead ∨
          row'.status = .running ⟨token, now, store.workerId⟩ ∧
            row'.claimGeneration = row.claimGeneration + 1)) ∧
    -- an analytics job starts when every smaller one of its room has succeeded
    (∀ call id row' lease, (commit step (run calls) call).jobs.get? id = some row' →
      row'.status = .running lease →
      (∀ row lease, (run calls).jobs.get? id = some row → row.status = .running lease →
        row.claimGeneration ≠ row'.claimGeneration) →
      ∀ priorId prior, (commit step (run calls) call).jobs.get? priorId = some prior →
        precedes priorId prior id row' = true → prior.status = .succeeded) := by
  have hbudget : Budgeted (run calls) := run_budgeted hmax
  refine ⟨hbudget, ?_, ?_⟩
  · intro store now token id hsel
    obtain ⟨row, row', hrow, hrow', hs⟩ : ∃ row row', _ :=
      settle_selected hbudget hsel
    have hclaim := JobStore.claim_returns store (run calls) now token id
    rw [if_pos hsel] at hclaim
    refine ⟨_, _, _, row, row', hclaim, hrow, hrow', ?_, ?_⟩
    · rintro rfl
      rcases hs with ⟨hs, hne⟩ | ⟨hs, hne⟩ | he
      · exact hne hs
      · exact hne hs
      · have := congrArg JobRow.claimGeneration he
        simp [JobRow.take] at this
    · rcases hs with ⟨hs, -⟩ | ⟨hs, -⟩ | rfl
      · exact .inl hs
      · exact .inr (.inl hs)
      · exact .inr (.inr ⟨rfl, rfl⟩)
  · intro call id row' lease hrow' hrunning' hstart priorId prior hprior hp
    cases h : step (run calls) call with
    | error e =>
      rw [commit_of_error h] at hrow'
      exact absurd rfl (hstart row' lease hrow' hrunning')
    | ok q' =>
      rw [commit_of_ok h] at hrow' hprior
      exact step_order h hrow' hrunning' hstart hprior hp

def consumeJob (room id : String) (seq : Int) : NewJob where
  jobId := id
  jobType := "analytics.consume.v1"
  roomId := some room
  sourceEventId := some "event"
  dedupeKey := "analytics.consume.v1:" ++ id
  correlationId := "correlation"
  payload := .empty
  runAfter := 0
  createdAt := 0
  analyticsOrder := some (seq, 0)

theorem queue_progress_two_jobs :
    selects (run [.enqueue (consumeJob "room" "job-1" 1), .enqueue (consumeJob "room" "job-2" 2)])
      1 "job-1" = true ∧
    ∃ q' settled jobs row row', JobStore.claim ⟨"worker", by decide⟩
        (run [.enqueue (consumeJob "room" "job-1" 1), .enqueue (consumeJob "room" "job-2" 2)])
        1 "token" "job-1" = .ok (q', settled, jobs) ∧
      (run [.enqueue (consumeJob "room" "job-1" 1),
        .enqueue (consumeJob "room" "job-2" 2)]).jobs.get? "job-1" = some row ∧
      q'.jobs.get? "job-1" = some row' ∧ row' ≠ row ∧
      (row'.status = .succeeded ∨ row'.status = .dead ∨
        row'.status = .running ⟨"token", 1, "worker"⟩ ∧
          row'.claimGeneration = row.claimGeneration + 1) := by
  have hsel : selects (run [.enqueue (consumeJob "room" "job-1" 1),
      .enqueue (consumeJob "room" "job-2" 2)]) 1 "job-1" = true := by decide +kernel
  refine ⟨hsel, (queue_progress _ ?_).2.1 ⟨"worker", by decide⟩ 1 "token" "job-1" hsel⟩
  intro job hj
  simp only [List.mem_cons, Call.enqueue.injEq, List.not_mem_nil, or_false] at hj
  rcases hj with rfl | rfl <;> decide

end LearningOrbit.Jobs
