import LearningOrbit.Jobs.Queue

/-!
# Fenced attempts

What a transaction can do to one job and its receipts is said once, as `Moves`.
Everything a run of the queue keeps is read off it.
-/

namespace LearningOrbit.Jobs

open LearningOrbit (Dict)
open Digest (sha256Hex)

def SameReceipts (q q' : Queue) (jobId : String) : Prop :=
  ∀ g, q'.completions.get? (jobId, g) = q.completions.get? (jobId, g)

/-- What one transaction does to one job. `Admitted` is what the run asks of inserted jobs. -/
inductive Moves (Admitted : NewJob → Prop) (q q' : Queue) (jobId : String) : Prop
  | stays (hrow : q'.jobs.get? jobId = q.jobs.get? jobId) (hr : SameReceipts q q' jobId)
  | enters (job : NewJob) (h : analyticsOrderCk job.jobType job.analyticsOrder = true)
    (ha : Admitted job) (hrow : q.jobs.get? jobId = none)
    (hrow' : q'.jobs.get? jobId = some (job.row h)) (hr : SameReceipts q q' jobId)
  | picked (row : JobRow) (worker token : String) (now : Int)
    (hrow : q.jobs.get? jobId = some row) (hattempts : row.attempts < row.maxAttempts)
    (hclaimable : claimable now row = true)
    (hreceipt : ∀ lease, row.status = .running lease → receipt q jobId row lease = false)
    (hunblocked : unblocked q jobId row = true)
    (hrow' : q'.jobs.get? jobId = some (row.take worker token now))
    (hr : SameReceipts q q' jobId)
  | renewed (row : JobRow) (lease : Lease) (now : Int)
    (hrow : q.jobs.get? jobId = some row) (hrunning : row.status = .running lease)
    (hrow' : q'.jobs.get? jobId =
      some { row with status := .running { lease with lockedAt := now } })
    (hr : SameReceipts q q' jobId)
  | receipted (row : JobRow) (lease : Lease) (c : Completion)
    (hrow : q.jobs.get? jobId = some row) (hrunning : row.status = .running lease)
    (hrow' : q'.jobs.get? jobId = some row)
    (hc : c.claimTokenHash = sha256Hex lease.claimToken)
    (hnone : q.completions.get? (jobId, row.claimGeneration) = none)
    (hr : ∀ g, q'.completions.get? (jobId, g) =
      if g = row.claimGeneration then some c else q.completions.get? (jobId, g))
  | succeeded (row : JobRow) (lease : Lease)
    (hrow : q.jobs.get? jobId = some row) (hrunning : row.status = .running lease)
    (hreceipt : receipt q jobId row lease = true)
    (hrow' : q'.jobs.get? jobId = some (row.release .succeeded none))
    (hnone : q'.completions.get? (jobId, row.claimGeneration) = none)
    (hr : ∀ g c, q'.completions.get? (jobId, g) = some c → q.completions.get? (jobId, g) = some c)
  | died (row : JobRow) (lease : Lease) (code : String)
    (hrow : q.jobs.get? jobId = some row) (hrunning : row.status = .running lease)
    (hreceipt : receipt q jobId row lease = false)
    (hrow' : q'.jobs.get? jobId = some (row.release .dead (some code)))
    (hr : SameReceipts q q' jobId)
  | retries (row : JobRow) (lease : Lease) (code : String) (now : Int)
    (hrow : q.jobs.get? jobId = some row) (hrunning : row.status = .running lease)
    (hreceipt : receipt q jobId row lease = false) (hattempts : row.attempts < row.maxAttempts)
    (hrow' : q'.jobs.get? jobId =
      some { row.release .retryable (some code) with runAfter := now + retryDelay })
    (hr : SameReceipts q q' jobId)
  | cancelled (row : JobRow) (code : Option String)
    (hrow : q.jobs.get? jobId = some row) (hlive : row.status.terminal = false)
    (hrow' : q'.jobs.get? jobId = some (row.release .cancelled code))
    (hr : SameReceipts q q' jobId)

section Tables

@[simp] theorem setJob_completions (q : Queue) (id : String) (row : JobRow) :
    (q.setJob id row).completions = q.completions := rfl

@[simp] theorem setJob_get? (q : Queue) (id : String) (row : JobRow) (a : String) :
    (q.setJob id row).jobs.get? a = if a = id then some row else q.jobs.get? a :=
  Dict.get?_set ..

theorem setJob_stays {Admitted : NewJob → Prop} {q : Queue} {id a : String} {row : JobRow}
    (h : a ≠ id) : Moves Admitted q (q.setJob id row) a :=
  .stays (by simp [h]) fun _ => rfl

theorem running?_eq_some {q : Queue} {id : String} {row : JobRow} {lease : Lease} :
    q.running? id = some (row, lease) ↔ q.jobs.get? id = some row ∧ row.status = .running lease := by
  unfold Queue.running?
  cases q.jobs.get? id with
  | none => simp
  | some r =>
    constructor
    · intro h
      cases hs : r.status <;> simp only [hs] at h <;> cases h
      exact ⟨rfl, hs⟩
    · rintro ⟨h, hs⟩
      cases h
      simp [hs]

end Tables

/-- The job's row is running this attempt. -/
structure Holds (q : Queue) (job : JobClaim) (worker : String) (row : JobRow) (lease : Lease) :
    Prop where
  stored : q.jobs.get? job.jobId = some row
  running : row.status = .running lease
  generation : row.claimGeneration = job.claimGeneration
  token : lease.claimToken = job.claimToken
  lockedBy : lease.lockedBy = worker

theorem attemptOf_iff {row : JobRow} {lease : Lease} {job : JobClaim} {worker : String} :
    attemptOf row lease job worker = true ↔ row.claimGeneration = job.claimGeneration ∧
      lease.claimToken = job.claimToken ∧ lease.lockedBy = worker := by
  simp [attemptOf, and_assoc]

theorem requireCurrent_holds {stale : String} {q : Queue} {job : JobClaim} {row : JobRow}
    {lease : Lease} (h : requireCurrent stale q job = .ok (row, lease)) :
    Holds q job job.workerId row lease := by
  unfold requireCurrent at h
  split at h
  · cases h
  · split at h
    · cases h
    · rename_i r l hr
      split at h
      · rename_i hid
        cases h
        obtain ⟨hrow, hrun⟩ := running?_eq_some.mp hr
        simp only [Bool.and_eq_true] at hid
        obtain ⟨hg, ht, hw⟩ := attemptOf_iff.mp hid.2
        exact ⟨hrow, hrun, hg, ht, hw⟩
      · cases h

/-- The marker the fenced calls look up is the receipt of the attempt they hold. -/
theorem Holds.marker {q : Queue} {job : JobClaim} {worker : String} {row : JobRow} {lease : Lease}
    (h : Holds q job worker row lease) : markerMatches q job = receipt q job.jobId row lease := by
  unfold markerMatches receipt
  rw [h.generation, h.token]

section Operations

variable {Admitted : NewJob → Prop} {q q' : Queue} {job : JobClaim}

theorem insertJob_eq {new : NewJob} (h : insertJob q new = .ok q') :
    ∃ hck : analyticsOrderCk new.jobType new.analyticsOrder = true,
      q.jobs.get? new.jobId = none ∧ new.dedupeKey ∉ q.dedupeKeys ∧
        q' = q.setJob new.jobId (new.row hck) := by
  unfold insertJob at h
  split at h
  · rename_i hck
    split at h
    · cases h
    · rename_i hid
      split at h
      · cases h
      · rename_i hkey
        cases h
        refine ⟨hck, ?_, hkey, rfl⟩
        rw [Dict.get?_eq_none, ← Dict.contains_iff]
        exact hid
  · cases h

theorem insertJob_moves {new : NewJob} (ha : Admitted new) (h : insertJob q new = .ok q')
    (id : String) : Moves Admitted q q' id := by
  obtain ⟨hck, hnone, -, rfl⟩ := insertJob_eq h
  by_cases he : id = new.jobId
  · subst he
    exact .enters new hck ha hnone (by simp) fun _ => rfl
  · exact setJob_stays he

theorem settle_moves {worker token candidate : String} {now : Int} (id : String) :
    Moves Admitted q (settle q worker token now candidate).1 id := by
  unfold settle
  cases hrow : q.jobs.get? candidate with
  | none => exact .stays rfl fun _ => rfl
  | some row =>
    simp only
    split
    · rename_i hrec
      by_cases he : id = candidate
      · subst he
        cases hs : row.status with
        | running lease =>
          simp only [recovered, hs, Bool.and_eq_true] at hrec
          refine .succeeded row lease hrow hs hrec.1 (by simp [deleteCompletions]) ?_ ?_
          · simp [deleteCompletions, Dict.get?_filterKeys]
          · intro g c hc
            simp [deleteCompletions, Dict.get?_filterKeys] at hc
        | _ => simp [recovered, hs] at hrec
      · refine .stays (by simp [deleteCompletions, he]) fun g => ?_
        simp [deleteCompletions, Dict.get?_filterKeys, he]
    · rename_i hrec
      split
      · rename_i hexh
        by_cases he : id = candidate
        · subst he
          cases hs : row.status with
          | running lease =>
            simp only [recovered, exhausted, hs, Bool.and_eq_true,
              Bool.not_eq_true'] at hrec hexh
            have hreceipt : receipt q id row lease = false := by
              cases hr : receipt q id row lease with
              | false => rfl
              | true => simp [hr, hexh.1.1] at hrec
            exact .died row lease "JOB_LEASE_EXPIRED_MAX_ATTEMPTS" hrow hs hreceipt (by simp) fun _ => rfl
          | _ => simp [exhausted, hs] at hexh
        · exact setJob_stays he
      · split
        · rename_i hexh hpick
          by_cases he : id = candidate
          · subst he
            simp only [picked, Bool.and_eq_true, decide_eq_true_eq] at hpick
            obtain ⟨⟨⟨⟨hatt, _⟩, _⟩, hcl⟩, hun⟩ := hpick
            refine .picked row worker token now hrow hatt hcl ?_ hun (by simp) fun _ => rfl
            intro lease hs
            cases hr : receipt q id row lease with
            | false => rfl
            | true =>
              have hexp : leaseExpired now lease = true := by simpa [claimable, hs] using hcl
              simp [recovered, hs, hr, hexp] at hrec
          · exact setJob_stays he
        · exact .stays rfl fun _ => rfl

theorem JobStore.claim_eq {store : JobStore} {now : Int} {token candidate : String}
    {settled : Settled} {jobs : List WorkerJob}
    (h : store.claim q now token candidate = .ok (q', settled, jobs)) :
    q' = q ∧ jobs = [] ∨ selects q now candidate = true ∧
      settle q store.workerId token now candidate = (q', settled) := by
  unfold JobStore.claim at h
  split at h
  · cases h
    exact .inl ⟨rfl, rfl⟩
  · rename_i hsel
    refine .inr ⟨by simpa using hsel, ?_⟩
    split at h
    rename_i q₁ settled₁ hset
    split at h
    · obtain ⟨job, _, h⟩ := bind_eq_ok.mp h
      cases h
      exact hset
    · cases h
      exact hset

theorem JobStore.claim_moves {store : JobStore} {now : Int} {token candidate : String}
    {settled : Settled} {jobs : List WorkerJob}
    (h : store.claim q now token candidate = .ok (q', settled, jobs)) (id : String) :
    Moves Admitted q q' id := by
  rcases JobStore.claim_eq h with ⟨rfl, -⟩ | ⟨-, hset⟩
  · exact .stays rfl fun _ => rfl
  · have hq : q' = (settle q store.workerId token now candidate).1 := by rw [hset]
    rw [hq]
    exact settle_moves id

theorem JobStore.heartbeat_holds {store : JobStore} {now : Int}
    (h : store.heartbeat now q job = .ok q') : ∃ row lease, Holds q job store.workerId row lease ∧
      q' = q.setJob job.jobId { row with status := .running { lease with lockedAt := now } } := by
  unfold JobStore.heartbeat at h
  split at h
  · cases h
  · rename_i row lease hr
    split at h
    · rename_i ha
      cases h
      obtain ⟨hrow, hrun⟩ := running?_eq_some.mp hr
      obtain ⟨hg, ht, hw⟩ := attemptOf_iff.mp ha
      exact ⟨row, lease, ⟨hrow, hrun, hg, ht, hw⟩, rfl⟩
    · cases h

theorem JobStore.heartbeat_moves {store : JobStore} {now : Int}
    (h : store.heartbeat now q job = .ok q') (id : String) : Moves Admitted q q' id := by
  obtain ⟨row, lease, hh, rfl⟩ := JobStore.heartbeat_holds h
  by_cases he : id = job.jobId
  · subst he
    exact .renewed row lease now hh.stored hh.running (by simp) fun _ => rfl
  · exact setJob_stays he

/-- A receipt that is inserted is the first of its generation; a repeated call changes
nothing. -/
theorem completeBusiness_eq {code : String} (h : completeBusiness q job code = .ok q') :
    (∃ row lease, Holds q job job.workerId row lease) ∧
      (q' = q ∨ q.completions.get? (job.jobId, job.claimGeneration) = none ∧
        q' = { q with completions := q.completions.set (job.jobId, job.claimGeneration) ⟨sha256Hex job.claimToken, code⟩ }) := by
  unfold completeBusiness at h
  split at h
  · cases h
  · obtain ⟨⟨row, lease⟩, hcur, h⟩ := bind_eq_ok.mp h
    obtain ⟨q₁, hins, h⟩ := bind_eq_ok.mp h
    refine ⟨⟨row, lease, requireCurrent_holds hcur⟩, ?_⟩
    have hq : q₁ = q' := by
      split at h
      · split at h
        · cases h; rfl
        · cases h
      · cases h
    subst hq
    unfold insertCompletion at hins
    split at hins
    · cases hins
    · split at hins
      · cases hins
        exact .inl rfl
      · rename_i hnone
        split at hins
        · cases hins
        · cases hins
          refine .inr ⟨?_, rfl⟩
          rw [Dict.get?_eq_none, ← Dict.contains_iff]
          exact hnone

theorem completeBusiness_moves {code : String} (h : completeBusiness q job code = .ok q')
    (id : String) : Moves Admitted q q' id := by
  obtain ⟨⟨row, lease, hh⟩, rfl | ⟨hnone, rfl⟩⟩ := completeBusiness_eq h
  · exact .stays rfl fun _ => rfl
  · by_cases he : id = job.jobId
    · subst he
      refine .receipted row lease ⟨sha256Hex job.claimToken, code⟩ hh.stored hh.running hh.stored
        (by rw [hh.token]) (by rw [hh.generation]; exact hnone) fun g => ?_
      simp only [Dict.get?_set, hh.generation, Prod.mk.injEq, true_and]
    · refine .stays rfl fun g => ?_
      simp [Dict.get?_set, he]

theorem finishSucceeded_moves {worker : String} {row : JobRow} {lease : Lease}
    (hh : Holds q job worker row lease) (hm : markerMatches q job = true) (id : String) :
    Moves Admitted q (finishSucceeded q job row) id := by
  by_cases he : id = job.jobId
  · subst he
    refine .succeeded row lease hh.stored hh.running (hh.marker ▸ hm)
      (by simp [finishSucceeded]) (by simp [finishSucceeded, Dict.get?_erase, hh.generation]) ?_
    intro g c hc
    simp only [finishSucceeded, Dict.get?_erase] at hc
    split at hc
    · cases hc
    · exact hc
  · refine .stays (by simp [finishSucceeded, Dict.get?_set, he]) fun g => ?_
    simp [finishSucceeded, Dict.get?_erase, he]

theorem JobStore.succeed_eq {store : JobStore} (h : store.succeed q job = .ok q') :
    ∃ row lease, Holds q job job.workerId row lease ∧ markerMatches q job = true ∧
      q' = finishSucceeded q job row := by
  unfold JobStore.succeed at h
  obtain ⟨⟨row, lease⟩, hcur, h⟩ := bind_eq_ok.mp h
  dsimp only at h
  split at h
  · cases h
  · rename_i hm
    split at h
    · cases h
    · cases h
      exact ⟨row, lease, requireCurrent_holds hcur, by simpa using hm, rfl⟩

theorem JobStore.fail_eq {store : JobStore} {now : Int} {error : Failure} {status : Status}
    (h : store.fail now q job error = .ok (q', status)) :
    ∃ row lease, Holds q job job.workerId row lease ∧
      (markerMatches q job = true ∧ q' = finishSucceeded q job row ∧ status = .succeeded ∨
        markerMatches q job = false ∧ lease.lockedBy = store.workerId ∧
          q' = q.setJob job.jobId (row.failed now error) ∧ status = (row.failed now error).status) := by
  unfold JobStore.fail at h
  obtain ⟨⟨row, lease⟩, hcur, h⟩ := bind_eq_ok.mp h
  refine ⟨row, lease, requireCurrent_holds hcur, ?_⟩
  dsimp only at h
  split at h
  · rename_i hm
    cases h
    exact .inl ⟨hm, rfl, rfl⟩
  · rename_i hm
    split at h
    · cases h
    · rename_i hw
      cases h
      exact .inr ⟨by simpa using hm, by simpa using hw, rfl, rfl⟩

theorem JobStore.fail_moves {store : JobStore} {now : Int} {error : Failure} {status : Status}
    (h : store.fail now q job error = .ok (q', status)) (id : String) : Moves Admitted q q' id := by
  obtain ⟨row, lease, hh, ⟨hm, rfl, -⟩ | ⟨hm, -, rfl, -⟩⟩ := JobStore.fail_eq h
  · exact finishSucceeded_moves hh hm id
  · by_cases he : id = job.jobId
    · subst he
      have hreceipt : receipt q job.jobId row lease = false := hh.marker ▸ hm
      by_cases hd : error.terminal = true ∨ row.maxAttempts ≤ row.attempts
      · refine .died row lease error.code hh.stored hh.running hreceipt ?_ fun _ => rfl
        simp [JobRow.failed, hd]
      · refine .retries row lease error.code now hh.stored hh.running hreceipt (by omega) ?_
          fun _ => rfl
        simp [JobRow.failed, hd]
    · exact setJob_stays he

theorem JobStore.cancel_eq {store : JobStore} {code : String}
    (h : store.cancel q job code = .ok q') :
    ∃ row lease, Holds q job job.workerId row lease ∧
      q' = q.setJob job.jobId (row.release .cancelled (some code)) := by
  unfold JobStore.cancel at h
  split at h
  · cases h
  · obtain ⟨⟨row, lease⟩, hcur, h⟩ := bind_eq_ok.mp h
    dsimp only at h
    split at h
    · cases h
    · cases h
      exact ⟨row, lease, requireCurrent_holds hcur, rfl⟩

theorem JobStore.cancel_moves {store : JobStore} {code : String}
    (h : store.cancel q job code = .ok q') (id : String) : Moves Admitted q q' id := by
  obtain ⟨row, lease, hh, rfl⟩ := JobStore.cancel_eq h
  by_cases he : id = job.jobId
  · subst he
    exact .cancelled row (some code) hh.stored (by simp [hh.running, Status.terminal]) (by simp)
      fun _ => rfl
  · exact setJob_stays he

theorem cancelRoomJobs_moves (q : Queue) (roomId : String) (preserve : Option String)
    (id : String) : Moves Admitted q (cancelRoomJobs q roomId preserve) id := by
  have hget : (cancelRoomJobs q roomId preserve).jobs.get? id = (q.jobs.get? id).map fun row =>
      if cancels roomId preserve id row then { row with status := .cancelled } else row :=
    Dict.get?_mapValues ..
  cases hrow : q.jobs.get? id with
  | none => exact .stays (by rw [hget, hrow]; rfl) fun _ => rfl
  | some row =>
    rw [hrow, Option.map_some] at hget
    by_cases hc : cancels roomId preserve id row = true
    · rw [if_pos hc] at hget
      refine .cancelled row row.lastError hrow ?_ hget fun _ => rfl
      simp only [cancels, Bool.and_eq_true, Bool.not_eq_true'] at hc
      exact hc.1.1.2
    · rw [if_neg hc] at hget
      exact .stays (by rw [hget, hrow]) fun _ => rfl

/-- Every transaction that commits moves every job in one of these ways. -/
theorem step_moves {call : Call} (ha : ∀ new, call = .enqueue new → Admitted new)
    (h : step q call = .ok q') (id : String) : Moves Admitted q q' id := by
  cases call with
  | enqueue new => exact insertJob_moves (ha new rfl) h id
  | claim store now token candidate =>
    obtain ⟨⟨q₁, settled, jobs⟩, hc, rfl⟩ := map_eq_ok.mp h
    exact JobStore.claim_moves hc id
  | heartbeat store now job => exact JobStore.heartbeat_moves h id
  | completeBusiness job code => exact completeBusiness_moves h id
  | succeed store job =>
    obtain ⟨row, lease, hh, hm, rfl⟩ := JobStore.succeed_eq h
    exact finishSucceeded_moves hh hm id
  | fail store now job error =>
    obtain ⟨⟨q₁, status⟩, hf, rfl⟩ := map_eq_ok.mp h
    exact JobStore.fail_moves hf id
  | cancel store job code => exact JobStore.cancel_moves h id
  | cancelRoomJobs roomId preserve =>
    cases h
    exact cancelRoomJobs_moves q roomId preserve id

theorem step_moves_any {call : Call} (h : step q call = .ok q') (id : String) :
    Moves (fun _ => True) q q' id :=
  step_moves (fun _ _ => trivial) h id

end Operations

section Invariants

variable {Admitted : NewJob → Prop} {q q' : Queue} {id : String}

/-- A receipt belongs to the job's last generation, and the job either still runs that attempt
or was cancelled over it. -/
def Receipted (q : Queue) : Prop :=
  ∀ id g c, q.completions.get? (id, g) = some c → ∃ row, q.jobs.get? id = some row ∧
    row.claimGeneration = g ∧ (row.status = .cancelled ∨
      ∃ lease, row.status = .running lease ∧ c.claimTokenHash = sha256Hex lease.claimToken)

theorem receipt_eq_true {row : JobRow} {lease : Lease} : receipt q id row lease = true ↔
    ∃ c, q.completions.get? (id, row.claimGeneration) = some c ∧
      c.claimTokenHash = sha256Hex lease.claimToken := by
  simp [receipt, Option.any_eq_true]

/-- A live job without the receipt of its attempt has no receipt at all. -/
theorem Receipted.noReceipt (hq : Receipted q) {row : JobRow} (hrow : q.jobs.get? id = some row)
    (hlive : row.status ≠ .cancelled)
    (hr : ∀ lease, row.status = .running lease → receipt q id row lease = false) (g : Nat) :
    q.completions.get? (id, g) = none := by
  cases hc : q.completions.get? (id, g) with
  | none => rfl
  | some c =>
    obtain ⟨row', hrow', hg, hs⟩ := hq id g c hc
    rw [hrow] at hrow'
    cases hrow'
    rcases hs with hs | ⟨lease, hs, hh⟩
    · exact absurd hs hlive
    · have := receipt_eq_true.mpr ⟨c, hg ▸ hc, hh⟩
      rw [hr lease hs] at this
      cases this

/-- Nothing of a job without receipts is left to check after a move that adds none. -/
theorem Receipted.of_none {g : Nat} {c : Completion} {P : Prop} (hr : SameReceipts q q' id)
    (hnone : ∀ g, q.completions.get? (id, g) = none)
    (hc : q'.completions.get? (id, g) = some c) : P := by
  rw [hr g, hnone g] at hc
  cases hc

theorem Receipted.moves (hq : Receipted q) (h : ∀ id, Moves Admitted q q' id) : Receipted q' := by
  intro id g c hc
  cases h id with
  | stays hrow hr =>
    obtain ⟨row, hrow', hs⟩ := hq id g c (hr g ▸ hc)
    exact ⟨row, hrow ▸ hrow', hs⟩
  | enters job h ha hrow hrow' hr =>
    obtain ⟨row, hrow', -⟩ := hq id g c (hr g ▸ hc)
    rw [hrow] at hrow'
    cases hrow'
  | picked row worker token now hrow hattempts hclaimable hreceipt hunblocked hrow' hr =>
    have hlive : row.status ≠ .cancelled := by
      intro hs
      simp [claimable, hs] at hclaimable
    exact Receipted.of_none hr (hq.noReceipt hrow hlive hreceipt) hc
  | renewed row lease now hrow hrunning hrow' hr =>
    obtain ⟨row₁, hrow₁, hg, hs⟩ := hq id g c (hr g ▸ hc)
    rw [hrow] at hrow₁
    cases hrow₁
    rcases hs with hs | ⟨lease₁, hs, hh⟩
    · rw [hrunning] at hs
      cases hs
    · rw [hrunning] at hs
      cases hs
      exact ⟨_, hrow', hg, .inr ⟨_, rfl, hh⟩⟩
  | receipted row lease c₁ hrow hrunning hrow' hc₁ hnone hr =>
    rw [hr g] at hc
    split at hc
    · rename_i hg
      cases hc
      exact ⟨row, hrow', hg.symm, .inr ⟨lease, hrunning, hc₁⟩⟩
    · obtain ⟨row₁, hrow₁, hs⟩ := hq id g c hc
      rw [hrow] at hrow₁
      cases hrow₁
      exact ⟨row, hrow', hs⟩
  | succeeded row lease hrow hrunning hreceipt hrow' hnone hr =>
    obtain ⟨row₁, hrow₁, hg, -⟩ := hq id g c (hr g c hc)
    rw [hrow] at hrow₁
    cases hrow₁
    rw [← hg, hnone] at hc
    cases hc
  | died row lease code hrow hrunning hreceipt hrow' hr =>
    refine Receipted.of_none hr (hq.noReceipt hrow (by simp [hrunning]) ?_) hc
    intro lease₁ hs
    rw [hrunning] at hs
    cases hs
    exact hreceipt
  | retries row lease code now hrow hrunning hreceipt hattempts hrow' hr =>
    refine Receipted.of_none hr (hq.noReceipt hrow (by simp [hrunning]) ?_) hc
    intro lease₁ hs
    rw [hrunning] at hs
    cases hs
    exact hreceipt
  | cancelled row code hrow hlive hrow' hr =>
    obtain ⟨row₁, hrow₁, hg, -⟩ := hq id g c (hr g ▸ hc)
    rw [hrow] at hrow₁
    cases hrow₁
    exact ⟨_, hrow', hg, .inl rfl⟩

theorem Receipted.empty : Receipted .empty := by
  intro id g c hc
  cases hc

theorem run_receipted (calls : List Call) : Receipted (run calls) :=
  commitAll_invariant (fun _ _ _ hq h => hq.moves (step_moves_any h)) Receipted.empty calls

/-- A job stays, its generation never goes back, and a finished row stays as it is. -/
def Onward (q q' : Queue) : Prop :=
  ∀ id row, q.jobs.get? id = some row → ∃ row', q'.jobs.get? id = some row' ∧
    row.claimGeneration ≤ row'.claimGeneration ∧ (row.status.terminal = true → row' = row)

theorem Moves.onward {row : JobRow} (h : Moves Admitted q q' id)
    (hrow : q.jobs.get? id = some row) : ∃ row', q'.jobs.get? id = some row' ∧
      row.claimGeneration ≤ row'.claimGeneration ∧ (row.status.terminal = true → row' = row) := by
  cases h with
  | stays hsame hr => exact ⟨row, hsame ▸ hrow, Nat.le_refl _, fun _ => rfl⟩
  | enters job h ha hnone hrow' hr =>
    rw [hnone] at hrow
    cases hrow
  | picked row₁ worker token now hrow₁ hattempts hclaimable hreceipt hunblocked hrow' hr =>
    rw [hrow₁] at hrow
    cases hrow
    refine ⟨_, hrow', Nat.le_succ _, fun ht => ?_⟩
    cases hs : row.status <;> simp [hs, claimable, Status.terminal] at hclaimable ht
  | renewed row₁ lease now hrow₁ hrunning hrow' hr =>
    rw [hrow₁] at hrow
    cases hrow
    exact ⟨_, hrow', Nat.le_refl _, fun ht => by simp [hrunning, Status.terminal] at ht⟩
  | receipted row₁ lease c hrow₁ hrunning hrow' hc hnone hr =>
    rw [hrow₁] at hrow
    cases hrow
    exact ⟨_, hrow', Nat.le_refl _, fun _ => rfl⟩
  | succeeded row₁ lease hrow₁ hrunning hreceipt hrow' hnone hr =>
    rw [hrow₁] at hrow
    cases hrow
    exact ⟨_, hrow', Nat.le_refl _, fun ht => by simp [hrunning, Status.terminal] at ht⟩
  | died row₁ lease code hrow₁ hrunning hreceipt hrow' hr =>
    rw [hrow₁] at hrow
    cases hrow
    exact ⟨_, hrow', Nat.le_refl _, fun ht => by simp [hrunning, Status.terminal] at ht⟩
  | retries row₁ lease code now hrow₁ hrunning hreceipt hattempts hrow' hr =>
    rw [hrow₁] at hrow
    cases hrow
    exact ⟨_, hrow', Nat.le_refl _, fun ht => by simp [hrunning, Status.terminal] at ht⟩
  | cancelled row₁ code hrow₁ hlive hrow' hr =>
    rw [hrow₁] at hrow
    cases hrow
    exact ⟨_, hrow', Nat.le_refl _, fun ht => by simp [hlive] at ht⟩

theorem commitAll_onward (q : Queue) (calls : List Call) : Onward q (commitAll step q calls) := by
  apply commitAll_rel
  · exact fun s id row hrow => ⟨row, hrow, Nat.le_refl _, fun _ => rfl⟩
  · intro s t u hst htu id row hrow
    obtain ⟨row₁, hrow₁, hg₁, ht₁⟩ := hst id row hrow
    obtain ⟨row₂, hrow₂, hg₂, ht₂⟩ := htu id row₁ hrow₁
    refine ⟨row₂, hrow₂, Nat.le_trans hg₁ hg₂, fun ht => ?_⟩
    have he := ht₁ ht
    subst he
    exact ht₂ ht
  · exact fun s call s' h id row hrow => (step_moves_any h id).onward hrow

/-- The job's work is recorded at generation `g`: it runs that attempt with its receipt, or the
attempt ended in success or cancellation. -/
def Sealed (id : String) (g : Nat) (q : Queue) : Prop :=
  ∃ row, q.jobs.get? id = some row ∧ row.claimGeneration = g ∧
    (row.status = .succeeded ∨ row.status = .cancelled ∨
      ∃ lease, row.status = .running lease ∧ receipt q id row lease = true)

theorem receipt_congr {row row' : JobRow} {lease lease' : Lease} (hr : SameReceipts q q' id)
    (hg : row'.claimGeneration = row.claimGeneration) (ht : lease'.claimToken = lease.claimToken) :
    receipt q' id row' lease' = receipt q id row lease := by
  unfold receipt
  rw [hg, ht, hr]

theorem Sealed.moves {g : Nat} (hs : Sealed id g q) (h : Moves Admitted q q' id) :
    Sealed id g q' := by
  obtain ⟨row, hrow, hg, hs⟩ := hs
  cases h with
  | stays hsame hr =>
    refine ⟨row, hsame ▸ hrow, hg, ?_⟩
    rcases hs with hs | hs | ⟨lease, hs, hreceipt⟩
    · exact .inl hs
    · exact .inr (.inl hs)
    · exact .inr (.inr ⟨lease, hs, (receipt_congr hr rfl rfl).trans hreceipt⟩)
  | enters job h ha hnone hrow' hr =>
    rw [hnone] at hrow
    cases hrow
  | picked row₁ worker token now hrow₁ hattempts hclaimable hreceipt hunblocked hrow' hr =>
    rw [hrow₁] at hrow
    cases hrow
    rcases hs with hs | hs | ⟨lease, hs, hreceipt'⟩
    · simp [claimable, hs] at hclaimable
    · simp [claimable, hs] at hclaimable
    · rw [hreceipt lease hs] at hreceipt'
      cases hreceipt'
  | renewed row₁ lease now hrow₁ hrunning hrow' hr =>
    rw [hrow₁] at hrow
    cases hrow
    rcases hs with hs | hs | ⟨lease₁, hs, hreceipt⟩
    · simp [hrunning] at hs
    · simp [hrunning] at hs
    · rw [hrunning] at hs
      cases hs
      refine ⟨_, hrow', hg, .inr (.inr ⟨_, rfl, ?_⟩)⟩
      exact (receipt_congr hr rfl rfl).trans hreceipt
  | receipted row₁ lease c hrow₁ hrunning hrow' hc hnone hr =>
    rw [hrow₁] at hrow
    cases hrow
    refine ⟨_, hrow', hg, .inr (.inr ⟨lease, hrunning, ?_⟩)⟩
    exact receipt_eq_true.mpr ⟨c, by rw [hr, if_pos rfl], hc⟩
  | succeeded row₁ lease hrow₁ hrunning hreceipt hrow' hnone hr =>
    rw [hrow₁] at hrow
    cases hrow
    exact ⟨_, hrow', hg, .inl rfl⟩
  | died row₁ lease code hrow₁ hrunning hreceipt hrow' hr =>
    rw [hrow₁] at hrow
    cases hrow
    rcases hs with hs | hs | ⟨lease₁, hs, hreceipt'⟩ <;> rw [hrunning] at hs <;> cases hs
    rw [hreceipt] at hreceipt'
    cases hreceipt'
  | retries row₁ lease code now hrow₁ hrunning hreceipt hattempts hrow' hr =>
    rw [hrow₁] at hrow
    cases hrow
    rcases hs with hs | hs | ⟨lease₁, hs, hreceipt'⟩ <;> rw [hrunning] at hs <;> cases hs
    rw [hreceipt] at hreceipt'
    cases hreceipt'
  | cancelled row₁ code hrow₁ hlive hrow' hr =>
    rw [hrow₁] at hrow
    cases hrow
    exact ⟨_, hrow', hg, .inr (.inl rfl)⟩

theorem Sealed.commitAll {g : Nat} (hs : Sealed id g q) (calls : List Call) :
    Sealed id g (commitAll step q calls) :=
  commitAll_invariant (fun _ _ _ hs h => hs.moves (step_moves_any h id)) hs calls

end Invariants

section Receipts

variable {Admitted : NewJob → Prop} {q q' : Queue} {id : String}

/-- The generations a job has receipts for. -/
def generations (q : Queue) (id : String) : List Nat :=
  q.completions.keys.filterMap fun key => if key.1 = id then some key.2 else none

/-- The receipts of a job that a run commits, one entry for each row it inserts. -/
def committed (id : String) (q : Queue) : List Call → List Nat
  | [] => []
  | call :: calls =>
    (generations (commit step q call) id).filter (· ∉ generations q id)
      ++ committed id (commit step q call) calls

theorem mem_generations {g : Nat} :
    g ∈ generations q id ↔ ∃ c, q.completions.get? (id, g) = some c := by
  rw [← Dict.mem_keys]
  simp [generations]

theorem generations_nodup (q : Queue) (id : String) : (generations q id).Nodup := by
  refine q.completions.keys_nodup.filterMap ?_
  rintro ⟨a, g⟩ ⟨b, g'⟩ n hn hn'
  simp only [Option.mem_def] at hn hn'
  split at hn <;> split at hn' <;> simp_all

theorem filter_generations_eq_nil (h : ∀ g c, q'.completions.get? (id, g) = some c →
    ∃ c', q.completions.get? (id, g) = some c') :
    (generations q' id).filter (· ∉ generations q id) = [] := by
  rw [List.filter_eq_nil_iff]
  intro g hg
  obtain ⟨c, hc⟩ := mem_generations.mp hg
  simp [mem_generations.mpr (h g c hc)]

/-- A transaction either adds no receipt of a job, or adds one to a job that was not sealed and
is sealed by it. -/
theorem Moves.committed (h : Moves Admitted q q' id) :
    (generations q' id).filter (· ∉ generations q id) = [] ∨
      ((generations q' id).filter (· ∉ generations q id)).length ≤ 1 ∧
        (∀ g, ¬ Sealed id g q) ∧ ∃ g, Sealed id g q' := by
  have hsame : SameReceipts q q' id → (generations q' id).filter (· ∉ generations q id) = [] :=
    fun hr => filter_generations_eq_nil fun g c hc => ⟨c, hr g ▸ hc⟩
  cases h with
  | stays _ hr => exact .inl (hsame hr)
  | enters _ _ _ _ _ hr => exact .inl (hsame hr)
  | picked _ _ _ _ _ _ _ _ _ _ hr => exact .inl (hsame hr)
  | renewed _ _ _ _ _ _ hr => exact .inl (hsame hr)
  | succeeded _ _ _ _ _ _ _ hr =>
    exact .inl (filter_generations_eq_nil fun g c hc => ⟨c, hr g c hc⟩)
  | died _ _ _ _ _ _ _ hr => exact .inl (hsame hr)
  | retries _ _ _ _ _ _ _ _ _ hr => exact .inl (hsame hr)
  | cancelled _ _ _ _ _ hr => exact .inl (hsame hr)
  | receipted row lease c hrow hrunning hrow' hc hnone hr =>
    refine .inr ⟨?_, ?_, row.claimGeneration, row, hrow', rfl, .inr (.inr ⟨lease, hrunning, ?_⟩)⟩
    · have hall : ∀ g ∈ (generations q' id).filter (· ∉ generations q id),
          g = row.claimGeneration := by
        intro g hg
        obtain ⟨hg', hg⟩ := List.mem_filter.mp hg
        obtain ⟨c', hc'⟩ := mem_generations.mp hg'
        by_contra hne
        rw [hr, if_neg hne] at hc'
        simp [mem_generations.mpr ⟨c', hc'⟩] at hg
      have hnodup := (generations_nodup q' id).filter (· ∉ generations q id)
      rw [List.eq_replicate_of_mem hall, List.nodup_replicate] at hnodup
      exact hnodup
    · rintro g ⟨row₁, hrow₁, -, hs⟩
      rw [hrow] at hrow₁
      cases hrow₁
      rw [hrunning] at hs
      rcases hs with hs | hs | ⟨lease₁, -, hreceipt⟩
      · cases hs
      · cases hs
      · obtain ⟨c', hc', -⟩ := receipt_eq_true.mp hreceipt
        rw [hnone] at hc'
        cases hc'
    · exact receipt_eq_true.mpr ⟨c, by rw [hr, if_pos rfl], hc⟩

theorem committed_of_sealed {g : Nat} (hs : Sealed id g q) (calls : List Call) :
    committed id q calls = [] := by
  induction calls generalizing q with
  | nil => rfl
  | cons call calls ih =>
    cases h : step q call with
    | error e =>
      rw [committed, commit_of_error h, ih hs, List.append_nil]
      exact filter_generations_eq_nil fun g c hc => ⟨c, hc⟩
    | ok q' =>
      have hm := step_moves_any h id
      rw [committed, commit_of_ok h, ih (hs.moves hm), List.append_nil]
      rcases hm.committed with hnil | ⟨-, hns, -⟩
      · exact hnil
      · exact absurd hs (hns g)

/-- A job gets at most one receipt over a whole run. -/
theorem committed_length (id : String) (q : Queue) (calls : List Call) :
    (committed id q calls).length ≤ 1 := by
  induction calls generalizing q with
  | nil => exact Nat.zero_le _
  | cons call calls ih =>
    cases h : step q call with
    | error e =>
      have hnil : (generations q id).filter (· ∉ generations q id) = [] :=
        filter_generations_eq_nil fun g c hc => ⟨c, hc⟩
      rw [committed, commit_of_error h, hnil]
      exact ih q
    | ok q' =>
      rw [committed, commit_of_ok h, List.length_append]
      rcases (step_moves_any h id).committed with hnil | ⟨hone, -, g, hs⟩
      · rw [hnil]
        simpa using ih q'
      · rw [committed_of_sealed hs calls]
        exact hone

end Receipts

section Attempts

variable {Admitted : NewJob → Prop} {q q' : Queue}

/-- The order check of the table is the one `_job_from_row` repeats. -/
theorem orderInvariant_eq_true (row : JobRow) : orderInvariant row = true := by
  have hck := row.orderCk
  unfold orderInvariant
  cases ho : row.analyticsOrder with
  | none =>
    rw [ho] at hck
    simp only [analyticsOrderCk, analyticsType, Bool.not_eq_true', Bool.or_eq_false_iff,
      decide_eq_false_iff_not] at hck
    simp [hck.1, hck.2]
  | some order =>
    rw [ho] at hck
    simp only [analyticsOrderCk, Bool.or_eq_true, Bool.and_eq_true, decide_eq_true_eq] at hck
    rcases hck with ⟨⟨ht, hs⟩, hk⟩ | ⟨⟨ht, hs⟩, hk⟩
    · simp [ht, hk, Int.le_of_lt hs]
      omega
    · simp [ht, hk, hs]

theorem jobFromRow_take (store : JobStore) (row : JobRow) (token : String) (now : Int)
    (id : String) : jobFromRow id (row.take store.workerId token now) =
      .ok ((row.take store.workerId token now).attempt id ⟨token, now, store.workerId⟩) := by
  have hg : ¬ (row.take store.workerId token now).claimGeneration < 1 := by
    simp [JobRow.take]
  unfold jobFromRow
  simp only [orderInvariant_eq_true, hg]
  simp [JobRow.take, store.valid.1]

/-- `claim` returns: what it hands out is the row it took, and a job it selected but did not
take is handed to nobody. -/
theorem JobStore.claim_returns (store : JobStore) (q : Queue) (now : Int)
    (token candidate : String) :
    store.claim q now token candidate =
      .ok (if selects q now candidate then
        ((settle q store.workerId token now candidate).1,
          (settle q store.workerId token now candidate).2,
          match (settle q store.workerId token now candidate).2, q.jobs.get? candidate with
          | .picked, some row =>
            [(row.take store.workerId token now).attempt candidate ⟨token, now, store.workerId⟩]
          | _, _ => [])
        else (q, .unchanged, [])) := by
  unfold JobStore.claim
  cases hsel : selects q now candidate with
  | false => rfl
  | true =>
    simp only [Bool.not_true, Bool.false_eq_true, ↓reduceIte]
    unfold settle
    cases hrow : q.jobs.get? candidate with
    | none => rfl
    | some row =>
      cases hrec : recovered q now candidate row with
      | true => simp [hrec]
      | false =>
        cases hexh : exhausted q now candidate row with
        | true => simp [hrec, hexh]
        | false =>
          cases hpick : picked q now candidate row with
          | true => simp [hrec, hexh, hpick, jobFromRow_take, bind, Except.bind, pure, Except.pure]
          | false => simp [hrec, hexh, hpick]

theorem JobStore.claim_job {store : JobStore} {now : Int} {token candidate : String}
    {settled : Settled} {jobs : List WorkerJob}
    (h : store.claim q now token candidate = .ok (q', settled, jobs)) {job : WorkerJob}
    (hj : job ∈ jobs) : ∃ row, q.jobs.get? candidate = some row ∧
      q' = q.setJob candidate (row.take store.workerId token now) ∧
      job = (row.take store.workerId token now).attempt candidate ⟨token, now, store.workerId⟩ := by
  rw [JobStore.claim_returns] at h
  cases hsel : selects q now candidate with
  | false =>
    simp only [hsel, Bool.false_eq_true, ↓reduceIte] at h
    cases h
    cases hj
  | true =>
    simp only [hsel, ↓reduceIte] at h
    unfold settle at h
    cases hrow : q.jobs.get? candidate with
    | none =>
      simp only [hrow] at h
      cases h
      cases hj
    | some row =>
      simp only [hrow] at h
      split at h
      · cases h
        cases hj
      · split at h
        · cases h
          cases hj
        · split at h
          · cases h
            exact ⟨row, rfl, rfl, List.mem_singleton.mp hj⟩
          · cases h
            cases hj

/-- The attempts a call hands out. -/
def issuedBy (q : Queue) : Call → List JobClaim
  | .claim store now token candidate =>
    match store.claim q now token candidate with
    | .ok (_, _, jobs) => jobs.map (·.claim)
    | .error _ => []
  | _ => []

/-- The attempts a run hands out. -/
def issued (q : Queue) : List Call → List JobClaim
  | [] => []
  | call :: calls => issuedBy q call ++ issued (commit step q call) calls

/-- An attempt that was handed out is not ahead of its row, and at its own generation the lease
is the one it was given. -/
def Given (q : Queue) (job : JobClaim) : Prop :=
  ∃ row, q.jobs.get? job.jobId = some row ∧ job.claimGeneration ≤ row.claimGeneration ∧
    ∀ lease, row.status = .running lease → row.claimGeneration = job.claimGeneration →
      lease.claimToken = job.claimToken ∧ lease.lockedBy = job.workerId

theorem Given.moves {job : JobClaim} (hg : Given q job) (h : Moves Admitted q q' job.jobId) :
    Given q' job := by
  obtain ⟨row, hrow, hle, hlease⟩ := hg
  cases h with
  | stays hsame hr => exact ⟨row, hsame ▸ hrow, hle, hlease⟩
  | enters new h ha hnone hrow' hr =>
    rw [hnone] at hrow
    cases hrow
  | picked row₁ worker token now hrow₁ hattempts hclaimable hreceipt hunblocked hrow' hr =>
    rw [hrow₁] at hrow
    cases hrow
    refine ⟨_, hrow', Nat.le_succ_of_le hle, fun lease _ he => ?_⟩
    simp only [JobRow.take] at he
    omega
  | renewed row₁ lease now hrow₁ hrunning hrow' hr =>
    rw [hrow₁] at hrow
    cases hrow
    refine ⟨_, hrow', hle, fun lease₁ hs he => ?_⟩
    cases hs
    exact hlease lease hrunning he
  | receipted row₁ lease c hrow₁ hrunning hrow' hc hnone hr =>
    rw [hrow₁] at hrow
    cases hrow
    exact ⟨_, hrow', hle, hlease⟩
  | succeeded row₁ lease hrow₁ hrunning hreceipt hrow' hnone hr =>
    rw [hrow₁] at hrow
    cases hrow
    exact ⟨_, hrow', hle, fun _ hs => by cases hs⟩
  | died row₁ lease code hrow₁ hrunning hreceipt hrow' hr =>
    rw [hrow₁] at hrow
    cases hrow
    exact ⟨_, hrow', hle, fun _ hs => by cases hs⟩
  | retries row₁ lease code now hrow₁ hrunning hreceipt hattempts hrow' hr =>
    rw [hrow₁] at hrow
    cases hrow
    exact ⟨_, hrow', hle, fun _ hs => by cases hs⟩
  | cancelled row₁ code hrow₁ hlive hrow' hr =>
    rw [hrow₁] at hrow
    cases hrow
    exact ⟨_, hrow', hle, fun _ hs => by cases hs⟩

theorem issuedBy_given {call : Call} {job : JobClaim} (hj : job ∈ issuedBy q call) :
    Given (commit step q call) job := by
  cases call with
  | claim store now token candidate =>
    simp only [issuedBy] at hj
    split at hj
    · rename_i q' settled jobs hc
      obtain ⟨worker, hw, rfl⟩ := List.mem_map.mp hj
      obtain ⟨row, hrow, hq, hjob⟩ := JobStore.claim_job hc hw
      have hstep : step q (.claim store now token candidate) = .ok q' := by
        simp only [step, hc, Except.map]
      rw [commit_of_ok hstep, hq, hjob]
      refine ⟨row.take store.workerId token now, by simp [JobRow.attempt], Nat.le_refl _, ?_⟩
      intro lease hs _
      cases hs
      exact ⟨rfl, rfl⟩
    · cases hj
  | _ => cases hj

theorem issued_given {job : JobClaim} (q : Queue) (calls : List Call)
    (hj : job ∈ issued q calls) : Given (commitAll step q calls) job := by
  induction calls generalizing q with
  | nil => cases hj
  | cons call calls ih =>
    rcases List.mem_append.mp hj with hj | hj
    · exact commitAll_invariant (fun _ _ _ hg h => Given.moves hg (step_moves_any h job.jobId))
        (issuedBy_given hj) calls
    · exact ih _ hj

end Attempts

end LearningOrbit.Jobs
