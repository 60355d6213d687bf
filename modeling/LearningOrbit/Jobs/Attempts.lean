import LearningOrbit.Jobs.Fencing

/-!
# One attempt

What `claim`, `complete_business`, `succeed` and `fail` return for the worker that
holds the current attempt of a job.
-/

namespace LearningOrbit.Jobs

open LearningOrbit (Dict)
open Digest (sha256Hex)

/-- A job outside analytics waits for no other job. -/
theorem unblocked_of_not_analytics {q : Queue} {id : String} {row : JobRow}
    (h : analyticsType row.jobType = false) : unblocked q id row = true := by
  unfold unblocked
  rw [List.all_eq_true]
  intro e _
  simp [precedes, h]

def waiting (status : Status) : Bool := status = .queued || status = .retryable

theorem selects_waiting {q : Queue} {now : Int} {id : String} {row : JobRow}
    (hrow : q.jobs.get? id = some row) (hw : waiting row.status = true)
    (ht : analyticsType row.jobType = false) :
    selects q now id = decide (row.runAfter ≤ now) := by
  have hc : claimable now row = true := by
    unfold claimable
    cases hs : row.status <;> simp [waiting, hs] at hw ⊢
  simp [selects, hrow, hc, unblocked_of_not_analytics ht]

theorem selects_terminal {q : Queue} {now : Int} {id : String} {row : JobRow}
    (hrow : q.jobs.get? id = some row) (ht : row.status.terminal = true) :
    selects q now id = false := by
  have hc : claimable now row = false := by
    unfold claimable
    cases hs : row.status <;> simp [Status.terminal, hs] at ht ⊢
  simp [selects, hrow, hc]

theorem claim_waiting (store : JobStore) (token : String) {q : Queue} {now : Int} {id : String}
    {row : JobRow}
    (hrow : q.jobs.get? id = some row) (hw : waiting row.status = true)
    (ht : analyticsType row.jobType = false) (hdue : row.runAfter ≤ now)
    (hattempts : row.attempts < row.maxAttempts) :
    store.claim q now token id = .ok (q.setJob id (row.take store.workerId token now), .picked,
      [(row.take store.workerId token now).attempt id ⟨token, now, store.workerId⟩]) := by
  have hsel : selects q now id = true := by simp [selects_waiting hrow hw ht, hdue]
  have hrec : recovered q now id row = false := by
    unfold recovered
    cases hs : row.status <;> simp [waiting, hs] at hw ⊢
  have hexh : exhausted q now id row = false := by
    unfold exhausted
    cases hs : row.status <;> simp [waiting, hs] at hw ⊢
  have hcl : claimable now row = true := by
    unfold claimable
    cases hs : row.status <;> simp [waiting, hs] at hw ⊢
  have hpick : picked q now id row = true := by
    simp [picked, hattempts, hrec, hexh, hcl, unblocked_of_not_analytics ht]
  rw [JobStore.claim_returns, if_pos hsel]
  simp [settle, hrow, hrec, hexh, hpick]

theorem JobRow.failed_of_lt {row : JobRow} {now : Int} {error : Failure}
    (ht : error.terminal = false) (h : row.attempts < row.maxAttempts) :
    row.failed now error =
      { row.release .retryable (some error.code) with runAfter := now + retryDelay } := by
  have hle : ¬ row.maxAttempts ≤ row.attempts := by omega
  simp [JobRow.failed, ht, hle]

theorem JobRow.failed_of_le {row : JobRow} {now : Int} {error : Failure}
    (h : row.maxAttempts ≤ row.attempts) :
    row.failed now error = row.release .dead (some error.code) := by
  simp [JobRow.failed, h]

section Held

variable {q : Queue} {id : String} {row : JobRow} {lease : Lease}

theorem requireCurrent_attempt (stale : String) (hrow : q.jobs.get? id = some row)
    (hs : row.status = .running lease) (hw : lease.lockedBy ≠ "") :
    requireCurrent stale q (row.attempt id lease).claim = .ok (row, lease) := by
  have hrun : q.running? id = some (row, lease) := running?_eq_some.mpr ⟨hrow, hs⟩
  simp [requireCurrent, JobRow.attempt, hw, hrun, identityOf, attemptOf]

theorem completeBusiness_attempt (hrow : q.jobs.get? id = some row)
    (hs : row.status = .running lease) (hw : lease.lockedBy ≠ "") (hg : row.claimGeneration ≠ 0)
    (hnone : ∀ g, q.completions.get? (id, g) = none) {code : String} (hcode : validCode code = true) :
    completeBusiness q (row.attempt id lease).claim code =
      .ok { q with completions := q.completions.set (id, row.claimGeneration) ⟨sha256Hex lease.claimToken, code⟩ } := by
  have hins : insertCompletion q (row.attempt id lease).claim code =
      .ok { q with completions := q.completions.set (id, row.claimGeneration) ⟨sha256Hex lease.claimToken, code⟩ } := by
    have hkey : q.completions.contains (id, row.claimGeneration) = false := by
      simp [Dict.contains, hnone]
    have hany : (q.completions.entries.any fun e =>
        e.1.1 = id && e.2.claimTokenHash = sha256Hex lease.claimToken) = false := by
      rw [List.any_eq_false]
      rintro ⟨⟨id', g⟩, c⟩ hmem
      have hget := Dict.get?_eq_some.mpr hmem
      simp only [Bool.and_eq_true, decide_eq_true_eq, not_and]
      intro he
      rw [he, hnone] at hget
      cases hget
    simp only [insertCompletion, JobRow.attempt, hg, ↓reduceIte, hkey, Bool.false_eq_true]
    exact if_neg fun h => Bool.noConfusion (hany.symm.trans h)
  unfold completeBusiness
  rw [requireCurrent_attempt _ hrow hs hw]
  simp only [hcode, Bool.not_true, Bool.false_eq_true, ↓reduceIte, bind, Except.bind, hins]
  simp [JobRow.attempt]

theorem succeed_attempt (store : JobStore) (hrow : q.jobs.get? id = some row)
    (hs : row.status = .running lease) (hw : lease.lockedBy = store.workerId)
    (hr : receipt q id row lease = true) :
    store.succeed q (row.attempt id lease).claim =
      .ok (finishSucceeded q (row.attempt id lease).claim row) := by
  have hne : lease.lockedBy ≠ "" := hw ▸ store.valid.1
  have hcur := requireCurrent_attempt "STALE_CLAIM" hrow hs hne
  have hm : markerMatches q (row.attempt id lease).claim = true := by
    rw [(requireCurrent_holds hcur).marker]
    exact hr
  unfold JobStore.succeed
  simp [hcur, bind, Except.bind, hm, hw]

theorem fail_attempt (store : JobStore) (now : Int) (error : Failure)
    (hrow : q.jobs.get? id = some row) (hs : row.status = .running lease)
    (hw : lease.lockedBy = store.workerId) (hr : receipt q id row lease = false) :
    store.fail now q (row.attempt id lease).claim error =
      .ok (q.setJob id (row.failed now error), (row.failed now error).status) := by
  have hne : lease.lockedBy ≠ "" := hw ▸ store.valid.1
  have hcur := requireCurrent_attempt "STALE_CLAIM" hrow hs hne
  have hm : markerMatches q (row.attempt id lease).claim = false := by
    rw [(requireCurrent_holds hcur).marker]
    exact hr
  unfold JobStore.fail
  simp only [hcur, bind, Except.bind, hm, hw, Bool.false_eq_true, ↓reduceIte, ne_eq,
    not_true_eq_false]
  rfl

end Held

end LearningOrbit.Jobs
