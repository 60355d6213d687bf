import LearningOrbit.Deletion.Ordering

/-!
# Passes of the deletion jobs

`Wheel` says where the single worker stands: the current pass, the surfaces it has
visited in it and those still ahead. The database's first order decides in which
pass a surface is verified.
-/

namespace LearningOrbit.Deletion

open LearningOrbit (Dict)
open Jobs (Queue JobRow JobStore WorkerJob Failure NewJob Lease)
open Passes (passOf waitsFor descents)

section Rounds

variable {r : Request} {s : Saga} {store : JobStore} {ties : List Surface} {round : Round}
  {x : Surface} {row : JobRow}

/-- Claiming a due surface job hands it to the worker. -/
theorem claimJob_waiting (hsr : SurfaceRow r x row) (hrow : s.jobRow? x = some row)
    (hw : Jobs.waiting row.status = true) (hleft : row.attempts < 5)
    (hdue : row.runAfter ≤ round.claimedAt) :
    claimJob store s round.claimedAt round.token (s.jobId x) =
      .ok ({ s with queue := s.queue.setJob (s.jobId x) (row.take store.workerId round.token round.claimedAt) },
        [(row.take store.workerId round.token round.claimedAt).attempt (s.jobId x)
          ⟨round.token, round.claimedAt, store.workerId⟩]) := by
  have hclaim := Jobs.claim_waiting store round.token hrow hw hsr.notAnalytics hdue
    (by rw [hsr.budget]; exact hleft)
  simp [claimJob, hclaim, bind, Except.bind, pure, Except.pure]

/-- A round whose handler returns completes the job. -/
theorem runOnce_of_ok {s₁ s₂ : Saga} {job : WorkerJob}
    (hnext : claimNext s round.claimedAt ties = some x)
    (hclaim : claimJob store s round.claimedAt round.token (s.jobId x) = .ok (s₁, [job]))
    (hhandler : deleteSurfaceHandler s₁ job = .ok s₂) :
    runOnce store ties s round = commit step s₂ (.succeed store job) := by
  unfold runOnce
  simp only [hnext, hclaim, hhandler]

/-- A round whose handler raises fails the job. -/
theorem runOnce_of_failed {s₁ : Saga} {job : WorkerJob} {error : Failure}
    (hnext : claimNext s round.claimedAt ties = some x)
    (hclaim : claimJob store s round.claimedAt round.token (s.jobId x) = .ok (s₁, [job]))
    (hhandler : deleteSurfaceHandler s₁ job = .error (.failed error)) :
    runOnce store ties s round = commit step s₁ (.fail store round.settledAt job error) := by
  unfold runOnce
  simp only [hnext, hclaim, hhandler]

/-- The error of an attempt whose predecessors are not verified. -/
def dependencyPending : Failure := .raised (some "LIFECYCLE_DEPENDENCY_PENDING") false

/-- A round on a surface that has to wait: the attempt is used up. -/
theorem runOnce_pending (hid : Uuid.Stored r.deletionJobId) (hcorr : Uuid.Stored r.correlationId)
    (hdel : s.deletionJobId = r.deletionJobId) (hc : s.correlationId = r.correlationId)
    (hq : Jobs.Receipted s.queue) (hactive : s.status.finished = false)
    (hsr : SurfaceRow r x row) (hrow : s.jobRow? x = some row)
    (hw : Jobs.waiting row.status = true) (hleft : row.attempts < 5)
    (hdue : row.runAfter ≤ round.claimedAt) (hnext : claimNext s round.claimedAt ties = some x)
    (hm : (s.manifests x).status = .frozen) {ref : String} (href : s.roomRef = some ref)
    {rows : Rows} (hroom : s.room = some rows) (hprior : (prior x).all s.verified = false) :
    runOnce store ties s round =
      { s with
        queue := (s.queue.setJob (s.jobId x)
          (row.take store.workerId round.token round.claimedAt)).setJob (s.jobId x)
          ((row.take store.workerId round.token round.claimedAt).failed round.settledAt
            dependencyPending)
        status := if row.attempts + 1 < 5 then .retryable else .dead } := by
  let row₁ := row.take store.workerId round.token round.claimedAt
  let lease : Lease := ⟨round.token, round.claimedAt, store.workerId⟩
  let s₁ : Saga := { s with queue := s.queue.setJob (s.jobId x) row₁ }
  have hrow₁ : s₁.queue.jobs.get? (s.jobId x) = some row₁ := by simp [s₁]
  have hrun : row₁.status = .running lease := rfl
  have hhandler : deleteSurfaceHandler s₁ (row₁.attempt (s.jobId x) lease) =
      .error (.failed dependencyPending) := by
    rw [handler_attempt hid hcorr (hsr.take ..) hrow₁ hrun store.valid.1 hdel hc hactive]
    exact advanceSurface_pending hm href hroom hprior
  have hnone : ∀ g, s₁.queue.completions.get? (s.jobId x, g) = none := by
    refine hq.noReceipt hrow ?_ ?_
    · intro hs
      simp [Jobs.waiting, hs] at hw
    · intro lease hs
      simp [Jobs.waiting, hs] at hw
  have hreceipt : Jobs.receipt s₁.queue (s.jobId x) row₁ lease = false := by
    simp [Jobs.receipt, hnone]
  have hfail := Jobs.fail_attempt store round.settledAt dependencyPending hrow₁ hrun rfl hreceipt
  have hlife : lifecycleDeletionId (row₁.attempt (s.jobId x) lease) = some s.deletionJobId := by
    have hmem : (row₁.attempt (s.jobId x) lease).payload =
        (surfaceJob r.deletionJobId r.correlationId r.now x).payload := hsr.member
    have htype : (row₁.attempt (s.jobId x) lease).claim.jobType = jobType := hsr.type
    have hcanon : Uuid.canonical r.deletionJobId = some r.deletionJobId := hid
    simp [lifecycleDeletionId, htype, hmem, surfaceJob, Dict.get?_set, memberText, hcanon, hdel]
  have hproject : ∀ next, s.status.project next = next := by
    intro next
    cases hs : s.status <;> simp [hs, SagaStatus.finished, SagaStatus.project] at hactive ⊢
  have hmax : row₁.maxAttempts = 5 := hsr.budget
  have hattempts : row₁.attempts = row.attempts + 1 := rfl
  have hfj : failJob store round.settledAt s₁ (row₁.attempt (s.jobId x) lease) dependencyPending =
      .ok { s with
        queue := s₁.queue.setJob (s.jobId x) (row₁.failed round.settledAt dependencyPending)
        status := if row.attempts + 1 < 5 then .retryable else .dead } := by
    unfold failJob
    rw [hfail]
    by_cases hlt : row.attempts + 1 < 5
    · have hst : (row₁.failed round.settledAt dependencyPending).status = .retryable := by
        rw [JobRow.failed_of_lt rfl (by omega)]
        rfl
      simp only [bind, Except.bind, hst, pure, Except.pure, syncLifecycleStatus, hlife, hlt,
        ↓reduceIte]
      rw [if_pos rfl]
      simp [s₁, hproject]
    · have hst : (row₁.failed round.settledAt dependencyPending).status = .dead := by
        rw [JobRow.failed_of_le (by omega)]
        rfl
      simp only [bind, Except.bind, hst, pure, Except.pure, syncLifecycleStatus, hlife, hlt,
        ↓reduceIte]
      rw [if_pos rfl]
      simp [s₁, hproject]
  have hround : runOnce store ties s round = commit step s₁
      (.fail store round.settledAt (row₁.attempt (s.jobId x) lease) dependencyPending) :=
    runOnce_of_failed hnext (claimJob_waiting hsr hrow hw hleft hdue) hhandler
  rw [hround]
  refine commit_of_ok ?_
  simp only [step, hfj]
  rfl

/-- What a round leaves that verified its surface. -/
structure Succeeded (s s' : Saga) (x : Surface) : Prop where
  deletionJobId : s'.deletionJobId = s.deletionJobId
  correlationId : s'.correlationId = s.correlationId
  manifests : s'.manifests = (s.setVerified x).manifests
  alive : s'.status ≠ .dead
  roomRef : x ≠ .events → s'.roomRef = s.roomRef
  counts : x ≠ .events → ∀ rows, s.room = some rows → ∃ rows', s'.room = some rows' ∧
    ∀ y, y ≠ x → y ≠ .providerCopies → surfaceCount rows' y = surfaceCount rows y
  own : ∃ row, s'.jobRow? x = some row ∧ row.status = .succeeded ∧ row.roomId = none
  others : ∀ y row, s.jobId y ≠ s.jobId x → s.jobRow? y = some row → row.roomId = none →
    s'.jobRow? y = some row
  receipted : Jobs.Receipted s'.queue
  consistent : Consistent s'

/-- A round on a surface whose predecessors are verified. -/
theorem runOnce_ready (hid : Uuid.Stored r.deletionJobId) (hcorr : Uuid.Stored r.correlationId)
    (hdel : s.deletionJobId = r.deletionJobId) (hc : s.correlationId = r.correlationId)
    (hq : Jobs.Receipted s.queue) (hs : Consistent s) (hactive : s.status.finished = false)
    (hsr : SurfaceRow r x row) (hrow : s.jobRow? x = some row)
    (hw : Jobs.waiting row.status = true) (hleft : row.attempts < 5)
    (hdue : row.runAfter ≤ round.claimedAt) (hnext : claimNext s round.claimedAt ties = some x)
    (hm : (s.manifests x).status = .frozen) {ref : String} (href : s.roomRef = some ref)
    {rows : Rows} (hroom : s.room = some rows) (hcount : surfaceCount rows x = s.expected x)
    (hcopies : s.expected .providerCopies = 0) (hprior : (prior x).all s.verified = true) :
    Succeeded s (runOnce store ties s round) x := by
  let row₁ := row.take store.workerId round.token round.claimedAt
  let lease : Lease := ⟨round.token, round.claimedAt, store.workerId⟩
  let s₁ : Saga := { s with queue := s.queue.setJob (s.jobId x) row₁ }
  have hrow₁ : s₁.queue.jobs.get? (s.jobId x) = some row₁ := by simp [s₁]
  have hrun : row₁.status = .running lease := rfl
  have hclaim : step s (.claim store round.claimedAt round.token (s.jobId x)) = .ok s₁ := by
    simp only [step, claimJob_waiting hsr hrow hw hleft hdue]
    rfl
  have hq₁ : Jobs.Receipted s₁.queue := by
    have hqc := Jobs.claim_waiting store round.token hrow hw hsr.notAnalytics hdue
      (by rw [hsr.budget]; exact hleft)
    have hstep : Jobs.step s.queue (.claim store round.claimedAt round.token (s.jobId x)) =
        .ok s₁.queue := by
      simp only [Jobs.step, hqc]
      rfl
    exact hq.moves (Jobs.step_moves_any hstep)
  have hnone : ∀ g, s.queue.completions.get? (s.jobId x, g) = none := by
    refine hq.noReceipt hrow ?_ ?_
    · intro he
      simp [Jobs.waiting, he] at hw
    · intro lease he
      simp [Jobs.waiting, he] at hw
  -- The surface is verified; the receipt of the attempt is the first of its job.
  have hmedia : s.expected .media = 0 := Nat.le_zero.mp (hcopies ▸ hs.media)
  obtain ⟨s₂, hv, hver⟩ : ∃ s₂, verifySurface { s₁ with status := .running } x rows = .ok s₂ ∧
      Verified { s₁ with status := .running } s₂ x := by
    by_cases hx : x = .events
    · subst hx
      refine verifySurface_events hcount hprior ?_
      have hnr : s.receipt.isSome ≠ true := fun h => not_completed hactive (hs.receipt.mp h)
      simpa [s₁] using hnr
    · exact verifySurface_rows rfl hroom hcount hx hmedia hcopies
  have hrow₂ : s₂.queue.jobs.get? (s.jobId x) = some row₁ := hver.jobs _ _ hrow₁ hsr.room
  have hnone₂ : ∀ g, s₂.queue.completions.get? (s.jobId x, g) = none :=
    fun g => hver.completions _ (hnone g)
  have hcb := Jobs.completeBusiness_attempt hrow₂ hrun store.valid.1 (Nat.succ_ne_zero _) hnone₂
    (show Jobs.validCode "LIFECYCLE_SURFACE_COMPLETED" = true by decide)
  let job := row₁.attempt (s.jobId x) lease
  let q₃ : Queue := { s₂.queue with
    completions := s₂.queue.completions.set (s.jobId x, row₁.claimGeneration)
      ⟨Digest.sha256Hex lease.claimToken, "LIFECYCLE_SURFACE_COMPLETED"⟩ }
  have hhandler : deleteSurfaceHandler s₁ job = .ok { s₂ with queue := q₃ } := by
    rw [handler_attempt hid hcorr (hsr.take ..) hrow₁ hrun store.valid.1 hdel hc hactive,
      advanceSurface_ready (s := { s₁ with status := .running }) hm href hroom hprior hv]
    unfold completeSurface
    rw [hcb]
  have hreceipt : Jobs.receipt q₃ (s.jobId x) row₁ lease = true :=
    Jobs.receipt_eq_true.mpr ⟨_, Dict.get?_set_self .., rfl⟩
  have hsucc : store.succeed q₃ job.claim = .ok (Jobs.finishSucceeded q₃ job.claim row₁) :=
    Jobs.succeed_attempt store hrow₂ hrun rfl hreceipt
  have hstep : step { s₂ with queue := q₃ } (.succeed store job) =
      .ok { s₂ with queue := Jobs.finishSucceeded q₃ job.claim row₁ } := by
    simp only [step, hsucc]
  have heq : runOnce store ties s round =
      { s₂ with queue := Jobs.finishSucceeded q₃ job.claim row₁ } := by
    rw [runOnce_of_ok hnext (claimJob_waiting hsr hrow hw hleft hdue) hhandler]
    exact commit_of_ok hstep
  have hq₃ : Jobs.Receipted q₃ :=
    (hver.receipted hq₁).moves (Jobs.step_moves_any (show Jobs.step s₂.queue
      (.completeBusiness job.claim "LIFECYCLE_SURFACE_COMPLETED") = .ok q₃ from hcb))
  have hjobId : ∀ y, ({ s₂ with queue := Jobs.finishSucceeded q₃ job.claim row₁ } : Saga).jobId y =
      s.jobId y := fun y => by
    unfold Saga.jobId
    rw [show ({ s₂ with queue := Jobs.finishSucceeded q₃ job.claim row₁ } : Saga).deletionJobId =
      s.deletionJobId from hver.deletionJobId]
  rw [heq]
  refine ⟨hver.deletionJobId, hver.correlationId, hver.manifests, hver.alive, hver.roomRef,
    hver.counts, ⟨row₁.release .succeeded none, ?_, rfl, hsr.room⟩, ?_, ?_, ?_⟩
  · unfold Saga.jobRow?
    rw [hjobId]
    exact Dict.get?_set_self ..
  · intro y row' hne hrow' hroom'
    unfold Saga.jobRow?
    rw [hjobId]
    have hset : (Jobs.finishSucceeded q₃ job.claim row₁).jobs.get? (s.jobId y) =
        s₂.queue.jobs.get? (s.jobId y) := Dict.get?_set_of_ne _ _ hne
    refine hset.trans (hver.jobs _ _ ?_ hroom')
    simp only [s₁, Jobs.setJob_get?, hne, ↓reduceIte]
    exact hrow'
  · exact hq₃.moves (Jobs.step_moves_any (show Jobs.step q₃ (.succeed store job.claim) = .ok _
      from hsucc))
  · have h₁ : Consistent s₁ := hs.step hclaim
    have h₃ : Consistent { s₂ with queue := q₃ } :=
      h₁.step (show step s₁ (.handle job) = .ok _ from hhandler)
    exact h₃.step hstep

end Rounds

section Wheel

/-- A job that waits for its next attempt, with the attempts it has used. -/
structure Waits (r : Request) (x : Surface) (used : Nat) (row : JobRow) : Prop where
  columns : SurfaceRow r x row
  waiting : Jobs.waiting row.status = true
  attempts : row.attempts = used
  left : used < 5

/-- The pass in which a surface is verified when the database first returns them as `ties`. -/
def passAt (ties : List Surface) (x : Surface) : Nat := passOf (fun y => ties.idxOf y) deleteOrder x

def Saga.pending (s : Saga) (x : Surface) : Bool := !s.verified x

def Saga.due (s : Saga) (x : Surface) : Int := ((s.jobRow? x).map (·.runAfter)).getD 0

/-- Where the worker stands: in this pass it has visited `done`, and `todo` is ahead of it. -/
structure Wheel (r : Request) (ties : List Surface) (s : Saga) (pass : Nat)
    (done todo : List Surface) (t : Int) : Prop where
  split : ties = done ++ todo
  passPos : 1 ≤ pass
  passLe : pass ≤ 5
  consistent : Consistent s
  receipted : Jobs.Receipted s.queue
  deletionJobId : s.deletionJobId = r.deletionJobId
  correlationId : s.correlationId = r.correlationId
  distinct : ∀ x y, s.jobId x = s.jobId y → x = y
  frozen : ∀ x, s.pending x = true → (s.manifests x).status = .frozen
  counts : ∀ x, s.pending x = true →
    ∃ rows, s.room = some rows ∧ surfaceCount rows x = s.expected x
  roomRef : ∀ x, s.pending x = true → ∃ ref, s.roomRef = some ref
  copies : s.expected .providerCopies = 0
  alive : s.status ≠ .dead
  verified : ∀ x, s.verified x = true ↔
    passAt ties x < pass ∨ passAt ties x = pass ∧ x ∈ done
  waits : ∀ x, s.pending x = true → ∃ row, s.jobRow? x = some row ∧
    Waits r x (if x ∈ done then pass else pass - 1) row
  finished : ∀ x, s.verified x = true → ∃ row, s.jobRow? x = some row ∧
    row.status = .succeeded ∧ row.roomId = none
  order : ((todo ++ done).filter s.pending).Pairwise fun x y =>
    s.due x < s.due y ∨ s.due x = s.due y ∧ ties.idxOf x < ties.idxOf y
  soon : ∀ x, s.pending x = true → s.due x ≤ t + Jobs.retryDelay

variable {r : Request} {s : Saga} {store : JobStore} {ties done todo : List Surface} {pass : Nat}
  {t : Int} {x y : Surface}

theorem pending_iff : s.pending x = true ↔ s.verified x = false := by simp [Saga.pending]

theorem mem_deleteOrder (x : Surface) : x ∈ deleteOrder := by cases x <;> decide

theorem idxOf_injective (hall : ∀ x, x ∈ ties) (x y : Surface)
    (h : ties.idxOf x = ties.idxOf y) : x = y :=
  (List.idxOf_inj (hall x)).mp h

/-- What stands before an item is what has a smaller index. -/
theorem idxOf_lt_iff {front rest : List Surface} (hx : x ∉ front) :
    (front ++ x :: rest).idxOf y < (front ++ x :: rest).idxOf x ↔ y ∈ front := by
  rw [List.idxOf_append_of_notMem hx, List.idxOf_cons_self, Nat.add_zero]
  by_cases hy : y ∈ front
  · rw [List.idxOf_append_of_mem hy]
    exact ⟨fun _ => hy, fun _ => List.idxOf_lt_length_of_mem hy⟩
  · rw [List.idxOf_append_of_notMem hy]
    exact ⟨fun h => absurd h (by omega), fun h => absurd h hy⟩

namespace Wheel

theorem alive_jobs (w : Wheel r ties s pass done todo t) : Alive s := by
  refine ⟨w.alive, fun x row hrow => ?_⟩
  cases hv : s.verified x with
  | true =>
    obtain ⟨row', hrow', hs, -⟩ := w.finished x hv
    rw [hrow'] at hrow
    cases hrow
    simp [hs]
  | false =>
    obtain ⟨row', hrow', hw⟩ := w.waits x (pending_iff.mpr hv)
    rw [hrow'] at hrow
    cases hrow
    intro hd
    have := hw.waiting
    simp [Jobs.waiting, hd] at this

theorem later {t' : Int} (w : Wheel r ties s pass done todo t) (h : t ≤ t') :
    Wheel r ties s pass done todo t' :=
  { w with soon := fun x hx => by have := w.soon x hx; omega }

theorem selects_pending (w : Wheel r ties s pass done todo t) (hx : s.pending x = true)
    (now : Int) : Jobs.selects s.queue now (s.jobId x) = decide (s.due x ≤ now) := by
  obtain ⟨row, hrow, hw⟩ := w.waits x hx
  rw [Jobs.selects_waiting hrow hw.waiting hw.columns.notAnalytics]
  simp [Saga.due, hrow]

theorem selects_verified (w : Wheel r ties s pass done todo t) (hx : s.verified x = true)
    (now : Int) : Jobs.selects s.queue now (s.jobId x) = false := by
  obtain ⟨row, hrow, hs, -⟩ := w.finished x hx
  exact Jobs.selects_terminal hrow (by simp [hs, Jobs.Status.terminal])

theorem pending_of_selects (w : Wheel r ties s pass done todo t) {now : Int}
    (h : Jobs.selects s.queue now (s.jobId x) = true) : s.pending x = true := by
  rw [pending_iff]
  cases hv : s.verified x with
  | false => rfl
  | true =>
    rw [w.selects_verified hv] at h
    cases h

/-- All rows were inserted together, so the order is by `run_after`. -/
theorem sooner_eq (w : Wheel r ties s pass done todo t) (hx : s.pending x = true)
    (hy : s.pending y = true) : s.sooner x y = decide (s.due x < s.due y) := by
  obtain ⟨row, hrow, hw⟩ := w.waits x hx
  obtain ⟨row', hrow', hw'⟩ := w.waits y hy
  simp [Saga.sooner, Deletion.sooner, Saga.due, hrow, hrow', hw.columns.created,
    hw'.columns.created]

theorem idle (w : Wheel r ties s pass done todo t) {round : Round}
    (h : ∀ x, s.pending x = true → round.claimedAt < s.due x) :
    runOnce store ties s round = s := by
  unfold runOnce
  rw [claimNext_none]
  intro y _
  cases hv : s.verified y with
  | true => exact w.selects_verified hv _
  | false =>
    have hp := pending_iff.mpr hv
    rw [w.selects_pending hp]
    have := h y hp
    simp only [decide_eq_false_iff_not, not_le]
    omega

/-- At the end of a pass the next one starts over. -/
theorem roll (w : Wheel r ties s pass done todo t) (hall : ∀ x, x ∈ ties)
    (hempty : todo.filter s.pending = []) (hx : s.pending x = true) :
    Wheel r ties s (pass + 1) [] ties t := by
  have hdone : ∀ y, s.pending y = true → y ∈ done := by
    intro y hy
    have hmem : y ∈ done ++ todo := w.split ▸ hall y
    rcases List.mem_append.mp hmem with h | h
    · exact h
    · have : y ∈ todo.filter s.pending := List.mem_filter.mpr ⟨h, hy⟩
      rw [hempty] at this
      cases this
  have hpass : pass + 1 ≤ 5 := by
    obtain ⟨row, -, hw⟩ := w.waits x hx
    have := hw.left
    rw [if_pos (hdone x hx)] at this
    omega
  refine { w with
    split := rfl
    passPos := by omega
    passLe := hpass
    verified := ?_
    waits := ?_
    order := ?_ }
  · intro y
    rw [w.verified y]
    constructor
    · rintro (h | ⟨h, -⟩) <;> exact .inl (by omega)
    · rintro (h | ⟨-, h⟩)
      · by_cases hlt : passAt ties y < pass
        · exact .inl hlt
        · -- A surface of this pass that was not visited would still be ahead.
          refine .inr ⟨by omega, ?_⟩
          by_contra hnd
          have hp : s.pending y = true := by
            rw [pending_iff]
            cases hv : s.verified y with
            | false => rfl
            | true =>
              rcases (w.verified y).mp hv with h' | ⟨-, h'⟩
              · exact absurd h' hlt
              · exact absurd h' hnd
          exact hnd (hdone y hp)
      · cases h
  · intro y hy
    obtain ⟨row, hrow, hw⟩ := w.waits y hy
    rw [if_pos (hdone y hy)] at hw
    exact ⟨row, hrow, by simpa using hw⟩
  · have hq := w.order
    rw [List.filter_append, hempty, List.nil_append] at hq
    have hf : (ties ++ []).filter s.pending = done.filter s.pending := by
      rw [List.append_nil, w.split, List.filter_append, hempty, List.append_nil]
    rw [hf]
    exact hq

/-- In its turn a surface finds its predecessors verified exactly in its own pass. -/
theorem prior_iff (w : Wheel r ties s pass done todo t) (hn : ties.Nodup) (hall : ∀ x, x ∈ ties)
    {skipped rest : List Surface} (hsplit : todo = skipped ++ x :: rest)
    (hskip : ∀ y ∈ skipped, s.verified y = true) (hx : s.pending x = true) :
    pass ≤ passAt ties x ∧ ((prior x).all s.verified = true ↔ passAt ties x = pass) := by
  have hties : ties = (done ++ skipped) ++ x :: rest := by
    rw [w.split, hsplit, List.append_assoc]
  have hfront : x ∉ done ++ skipped := by
    rw [hties] at hn
    intro h
    exact (List.nodup_append.mp hn).2.2 x h x (List.mem_cons_self ..) rfl
  have hidx : ∀ y, ties.idxOf y < ties.idxOf x ↔ y ∈ done ++ skipped := by
    intro y
    rw [hties]
    exact idxOf_lt_iff hfront
  have hinj := idxOf_injective hall
  have hdn : deleteOrder.Nodup := by decide
  have hle : pass ≤ passAt ties x := by
    by_contra hlt
    rw [pending_iff, (Bool.eq_false_iff), ne_eq, w.verified x] at hx
    exact hx (.inl (by omega))
  refine ⟨hle, fun hp => ?_, fun he => ?_⟩
  · by_contra hne
    have hlt : pass < passAt ties x := by omega
    obtain ⟨y, hy, hcase⟩ := Passes.waitsFor_pending hdn (mem_deleteOrder x) hlt w.passPos
    have hv : s.verified y = true := List.all_eq_true.mp hp y hy
    rcases (w.verified y).mp hv with h | ⟨h, hd⟩ <;> rcases hcase with hc | ⟨hc, hpos⟩
    · exact absurd h (Nat.lt_asymm hc)
    · exact absurd h (Nat.not_lt_of_le (Nat.le_of_eq hc.symm))
    · exact absurd h (Nat.ne_of_gt hc)
    · have := (hidx y).mpr (List.mem_append_left _ hd)
      exact absurd hpos (Nat.lt_asymm this)
  · rw [List.all_eq_true]
    intro y hy
    obtain ⟨hyle, hyeq⟩ := Passes.passOf_le hinj hdn (mem_deleteOrder x) hy
    change passAt ties y ≤ passAt ties x at hyle
    change passAt ties y = passAt ties x → _ at hyeq
    by_cases hlt : passAt ties y < pass
    · exact (w.verified y).mpr (.inl hlt)
    · have hye : passAt ties y = pass := by omega
      rcases List.mem_append.mp ((hidx y).mp (hyeq (by omega))) with hd | hs
      · exact (w.verified y).mpr (.inr ⟨hye, hd⟩)
      · exact hskip y hs

/-- The waiting jobs in the order in which the worker will visit them. -/
theorem order_cons (w : Wheel r ties s pass done todo t) {skipped rest : List Surface}
    (hsplit : todo = skipped ++ x :: rest) (hskip : ∀ y ∈ skipped, s.verified y = true)
    (hx : s.pending x = true) :
    (∀ y ∈ (rest ++ done).filter s.pending,
      s.due x < s.due y ∨ s.due x = s.due y ∧ ties.idxOf x < ties.idxOf y) ∧
    ((rest ++ done).filter s.pending).Pairwise fun x y =>
      s.due x < s.due y ∨ s.due x = s.due y ∧ ties.idxOf x < ties.idxOf y := by
  have hskipped : skipped.filter s.pending = [] := by
    rw [List.filter_eq_nil_iff]
    intro y hy
    simp [Saga.pending, hskip y hy]
  have hq := w.order
  rw [hsplit, List.append_assoc, List.filter_append, hskipped, List.nil_append, List.cons_append,
    List.filter_cons_of_pos hx] at hq
  exact ⟨(List.pairwise_cons.mp hq).1, (List.pairwise_cons.mp hq).2⟩

/-- A due surface at the head of the queue is the one the database returns. -/
theorem claimNext_head (w : Wheel r ties s pass done todo t) (hn : ties.Nodup)
    (hall : ∀ x, x ∈ ties) {skipped rest : List Surface} (hsplit : todo = skipped ++ x :: rest)
    (hskip : ∀ y ∈ skipped, s.verified y = true) (hx : s.pending x = true) {now : Int}
    (hdue : s.due x ≤ now) : claimNext s now ties = some x := by
  have hties : ties = (done ++ skipped) ++ x :: rest := by
    rw [w.split, hsplit, List.append_assoc]
  have hfront : x ∉ done ++ skipped := by
    rw [hties] at hn
    intro h
    exact (List.nodup_append.mp hn).2.2 x h x (List.mem_cons_self ..) rfl
  have hmem : ∀ y, s.pending y = true → y ≠ x → y ∈ (rest ++ done).filter s.pending := by
    intro y hy hne
    refine List.mem_filter.mpr ⟨?_, hy⟩
    have hin : y ∈ (done ++ skipped) ++ x :: rest := hties ▸ hall y
    simp only [List.mem_append, List.mem_cons] at hin ⊢
    rcases hin with (hd | hs) | he | hr
    · exact .inr hd
    · have := hskip y hs
      rw [pending_iff.mp hy] at this
      cases this
    · exact absurd he hne
    · exact .inl hr
  have hlater := (w.order_cons hsplit hskip hx).1
  have hsel : Jobs.selects s.queue now (s.jobId x) = true := by
    rw [w.selects_pending hx]
    simpa using hdue
  rw [hties]
  refine claimNext_eq hsel ?_ ?_
  · intro y hy hs
    have hp := w.pending_of_selects hs
    have hne : y ≠ x := fun he => hfront (he ▸ hy)
    have hidx : ties.idxOf y < ties.idxOf x := by
      rw [hties]
      exact (idxOf_lt_iff hfront).mpr hy
    rw [w.sooner_eq hx hp]
    rcases hlater y (hmem y hp hne) with h | ⟨-, h⟩
    · simpa using h
    · omega
  · intro y hy hs
    have hp := w.pending_of_selects hs
    rw [w.sooner_eq hp hx]
    by_cases hne : y = x
    · simp [hne]
    · have := hlater y (hmem y hp hne)
      simp only [decide_eq_false_iff_not, not_lt]
      omega

end Wheel

/-- After its turn a surface is behind the worker; for the others that wait nothing changed. -/
theorem mem_visited {skipped : List Surface} (hskip : ∀ y ∈ skipped, s.verified y = true)
    (hy : s.pending y = true) (hne : y ≠ x) : y ∈ done ++ skipped ++ [x] ↔ y ∈ done := by
  have hns : y ∉ skipped := by
    intro h
    have := hskip y h
    rw [pending_iff.mp hy] at this
    cases this
  simp [hns, hne]

theorem filter_congr_pending {s' : Saga} {l : List Surface}
    (h : ∀ y ∈ l, s'.pending y = s.pending y) : l.filter s'.pending = l.filter s.pending :=
  List.filter_congr h

/-- Rewriting the row of a job without receipts keeps the receipts in order. -/
theorem receipted_setJob {q : Queue} {id : String} {row : JobRow} (hq : Jobs.Receipted q)
    (hnone : ∀ g, q.completions.get? (id, g) = none) : Jobs.Receipted (q.setJob id row) := by
  intro id' g c hc
  have hne : id' ≠ id := by
    rintro rfl
    rw [Jobs.setJob_completions, hnone] at hc
    cases hc
  obtain ⟨row', hrow', hrest⟩ := hq id' g c hc
  exact ⟨row', by simpa [hne] using hrow', hrest⟩

/-- A surface that is verified in its turn. -/
theorem Wheel.succeeds {s' : Saga} (w : Wheel r ties s pass done todo t) (hn : ties.Nodup)
    {skipped rest : List Surface} (hsplit : todo = skipped ++ x :: rest)
    (hskip : ∀ y ∈ skipped, s.verified y = true) (hx : s.pending x = true)
    (hpass : passAt ties x = pass) (hprior : (prior x).all s.verified = true) {t' : Int}
    (ht : t ≤ t') (h : Succeeded s s' x) :
    Wheel r ties s' pass (done ++ skipped ++ [x]) rest t' := by
  have hv : ∀ y, s'.verified y = (decide (y = x) || s.verified y) := fun y => by
    rw [verified_congr h.manifests, verified_setVerified]
  have hpend : ∀ y, s'.pending y = true → y ≠ x ∧ s.pending y = true := by
    intro y hy
    rw [pending_iff, hv, Bool.or_eq_false_iff, decide_eq_false_iff_not] at hy
    exact ⟨hy.1, pending_iff.mpr hy.2⟩
  have hpend' : ∀ y, y ≠ x → s'.pending y = s.pending y := fun y hy => by
    simp [Saga.pending, hv, hy]
  have hexp : ∀ y, s'.expected y = s.expected y := fun y =>
    (expected_congr h.manifests y).trans (expected_setVerified x y)
  have hid : ∀ y, s'.jobId y = s.jobId y := fun y => by
    unfold Saga.jobId
    rw [h.deletionJobId]
  have hother : ∀ y row, y ≠ x → s.jobRow? y = some row → row.roomId = none →
      s'.jobRow? y = some row := fun y row hne hrow hroom =>
    h.others y row (fun he => hne (w.distinct y x he)) hrow hroom
  -- The last surface leaves nothing to wait for; before it, the provider copies come first.
  have hevents : ∀ y, s'.pending y = true → x ≠ .events := by
    rintro y hy rfl
    obtain ⟨hne, hp⟩ := hpend y hy
    have hmem : y ∈ prior .events := by
      revert hne
      cases y <;> decide
    have := List.all_eq_true.mp hprior y hmem
    rw [pending_iff.mp hp] at this
    cases this
  have hcopies : ∀ y, s'.pending y = true → y ≠ .providerCopies := by
    rintro y hy rfl
    obtain ⟨hne, hp⟩ := hpend _ hy
    have hmem : Surface.providerCopies ∈ prior x := by
      revert hne
      cases x <;> decide
    have := List.all_eq_true.mp hprior _ hmem
    rw [pending_iff.mp hp] at this
    cases this
  have hdue : ∀ y, s'.pending y = true → s'.due y = s.due y := by
    intro y hy
    obtain ⟨hne, hp⟩ := hpend y hy
    obtain ⟨row, hrow, hw⟩ := w.waits y hp
    simp [Saga.due, hother y row hne hrow hw.columns.room, hrow]
  have hxties : x ∉ rest ++ done := by
    have hties := w.split
    rw [hsplit] at hties
    rw [hties] at hn
    have := List.nodup_append.mp hn
    intro hm
    rcases List.mem_append.mp hm with hr | hd
    · have := (List.nodup_append.mp this.2.1).2.1
      exact (List.nodup_cons.mp this).1 hr
    · exact this.2.2 x hd x (by simp) rfl
  refine {
    split := by rw [w.split, hsplit]; simp
    passPos := w.passPos
    passLe := w.passLe
    consistent := h.consistent
    receipted := h.receipted
    deletionJobId := h.deletionJobId.trans w.deletionJobId
    correlationId := h.correlationId.trans w.correlationId
    distinct := fun y z he => w.distinct y z (by rwa [hid, hid] at he)
    frozen := ?_
    counts := ?_
    roomRef := ?_
    copies := (hexp _).trans w.copies
    alive := h.alive
    verified := ?_
    waits := ?_
    finished := ?_
    order := ?_
    soon := ?_ }
  · intro y hy
    obtain ⟨hne, hp⟩ := hpend y hy
    have hm : (s'.manifests y).status = (s.manifests y).status := by
      rw [h.manifests]
      simp [Saga.setVerified, hne]
    rw [hm]
    exact w.frozen y hp
  · intro y hy
    obtain ⟨hne, hp⟩ := hpend y hy
    obtain ⟨rows, hroom, hc⟩ := w.counts y hp
    obtain ⟨rows', hroom', hsame⟩ := h.counts (hevents y hy) rows hroom
    exact ⟨rows', hroom', by rw [hsame y hne (hcopies y hy), hc, hexp]⟩
  · intro y hy
    obtain ⟨-, hp⟩ := hpend y hy
    obtain ⟨ref, href⟩ := w.roomRef y hp
    exact ⟨ref, (h.roomRef (hevents y hy)).trans href⟩
  · intro y
    rw [hv, Bool.or_eq_true, decide_eq_true_eq, w.verified y]
    simp only [List.mem_append, List.mem_singleton]
    constructor
    · rintro (rfl | hl | ⟨he, hd⟩)
      · exact .inr ⟨hpass, .inr rfl⟩
      · exact .inl hl
      · exact .inr ⟨he, .inl (.inl hd)⟩
    · rintro (hl | ⟨he, (hd | hs) | rfl⟩)
      · exact .inr (.inl hl)
      · exact .inr (.inr ⟨he, hd⟩)
      · exact .inr ((w.verified y).mp (hskip y hs))
      · exact .inl rfl
  · intro y hy
    obtain ⟨hne, hp⟩ := hpend y hy
    obtain ⟨row, hrow, hw⟩ := w.waits y hp
    refine ⟨row, hother y row hne hrow hw.columns.room, ?_⟩
    rw [if_congr (mem_visited hskip hp hne) rfl rfl]
    exact hw
  · intro y hy
    rw [hv, Bool.or_eq_true, decide_eq_true_eq] at hy
    by_cases hyx : y = x
    · subst hyx
      exact h.own
    · obtain ⟨row, hrow, hs, hroom⟩ := w.finished y (hy.resolve_left hyx)
      exact ⟨row, hother y row hyx hrow hroom, hs, hroom⟩
  · have hl : (rest ++ (done ++ skipped ++ [x])).filter s'.pending =
        (rest ++ done).filter s.pending := by
      have hskipped : skipped.filter s'.pending = [] := by
        rw [List.filter_eq_nil_iff]
        intro y hy
        simp [Saga.pending, hv, hskip y hy]
      have hxs : [x].filter s'.pending = [] := by
        simp [Saga.pending, hv]
      rw [List.filter_append, List.filter_append, List.filter_append, hskipped, hxs,
        List.append_nil, List.append_nil, ← List.filter_append]
      exact filter_congr_pending fun y hy => hpend' y fun he => hxties (he ▸ hy)
    rw [hl]
    refine ((w.order_cons hsplit hskip hx).2.imp_of_mem ?_)
    intro y z hy hz hyz
    have hy' := List.mem_filter.mp hy
    have hz' := List.mem_filter.mp hz
    have hpy : s'.pending y = true := (hpend' y fun he => hxties (he ▸ hy'.1)).trans hy'.2
    have hpz : s'.pending z = true := (hpend' z fun he => hxties (he ▸ hz'.1)).trans hz'.2
    rw [hdue y hpy, hdue z hpz]
    exact hyz
  · intro y hy
    obtain ⟨-, hp⟩ := hpend y hy
    rw [hdue y hy]
    have := w.soon y hp
    omega

/-- A surface that has to wait goes behind the worker with one attempt less. -/
theorem Wheel.retries {queue : Queue} (row : JobRow) (w : Wheel r ties s pass done todo t)
    (hn : ties.Nodup) {skipped rest : List Surface} (hsplit : todo = skipped ++ x :: rest)
    (hskip : ∀ y ∈ skipped, s.verified y = true) (hx : s.pending x = true)
    (hpass : pass < passAt ties x) (hactive : s.status.finished = false) {t' : Int} (ht : t < t')
    (hqueue : Jobs.Receipted queue) (hown : queue.jobs.get? (s.jobId x) = some row)
    (hothers : ∀ id, id ≠ s.jobId x → queue.jobs.get? id = s.queue.jobs.get? id)
    (hwaits : Waits r x pass row) (hrun : row.runAfter = t' + Jobs.retryDelay) :
    Wheel r ties { s with queue, status := .retryable } pass (done ++ skipped ++ [x]) rest t' := by
  let s' : Saga := { s with queue, status := .retryable }
  have hother : ∀ y, y ≠ x → s'.jobRow? y = s.jobRow? y := fun y hne =>
    hothers _ fun he => hne (w.distinct y x he)
  have hxrow : s'.jobRow? x = some row := hown
  have hdue : ∀ y, y ≠ x → s'.due y = s.due y := fun y hne => by
    unfold Saga.due
    rw [hother y hne]
  have hduex : s'.due x = t' + Jobs.retryDelay := by
    unfold Saga.due
    rw [hxrow]
    exact hrun
  have hties := w.split
  rw [hsplit] at hties
  have hxties : x ∉ rest ++ done := by
    rw [hties] at hn
    have := List.nodup_append.mp hn
    intro hm
    rcases List.mem_append.mp hm with hr | hd
    · have := (List.nodup_append.mp this.2.1).2.1
      exact (List.nodup_cons.mp this).1 hr
    · exact this.2.2 x hd x (by simp) rfl
  refine {
    split := by rw [w.split, hsplit]; simp
    passPos := w.passPos
    passLe := w.passLe
    consistent := w.consistent.status ⟨rfl, rfl, rfl⟩ (.inr ⟨hactive, by simp⟩)
    receipted := hqueue
    deletionJobId := w.deletionJobId
    correlationId := w.correlationId
    distinct := w.distinct
    frozen := w.frozen
    counts := w.counts
    roomRef := w.roomRef
    copies := w.copies
    alive := by simp
    verified := ?_
    waits := ?_
    finished := ?_
    order := ?_
    soon := ?_ }
  · intro y
    rw [show ({ s with queue, status := .retryable } : Saga).verified y = s.verified y from rfl,
      w.verified y]
    simp only [List.mem_append, List.mem_singleton]
    constructor
    · rintro (hl | ⟨he, hd⟩)
      · exact .inl hl
      · exact .inr ⟨he, .inl (.inl hd)⟩
    · rintro (hl | ⟨he, (hd | hs) | rfl⟩)
      · exact .inl hl
      · exact .inr ⟨he, hd⟩
      · exact (w.verified y).mp (hskip y hs)
      · omega
  · intro y hy
    by_cases hyx : y = x
    · subst hyx
      refine ⟨row, hxrow, ?_⟩
      rw [if_pos (by simp)]
      exact hwaits
    · obtain ⟨row', hrow', hw⟩ := w.waits y hy
      refine ⟨row', (hother y hyx).trans hrow', ?_⟩
      rw [if_congr (mem_visited hskip hy hyx) rfl rfl]
      exact hw
  · intro y hy
    have hyx : y ≠ x := by
      rintro rfl
      rw [pending_iff] at hx
      exact Bool.noConfusion (hx.symm.trans hy)
    obtain ⟨row', hrow', hrest⟩ := w.finished y hy
    exact ⟨row', (hother y hyx).trans hrow', hrest⟩
  · have hl : (rest ++ (done ++ skipped ++ [x])).filter s'.pending =
        (rest ++ done).filter s.pending ++ [x] := by
      have hskipped : skipped.filter s'.pending = [] := by
        rw [List.filter_eq_nil_iff]
        intro y hy
        have hv : s'.verified y = true := hskip y hy
        simp [Saga.pending, hv]
      have hxs : [x].filter s'.pending = [x] := by
        have : s'.pending x = true := hx
        simp [this]
      rw [List.filter_append, List.filter_append, List.filter_append, hskipped, hxs,
        List.append_nil, ← List.append_assoc, ← List.filter_append]
      rfl
    change ((rest ++ (done ++ skipped ++ [x])).filter s'.pending).Pairwise _
    rw [hl, List.pairwise_append]
    have hmem : ∀ y ∈ (rest ++ done).filter s.pending, y ≠ x := fun y hy he =>
      hxties (he ▸ (List.mem_filter.mp hy).1)
    refine ⟨(w.order_cons hsplit hskip hx).2.imp_of_mem ?_, List.pairwise_singleton .., ?_⟩
    · intro y z hy hz hyz
      change s'.due y < s'.due z ∨ s'.due y = s'.due z ∧ _
      rw [hdue y (hmem y hy), hdue z (hmem z hz)]
      exact hyz
    · intro y hy z hz
      obtain rfl := List.mem_singleton.mp hz
      refine .inl ?_
      change s'.due y < s'.due z
      rw [hdue y (hmem y hy), hduex]
      have := w.soon y (List.mem_filter.mp hy).2
      omega
  · intro y hy
    change s'.due y ≤ _
    by_cases hyx : y = x
    · rw [hyx, hduex]
    · rw [hdue y hyx]
      have := w.soon y hy
      omega

/-- One round on the head of the queue when it is due. -/
theorem Wheel.visit (w : Wheel r ties s pass done todo t) (hid : Uuid.Stored r.deletionJobId)
    (hcorr : Uuid.Stored r.correlationId) (hn : ties.Nodup) (hall : ∀ x, x ∈ ties)
    {skipped rest : List Surface} (hsplit : todo = skipped ++ x :: rest)
    (hskip : ∀ y ∈ skipped, s.verified y = true) (hx : s.pending x = true) {round : Round}
    (ht : t < round.claimedAt) (ht' : round.claimedAt < round.settledAt)
    (hdue : s.due x ≤ round.claimedAt) :
    Wheel r ties (runOnce store ties s round) pass (done ++ skipped ++ [x]) rest
        round.settledAt ∨
      5 < passAt ties x ∧ ¬ Alive (runOnce store ties s round) := by
  obtain ⟨row, hrow, hw⟩ := w.waits x hx
  obtain ⟨rows, hroom, hcount⟩ := w.counts x hx
  obtain ⟨ref, href⟩ := w.roomRef x hx
  obtain ⟨hle, hprior⟩ := w.prior_iff hn hall hsplit hskip hx
  have hxd : x ∉ done := by
    have hties := w.split
    rw [hsplit] at hties
    rw [hties] at hn
    intro hd
    exact (List.nodup_append.mp hn).2.2 x hd x (by simp) rfl
  rw [if_neg hxd] at hw
  have hleft : row.attempts < 5 := by rw [hw.attempts]; exact hw.left
  have hnext := w.claimNext_head hn hall hsplit hskip hx hdue
  have hrunAfter : row.runAfter ≤ round.claimedAt := by
    simpa [Saga.due, hrow] using hdue
  have hactive : s.status.finished = false := by
    have hnc : s.status ≠ .completed := fun hc => by
      have := w.consistent.verified.mp hc x
      rw [pending_iff.mp hx] at this
      cases this
    have hnd := w.alive
    cases hs : s.status <;> simp [hs, SagaStatus.finished] at hnc hnd ⊢
  cases hp : (prior x).all s.verified with
  | true =>
    exact .inl (w.succeeds hn hsplit hskip hx (hprior.mp hp) hp (by omega)
      (runOnce_ready hid hcorr w.deletionJobId w.correlationId w.receipted w.consistent hactive
        hw.columns hrow hw.waiting hleft hrunAfter hnext (w.frozen x hx) href hroom hcount w.copies
        hp))
  | false =>
    have hlt : pass < passAt ties x := by
      rcases Nat.lt_or_eq_of_le hle with h | h
      · exact h
      · rw [hprior.mpr h.symm] at hp
        cases hp
    have heq : runOnce store ties s round = _ :=
      runOnce_pending hid hcorr w.deletionJobId w.correlationId w.receipted hactive hw.columns hrow
        hw.waiting hleft hrunAfter hnext (w.frozen x hx) href hroom hp
    have hused : row.attempts + 1 = pass := by
      have := w.passPos
      have := hw.attempts
      omega
    rw [heq, hused]
    by_cases hlast : pass < 5
    · rw [if_pos hlast]
      have hfailed : (row.take store.workerId round.token round.claimedAt).failed round.settledAt
          dependencyPending = _ := JobRow.failed_of_lt rfl (by
        have hmax : (row.take store.workerId round.token round.claimedAt).maxAttempts = 5 :=
          hw.columns.budget
        have hatt : (row.take store.workerId round.token round.claimedAt).attempts = pass := hused
        omega)
      refine .inl (w.retries _ hn hsplit hskip hx hlt hactive (by omega) ?_
        (by rw [Jobs.setJob_get?, if_pos rfl]) ?_ ?_ ?_)
      · have hnone : ∀ g, s.queue.completions.get? (s.jobId x, g) = none := by
          refine w.receipted.noReceipt hrow ?_ ?_
          · intro he
            have := hw.waiting
            simp [Jobs.waiting, he] at this
          · intro lease he
            have := hw.waiting
            simp [Jobs.waiting, he] at this
        exact receipted_setJob (receipted_setJob w.receipted hnone) hnone
      · intro id hne
        simp [hne]
      · rw [hfailed]
        have hc := hw.columns
        exact ⟨⟨hc.type, hc.room, hc.source, hc.key, hc.correlation, hc.member, hc.budget,
          hc.created⟩, rfl, hused, hlast⟩
      · rw [hfailed]
    · refine .inr ⟨by omega, ?_⟩
      rw [if_neg hlast]
      exact fun ha => ha.1 rfl

end Wheel

section Runs

variable {r : Request} {s : Saga} {store : JobStore} {ties done todo : List Surface} {pass : Nat}
  {t : Int}

/-- How many visits are left at most. -/
def visitsLeft (pass : Nat) (todo : List Surface) : Nat := (6 - pass) * 9 + todo.length

/-- Some pass has a surface ahead: this one, or the next after a roll. -/
theorem Wheel.ahead (w : Wheel r ties s pass done todo t) (hall : ∀ x, x ∈ ties)
    (hlen : ties.length = 8) (hp : ∃ x, s.pending x = true) :
    ∃ pass' done' skipped x rest, Wheel r ties s pass' done' (skipped ++ x :: rest) t ∧
      s.pending x = true ∧ (∀ y ∈ skipped, s.verified y = true) ∧
      visitsLeft pass' (skipped ++ x :: rest) ≤ visitsLeft pass todo := by
  have hfind : ∀ {l : List Surface}, l.filter s.pending ≠ [] → ∃ skipped x rest,
      l = skipped ++ x :: rest ∧ s.pending x = true ∧ ∀ y ∈ skipped, s.verified y = true := by
    intro l hl
    obtain ⟨x, rest', hcons⟩ := List.exists_cons_of_ne_nil hl
    obtain ⟨skipped, rest, rfl, hskip, hx, -⟩ := List.filter_eq_cons_iff.mp hcons
    exact ⟨skipped, x, rest, rfl, hx, fun y hy => by simpa [Saga.pending] using hskip y hy⟩
  by_cases hempty : todo.filter s.pending = []
  · obtain ⟨z, hz⟩ := hp
    have w' := w.roll hall hempty hz
    have hne : ties.filter s.pending ≠ [] := by
      intro he
      have : z ∈ ties.filter s.pending := List.mem_filter.mpr ⟨hall z, hz⟩
      rw [he] at this
      cases this
    obtain ⟨skipped, x, rest, hsplit, hx, hskip⟩ := hfind hne
    refine ⟨pass + 1, [], skipped, x, rest, hsplit ▸ w', hx, hskip, ?_⟩
    rw [← hsplit]
    have := w'.passLe
    unfold visitsLeft
    omega
  · obtain ⟨skipped, x, rest, rfl, hx, hskip⟩ := hfind hempty
    exact ⟨pass, done, skipped, x, rest, w, hx, hskip, Nat.le_refl _⟩

/-- One round: the wheel turns on, or a surface that needs a sixth pass dies. -/
theorem Wheel.turn (store : JobStore) (w : Wheel r ties s pass done todo t)
    (hid : Uuid.Stored r.deletionJobId) (hcorr : Uuid.Stored r.correlationId) (hn : ties.Nodup)
    (hall : ∀ x, x ∈ ties) (hlen : ties.length = 8) {round : Round} (ht : t < round.claimedAt)
    (ht' : round.claimedAt < round.settledAt) :
    (∃ pass' done' todo', Wheel r ties (runOnce store ties s round) pass' done' todo'
        round.settledAt ∧
      ((∃ x, s.pending x = true) → (∀ x, s.pending x = true → s.due x ≤ round.claimedAt) →
        visitsLeft pass' todo' < visitsLeft pass todo)) ∨
    (∃ x, 5 < passAt ties x) ∧ ¬ Alive (runOnce store ties s round) := by
  by_cases hp : ∃ x, s.pending x = true
  · obtain ⟨pass', done', skipped, x, rest, w', hx, hskip, hle⟩ := w.ahead hall hlen hp
    by_cases hdue : s.due x ≤ round.claimedAt
    · rcases w'.visit hid hcorr hn hall rfl hskip hx ht ht' hdue with hw | ⟨hlate, hdead⟩
      · refine .inl ⟨_, _, _, hw, fun _ _ => Nat.lt_of_lt_of_le ?_ hle⟩
        unfold visitsLeft
        simp only [List.length_append, List.length_cons]
        omega
      · exact .inr ⟨⟨x, hlate⟩, hdead⟩
    · have hidle : runOnce store ties s round = s := by
        refine w'.idle fun y hy => ?_
        have hlater := (w'.order_cons rfl hskip hx).1
        by_cases hyx : y = x
        · rw [hyx]
          omega
        · have hmem : y ∈ (rest ++ done').filter s.pending := by
            refine List.mem_filter.mpr ⟨?_, hy⟩
            have hin : y ∈ done' ++ (skipped ++ x :: rest) := w'.split ▸ hall y
            simp only [List.mem_append, List.mem_cons] at hin ⊢
            rcases hin with hd | hs | he | hr
            · exact .inr hd
            · have := hskip y hs
              rw [pending_iff.mp hy] at this
              cases this
            · exact absurd he hyx
            · exact .inl hr
          have := hlater y hmem
          omega
      rw [hidle]
      exact .inl ⟨pass, done, todo, w.later (by omega), fun _ h => absurd (h x hx) hdue⟩
  · have hidle : runOnce store ties s round = s := w.idle fun y hy => absurd ⟨y, hy⟩ hp
    rw [hidle]
    exact .inl ⟨pass, done, todo, w.later (by omega), fun h => absurd h hp⟩

/-- No surface needs a sixth pass: nothing ever dies. -/
theorem Wheel.alive_runs (hid : Uuid.Stored r.deletionJobId) (hcorr : Uuid.Stored r.correlationId)
    (hn : ties.Nodup) (hall : ∀ x, x ∈ ties) (hlen : ties.length = 8)
    (hpass : ∀ x, passAt ties x ≤ 5) (rounds : List Round) (w : Wheel r ties s pass done todo t)
    (ht : Timed t rounds) : Alive (runAll store ties s rounds) := by
  induction rounds generalizing s pass done todo t with
  | nil => exact w.alive_jobs
  | cons round rounds ih =>
    obtain ⟨h₁, h₂, h₃⟩ := ht
    rcases w.turn store hid hcorr hn hall hlen h₁ h₂ with
      ⟨pass', done', todo', w', -⟩ | ⟨⟨x, hx⟩, -⟩
    · exact ih w' h₃
    · exact absurd (hpass x) (by omega)

/-- A surface that needs a sixth pass dies when the worker goes on. -/
theorem Wheel.dies (hid : Uuid.Stored r.deletionJobId) (hcorr : Uuid.Stored r.correlationId)
    (hn : ties.Nodup) (hall : ∀ x, x ∈ ties) (hlen : ties.length = 8) {x : Surface}
    (hx : 5 < passAt ties x) (n : Nat) (w : Wheel r ties s pass done todo t)
    (hm : visitsLeft pass todo ≤ n) :
    ∃ rounds, Timed t rounds ∧ ¬ Alive (runAll store ties s rounds) := by
  induction n generalizing s pass done todo t with
  | zero =>
    have := w.passLe
    unfold visitsLeft at hm
    omega
  | succ n ih =>
    have hpend : s.pending x = true := by
      rw [pending_iff]
      cases hv : s.verified x with
      | false => rfl
      | true =>
        have := w.passLe
        rcases (w.verified x).mp hv with h | ⟨h, -⟩ <;> omega
    -- Everything is due five seconds after the last settlement.
    let round : Round := ⟨"token", t + Jobs.retryDelay + 1, t + Jobs.retryDelay + 2⟩
    have h₁ : t < round.claimedAt := by
      simp only [round, Jobs.retryDelay]
      omega
    have h₂ : round.claimedAt < round.settledAt := by
      simp only [round]
      omega
    rcases w.turn store hid hcorr hn hall hlen h₁ h₂ with
      ⟨pass', done', todo', w', hless⟩ | ⟨-, hdead⟩
    · have hlt := hless ⟨x, hpend⟩ fun y hy => by
        have := w.soon y hy
        simp only [round]
        omega
      obtain ⟨rounds, hrounds, hdead⟩ := ih w' (by omega)
      exact ⟨round :: rounds, ⟨h₁, h₂, hrounds⟩, hdead⟩
    · exact ⟨[round], ⟨h₁, h₂, trivial⟩, hdead⟩

end Runs

section Start

variable {r : Request} {s₀ : Saga} {ties : List Surface}

theorem cancelLiveJobs_moves (q : Queue) (roomId id : String) :
    Jobs.Moves (fun _ => True) q (cancelLiveJobs q roomId) id := by
  have hget : (cancelLiveJobs q roomId).jobs.get? id = (q.jobs.get? id).map fun row =>
      if row.roomId = some roomId && !row.status.terminal then { row with status := .cancelled }
      else row := Dict.get?_mapValues ..
  cases hrow : q.jobs.get? id with
  | none => exact .stays (by rw [hget, hrow]; rfl) fun _ => rfl
  | some row =>
    rw [hrow, Option.map_some] at hget
    split at hget
    · rename_i hc
      simp only [Bool.and_eq_true, Bool.not_eq_true'] at hc
      exact .cancelled row row.lastError hrow hc.2 hget fun _ => rfl
    · exact .stays (by rw [hget, hrow]) fun _ => rfl

theorem dedupeKeys_cancelLiveJobs (q : Queue) (roomId : String) :
    (cancelLiveJobs q roomId).dedupeKeys = q.dedupeKeys := by
  simp only [cancelLiveJobs, Queue.dedupeKeys, Dict.values, Dict.mapValues, List.map_map]
  refine List.map_congr_left fun e _ => ?_
  simp only [Function.comp_apply]
  split <;> rfl

theorem insertJobOnce_receipted {q q' : Queue} {job : NewJob} (hq : Jobs.Receipted q)
    (h : Jobs.insertJobOnce q job = .ok q') : Jobs.Receipted q' := by
  unfold Jobs.insertJobOnce at h
  split at h
  · cases h
    exact hq
  · exact hq.moves fun id =>
      (Jobs.insertJob_moves trivial h id : Jobs.Moves (fun _ => True) q q' id)

theorem enqueue_receipted {q q' : Queue} {l : List Surface} {d c : String} {now : Int}
    (hq : Jobs.Receipted q)
    (h : l.foldlM (fun q x => Jobs.insertJobOnce q (surfaceJob d c now x)) q = .ok q') :
    Jobs.Receipted q' := by
  induction l generalizing q with
  | nil =>
    cases h
    exact hq
  | cons x l ih =>
    rw [List.foldlM_cons] at h
    obtain ⟨q₁, hins, h⟩ := bind_eq_ok.mp h
    exact ih (insertJobOnce_receipted hq hins) h

theorem requestDeletion_eq (h : requestDeletion r = .ok s₀) : ∃ queue,
    enqueueDeletionSurfaceJobs (cancelLiveJobs r.queue r.roomId) r.deletionJobId r.correlationId
      r.now = .ok queue ∧
    s₀ = {
      queue
      roomId := r.roomId
      room := some r.rows
      deletionJobId := r.deletionJobId
      correlationId := r.correlationId
      roomRef := some r.roomId
      status := .queued
      manifests := fun surface => ⟨surfaceCount r.rows surface, .frozen⟩
      receipt := none } := by
  unfold requestDeletion at h
  split at h
  · cases h
  · split at h
    · cases h
    · split at h
      · cases h
      · split at h
        · cases h
        · obtain ⟨queue, hq, h⟩ := bind_eq_ok.mp h
          cases h
          exact ⟨queue, hq, rfl⟩

/-- Before the first claim all jobs are ahead, tied, with every attempt left. -/
theorem Wheel.start (h : requestDeletion r = .ok s₀) (hqueue : Jobs.Receipted r.queue)
    (hfresh : ∀ x, dedupeKey r.deletionJobId x ∉ r.queue.dedupeKeys)
    (hcopies : surfaceCount r.rows .providerCopies = 0) (hn : ties.Nodup) :
    Wheel r ties s₀ 1 [] ties r.now := by
  have hcons := requestDeletion_consistent h
  obtain ⟨queue, henq, rfl⟩ := requestDeletion_eq h
  have hcancelled : Jobs.Receipted (cancelLiveJobs r.queue r.roomId) :=
    hqueue.moves (cancelLiveJobs_moves r.queue r.roomId)
  obtain ⟨-, hrows, -⟩ := insertAll (surfaceJob r.deletionJobId r.correlationId r.now)
    (by decide : surfaces.Nodup) (fun x y he => dedupeKey_injective he)
    (fun x _ => by rw [dedupeKeys_cancelLiveJobs]; exact hfresh x) henq
  have hrow : ∀ x, ∃ hck, queue.jobs.get? (stableUuid [r.deletionJobId, x.name]) =
      some ((surfaceJob r.deletionJobId r.correlationId r.now x).row hck) := fun x =>
    (hrows x (by cases x <;> decide)).2
  have hpass : ∀ x, ¬ passAt ties x < 1 := fun x => Nat.not_lt.mpr Passes.passOf_pos
  have hdue : ∀ s : Saga, s.deletionJobId = r.deletionJobId → s.queue = queue → ∀ x,
      s.due x = r.now := by
    rintro s hd rfl x
    obtain ⟨hck, hx⟩ := hrow x
    have hx' : s.jobRow? x = some ((surfaceJob r.deletionJobId r.correlationId r.now x).row hck) := by
      unfold Saga.jobRow? Saga.jobId
      rw [hd]
      exact hx
    unfold Saga.due
    rw [hx']
    rfl
  refine {
    split := rfl
    passPos := Nat.le_refl _
    passLe := by omega
    consistent := hcons
    receipted := enqueue_receipted hcancelled henq
    deletionJobId := rfl
    correlationId := rfl
    distinct := ?_
    frozen := fun _ _ => rfl
    counts := fun x _ => ⟨r.rows, rfl, rfl⟩
    roomRef := fun _ _ => ⟨r.roomId, rfl⟩
    copies := hcopies
    alive := by simp
    verified := ?_
    waits := ?_
    finished := ?_
    order := ?_
    soon := ?_ }
  · intro x y he
    obtain ⟨hckx, hx⟩ := hrow x
    obtain ⟨hcky, hy⟩ := hrow y
    unfold Saga.jobId at he
    rw [he, hy] at hx
    exact dedupeKey_injective (congrArg JobRow.dedupeKey (Option.some.inj hx)).symm
  · intro x
    simp [Saga.verified, hpass]
  · intro x _
    obtain ⟨hck, hx⟩ := hrow x
    exact ⟨_, hx, ⟨rfl, rfl, rfl, rfl, rfl, rfl, rfl, rfl⟩, rfl, rfl, by simp⟩
  · intro x hx
    simp [Saga.verified] at hx
  · rw [List.append_nil]
    refine List.Pairwise.filter _ (List.pairwise_iff_getElem.mpr ?_)
    intro i j hi hj hij
    rw [hdue _ rfl rfl, hdue _ rfl rfl, hn.idxOf_getElem i hi, hn.idxOf_getElem j hj]
    exact .inr ⟨rfl, hij⟩
  · intro x _
    rw [hdue _ rfl rfl x]
    simp only [Jobs.retryDelay]
    omega

/-- Everything else is verified before the events. -/
theorem passAt_le_events (hall : ∀ x, x ∈ ties) (x : Surface) : passAt ties x ≤ passAt ties .events := by
  by_cases hx : x = .events
  · rw [hx]
  · have hmem : x ∈ Passes.waitsFor deleteOrder .events := by
      revert hx
      cases x <;> decide
    exact (Passes.passOf_le (fun a b he => (List.idxOf_inj (hall a)).mp he) (by decide) (by decide)
      hmem).1

theorem passAt_events (ties : List Surface) :
    passAt ties .events = 1 + descents (fun x => ties.idxOf x) deleteOrder := rfl

variable {history : List Jobs.Call}

/-- With more than four inversions a worker that goes on loses the deletion. -/
theorem descents_kill (store : JobStore) (h : requestDeletion r = .ok s₀)
    (hqueue : r.queue = Jobs.run history)
    (hfresh : ∀ x, dedupeKey r.deletionJobId x ∉ r.queue.dedupeKeys)
    (hid : Uuid.Stored r.deletionJobId) (hcorr : Uuid.Stored r.correlationId)
    (hcopies : surfaceCount r.rows .providerCopies = 0) (hties : ties.Perm surfaces)
    (hd : 4 < descents (fun x => ties.idxOf x) deleteOrder) :
    ∃ rounds, Timed r.now rounds ∧ ¬ Alive (runAll store ties s₀ rounds) := by
  have hn : ties.Nodup := hties.nodup_iff.mpr (by decide)
  have hall : ∀ x, x ∈ ties := fun x => hties.mem_iff.mpr (by cases x <;> decide)
  have hstart := Wheel.start h (hqueue ▸ Jobs.run_receipted history) hfresh hcopies hn
  have hlate : 5 < passAt ties .events := by
    rw [passAt_events]
    omega
  exact Wheel.dies hid hcorr hn hall hties.length_eq hlate _ hstart (Nat.le_refl _)

/-- Without failures, a deletion with no provider copies (so with no media) survives every
sequence of rounds exactly when the order in which the tied jobs come out inverts at most four
neighbours of `DELETE_ORDER`: each inversion costs the jobs behind it one of five attempts. -/
theorem order_spares_iff (store : JobStore) (h : requestDeletion r = .ok s₀)
    (hqueue : r.queue = Jobs.run history)
    (hfresh : ∀ x, dedupeKey r.deletionJobId x ∉ r.queue.dedupeKeys)
    (hid : Uuid.Stored r.deletionJobId) (hcorr : Uuid.Stored r.correlationId)
    (hcopies : surfaceCount r.rows .providerCopies = 0) (hties : ties.Perm surfaces) :
    (∀ rounds, Timed r.now rounds → Alive (runAll store ties s₀ rounds)) ↔
      descents (fun x => ties.idxOf x) deleteOrder ≤ 4 := by
  constructor
  · intro halive
    by_contra hd
    obtain ⟨rounds, htimed, hdead⟩ :=
      descents_kill store h hqueue hfresh hid hcorr hcopies hties (Nat.not_le.mp hd)
    exact hdead (halive rounds htimed)
  · intro hd rounds htimed
    have hn : ties.Nodup := hties.nodup_iff.mpr (by decide)
    have hall : ∀ x, x ∈ ties := fun x => hties.mem_iff.mpr (by cases x <;> decide)
    have hstart := Wheel.start h (hqueue ▸ Jobs.run_receipted history) hfresh hcopies hn
    have hpass : ∀ x, passAt ties x ≤ 5 := fun x => by
      have := passAt_le_events hall x
      rw [passAt_events] at this
      omega
    exact Wheel.alive_runs hid hcorr hn hall hties.length_eq hpass rounds hstart htimed

theorem plainRequest_stored :
    Uuid.Stored plainRequest.deletionJobId ∧ Uuid.Stored plainRequest.correlationId := by
  constructor <;> decide +kernel

/-- In the order of `SURFACES` the events and the media come too early: two inversions. -/
theorem order_spares_surfaces : ∃ s₀, requestDeletion plainRequest = .ok s₀ ∧
    ∀ rounds, Timed 0 rounds → Alive (runAll ⟨"worker", by decide⟩ surfaces s₀ rounds) := by
  obtain ⟨s₀, h⟩ := plainRequest_accepted
  exact ⟨s₀, h, (order_spares_iff ⟨"worker", by decide⟩ h (rfl : _ = Jobs.run [])
    (fun _ => List.not_mem_nil) plainRequest_stored.1 plainRequest_stored.2 rfl
    (List.Perm.refl _)).mpr (by decide)⟩

/-- Against `DELETE_ORDER` each of the first passes verifies one surface. -/
theorem reverse_order_kills : ∃ s₀, requestDeletion plainRequest = .ok s₀ ∧
    ∃ rounds, Timed 0 rounds ∧
      ¬ Alive (runAll ⟨"worker", by decide⟩ deleteOrder.reverse s₀ rounds) := by
  obtain ⟨s₀, h⟩ := plainRequest_accepted
  exact ⟨s₀, h, descents_kill ⟨"worker", by decide⟩ h (rfl : _ = Jobs.run [])
    (fun _ => List.not_mem_nil) plainRequest_stored.1 plainRequest_stored.2 rfl
    (by decide) (by decide)⟩

end Start

end LearningOrbit.Deletion
