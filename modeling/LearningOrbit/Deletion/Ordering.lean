import LearningOrbit.Deletion.SagaInvariant
import LearningOrbit.Jobs.Attempts
import LearningOrbit.Jobs.QueueRuns
import LearningOrbit.Passes

/-!
# Does the order alone kill a deletion?

The eight surface jobs are inserted with one `run_after` and one `created_at`. A job
that is claimed before its predecessors are verified uses up an attempt and goes to
the back of the queue. With one worker the jobs are therefore visited pass after
pass in the order in which the database first returned them.
-/

namespace LearningOrbit.Deletion

open LearningOrbit (Dict)
open Jobs (Queue JobRow JobStore WorkerJob Failure NewJob Lease)
open Passes (passOf waitsFor descents)

def Saga.jobId (s : Saga) (x : Surface) : String := stableUuid [s.deletionJobId, x.name]

def Saga.jobRow? (s : Saga) (x : Surface) : Option JobRow := s.queue.jobs.get? (s.jobId x)

/-- `ORDER BY run_after, created_at`. -/
def sooner (a b : JobRow) : Bool :=
  a.runAfter < b.runAfter || (a.runAfter = b.runAfter && a.createdAt < b.createdAt)

def Saga.sooner (s : Saga) (x y : Surface) : Bool :=
  match s.jobRow? x, s.jobRow? y with
  | some a, some b => Deletion.sooner a b
  | _, _ => false

/-- The surface job `CLAIM_SQL` returns when tied rows come out in the order of the list. -/
def claimNext (s : Saga) (now : Int) : List Surface → Option Surface
  | [] => none
  | x :: rest =>
    if !Jobs.selects s.queue now (s.jobId x) then claimNext s now rest
    else
      match claimNext s now rest with
      | none => some x
      | some y => if s.sooner y x then some y else some x

/-- One `run_once` of the worker: the claim and the settlement are transactions of their own. -/
structure Round where
  token : String
  claimedAt : Int
  settledAt : Int

/-- `run_once` and `run_with_lease`: claim, handle, then `succeed` or `fail`. -/
def runOnce (store : JobStore) (ties : List Surface) (s : Saga) (round : Round) : Saga :=
  match claimNext s round.claimedAt ties with
  | none => s
  | some x =>
    match claimJob store s round.claimedAt round.token (s.jobId x) with
    | .ok (s₁, [job]) =>
      match deleteSurfaceHandler s₁ job with
      | .ok s₂ => commit step s₂ (.succeed store job)
      | .error .stale => s₁
      | .error (.failed error) => commit step s₁ (.fail store round.settledAt job error)
    | .ok (s₁, _) => s₁
    | .error _ => s

def runAll (store : JobStore) (ties : List Surface) (s : Saga) (rounds : List Round) : Saga :=
  rounds.foldl (runOnce store ties) s

/-- Every transaction of the worker begins after the one before it. -/
def Timed : Int → List Round → Prop
  | _, [] => True
  | t, round :: rounds =>
    t < round.claimedAt ∧ round.claimedAt < round.settledAt ∧ Timed round.settledAt rounds

/-- Neither the saga nor one of its jobs is dead. -/
def Alive (s : Saga) : Prop :=
  s.status ≠ .dead ∧ ∀ x row, s.jobRow? x = some row → row.status ≠ .dead

section Choice

variable {s : Saga} {now : Int}

theorem claimNext_none {l : List Surface}
    (h : ∀ y ∈ l, Jobs.selects s.queue now (s.jobId y) = false) : claimNext s now l = none := by
  induction l with
  | nil => rfl
  | cons x rest ih =>
    rw [claimNext, h x (List.mem_cons_self ..)]
    exact ih fun y hy => h y (List.mem_cons_of_mem _ hy)

theorem claimNext_mem {l : List Surface} {x : Surface} (h : claimNext s now l = some x) :
    x ∈ l ∧ Jobs.selects s.queue now (s.jobId x) = true := by
  induction l with
  | nil => cases h
  | cons a rest ih =>
    rw [claimNext] at h
    split at h
    · obtain ⟨hx, hs⟩ := ih h
      exact ⟨List.mem_cons_of_mem _ hx, hs⟩
    · rename_i hsel
      have ha : Jobs.selects s.queue now (s.jobId a) = true := by simpa using hsel
      split at h
      · cases h
        exact ⟨List.mem_cons_self .., ha⟩
      · rename_i y hy
        split at h <;> cases h
        · obtain ⟨hx, hs⟩ := ih hy
          exact ⟨List.mem_cons_of_mem _ hx, hs⟩
        · exact ⟨List.mem_cons_self .., ha⟩

/-- The least job: sooner than all that come out before it, and none after it is sooner. -/
theorem claimNext_eq {front rest : List Surface} {x : Surface}
    (hx : Jobs.selects s.queue now (s.jobId x) = true)
    (hfront : ∀ y ∈ front, Jobs.selects s.queue now (s.jobId y) = true → s.sooner x y = true)
    (hrest : ∀ y ∈ rest, Jobs.selects s.queue now (s.jobId y) = true → s.sooner y x = false) :
    claimNext s now (front ++ x :: rest) = some x := by
  induction front with
  | nil =>
    rw [List.nil_append, claimNext, hx]
    cases hc : claimNext s now rest with
    | none => rfl
    | some y =>
      obtain ⟨hy, hs⟩ := claimNext_mem hc
      simp [hrest y hy hs]
  | cons a front ih =>
    rw [List.cons_append, claimNext, ih fun y hy => hfront y (List.mem_cons_of_mem _ hy)]
    cases ha : Jobs.selects s.queue now (s.jobId a) with
    | false => rfl
    | true => simp [hfront a (List.mem_cons_self ..) ha]

end Choice

section Request

theorem name_injective {x y : Surface} (h : x.name = y.name) : x = y := by
  revert h
  cases x <;> cases y <;> decide

theorem dedupeKey_injective {d : String} {x y : Surface} (h : dedupeKey d x = dedupeKey d y) :
    x = y := by
  unfold dedupeKey at h
  exact name_injective ((String.append_right_inj _).mp h)

theorem mem_dedupeKeys_setJob {q : Queue} {id key : String} {row : JobRow}
    (h : key ∈ (q.setJob id row).dedupeKeys) : key = row.dedupeKey ∨ key ∈ q.dedupeKeys := by
  obtain ⟨row', hrow', rfl⟩ := List.mem_map.mp h
  rcases Dict.mem_values_set hrow' with rfl | hrow'
  · exact .inl rfl
  · exact .inr (List.mem_map.mpr ⟨row', hrow', rfl⟩)

/-- Jobs with fresh and distinct keys are all inserted, under distinct ids, or the insert
raises. -/
theorem insertAll {α : Type} (job : α → NewJob) {l : List α} {q q' : Queue} (hn : l.Nodup)
    (hkey : ∀ x y, (job x).dedupeKey = (job y).dedupeKey → x = y)
    (hfresh : ∀ x ∈ l, (job x).dedupeKey ∉ q.dedupeKeys)
    (h : l.foldlM (fun q x => Jobs.insertJobOnce q (job x)) q = .ok q') :
    q'.completions = q.completions ∧
      (∀ x ∈ l, q.jobs.get? (job x).jobId = none ∧
        ∃ hck, q'.jobs.get? (job x).jobId = some ((job x).row hck)) ∧
      ∀ id row, q.jobs.get? id = some row → q'.jobs.get? id = some row := by
  induction l generalizing q with
  | nil =>
    cases h
    exact ⟨rfl, by simp, fun _ _ hrow => hrow⟩
  | cons x l ih =>
    rw [List.foldlM_cons] at h
    obtain ⟨q₁, hins, h⟩ := bind_eq_ok.mp h
    have hx := hfresh x (List.mem_cons_self ..)
    unfold Jobs.insertJobOnce at hins
    simp only [hx, decide_false, Bool.and_false, Bool.false_eq_true, ↓reduceIte] at hins
    obtain ⟨hck, hnone, -, rfl⟩ := Jobs.insertJob_eq hins
    obtain ⟨hxl, hnl⟩ := List.nodup_cons.mp hn
    obtain ⟨hcompl, hrows, hkeep⟩ := ih hnl (fun y hy hmem => by
      rcases mem_dedupeKeys_setJob hmem with he | hmem
      · exact hxl (hkey y x he ▸ hy)
      · exact hfresh y (List.mem_cons_of_mem _ hy) hmem) h
    refine ⟨hcompl, ?_, ?_⟩
    · intro y hy
      rcases List.mem_cons.mp hy with rfl | hy
      · exact ⟨hnone, hck, hkeep _ _ (by simp)⟩
      · obtain ⟨hyn, hyr⟩ := hrows y hy
        rw [Jobs.setJob_get?] at hyn
        split at hyn
        · cases hyn
        · exact ⟨hyn, hyr⟩
    · intro id row hrow
      refine hkeep id row ?_
      rw [Jobs.setJob_get?]
      split
      · rename_i he
        rw [he, hnone] at hrow
        cases hrow
      · exact hrow

end Request

section Attempt

/-- The columns a surface job is inserted with; no statement changes them. -/
structure SurfaceRow (r : Request) (x : Surface) (row : JobRow) : Prop where
  type : row.jobType = jobType
  room : row.roomId = none
  source : row.sourceEventId = none
  key : row.dedupeKey = dedupeKey r.deletionJobId x
  correlation : row.correlationId = r.correlationId
  member : row.payload = (surfaceJob r.deletionJobId r.correlationId r.now x).payload
  budget : row.maxAttempts = 5
  created : row.createdAt = r.now

theorem SurfaceRow.notAnalytics {r : Request} {x : Surface} {row : JobRow}
    (h : SurfaceRow r x row) : Jobs.analyticsType row.jobType = false := by
  rw [h.type]
  decide

theorem SurfaceRow.take {r : Request} {x : Surface} {row : JobRow} (h : SurfaceRow r x row)
    (worker token : String) (now : Int) : SurfaceRow r x (row.take worker token now) :=
  ⟨h.type, h.room, h.source, h.key, h.correlation, h.member, h.budget, h.created⟩

theorem surfaceNamed_name (x : Surface) : surfaceNamed x.name = some x := by
  cases x <;> decide

theorem payload_attempt {r : Request} {x : Surface} {row : JobRow} {id : String} {lease : Lease}
    (h : SurfaceRow r x row) (hid : Uuid.Stored r.deletionJobId)
    (hcorr : Uuid.Stored r.correlationId) :
    payload (row.attempt id lease) = .ok (r.deletionJobId, x) := by
  have hdel : row.payload.get? "deletionJobId" = some (.text r.deletionJobId) := by
    rw [h.member]
    simp [surfaceJob, Dict.get?_set]
  have hsurf : row.payload.get? "surface" = some (.text x.name) := by
    rw [h.member]
    simp [surfaceJob]
  have hsize : row.payload.size = 2 := by
    rw [h.member]
    simp [surfaceJob, Dict.set, Dict.keys, Dict.empty, Dict.size]
  have hcanon : Uuid.canonical r.deletionJobId = some r.deletionJobId := hid
  have hcanon' : Uuid.canonical r.correlationId = some r.correlationId := hcorr
  simp [payload, Jobs.JobRow.attempt, h.type, h.room, h.source, hdel, hsurf, hsize, memberText,
    hcanon, surfaceNamed_name, h.key, h.correlation, hcanon']

variable {r : Request} {s : Saga} {x : Surface} {row : JobRow} {lease : Lease} {id : String}

/-- The handler of the current attempt reaches its surface. -/
theorem handler_attempt (hid : Uuid.Stored r.deletionJobId) (hcorr : Uuid.Stored r.correlationId)
    (hsr : SurfaceRow r x row) (hrow : s.queue.jobs.get? id = some row)
    (hs : row.status = .running lease) (hw : lease.lockedBy ≠ "")
    (hdel : s.deletionJobId = r.deletionJobId) (hc : s.correlationId = r.correlationId)
    (hactive : s.status.finished = false) :
    deleteSurfaceHandler s (row.attempt id lease) =
      advanceSurface { s with status := .running } (row.attempt id lease) x := by
  unfold deleteSurfaceHandler
  rw [payload_attempt hsr hid hcorr]
  simp only [bind, Except.bind, Jobs.requireCurrent_attempt _ hrow hs hw]
  have hcorr' : (row.attempt id lease).claim.correlationId = r.correlationId := hsr.correlation
  rw [hcorr', hdel, hc]
  cases hst : s.status <;> simp [hst, SagaStatus.finished] at hactive ⊢

theorem advanceSurface_pending {job : WorkerJob} {rows : Rows} {ref : String}
    (hm : (s.manifests x).status = .frozen) (href : s.roomRef = some ref)
    (hroom : s.room = some rows) (hprior : (prior x).all s.verified = false) :
    advanceSurface s job x = .error (retryable "LIFECYCLE_DEPENDENCY_PENDING") := by
  simp [advanceSurface, hm, href, hroom, hprior]

theorem advanceSurface_ready {job : WorkerJob} {rows : Rows} {ref : String} {s' : Saga}
    (hm : (s.manifests x).status = .frozen) (href : s.roomRef = some ref)
    (hroom : s.room = some rows) (hprior : (prior x).all s.verified = true)
    (hv : verifySurface s x rows = .ok s') :
    advanceSurface s job x = completeSurface s' job := by
  simp [advanceSurface, hm, href, hroom, hprior, hv, bind, Except.bind]

/-- Sweeping a surface whose count is the frozen one empties it. -/
theorem sweep_empty {rows : Rows} (hcount : surfaceCount rows x = s.expected x)
    (hx : x ≠ .events) (hmedia : x = .media → s.expected .media = 0)
    (hcopies : x = .providerCopies → s.expected .providerCopies = 0) :
    surfaceCount (sweep s x rows) x = 0 := by
  unfold sweep
  change surfaceCount (if 0 < s.expected x && 0 < surfaceCount rows x then _ else rows) x = 0
  split
  · rename_i hpos
    simp only [Bool.and_eq_true, decide_eq_true_eq] at hpos
    cases x with
    | events => exact absurd rfl hx
    | media =>
      have := hmedia rfl
      omega
    | providerCopies =>
      have := hcopies rfl
      omega
    | _ => simp [deleteSurface, surfaceCount]
  · rename_i hpos
    simp only [Bool.and_eq_true, decide_eq_true_eq] at hpos
    omega

/-- A sweep leaves the other counts alone, the provider copies apart. -/
theorem sweep_other {rows : Rows} {y : Surface} (hy : y ≠ x) (hp : y ≠ .providerCopies) :
    surfaceCount (sweep s x rows) y = surfaceCount rows y := by
  rcases sweep_eq s x rows with he | he
  · rw [he]
  · rw [he]
    cases x <;> cases y <;> simp_all [deleteSurface, surfaceCount]

/-- What a verified surface leaves of the saga before its receipt is written. -/
structure Verified (s s' : Saga) (x : Surface) : Prop where
  deletionJobId : s'.deletionJobId = s.deletionJobId
  correlationId : s'.correlationId = s.correlationId
  manifests : s'.manifests = (s.setVerified x).manifests
  alive : s'.status ≠ .dead
  roomRef : x ≠ .events → s'.roomRef = s.roomRef
  counts : x ≠ .events → ∀ rows, s.room = some rows → ∃ rows', s'.room = some rows' ∧
    ∀ y, y ≠ x → y ≠ .providerCopies → surfaceCount rows' y = surfaceCount rows y
  jobs : ∀ id row, s.queue.jobs.get? id = some row → row.roomId = none →
    s'.queue.jobs.get? id = some row
  completions : ∀ key, s.queue.completions.get? key = none → s'.queue.completions.get? key = none
  receipted : Jobs.Receipted s.queue → Jobs.Receipted s'.queue

theorem deleteRoom_receipted (h : Jobs.Receipted s.queue) :
    Jobs.Receipted (deleteRoom s).queue := by
  intro id g c hc
  simp only [deleteRoom, Dict.get?_filterKeys] at hc
  split at hc
  · rename_i hkept
    obtain ⟨row, hrow, hrest⟩ := h id g c hc
    refine ⟨row, ?_, hrest⟩
    simp only [deleteRoom, Dict.get?_filterKeys]
    rw [if_pos hkept]
    exact hrow
  · cases hc

theorem verifySurface_rows {rows : Rows} (hactive : s.status = .running) (hroom : s.room = some rows)
    (hcount : surfaceCount rows x = s.expected x) (hx : x ≠ .events)
    (hmedia : s.expected .media = 0) (hcopies : s.expected .providerCopies = 0) :
    ∃ s', verifySurface s x rows = .ok s' ∧ Verified s s' x := by
  have hempty := sweep_empty hcount hx (fun _ => hmedia) (fun _ => hcopies)
  have hv : verifySurface s x rows =
      .ok ({ s with room := some (sweep s x rows) }.setVerified x) := by
    unfold Saga.expected at *
    cases x <;> simp_all [verifySurface, verifyRows]
  refine ⟨_, hv, rfl, rfl, rfl, by simp [Saga.setVerified, hactive], fun _ => rfl, ?_, ?_, ?_, ?_⟩
  · intro _ rows₁ hrows₁
    rw [hroom] at hrows₁
    cases hrows₁
    exact ⟨sweep s x rows, rfl, fun y hy hp => sweep_other hy hp⟩
  · exact fun _ _ h _ => h
  · exact fun _ h => h
  · exact fun h => h

theorem verifySurface_events {rows : Rows} (hcount : surfaceCount rows .events = s.expected .events)
    (hprior : (prior .events).all s.verified = true) (hreceipt : s.receipt = none) :
    ∃ s', verifySurface s .events rows = .ok s' ∧ Verified s s' .events := by
  have hall : verifyAllManifests ((deleteRoom s).setVerified .events) = true := by
    rw [verifyAllManifests_iff]
    intro y
    rw [verified_setVerified]
    by_cases hy : y = .events
    · simp [hy]
    · have hmem : y ∈ prior .events := by
        revert hy
        cases y <;> decide
      have := List.all_eq_true.mp hprior y hmem
      simp only [hy, decide_false, Bool.false_or]
      exact this
  have hdrop : deleteOrder.dropLast.all s.verified = true := hprior
  have hcur : surfaceCount rows .events = (s.manifests .events).expectedItemCount := hcount
  refine ⟨{ (deleteRoom s).setVerified .events with
    receipt := some ⟨1, sortedSurfaces⟩, status := .completed, roomRef := none }, ?_, ?_⟩
  · have hvalid : validReceipt (some ⟨1, sortedSurfaces⟩) = true := by decide
    have hnone : ((deleteRoom s).setVerified .events).receipt = none := hreceipt
    simp [verifySurface, verifyEvents, hcur, hdrop, hall, hnone, hvalid]
  · refine ⟨rfl, rfl, rfl, by simp, fun h => absurd rfl h, fun h => absurd rfl h, ?_, ?_,
      deleteRoom_receipted⟩
    · intro id row hrow hnone
      simp [Saga.setVerified, deleteRoom, Dict.get?_filterKeys, hrow, hnone]
    · intro key hkey
      simp [Saga.setVerified, deleteRoom, Dict.get?_filterKeys, hkey]

end Attempt

end LearningOrbit.Deletion
