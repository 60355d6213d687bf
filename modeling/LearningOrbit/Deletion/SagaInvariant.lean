import LearningOrbit.Deletion.Saga

/-!
# What every run of the deletion saga keeps

A transaction either leaves the surfaces alone and moves the status, verifies the
next surface, or completes the saga.
-/

namespace LearningOrbit.Deletion

open LearningOrbit (Dict)
open Jobs (Queue JobStore WorkerJob Failure)

def SagaStatus.finished : SagaStatus → Bool
  | .completed | .dead => true
  | .queued | .running | .retryable => false

/-- The rows other than the queue and the status. -/
structure SameSurfaces (s s' : Saga) : Prop where
  room : s'.room = s.room
  manifests : s'.manifests = s.manifests
  receipt : s'.receipt = s.receipt

/-- What a transaction does to the saga, whatever it does to the queue. -/
inductive Advances (s s' : Saga) : Prop
  | status (hsame : SameSurfaces s s')
    (hstatus : s'.status = s.status ∨ s.status.finished = false ∧ s'.status ≠ .completed)
  | verifies (surface : Surface) (rows rows' : Rows) (hne : surface ≠ .events)
    (hactive : s.status.finished = false) (hstatus : s'.status = .running)
    (hroom : s.room = some rows) (hprior : (prior surface).all s.verified = true)
    (hcopies : surface = .providerCopies → (s.manifests surface).expectedItemCount = 0)
    (hrows : rows' = rows ∨ rows' = deleteSurface rows surface)
    (hroom' : s'.room = some rows') (hmanifests : s'.manifests = (s.setVerified surface).manifests)
    (hreceipt : s'.receipt = s.receipt)
  | completes (rows : Rows) (hactive : s.status.finished = false) (hroom : s.room = some rows)
    (hprior : deleteOrder.dropLast.all s.verified = true) (hstatus : s'.status = .completed)
    (hroom' : s'.room = none) (hmanifests : s'.manifests = (s.setVerified .events).manifests)
    (hreceipt : s'.receipt.isSome = true)

section Operations

variable {s s' : Saga}

theorem Advances.of_queue (queue : Queue) : Advances s { s with queue } :=
  .status ⟨rfl, rfl, rfl⟩ (.inl rfl)

theorem completeSurface_eq {job : WorkerJob} (h : completeSurface s job = .ok s') :
    ∃ queue, s' = { s with queue } := by
  unfold completeSurface at h
  split at h
  · rename_i queue _
    cases h
    exact ⟨queue, rfl⟩
  · cases h

theorem verifyEvents_eq (h : verifyEvents s = .ok s') :
    deleteOrder.dropLast.all s.verified = true ∧ s'.status = .completed ∧ s'.room = none ∧
      s'.manifests = (s.setVerified .events).manifests ∧ s'.receipt.isSome = true := by
  unfold verifyEvents at h
  split at h
  · cases h
  · rename_i hprior
    dsimp only at h
    split at h
    · cases h
    · split at h
      · cases h
      · cases h
        exact ⟨by simpa using hprior, rfl, rfl, rfl, rfl⟩

theorem verifyRows_eq {surface : Surface} {rows : Rows} (h : verifyRows s surface rows = .ok s') :
    s' = { s with room := some (sweep s surface rows) }.setVerified surface := by
  unfold verifyRows at h
  split at h <;> cases h
  rfl

theorem sweep_eq (s : Saga) (surface : Surface) (rows : Rows) :
    sweep s surface rows = rows ∨ sweep s surface rows = deleteSurface rows surface := by
  unfold sweep
  split
  · exact .inr rfl
  · exact .inl rfl

/-- A surface is verified only with an empty or matching count, and provider copies only when
none were frozen. -/
theorem verifySurface_eq {surface : Surface} {rows : Rows}
    (h : verifySurface s surface rows = .ok s') :
    (surface = .providerCopies → (s.manifests surface).expectedItemCount = 0) ∧
      (surface = .events ∧ verifyEvents s = .ok s' ∨
        surface ≠ .events ∧ verifyRows s surface rows = .ok s') := by
  unfold verifySurface at h
  dsimp only at h
  split at h
  · cases h
  · split at h
    · cases h
    · rename_i hcopies
      split at h
      · cases h
      · refine ⟨fun he => ?_, ?_⟩
        · simp only [he, decide_true, Bool.true_and, Bool.or_eq_true, decide_eq_true_eq,
            not_or] at hcopies
          rw [he]
          omega
        · split at h
          · rename_i he
            exact .inl ⟨he, h⟩
          · rename_i he
            exact .inr ⟨he, h⟩

theorem advanceSurface_advances {job : WorkerJob} {surface : Surface}
    (hactive : s.status.finished = false)
    (h : advanceSurface { s with status := .running } job surface = .ok s') : Advances s s' := by
  unfold advanceSurface at h
  split at h
  · cases h
  · obtain ⟨queue, rfl⟩ := completeSurface_eq h
    exact .status ⟨rfl, rfl, rfl⟩ (.inr ⟨hactive, by simp⟩)
  all_goals
    split at h
    · rename_i hroom
      split at h
      · cases h
      · rename_i hprior
        obtain ⟨s₁, hv, hc⟩ := bind_eq_ok.mp h
        obtain ⟨queue, rfl⟩ := completeSurface_eq hc
        have hpending : ¬ (!(prior surface).all s.verified) = true := hprior
        have hprior' : (prior surface).all s.verified = true := by simpa using hpending
        obtain ⟨hcopies, ⟨he, hve⟩ | ⟨hne, hvr⟩⟩ := verifySurface_eq hv
        · obtain ⟨hall, hst, hr, hm, hrc⟩ := verifyEvents_eq hve
          exact .completes _ hactive hroom hall hst hr hm hrc
        · obtain rfl := verifyRows_eq hvr
          exact .verifies surface _ _ hne hactive rfl hroom hprior' hcopies (sweep_eq ..) rfl rfl rfl
    · cases h

theorem deleteSurfaceHandler_advances {job : WorkerJob}
    (h : deleteSurfaceHandler s job = .ok s') : Advances s s' := by
  unfold deleteSurfaceHandler at h
  obtain ⟨⟨deletionId, surface⟩, -, h⟩ := bind_eq_ok.mp h
  dsimp only at h
  split at h
  · cases h
  · split at h
    · cases h
    · split at h
      · cases h
      · split at h
        · cases h
        · obtain ⟨queue, rfl⟩ := completeSurface_eq h
          exact .of_queue queue
      all_goals
        rename_i hs
        exact advanceSurface_advances (by rw [hs]; rfl) h

theorem project_cases (status next : SagaStatus) (hn : next ≠ .completed) :
    status.project next = status ∨
      status.finished = false ∧ status.project next ≠ .completed := by
  cases status <;> simp [SagaStatus.project, SagaStatus.finished, hn]

theorem syncLifecycleStatus_advances {job : WorkerJob} {next : SagaStatus} {queue : Queue}
    (hn : next ≠ .completed) : Advances s (syncLifecycleStatus { s with queue } job next) := by
  unfold syncLifecycleStatus
  split
  · exact .status ⟨rfl, rfl, rfl⟩ (project_cases s.status next hn)
  · exact .of_queue queue

theorem failJob_advances {store : JobStore} {now : Int} {job : WorkerJob} {error : Failure}
    (h : failJob store now s job error = .ok s') : Advances s s' := by
  unfold failJob at h
  obtain ⟨⟨queue, left⟩, -, h⟩ := bind_eq_ok.mp h
  dsimp only at h
  split at h <;> cases h
  · exact .of_queue queue
  · exact syncLifecycleStatus_advances (by decide)
  · exact syncLifecycleStatus_advances (by decide)

theorem claimJob_advances {store : JobStore} {now : Int} {token candidate : String}
    {jobs : List WorkerJob} (h : claimJob store s now token candidate = .ok (s', jobs)) :
    Advances s s' := by
  unfold claimJob at h
  obtain ⟨⟨queue, settled, jobs'⟩, -, h⟩ := bind_eq_ok.mp h
  cases h
  split
  · unfold lifecycleDead
    split
    · split
      · exact .status ⟨rfl, rfl, rfl⟩ (project_cases s.status .dead (by decide))
      · exact .of_queue queue
    · exact .of_queue queue
  · exact .of_queue queue

theorem step_advances {call : Call} (h : step s call = .ok s') : Advances s s' := by
  cases call with
  | claim store now token candidate =>
    simp only [step] at h
    split at h
    · rename_i s₁ jobs hc
      cases h
      exact claimJob_advances hc
    · cases h
  | heartbeat store now job =>
    simp only [step] at h
    split at h <;> cases h
    exact .of_queue _
  | handle job => exact deleteSurfaceHandler_advances h
  | succeed store job =>
    simp only [step] at h
    split at h <;> cases h
    exact .of_queue _
  | fail store now job error =>
    simp only [step] at h
    split at h
    · rename_i s₁ hf
      cases h
      exact failJob_advances hf
    · cases h
  | cancel store job code =>
    simp only [step] at h
    split at h <;> cases h
    exact .of_queue _

end Operations

section Order

/-- Surfaces are verified in `DELETE_ORDER`: the verified ones are a prefix of it. -/
def InOrder (s : Saga) : Prop :=
  ∃ n, ∀ x, s.verified x = true ↔ x ∈ deleteOrder.take n

theorem verified_setVerified (s : Saga) (surface x : Surface) :
    (s.setVerified surface).verified x = (decide (x = surface) || s.verified x) := by
  unfold Saga.verified Saga.setVerified
  by_cases h : x = surface <;> simp [h]

theorem verified_congr {s s' : Saga} (h : s'.manifests = s.manifests) (x : Surface) :
    s'.verified x = s.verified x := by
  unfold Saga.verified
  rw [h]

/-- `prior` is the part of the order before a surface, and with the surface the next part. -/
theorem take_prior (surface : Surface) :
    ∃ n, deleteOrder.take n = prior surface ∧ deleteOrder.take (n + 1) = prior surface ++ [surface] := by
  cases surface
  · exact ⟨7, by decide, by decide⟩
  · exact ⟨1, by decide, by decide⟩
  · exact ⟨2, by decide, by decide⟩
  · exact ⟨3, by decide, by decide⟩
  · exact ⟨4, by decide, by decide⟩
  · exact ⟨5, by decide, by decide⟩
  · exact ⟨6, by decide, by decide⟩
  · exact ⟨0, by decide, by decide⟩

theorem InOrder.verifies {s s' : Saga} {surface : Surface} (hs : InOrder s)
    (hprior : (prior surface).all s.verified = true)
    (hm : s'.manifests = (s.setVerified surface).manifests) : InOrder s' := by
  obtain ⟨n, hn⟩ := hs
  have hv : ∀ x, s'.verified x = (decide (x = surface) || s.verified x) := by
    intro x
    rw [verified_congr hm, verified_setVerified]
  by_cases hin : s.verified surface = true
  · refine ⟨n, fun x => ?_⟩
    rw [hv, ← hn x]
    by_cases hx : x = surface <;> simp [hx, hin]
  · -- A prefix that holds everything before the surface but not the surface ends at it.
    obtain ⟨m, hm₁, hm₂⟩ := take_prior surface
    refine ⟨m + 1, fun x => ?_⟩
    have hlow : ∀ y ∈ prior surface, y ∈ deleteOrder.take n := fun y hy =>
      (hn y).mp (List.all_eq_true.mp hprior y hy)
    have hout : surface ∉ deleteOrder.take n := fun h => hin ((hn surface).mpr h)
    have heq : ∀ y, y ∈ deleteOrder.take n ↔ y ∈ prior surface := by
      intro y
      refine ⟨fun hy => ?_, hlow y⟩
      rw [← hm₁]
      rcases Nat.lt_or_ge m n with hnm | hnm
      · refine absurd (List.take_subset_take_left deleteOrder hnm ?_) hout
        change surface ∈ deleteOrder.take (m + 1)
        rw [hm₂]
        simp
      · exact List.take_subset_take_left deleteOrder hnm hy
    rw [hv, hm₂, Bool.or_eq_true, hn x, heq x]
    simp [or_comm]

end Order

section Invariant

variable {s s' : Saga}

theorem verifyAllManifests_iff : verifyAllManifests s = true ↔ ∀ x, s.verified x = true := by
  unfold verifyAllManifests
  rw [List.all_eq_true]
  refine ⟨fun h x => h x ?_, fun h x _ => h x⟩
  cases x <;> decide

def Saga.expected (s : Saga) (surface : Surface) : Nat := (s.manifests surface).expectedItemCount

/-- The rows of a surface that are there now; a room that is gone has none. -/
def Saga.current (s : Saga) (surface : Surface) : Nat :=
  (s.room.map fun rows => surfaceCount rows surface).getD 0

structure Consistent (s : Saga) : Prop where
  inOrder : InOrder s
  receipt : s.receipt.isSome = true ↔ s.status = .completed
  verified : s.status = .completed ↔ ∀ x, s.verified x = true
  room : s.room = none ↔ s.status = .completed
  copies : s.verified .providerCopies = true → s.expected .providerCopies = 0
  shrinks : s.current .providerCopies ≤ s.expected .providerCopies
  media : s.expected .media ≤ s.expected .providerCopies

/-- Media is counted among the provider copies, so once these are verified the media surface is
empty and the media route is never asked. -/
theorem Consistent.media_empty (hs : Consistent s) (hv : s.verified .providerCopies = true) :
    s.expected .media = 0 ∧ s.current .media = 0 := by
  have hzero := hs.copies hv
  have hmedia := hs.media
  have hle := hs.shrinks
  have hpart : s.current .media ≤ s.current .providerCopies := by
    unfold Saga.current
    cases s.room with
    | none => exact Nat.le_refl _
    | some rows =>
      simp only [Option.map_some, Option.getD_some, surfaceCount]
      omega
  omega

theorem expected_setVerified (surface x : Surface) :
    (s.setVerified surface).expected x = s.expected x := by
  unfold Saga.expected Saga.setVerified
  by_cases h : x = surface <;> simp [h]

theorem expected_congr (h : s'.manifests = s.manifests) (x : Surface) :
    s'.expected x = s.expected x := by
  unfold Saga.expected
  rw [h]

theorem Advances.expected (h : Advances s s') (x : Surface) : s'.expected x = s.expected x := by
  cases h with
  | status hsame _ => exact expected_congr hsame.manifests x
  | verifies surface rows rows' hne hactive hstatus hroom hprior hcopies hrows hroom' hmanifests hreceipt =>
    exact (expected_congr hmanifests x).trans (expected_setVerified surface x)
  | completes rows hactive hroom hprior hstatus hroom' hmanifests hreceipt =>
    exact (expected_congr hmanifests x).trans (expected_setVerified .events x)

/-- Sweeping a surface leaves no more provider copies than before. -/
theorem deleteSurface_copies (rows : Rows) (surface : Surface) :
    surfaceCount (deleteSurface rows surface) .providerCopies ≤
      surfaceCount rows .providerCopies := by
  cases surface <;> simp [deleteSurface, surfaceCount]

theorem not_completed {status : SagaStatus} (h : status.finished = false) :
    status ≠ .completed := by
  intro he
  rw [he] at h
  cases h

theorem Consistent.status (hs : Consistent s) (hsame : SameSurfaces s s')
    (hstatus : s'.status = s.status ∨ s.status.finished = false ∧ s'.status ≠ .completed) :
    Consistent s' := by
  have hc : s'.status = .completed ↔ s.status = .completed := by
    rcases hstatus with he | ⟨hf, hne⟩
    · rw [he]
    · exact ⟨fun h => absurd h hne, fun h => absurd h (not_completed hf)⟩
  have hv := verified_congr hsame.manifests
  have he := expected_congr hsame.manifests
  refine ⟨?_, ?_, ?_, ?_, ?_, ?_, ?_⟩
  · obtain ⟨n, hn⟩ := hs.inOrder
    exact ⟨n, fun x => by rw [hv, hn]⟩
  · rw [hsame.receipt, hc, hs.receipt]
  · rw [hc, hs.verified]
    simp only [hv]
  · rw [hsame.room, hc, hs.room]
  · rw [hv, he]
    exact hs.copies
  · rw [he, Saga.current, hsame.room]
    exact hs.shrinks
  · rw [he, he]
    exact hs.media

theorem events_last (hs : InOrder s) (he : s.verified .events = true) (x : Surface) :
    s.verified x = true := by
  obtain ⟨n, hn⟩ := hs
  have hin := (hn .events).mp he
  have h8 : 7 < n := by
    by_contra hle
    have hsub := List.take_subset_take_left deleteOrder (Nat.le_of_not_lt hle)
    exact absurd (hsub hin) (by decide)
  refine (hn x).mpr (List.take_subset_take_left deleteOrder h8 ?_)
  cases x <;> decide

theorem Consistent.advances (hs : Consistent s) (h : Advances s s') : Consistent s' := by
  have hexp := h.expected
  cases h with
  | status hsame hstatus => exact hs.status hsame hstatus
  | verifies surface rows rows' hne hactive hstatus hroom hprior hcopies hrows hroom' hmanifests hreceipt =>
    have hord : InOrder s' := hs.inOrder.verifies hprior hmanifests
    have hv : ∀ x, s'.verified x = (decide (x = surface) || s.verified x) := fun x => by
      rw [verified_congr hmanifests, verified_setVerified]
    -- The saga was not complete, so `events` is not verified, and this surface is another one.
    have hevents : s'.verified .events = false := by
      rw [hv]
      have hnot : s.verified .events ≠ true := fun he =>
        not_completed hactive (hs.verified.mpr (events_last hs.inOrder he))
      simp [Ne.symm hne, hnot]
    refine ⟨hord, ?_, ?_, ?_, ?_, ?_, by rw [hexp, hexp]; exact hs.media⟩
    · rw [hreceipt, hs.receipt, hstatus]
      simp [not_completed hactive]
    · rw [hstatus]
      refine ⟨fun h => (by cases h), fun h => ?_⟩
      rw [h] at hevents
      cases hevents
    · simp [hroom', hstatus]
    · intro hp
      rw [hexp]
      rw [hv, Bool.or_eq_true, decide_eq_true_eq] at hp
      rcases hp with he | hp
      · exact he ▸ hcopies he.symm
      · exact hs.copies hp
    · have hle := hs.shrinks
      simp only [Saga.current, hroom, Option.map_some, Option.getD_some] at hle
      simp only [Saga.current, hroom', Option.map_some, Option.getD_some, hexp]
      rcases hrows with rfl | rfl
      · exact hle
      · exact Nat.le_trans (deleteSurface_copies rows surface) hle
  | completes rows hactive hroom hprior hstatus hroom' hmanifests hreceipt =>
    have hall : ∀ x, s'.verified x = true := by
      intro x
      rw [verified_congr hmanifests, verified_setVerified]
      by_cases he : x = .events
      · simp [he]
      · have hx : x ∈ deleteOrder.dropLast := by
          revert he
          cases x <;> decide
        simp [List.all_eq_true.mp hprior x hx]
    refine ⟨⟨8, fun x => ?_⟩, ?_, ?_, ?_, ?_, ?_, by rw [hexp, hexp]; exact hs.media⟩
    · refine ⟨fun _ => ?_, fun _ => hall x⟩
      cases x <;> decide
    · simp [hreceipt, hstatus]
    · simp [hstatus, hall]
    · simp [hroom', hstatus]
    · intro _
      rw [hexp]
      exact hs.copies (List.all_eq_true.mp hprior .providerCopies (by decide))
    · simp [Saga.current, hroom']

theorem Consistent.step {call : Call} (hs : Consistent s) (h : step s call = .ok s') :
    Consistent s' :=
  hs.advances (step_advances h)

theorem requestDeletion_consistent {r : Request} (h : requestDeletion r = .ok s) :
    Consistent s := by
  unfold requestDeletion at h
  split at h
  · cases h
  · split at h
    · cases h
    · split at h
      · cases h
      · split at h
        · cases h
        · obtain ⟨queue, -, h⟩ := bind_eq_ok.mp h
          cases h
          refine ⟨⟨0, ?_⟩, ?_, ?_, ?_, ?_, ?_, ?_⟩
          · simp [Saga.verified]
          · simp
          · exact ⟨fun h => (by cases h), fun h => absurd (h .events) (by simp [Saga.verified])⟩
          · simp
          · simp [Saga.verified]
          · simp [Saga.current, Saga.expected]
          · simp only [Saga.expected, surfaceCount]
            omega

/-- The saga never leaves `completed` or `dead`, and never gains provider copies it has frozen. -/
def Settles (s s' : Saga) : Prop :=
  (s.status.finished = true → s'.status = s.status) ∧
    ∀ x, s'.expected x = s.expected x

theorem Advances.settles (h : Advances s s') : Settles s s' := by
  refine ⟨fun hf => ?_, h.expected⟩
  cases h with
  | status _ hstatus =>
    rcases hstatus with he | ⟨hn, -⟩
    · exact he
    · rw [hf] at hn
      cases hn
  | verifies surface rows rows' hne hactive hstatus hroom hprior hcopies hrows hroom' hmanifests hreceipt =>
    rw [hf] at hactive
    cases hactive
  | completes rows hactive hroom hprior hstatus hroom' hmanifests hreceipt =>
    rw [hf] at hactive
    cases hactive

theorem commitAll_settles (s : Saga) (calls : List Call) : Settles s (commitAll step s calls) := by
  apply commitAll_rel
  · exact fun s => ⟨fun _ => rfl, fun _ => rfl⟩
  · intro s t u hst htu
    refine ⟨fun hf => ?_, fun x => (htu.2 x).trans (hst.2 x)⟩
    have he := hst.1 hf
    exact (htu.1 (he ▸ hf)).trans he
  · exact fun s call s' h => (step_advances h).settles

end Invariant

/-- The saga over every interleaving: `calls` is what happened since the request, `more` what
follows. -/
theorem deletion_saga {r : Request} {s₀ : Saga} (h : requestDeletion r = .ok s₀)
    (calls more : List Call) :
    -- the verified surfaces are a prefix of the order
    (∃ n, ∀ x, (commitAll step s₀ calls).verified x = true ↔ x ∈ deleteOrder.take n) ∧
    -- the receipt, the status, the manifests and the room agree
    ((commitAll step s₀ calls).receipt.isSome = true ↔
      (commitAll step s₀ calls).status = .completed) ∧
    ((commitAll step s₀ calls).status = .completed ↔
      ∀ x, (commitAll step s₀ calls).verified x = true) ∧
    ((∀ x, (commitAll step s₀ calls).verified x = true) ↔
      (commitAll step s₀ calls).room = none) ∧
    -- completed and dead are never left
    ((commitAll step s₀ calls).status = .completed →
      (commitAll step s₀ (calls ++ more)).status = .completed) ∧
    ((commitAll step s₀ calls).status = .dead →
      (commitAll step s₀ (calls ++ more)).status = .dead) ∧
    -- with provider copies it never completes
    (0 < (commitAll step s₀ calls).expected .providerCopies ∨
        0 < (commitAll step s₀ calls).current .providerCopies →
      (commitAll step s₀ (calls ++ more)).status ≠ .completed) := by
  have hstart := requestDeletion_consistent h
  have hs : Consistent (commitAll step s₀ calls) :=
    commitAll_invariant (fun _ _ _ hs h => hs.step h) hstart calls
  have hs' : Consistent (commitAll step s₀ (calls ++ more)) :=
    commitAll_invariant (fun _ _ _ hs h => hs.step h) hstart (calls ++ more)
  have hsettles := commitAll_settles (commitAll step s₀ calls) more
  rw [← commitAll_append] at hsettles
  refine ⟨hs.inOrder, hs.receipt, hs.verified, ?_, ?_, ?_, ?_⟩
  · rw [hs.room, hs.verified]
  · intro hc
    exact (hsettles.1 (by simp [hc, SagaStatus.finished])).trans hc
  · intro hd
    exact (hsettles.1 (by simp [hd, SagaStatus.finished])).trans hd
  · intro hcopies hc
    have hzero := hs'.copies (hs'.verified.mp hc .providerCopies)
    rw [hsettles.2] at hzero
    have hle := hs.shrinks
    omega

/-- A room with three events, two learner texts and one projection. -/
def plainRows : Rows where
  roomEvent := 3
  mediaAsset := 0
  mediaDerivative := 0
  learnerText := 2
  providerText := 0
  extractionArtifacts := 0
  analyticsReviewDetail := 0
  projectionSnapshots := 1
  projectionPatches := 1
  projectionOutbox := 0
  roomHeads := 1
  studentPromotion := 0
  agentRun := 0

def plainRequest : Request where
  queue := .empty
  roomId := "room"
  teacherId := "teacher"
  rows := plainRows
  unfinishedDeletion := false
  principal := some "teacher"
  confirmation := "DELETE room"
  deletionJobId := "0b9f0f4e-7d1c-4c55-9d55-0a7b3d1f2c11"
  correlationId := "5a0d8a52-3c1e-4b8e-8f0b-2f1f6b7c9d10"
  now := 0

theorem plainRequest_accepted : ∃ s, requestDeletion plainRequest = .ok s := by
  have hok : (requestDeletion plainRequest).isOk = true := by decide +kernel
  cases h : requestDeletion plainRequest with
  | ok s => exact ⟨s, rfl⟩
  | error e =>
    rw [h] at hok
    cases hok

theorem deletion_saga_plain : ∃ s₀, requestDeletion plainRequest = .ok s₀ ∧
    ((commitAll step s₀ [.claim ⟨"worker", by decide⟩ 1 "token" "job"]).receipt.isSome = true ↔
      (commitAll step s₀ [.claim ⟨"worker", by decide⟩ 1 "token" "job"]).status = .completed) := by
  obtain ⟨s₀, h⟩ := plainRequest_accepted
  exact ⟨s₀, h, (deletion_saga h [.claim ⟨"worker", by decide⟩ 1 "token" "job"] []).2.1⟩

end LearningOrbit.Deletion
