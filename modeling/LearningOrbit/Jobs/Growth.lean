import LearningOrbit.Jobs.Fencing

/-!
# Queues that grow

What a job is never changes, and a finished job stays finished. A transaction that inserts
adds one job at most, under a dedupe key that is free.
-/

namespace LearningOrbit.Jobs

/-- The columns that are written once. -/
structure SameJob (row row' : JobRow) : Prop where
  jobType : row'.jobType = row.jobType
  roomId : row'.roomId = row.roomId
  dedupeKey : row'.dedupeKey = row.dedupeKey
  correlationId : row'.correlationId = row.correlationId
  payload : row'.payload = row.payload

theorem SameJob.refl (row : JobRow) : SameJob row row := ⟨rfl, rfl, rfl, rfl, rfl⟩

theorem SameJob.trans {row row₁ row₂ : JobRow} (h : SameJob row row₁) (h' : SameJob row₁ row₂) :
    SameJob row row₂ :=
  ⟨h'.jobType.trans h.jobType, h'.roomId.trans h.roomId, h'.dedupeKey.trans h.dedupeKey,
    h'.correlationId.trans h.correlationId, h'.payload.trans h.payload⟩

structure Grows (Admitted : NewJob → Prop) (q q' : Queue) : Prop where
  kept : ∀ id row, q.jobs.get? id = some row → ∃ row', q'.jobs.get? id = some row' ∧
    SameJob row row' ∧ (row.status.terminal = true → row'.status.terminal = true)
  new : (∀ id, q.jobs.get? id = none → q'.jobs.get? id = none) ∨
    ∃ job hck row', Admitted job ∧ job.dedupeKey ∉ q.dedupeKeys ∧
      q.jobs.get? job.jobId = none ∧ q'.jobs.get? job.jobId = some row' ∧
      SameJob (job.row hck) row' ∧
      ∀ id, id ≠ job.jobId → q.jobs.get? id = none → q'.jobs.get? id = none

variable {Admitted : NewJob → Prop} {q q' q'' : Queue}

theorem Grows.refl (q : Queue) : Grows Admitted q q :=
  ⟨fun _ row h => ⟨row, h, .refl row, id⟩, .inl fun _ h => h⟩

theorem Moves.sameJob {id : String} {row : JobRow} (h : Moves (fun _ => False) q q' id)
    (hrow : q.jobs.get? id = some row) : ∃ row', q'.jobs.get? id = some row' ∧ SameJob row row' ∧
      (row.status.terminal = true → row'.status.terminal = true) := by
  obtain ⟨row', hrow', -, hterminal⟩ := h.onward hrow
  refine ⟨row', hrow', ?_, fun ht => (hterminal ht).symm ▸ ht⟩
  cases h with
  | stays hsame _ =>
    rw [hsame, hrow] at hrow'
    cases hrow'
    exact .refl row
  | enters _ _ ha _ _ _ => exact ha.elim
  | picked _ _ _ _ hrow₁ _ _ _ _ hrow₂ _ | renewed _ _ _ hrow₁ _ hrow₂ _
  | receipted _ _ _ hrow₁ _ hrow₂ _ _ _ | succeeded _ _ hrow₁ _ _ hrow₂ _ _
  | died _ _ _ hrow₁ _ _ hrow₂ _ | retries _ _ _ _ hrow₁ _ _ _ hrow₂ _
  | cancelled _ _ hrow₁ _ hrow₂ _ =>
    rw [hrow₁] at hrow
    rw [hrow₂] at hrow'
    cases hrow
    cases hrow'
    exact ⟨rfl, rfl, rfl, rfl, rfl⟩

theorem Moves.none {id : String} (h : Moves (fun _ => False) q q' id)
    (hrow : q.jobs.get? id = none) : q'.jobs.get? id = none := by
  cases h with
  | stays hsame _ => rw [hsame, hrow]
  | enters _ _ ha _ _ _ => exact ha.elim
  | picked _ _ _ _ hrow₁ _ _ _ _ _ _ | renewed _ _ _ hrow₁ _ _ _
  | receipted _ _ _ hrow₁ _ _ _ _ _ | succeeded _ _ hrow₁ _ _ _ _ _
  | died _ _ _ hrow₁ _ _ _ _ | retries _ _ _ _ hrow₁ _ _ _ _ _ | cancelled _ _ hrow₁ _ _ _ =>
    rw [hrow₁] at hrow
    cases hrow

theorem Grows.of_moves (h : ∀ id, Moves (fun _ => False) q q' id) : Grows Admitted q q' :=
  ⟨fun id _ hrow => (h id).sameJob hrow, .inl fun id hrow => (h id).none hrow⟩

theorem Grows.completeBusiness {job : JobClaim} {code : String}
    (h : Jobs.completeBusiness q job code = .ok q') : Grows Admitted q q' :=
  .of_moves fun id => completeBusiness_moves h id

/-- Any call but an insert. -/
theorem Grows.step {call : Call} (hcall : ∀ job, call ≠ .enqueue job)
    (h : Jobs.step q call = .ok q') : Grows Admitted q q' :=
  .of_moves fun id => step_moves (fun job he => absurd he (hcall job)) h id

theorem Grows.insertJobOnce {job : NewJob} (ha : Admitted job)
    (h : Jobs.insertJobOnce q job = .ok q') : Grows Admitted q q' := by
  unfold Jobs.insertJobOnce at h
  split at h
  · cases h
    exact .refl q
  · obtain ⟨hck, hnone, hkey, rfl⟩ := insertJob_eq h
    constructor
    · intro id row hrow
      have hne : id ≠ job.jobId := by
        rintro rfl
        rw [hnone] at hrow
        cases hrow
      exact ⟨row, by simp [hne, hrow], .refl row, fun ht => ht⟩
    · refine .inr ⟨job, hck, _, ha, hkey, hnone, by simp, .refl _, ?_⟩
      intro id hne hid
      simp [hne, hid]

/-- Nothing is inserted after the first part. -/
theorem Grows.trans (h : Grows Admitted q q') (h' : Grows (fun _ => False) q' q'') :
    Grows Admitted q q'' := by
  have hnone : ∀ id, q'.jobs.get? id = none → q''.jobs.get? id = none := by
    rcases h'.new with hn | ⟨_, _, _, ha, _⟩
    · exact hn
    · exact ha.elim
  constructor
  · intro id row hrow
    obtain ⟨row₁, hrow₁, hsame₁, ht₁⟩ := h.kept id row hrow
    obtain ⟨row₂, hrow₂, hsame₂, ht₂⟩ := h'.kept id row₁ hrow₁
    exact ⟨row₂, hrow₂, hsame₁.trans hsame₂, fun ht => ht₂ (ht₁ ht)⟩
  · rcases h.new with hn | ⟨job, hck, row₁, ha, hkey, hfree, hrow₁, hsame₁, hother⟩
    · exact .inl fun id hid => hnone id (hn id hid)
    · obtain ⟨row₂, hrow₂, hsame₂, -⟩ := h'.kept _ row₁ hrow₁
      exact .inr ⟨job, hck, row₂, ha, hkey, hfree, hrow₂, hsame₁.trans hsame₂,
        fun id hne hid => hnone id (hother id hne hid)⟩

/-- `dedupe_key` is unique. -/
def DedupeUnique (q : Queue) : Prop :=
  ∀ i j row row', q.jobs.get? i = some row → q.jobs.get? j = some row' →
    row.dedupeKey = row'.dedupeKey → i = j

theorem mem_dedupeKeys {key : String} :
    key ∈ q.dedupeKeys ↔ ∃ id row, q.jobs.get? id = some row ∧ row.dedupeKey = key := by
  simp only [Queue.dedupeKeys, List.mem_map, Dict.mem_values]
  constructor
  · rintro ⟨row, ⟨id, hrow⟩, hkey⟩
    exact ⟨id, row, hrow, hkey⟩
  · rintro ⟨id, row, hrow, hkey⟩
    exact ⟨row, ⟨id, hrow⟩, hkey⟩

/-- A row of the grown queue was there, or is the one that was inserted. -/
theorem Grows.cases (h : Grows Admitted q q') {id : String} {row' : JobRow}
    (hrow' : q'.jobs.get? id = some row') :
    (∃ row, q.jobs.get? id = some row ∧ SameJob row row' ∧
      (row.status.terminal = true → row'.status.terminal = true)) ∨
    q.jobs.get? id = none ∧ ∃ job hck, Admitted job ∧ job.dedupeKey ∉ q.dedupeKeys ∧
      SameJob (job.row hck) row' := by
  cases hrow : q.jobs.get? id with
  | some row =>
    obtain ⟨row₁, hrow₁, hsame, ht⟩ := h.kept id row hrow
    rw [hrow'] at hrow₁
    cases hrow₁
    exact .inl ⟨row, rfl, hsame, ht⟩
  | none =>
    rcases h.new with hn | ⟨job, hck, row₁, ha, hkey, -, hrow₁, hsame, hother⟩
    · rw [hn id hrow] at hrow'
      cases hrow'
    · by_cases hid : id = job.jobId
      · subst hid
        rw [hrow'] at hrow₁
        cases hrow₁
        exact .inr ⟨rfl, job, hck, ha, hkey, hsame⟩
      · rw [hother id hid hrow] at hrow'
        cases hrow'

/-- One job at most is new. -/
theorem Grows.new_unique (h : Grows Admitted q q') {i j : String} {row row' : JobRow}
    (hi : q.jobs.get? i = none) (hj : q.jobs.get? j = none) (hrow : q'.jobs.get? i = some row)
    (hrow' : q'.jobs.get? j = some row') : i = j := by
  rcases h.new with hn | ⟨job, _, _, _, _, _, _, _, hother⟩
  · rw [hn i hi] at hrow
    cases hrow
  · have hall : ∀ id r, q.jobs.get? id = none → q'.jobs.get? id = some r → id = job.jobId := by
      intro id r hid hr
      by_contra hne
      rw [hother id hne hid] at hr
      cases hr
    rw [hall i row hi hrow, hall j row' hj hrow']

theorem DedupeUnique.grows (hq : DedupeUnique q) (h : Grows Admitted q q') : DedupeUnique q' := by
  intro i j row row' hrow hrow' hkey
  rcases h.cases hrow with ⟨row₁, hrow₁, hsame₁, -⟩ | ⟨hi, job, hck, -, hfree, hsame₁⟩ <;>
    rcases h.cases hrow' with ⟨row₂, hrow₂, hsame₂, -⟩ | ⟨hj, job', hck', -, hfree', hsame₂⟩
  · exact hq i j row₁ row₂ hrow₁ hrow₂ (by rw [← hsame₁.dedupeKey, hkey, hsame₂.dedupeKey])
  · exact absurd (mem_dedupeKeys.mpr ⟨i, row₁, hrow₁,
      by rw [← hsame₁.dedupeKey, hkey, hsame₂.dedupeKey]; rfl⟩) hfree'
  · exact absurd (mem_dedupeKeys.mpr ⟨j, row₂, hrow₂,
      by rw [← hsame₂.dedupeKey, ← hkey, hsame₁.dedupeKey]; rfl⟩) hfree
  · exact h.new_unique hi hj hrow hrow'

end LearningOrbit.Jobs
