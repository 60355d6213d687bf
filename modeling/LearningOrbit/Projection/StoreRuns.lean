import LearningOrbit.Digest
import LearningOrbit.Projection.Store

/-!
# Runs of the projection store

Whatever is persisted, in whatever order and from whatever epochs, the versions
of an epoch stay gap free, rows stay as they were written and the head names a
row. A head moves forward by one version, or to version 1 of an epoch that is
not its own; this is what makes a retry harmless while the epoch is current.
-/

namespace LearningOrbit.Projection

open LearningOrbit (Dict)

variable {α β : Type} {F : Formats α β} {t t' : Tables α β} {call : Call α β}

/-! ## What a call does -/

theorem validateSnapshot_ok {snapshot : Snapshot α} {payloadHash : String}
    (h : validateSnapshot F snapshot payloadHash = .ok ()) :
    Uuid.canonical snapshot.roomId = some snapshot.rowKey.roomId ∧
      Uuid.canonical snapshot.analysisEpoch = some snapshot.rowKey.analysisEpoch ∧
      1 ≤ snapshot.projectionVersion ∧
      snapshot.projectionVersion = snapshot.baseVersion + 1 := by
  unfold validateSnapshot at h
  split at h
  · cases h
  · rename_i hv
    simp only [not_or, Int.not_lt, ne_eq, not_not, Option.isNone_iff_eq_none] at hv
    obtain ⟨-, hroom, hepoch, -, hversion, -, hbase, -⟩ := hv
    obtain ⟨room, hroom⟩ := Option.ne_none_iff_exists'.mp hroom
    obtain ⟨epoch, hepoch⟩ := Option.ne_none_iff_exists'.mp hepoch
    exact ⟨by simp [Snapshot.rowKey, hroom], by simp [Snapshot.rowKey, hepoch], hversion, hbase⟩

theorem validateSnapshot_schema {snapshot : Snapshot α} {payloadHash : String}
    (h : validateSnapshot F snapshot payloadHash = .ok ()) : F.schema snapshot = true := by
  unfold validateSnapshot at h
  split at h
  · cases h
  · rename_i hv
    simpa using fun hs => hv (.inl hs)

theorem validatePatch_ok {snapshot : Snapshot α} {patch : Patch β} {patchHash : Option String}
    (h : validatePatch F snapshot (some patch) patchHash = .ok ()) :
    patch.projectionVersion = snapshot.projectionVersion ∧
      patch.baseVersion = snapshot.baseVersion ∧
      patch.completeThroughRoomSeq = snapshot.completeThroughRoomSeq := by
  simp only [validatePatch] at h
  split at h
  · cases h
  · rename_i hv
    simp only [not_or, ne_eq, not_not] at hv
    tauto

/-- The snapshot row under the key of a call, after the insert: a new one, or one that agrees. -/
theorem insertSnapshot_ok {id : String} (h : insertSnapshot F t call = .ok (t', id)) :
    ∃ row, t'.snapshots.get? call.snapshot.rowKey = some row ∧ row.snapshotId = id ∧
      (∀ k ≠ call.snapshot.rowKey, t'.snapshots.get? k = t.snapshots.get? k) ∧
      (t.snapshots.get? call.snapshot.rowKey = none ∧ row = snapshotRow F call ∧
          (∀ other ∈ t.snapshots.values, other.snapshotId ≠ call.snapshotId) ∨
        t.snapshots.get? call.snapshot.rowKey = some row ∧
          existingSnapshotMatches F (some row) call.snapshot call.payloadHash) ∧
      t'.patches = t.patches ∧ t'.heads = t.heads ∧ t'.outbox = t.outbox := by
  unfold insertSnapshot at h
  cases hrow : t.snapshots.get? call.snapshot.rowKey with
  | some row =>
    rw [hrow] at h
    dsimp only at h
    split at h
    · rename_i hm
      cases h
      exact ⟨row, hrow, rfl, fun _ _ => rfl, .inr ⟨rfl, hm⟩, rfl, rfl, rfl⟩
    · cases h
  | none =>
    rw [hrow] at h
    dsimp only at h
    split at h
    · cases h
    · rename_i hfresh
      cases h
      refine ⟨snapshotRow F call, Dict.get?_set_self .., rfl, ?_, .inl ⟨rfl, rfl, ?_⟩, rfl, rfl, rfl⟩
      · exact fun k hk => Dict.get?_set_of_ne _ _ hk
      · intro other hother he
        exact hfresh (List.any_eq_true.mpr ⟨other, hother, by simpa using he⟩)

/-- The patch row under the key of a call, after the insert. -/
theorem insertPatch_ok (h : insertPatch F t call = .ok t') :
    (∀ k ≠ call.snapshot.rowKey, t'.patches.get? k = t.patches.get? k) ∧
      (∀ row, t.patches.get? call.snapshot.rowKey = some row →
        t'.patches.get? call.snapshot.rowKey = some row) ∧
      (∀ patch, call.patch = some patch → ∃ row,
        t'.patches.get? call.snapshot.rowKey = some row ∧
          (row = patchRow F call.snapshot patch ∨
            existingPatchMatches F (some row) call.snapshot patch)) ∧
      (∀ row, t'.patches.get? call.snapshot.rowKey = some row →
        t.patches.get? call.snapshot.rowKey = some row ∨
          ∃ patch, call.patch = some patch ∧ row = patchRow F call.snapshot patch) ∧
      t'.snapshots = t.snapshots ∧ t'.heads = t.heads ∧ t'.outbox = t.outbox := by
  unfold insertPatch at h
  cases hp : call.patch with
  | none =>
    rw [hp] at h
    cases h
    exact ⟨fun _ _ => rfl, fun _ h => h, nofun, fun _ h => .inl h, rfl, rfl, rfl⟩
  | some patch =>
    rw [hp] at h
    dsimp only at h
    cases hrow : t.patches.get? call.snapshot.rowKey with
    | some row =>
      rw [hrow] at h
      dsimp only at h
      split at h
      · rename_i hm
        cases h
        refine ⟨fun _ _ => rfl, fun _ h => hrow.trans h, ?_, fun _ h => .inl (hrow.symm.trans h),
          rfl, rfl, rfl⟩
        rintro _ ⟨⟩
        exact ⟨row, hrow, .inr hm⟩
      · cases h
    | none =>
      rw [hrow] at h
      cases h
      refine ⟨fun k hk => Dict.get?_set_of_ne _ _ hk, nofun, ?_, ?_, rfl, rfl, rfl⟩
      · rintro _ ⟨⟩
        exact ⟨_, Dict.get?_set_self .., .inl rfl⟩
      · intro row hr
        rw [Dict.get?_set_self] at hr
        cases hr
        exact .inr ⟨patch, rfl, rfl⟩

theorem advanceHead_ok {snapshot : Snapshot α} {read : HeadRow} {id : String}
    (h : advanceHead F t snapshot read id = .ok t') :
    t' = { t with heads := t.heads.set snapshot.rowKey.head (headRow F snapshot id) } := by
  unfold advanceHead at h
  split at h
  · cases h
  · split at h
    · cases h
    · cases h; rfl

/-- The rows that stand after a call has installed its version over `t`. -/
structure Installed (F : Formats α β) (t : Tables α β) (call : Call α β) (t' : Tables α β) :
    Prop where
  snapshot : ∃ row, t'.snapshots.get? call.snapshot.rowKey = some row ∧
    t'.heads.get? call.snapshot.rowKey.head = some (headRow F call.snapshot row.snapshotId) ∧
    (t.snapshots.get? call.snapshot.rowKey = none ∧ row = snapshotRow F call ∧
        (∀ other ∈ t.snapshots.values, other.snapshotId ≠ call.snapshotId) ∨
      t.snapshots.get? call.snapshot.rowKey = some row ∧
        existingSnapshotMatches F (some row) call.snapshot call.payloadHash)
  otherSnapshots : ∀ k ≠ call.snapshot.rowKey, t'.snapshots.get? k = t.snapshots.get? k
  patch : ∀ patch, call.patch = some patch → ∃ row,
    t'.patches.get? call.snapshot.rowKey = some row ∧
      (row = patchRow F call.snapshot patch ∨
        existingPatchMatches F (some row) call.snapshot patch)
  keptPatch : ∀ row, t.patches.get? call.snapshot.rowKey = some row →
    t'.patches.get? call.snapshot.rowKey = some row
  newPatch : ∀ row, t'.patches.get? call.snapshot.rowKey = some row →
    t.patches.get? call.snapshot.rowKey = some row ∨
      ∃ patch, call.patch = some patch ∧ row = patchRow F call.snapshot patch
  otherPatches : ∀ k ≠ call.snapshot.rowKey, t'.patches.get? k = t.patches.get? k
  otherHeads : ∀ k ≠ call.snapshot.rowKey.head, t'.heads.get? k = t.heads.get? k

theorem install_ok {head : HeadRow} (h : install F t call head = .ok t') :
    Installed F t call t' := by
  unfold install at h
  obtain ⟨⟨t₁, id⟩, h₁, h⟩ := bind_eq_ok.mp h
  obtain ⟨t₂, h₂, h⟩ := bind_eq_ok.mp h
  obtain ⟨t₃, h₃, h⟩ := bind_eq_ok.mp h
  cases h
  obtain ⟨row, hrow, rfl, hother, hcases, hp₁, hh₁, -⟩ := insertSnapshot_ok h₁
  obtain ⟨hpother, hpkept, hpnew, hpold, hs₂, hh₂, -⟩ := insertPatch_ok h₂
  have h₃ := advanceHead_ok h₃
  subst h₃
  rw [← hs₂] at hrow hother
  rw [hp₁] at hpother hpkept hpold
  refine ⟨⟨row, hrow, ?_, hcases⟩, hother, hpnew, hpkept, hpold, hpother, fun k hk => ?_⟩
  · exact Dict.get?_set_self ..
  · simp only [insertOutbox]
    rw [Dict.get?_set_of_ne _ _ hk, hh₂, hh₁]

/-- What a call that returns has done: it found its version stored, or installed it. -/
inductive Returned (F : Formats α β) (t : Tables α β) (call : Call α β) : Tables α β → Prop
  | confirmed (head : HeadRow) (hhead : t.heads.get? call.snapshot.rowKey.head = some head)
      (hversion : call.snapshot.projectionVersion ≤ existingVersion head call.snapshot)
      (hstored : confirmStored F t call = .ok ()) : Returned F t call t
  | installed (t' : Tables α β)
      (hnext : (t.heads.get? call.snapshot.rowKey.head = none ∧
          call.snapshot.projectionVersion = 1) ∨
        ∃ head, t.heads.get? call.snapshot.rowKey.head = some head ∧
          call.snapshot.projectionVersion = existingVersion head call.snapshot + 1)
      (hinstalled : Installed F t call t') : Returned F t call t'

theorem ensureHead_of_some {snapshot : Snapshot α} {head : HeadRow}
    (h : t.heads.get? snapshot.rowKey.head = some head) : ensureHead F t snapshot = t := by
  unfold ensureHead
  rw [Dict.setDefault_of_get? h]

/-- The head a call puts where there is none is at version 0. -/
theorem ensureHead_of_none {snapshot : Snapshot α}
    (h : t.heads.get? snapshot.rowKey.head = none) :
    ensureHead F t snapshot =
      { t with heads := t.heads.set snapshot.rowKey.head (initialHead F snapshot) } := by
  unfold ensureHead
  rw [Dict.setDefault_of_none h]

theorem existingVersion_initialHead (snapshot : Snapshot α) :
    existingVersion (initialHead F snapshot) snapshot = 0 := by
  unfold existingVersion initialHead
  split <;> rfl

/-- A call that has a head to read returns by one of two branches. -/
theorem persistAndAdvance_of_head {head : HeadRow}
    (hsnapshot : validateSnapshot F call.snapshot call.payloadHash = .ok ())
    (hpatch : validatePatch F call.snapshot call.patch call.patchHash = .ok ())
    (hhead : (ensureHead F t call.snapshot).heads.get? call.snapshot.rowKey.head = some head) :
    persistAndAdvance F t call =
      if call.snapshot.projectionVersion ≤ existingVersion head call.snapshot then do
        confirmStored F (ensureHead F t call.snapshot) call
        return ensureHead F t call.snapshot
      else if existingVersion head call.snapshot + 1 ≠ call.snapshot.projectionVersion then
        .error "ANALYTICS_VERSION_CONFLICT"
      else install F (ensureHead F t call.snapshot) call head := by
  unfold persistAndAdvance
  rw [hsnapshot, hpatch]
  simp only [hhead, bind, Except.bind]

theorem persistAndAdvance_valid (h : persistAndAdvance F t call = .ok t') :
    validateSnapshot F call.snapshot call.payloadHash = .ok () ∧
      validatePatch F call.snapshot call.patch call.patchHash = .ok () := by
  unfold persistAndAdvance at h
  obtain ⟨⟨⟩, hsnapshot, h⟩ := bind_eq_ok.mp h
  obtain ⟨⟨⟩, hpatch, -⟩ := bind_eq_ok.mp h
  exact ⟨hsnapshot, hpatch⟩

theorem persistAndAdvance_returned (h : persistAndAdvance F t call = .ok t') :
    Returned F t call t' := by
  obtain ⟨hsnapshot, hpatch⟩ := persistAndAdvance_valid h
  obtain ⟨-, -, hpos, -⟩ := validateSnapshot_ok hsnapshot
  cases hhead : t.heads.get? call.snapshot.rowKey.head with
  | some head =>
    have hensure := ensureHead_of_some (F := F) hhead
    rw [persistAndAdvance_of_head hsnapshot hpatch (by rw [hensure]; exact hhead), hensure] at h
    split at h
    · rename_i hle
      obtain ⟨⟨⟩, hstored, h⟩ := bind_eq_ok.mp h
      cases h
      exact .confirmed head hhead hle hstored
    · split at h
      · cases h
      · rename_i hnext
        exact .installed t' (.inr ⟨head, hhead, (not_not.mp hnext).symm⟩) (install_ok h)
  | none =>
    have hensure := ensureHead_of_none (F := F) hhead
    rw [persistAndAdvance_of_head hsnapshot hpatch (by rw [hensure]; exact Dict.get?_set_self ..),
      existingVersion_initialHead, hensure] at h
    rw [if_neg (by omega)] at h
    split at h
    · cases h
    · rename_i hnext
      obtain ⟨hrow, hother, hp, hpkept, hpnew, hpother, hheads⟩ := install_ok h
      refine .installed t' (.inl ⟨hhead, by omega⟩)
        ⟨hrow, hother, hp, hpkept, hpnew, hpother, fun k hk => ?_⟩
      rw [hheads k hk, Dict.get?_set_of_ne _ _ hk]

/-! ## What every run keeps -/

/-- The persisted versions of every epoch are `1..m`. -/
def GapFree (t : Tables α β) : Prop :=
  ∀ room key epoch, ∃ m : Nat, ∀ version : Int,
    (t.snapshots.get? ⟨room, key, epoch, version⟩).isSome ↔ 1 ≤ version ∧ version ≤ m

/-- Every persisted patch starts at the version before its own. -/
def PatchesFollow (t : Tables α β) : Prop :=
  ∀ key row, t.patches.get? key = some row → row.baseVersion = key.version - 1

/-- Every head is at version 0 or names the persisted snapshot at its epoch and version. -/
def HeadsNamed (t : Tables α β) : Prop :=
  ∀ room key head, t.heads.get? (room, key) = some head → head.version = 0 ∨
    ∃ row, t.snapshots.get? ⟨room, key, head.analysisEpoch, head.version⟩ = some row ∧
      head.snapshotId = some row.snapshotId

/-- Heads hold the text of a uuid column. -/
def HeadsStored (t : Tables α β) : Prop :=
  ∀ k head, t.heads.get? k = some head → Uuid.Stored head.analysisEpoch

/-- Persisted snapshots and patches are the same rows later on. -/
def Kept (t t' : Tables α β) : Prop :=
  (∀ key row, t.snapshots.get? key = some row → t'.snapshots.get? key = some row) ∧
    ∀ key row, t.patches.get? key = some row → t'.patches.get? key = some row

structure Sound (t : Tables α β) : Prop where
  gapFree : GapFree t
  patches : PatchesFollow t
  heads : HeadsNamed t
  stored : HeadsStored t

theorem Installed.kept (h : Installed F t call t') : Kept t t' := by
  constructor
  · intro key row hrow
    by_cases hk : key = call.snapshot.rowKey
    · subst hk
      obtain ⟨row', hrow', -, ⟨hnone, -⟩ | ⟨hsome, -⟩⟩ := h.snapshot
      · rw [hnone] at hrow; cases hrow
      · rw [hsome] at hrow; cases hrow; exact hrow'
    · rw [h.otherSnapshots key hk]; exact hrow
  · intro key row hrow
    by_cases hk : key = call.snapshot.rowKey
    · subst hk; exact h.keptPatch row hrow
    · rw [h.otherPatches key hk]; exact hrow

theorem Returned.kept (h : Returned F t call t') : Kept t t' := by
  cases h with
  | confirmed => exact ⟨fun _ _ h => h, fun _ _ h => h⟩
  | installed _ _ hi => exact hi.kept

/-- A head holds the canonical form of an epoch, so a call that names it by the text of the head
has the head's epoch in its key. -/
theorem HeadsStored.rowKey_epoch {head : HeadRow} (hs : HeadsStored t)
    (hhead : t.heads.get? call.snapshot.rowKey.head = some head)
    (hepoch : Uuid.canonical call.snapshot.analysisEpoch =
      some call.snapshot.rowKey.analysisEpoch)
    (hsame : head.analysisEpoch = call.snapshot.analysisEpoch) :
    call.snapshot.rowKey.analysisEpoch = head.analysisEpoch := by
  have hstored : Uuid.canonical head.analysisEpoch = some head.analysisEpoch := hs _ _ hhead
  rw [hsame, hepoch] at hstored
  rw [hsame]
  exact Option.some.inj hstored

/-- The version a call installs is at most one past the versions of its epoch. -/
theorem install_next (hs : Sound t)
    (hnext : (t.heads.get? call.snapshot.rowKey.head = none ∧
        call.snapshot.projectionVersion = 1) ∨
      ∃ head, t.heads.get? call.snapshot.rowKey.head = some head ∧
        call.snapshot.projectionVersion = existingVersion head call.snapshot + 1)
    (hepoch : Uuid.canonical call.snapshot.analysisEpoch =
      some call.snapshot.rowKey.analysisEpoch)
    {m : Nat} (hm : ∀ version : Int, (t.snapshots.get?
      { call.snapshot.rowKey with version }).isSome ↔ 1 ≤ version ∧ version ≤ m) :
    call.snapshot.projectionVersion ≤ m + 1 := by
  rcases hnext with ⟨-, hone⟩ | ⟨head, hhead, hnext⟩
  · omega
  · unfold existingVersion at hnext
    split at hnext
    · omega
    · rename_i hsame
      rw [not_not] at hsame
      have hrow := hs.stored.rowKey_epoch hhead hepoch hsame
      rcases hs.heads _ _ head hhead with hzero | ⟨row, hnamed, -⟩
      · omega
      · have hle := (hm head.version).mp (by
          rw [show ({ call.snapshot.rowKey with version := head.version } : RowKey) =
            ⟨call.snapshot.rowKey.roomId, call.snapshot.rowKey.projectionKey, head.analysisEpoch,
              head.version⟩ by rw [← hrow], hnamed]
          rfl)
        omega

theorem Installed.gapFree (h : Installed F t call t') (hg : GapFree t)
    (hpos : 1 ≤ call.snapshot.projectionVersion)
    (hnext : ∀ m : Nat, (∀ version : Int, (t.snapshots.get?
      { call.snapshot.rowKey with version }).isSome ↔ 1 ≤ version ∧ version ≤ m) →
      call.snapshot.projectionVersion ≤ m + 1) : GapFree t' := by
  intro room key epoch
  obtain ⟨m, hm⟩ := hg room key epoch
  obtain ⟨row, hrow, -, hcases⟩ := h.snapshot
  by_cases hk : (⟨room, key, epoch, call.snapshot.rowKey.version⟩ : RowKey) = call.snapshot.rowKey
  · have hm' : ∀ version : Int, (t.snapshots.get?
        { call.snapshot.rowKey with version }).isSome ↔ 1 ≤ version ∧ version ≤ m := by
      intro version
      rw [← hk]
      exact hm version
    have hle := hnext m hm'
    -- Only the version of the call can be new, and it closes the range.
    have hstep (version : Int) : (t'.snapshots.get? ⟨room, key, epoch, version⟩).isSome ↔
        version = call.snapshot.projectionVersion ∨ 1 ≤ version ∧ version ≤ m := by
      by_cases hv : version = call.snapshot.projectionVersion
      · subst hv
        have : (⟨room, key, epoch, call.snapshot.projectionVersion⟩ : RowKey) =
          call.snapshot.rowKey := hk
        simp [this, hrow]
      · have hne : (⟨room, key, epoch, version⟩ : RowKey) ≠ call.snapshot.rowKey := by
          intro he
          exact hv (congrArg RowKey.version he)
        simp [h.otherSnapshots _ hne, hm version, hv]
    refine ⟨max m call.snapshot.projectionVersion.toNat, fun version => ?_⟩
    rw [hstep]
    omega
  · refine ⟨m, fun version => ?_⟩
    have hne : (⟨room, key, epoch, version⟩ : RowKey) ≠ call.snapshot.rowKey := by
      rintro he
      apply hk
      rw [← he]
    rw [h.otherSnapshots _ hne, hm version]

theorem Installed.patchesFollow (h : Installed F t call t') (hp : PatchesFollow t)
    (hsnapshot : validateSnapshot F call.snapshot call.payloadHash = .ok ())
    (hpatch : validatePatch F call.snapshot call.patch call.patchHash = .ok ()) :
    PatchesFollow t' := by
  intro key row hrow
  by_cases hk : key = call.snapshot.rowKey
  · subst hk
    rcases h.newPatch row hrow with hold | ⟨patch, hcall, rfl⟩
    · exact hp _ _ hold
    · rw [hcall] at hpatch
      obtain ⟨-, hbase, -⟩ := validatePatch_ok hpatch
      obtain ⟨-, -, -, hsucc⟩ := validateSnapshot_ok hsnapshot
      change patch.baseVersion = call.snapshot.projectionVersion - 1
      omega
  · rw [h.otherPatches key hk] at hrow
    exact hp key row hrow

theorem Installed.headsNamed (h : Installed F t call t') (hh : HeadsNamed t) : HeadsNamed t' := by
  intro room key head hhead
  by_cases hk : (room, key) = call.snapshot.rowKey.head
  · obtain ⟨row, hrow, hnew, -⟩ := h.snapshot
    rw [hk, hnew] at hhead
    cases hhead
    obtain ⟨hroom, hkey⟩ := Prod.mk.inj hk
    subst hroom hkey
    exact .inr ⟨row, hrow, rfl⟩
  · rw [h.otherHeads _ hk] at hhead
    rcases hh room key head hhead with hzero | ⟨row, hrow, hid⟩
    · exact .inl hzero
    · exact .inr ⟨row, h.kept.1 _ _ hrow, hid⟩

theorem Installed.headsStored (h : Installed F t call t') (hh : HeadsStored t)
    (hepoch : Uuid.canonical call.snapshot.analysisEpoch =
      some call.snapshot.rowKey.analysisEpoch) : HeadsStored t' := by
  intro k head hhead
  by_cases hk : k = call.snapshot.rowKey.head
  · obtain ⟨row, -, hnew, -⟩ := h.snapshot
    rw [hk, hnew] at hhead
    cases hhead
    exact Uuid.canonical_stored hepoch
  · rw [h.otherHeads k hk] at hhead
    exact hh k head hhead

theorem persistAndAdvance_sound (hs : Sound t) (h : persistAndAdvance F t call = .ok t') :
    Sound t' := by
  obtain ⟨hsnapshot, hpatch⟩ := persistAndAdvance_valid h
  obtain ⟨-, hepoch, hpos, -⟩ := validateSnapshot_ok hsnapshot
  cases persistAndAdvance_returned h with
  | confirmed => exact hs
  | installed _ hnext hi =>
    exact ⟨hi.gapFree hs.gapFree hpos fun m hm => install_next hs hnext hepoch hm,
      hi.patchesFollow hs.patches hsnapshot hpatch, hi.headsNamed hs.heads,
      hi.headsStored hs.stored hepoch⟩

theorem sound_empty : Sound (Tables.empty : Tables α β) where
  gapFree _ _ _ := ⟨0, fun version => by simp [Tables.empty]; omega⟩
  patches _ _ h := by cases h
  heads _ _ _ h := by cases h
  stored _ _ h := by cases h

theorem persistAll_sound (hs : Sound t) (calls : List (Call α β)) : Sound (persistAll F t calls) :=
  commitAll_invariant (fun _ _ _ hs h => persistAndAdvance_sound hs h) hs calls

theorem persistAll_kept (F : Formats α β) (t : Tables α β) (calls : List (Call α β)) :
    Kept t (persistAll F t calls) :=
  commitAll_rel (fun _ => ⟨fun _ _ h => h, fun _ _ h => h⟩)
    (fun _ _ _ h h' => ⟨fun k r hr => h'.1 k r (h.1 k r hr), fun k r hr => h'.2 k r (h.2 k r hr)⟩)
    (fun _ _ _ h => (persistAndAdvance_returned h).kept) t calls

/-! ## Retries -/

/-- The head stands at the epoch of a key. -/
def EpochCurrent (t : Tables α β) (key : RowKey) : Prop :=
  ∃ head, t.heads.get? key.head = some head ∧ head.analysisEpoch = key.analysisEpoch

instance (t : Tables α β) (key : RowKey) : Decidable (EpochCurrent t key) :=
  decidable_of_iff ((t.heads.get? key.head).map (·.analysisEpoch) = some key.analysisEpoch) (by
    simp only [EpochCurrent, Option.map_eq_some_iff])

/-- The head has reached a version of its epoch. -/
def Reached (t : Tables α β) (key : RowKey) : Prop :=
  ∃ head, t.heads.get? key.head = some head ∧ head.analysisEpoch = key.analysisEpoch ∧
    key.version ≤ head.version

/-- A head that has reached a version stands on the persisted row of every version up to it. -/
theorem Reached.row {key : RowKey} (hr : Reached t key) (hs : Sound t) (version : Int)
    (hv : 1 ≤ version) (hle : version ≤ key.version) :
    ∃ row, t.snapshots.get? { key with version } = some row := by
  obtain ⟨head, hhead, hepoch, hver⟩ := hr
  obtain ⟨m, hm⟩ := hs.gapFree key.roomId key.projectionKey key.analysisEpoch
  rcases hs.heads _ _ head hhead with hzero | ⟨row, hrow, -⟩
  · omega
  · rw [hepoch] at hrow
    have hmax := ((hm head.version).mp (by simp [hrow])).2
    exact Option.isSome_iff_exists.mp ((hm version).mpr ⟨hv, by omega⟩)

/-- A matching row was given under the text the columns print. -/
theorem existingSnapshotMatches_epoch {row : SnapshotRow α} {snapshot : Snapshot α}
    {payloadHash : String} (h : existingSnapshotMatches F (some row) snapshot payloadHash) :
    snapshot.rowKey.analysisEpoch = snapshot.analysisEpoch := by
  simp only [existingSnapshotMatches, Bool.and_eq_true, decide_eq_true_eq] at h
  tauto

/-- At an epoch the head stands at, a call installs the version after the head's. -/
theorem installed_after {head : HeadRow} (hs : Sound t)
    (hpos : 1 ≤ call.snapshot.projectionVersion)
    (hhead : t.heads.get? call.snapshot.rowKey.head = some head)
    (hepoch : head.analysisEpoch = call.snapshot.rowKey.analysisEpoch) (hone : 1 ≤ head.version)
    (hnext : call.snapshot.projectionVersion = existingVersion head call.snapshot + 1)
    (hi : Installed F t call t') : call.snapshot.projectionVersion = head.version + 1 := by
  unfold existingVersion at hnext
  split at hnext
  · rename_i hne
    have hr : Reached t { call.snapshot.rowKey with version := head.version } :=
      ⟨head, hhead, hepoch, Int.le_refl _⟩
    obtain ⟨old, hold⟩ := hr.row hs call.snapshot.projectionVersion hpos
      (show call.snapshot.projectionVersion ≤ head.version by omega)
    -- Version 1 of the epoch is persisted, so its text has been compared.
    obtain ⟨row, -, -, ⟨hnone, -⟩ | ⟨-, hmatch⟩⟩ := hi.snapshot
    · have : t.snapshots.get? call.snapshot.rowKey = some old := hold
      rw [hnone] at this
      cases this
    · exact absurd (hepoch.trans (existingSnapshotMatches_epoch hmatch)) hne
  · exact hnext

/-- A call for a version the head has reached leaves everything as it is. -/
theorem Reached.unchanged (hr : Reached t call.snapshot.rowKey) (hs : Sound t)
    (h : persistAndAdvance F t call = .ok t') : t' = t := by
  obtain ⟨hsnapshot, -⟩ := persistAndAdvance_valid h
  obtain ⟨-, -, hpos, -⟩ := validateSnapshot_ok hsnapshot
  obtain ⟨head, hhead, hepoch, hle⟩ := hr
  have hle : call.snapshot.projectionVersion ≤ head.version := hle
  cases persistAndAdvance_returned h with
  | confirmed => rfl
  | installed _ hnext hi =>
    rcases hnext with ⟨hnone, -⟩ | ⟨head', hhead', hnext⟩
    · rw [hhead] at hnone; cases hnone
    · rw [hhead] at hhead'
      cases hhead'
      have := installed_after hs hpos hhead hepoch (by omega) hnext hi
      omega

/-- After a call returns, the head has reached its version. -/
theorem persistAndAdvance_reached (hs : Sound t) (h : persistAndAdvance F t call = .ok t') :
    Reached t' call.snapshot.rowKey := by
  obtain ⟨hsnapshot, -⟩ := persistAndAdvance_valid h
  obtain ⟨-, hepoch, hpos, -⟩ := validateSnapshot_ok hsnapshot
  cases persistAndAdvance_returned h with
  | confirmed head hhead hversion _ =>
    unfold existingVersion at hversion
    split at hversion
    · omega
    · rename_i hsame
      rw [not_not] at hsame
      exact ⟨head, hhead, (hs.stored.rowKey_epoch hhead hepoch hsame).symm, hversion⟩
  | installed _ _ hi =>
    obtain ⟨row, -, hhead, -⟩ := hi.snapshot
    exact ⟨_, hhead, rfl, Int.le_refl _⟩

/-- A call that returned gave its epoch in the text of the column, or was the first version. -/
theorem persistAndAdvance_epoch (hs : Sound t) (h : persistAndAdvance F t call = .ok t') :
    call.snapshot.rowKey.analysisEpoch = call.snapshot.analysisEpoch ∨
      call.snapshot.projectionVersion = 1 := by
  obtain ⟨hsnapshot, -⟩ := persistAndAdvance_valid h
  obtain ⟨-, hepoch, hpos, -⟩ := validateSnapshot_ok hsnapshot
  have hread {head : HeadRow} (hhead : t.heads.get? call.snapshot.rowKey.head = some head) :
      call.snapshot.rowKey.analysisEpoch = call.snapshot.analysisEpoch ∨
        existingVersion head call.snapshot = 0 := by
    unfold existingVersion
    split
    · exact .inr rfl
    · rename_i hsame
      rw [not_not] at hsame
      exact .inl ((hs.stored.rowKey_epoch hhead hepoch hsame).trans hsame)
  cases persistAndAdvance_returned h with
  | confirmed head hhead hversion _ =>
    rcases hread hhead with heq | hzero
    · exact .inl heq
    · omega
  | installed _ hnext _ =>
    rcases hnext with ⟨-, hone⟩ | ⟨head, hhead, hnext⟩
    · exact .inr hone
    · rcases hread hhead with heq | hzero
      · exact .inl heq
      · exact .inr (by omega)

/-- While the epoch stays current, the head does not fall behind a version it has reached. -/
theorem Reached.step {key : RowKey} (hr : Reached t key) (hs : Sound t) (hkey : 1 ≤ key.version)
    (h : persistAndAdvance F t call = .ok t') (hc : EpochCurrent t' key) : Reached t' key := by
  obtain ⟨hsnapshot, -⟩ := persistAndAdvance_valid h
  obtain ⟨-, -, hpos, -⟩ := validateSnapshot_ok hsnapshot
  cases persistAndAdvance_returned h with
  | confirmed => exact hr
  | installed _ hnext hi =>
    obtain ⟨head, hhead, hepoch, hle⟩ := hr
    by_cases hk : key.head = call.snapshot.rowKey.head
    · obtain ⟨row, -, hnew, -⟩ := hi.snapshot
      obtain ⟨head', hhead', hepoch'⟩ := hc
      rw [hk, hnew] at hhead'
      cases hhead'
      have hepoch' : call.snapshot.rowKey.analysisEpoch = key.analysisEpoch := hepoch'
      rw [hk] at hhead
      rcases hnext with ⟨hnone, -⟩ | ⟨head', hhead', hnext⟩
      · rw [hhead] at hnone; cases hnone
      · rw [hhead] at hhead'
        cases hhead'
        have hsucc := installed_after hs hpos hhead (hepoch.trans hepoch'.symm) (by omega) hnext hi
        refine ⟨_, hk ▸ hnew, hepoch', ?_⟩
        change key.version ≤ call.snapshot.projectionVersion
        omega
    · exact ⟨head, by rw [hi.otherHeads _ hk]; exact hhead, hepoch, hle⟩

theorem Reached.run {key : RowKey} {calls : List (Call α β)} (hr : Reached t key) (hs : Sound t)
    (hkey : 1 ≤ key.version)
    (hc : ∀ done, done <+: calls → EpochCurrent (persistAll F t done) key) :
    Reached (persistAll F t calls) key := by
  induction calls generalizing t with
  | nil => exact hr
  | cons call calls ih =>
    have hnext : EpochCurrent (commit (persistAndAdvance F) t call) key :=
      hc [call] ⟨calls, rfl⟩
    have hrest (done : List (Call α β)) (hd : done <+: calls) :
        EpochCurrent (persistAll F (commit (persistAndAdvance F) t call) done) key :=
      hc (call :: done) (List.cons_prefix_cons.mpr ⟨rfl, hd⟩)
    change Reached (persistAll F (commit (persistAndAdvance F) t call) calls) key
    cases h : persistAndAdvance F t call with
    | error e =>
      rw [commit_of_error h] at hrest ⊢
      exact ih hr hs hrest
    | ok t' =>
      rw [commit_of_ok h] at hnext hrest ⊢
      exact ih (hr.step hs hkey h hnext) (persistAndAdvance_sound hs h) hrest

/-- What a call may do that has returned before. -/
def Retried (F : Formats α β) (t : Tables α β) (call : Call α β) : Prop :=
  persistAndAdvance F t call = .ok t ∨
    persistAndAdvance F t call = .error "ANALYTICS_SNAPSHOT_CONFLICT" ∨
    persistAndAdvance F t call = .error "ANALYTICS_PATCH_CONFLICT"

theorem confirmStored_cases (F : Formats α β) (t : Tables α β) (call : Call α β) :
    confirmStored F t call = .ok () ∨
      confirmStored F t call = .error "ANALYTICS_SNAPSHOT_CONFLICT" ∨
      confirmStored F t call = .error "ANALYTICS_PATCH_CONFLICT" := by
  unfold confirmStored
  split
  · exact .inr (.inl rfl)
  · split
    · exact .inl rfl
    · split
      · exact .inl rfl
      · exact .inr (.inr rfl)

theorem Reached.retried (hr : Reached t call.snapshot.rowKey) (hs : Sound t)
    (hsnapshot : validateSnapshot F call.snapshot call.payloadHash = .ok ())
    (hpatch : validatePatch F call.snapshot call.patch call.patchHash = .ok ())
    (hfirst : call.snapshot.rowKey.analysisEpoch = call.snapshot.analysisEpoch ∨
      call.snapshot.projectionVersion = 1) : Retried F t call := by
  obtain ⟨-, -, hpos, -⟩ := validateSnapshot_ok hsnapshot
  obtain ⟨old, hold⟩ := hr.row hs call.snapshot.projectionVersion hpos (Int.le_refl _)
  obtain ⟨head, hhead, hepoch, hle⟩ := hr
  have hle : call.snapshot.projectionVersion ≤ head.version := hle
  have hensure := ensureHead_of_some (F := F) hhead
  unfold Retried
  rw [persistAndAdvance_of_head hsnapshot hpatch (by rw [hensure]; exact hhead), hensure]
  by_cases hsame : head.analysisEpoch = call.snapshot.analysisEpoch
  · have hversion : existingVersion head call.snapshot = head.version :=
      if_neg (not_not.mpr hsame)
    rw [hversion, if_pos hle]
    rcases confirmStored_cases F t call with hok | hsc | hpc
    · left; rw [hok]; rfl
    · right; left; rw [hsc]; rfl
    · right; right; rw [hpc]; rfl
  · -- The epoch came in another spelling: the stored row never agrees with it.
    have hne : call.snapshot.rowKey.analysisEpoch ≠ call.snapshot.analysisEpoch :=
      fun he => hsame (hepoch.trans he)
    have hone := hfirst.resolve_left hne
    have hversion : existingVersion head call.snapshot = 0 := if_pos hsame
    rw [hversion, if_neg (by omega), if_neg (by omega)]
    right; left
    have hmatch : existingSnapshotMatches F (some old) call.snapshot call.payloadHash = false := by
      by_contra hm
      exact hne (existingSnapshotMatches_epoch (by simpa using hm))
    have hold : t.snapshots.get? call.snapshot.rowKey = some old := hold
    unfold install insertSnapshot
    simp [hold, hmatch, bind, Except.bind]

/-- Over every sequence of calls: versions without gap, patches that follow, heads that name a
row, rows that never change, and retries that change nothing while their epoch stays current. -/
theorem persistAll_keeps (F : Formats α β) (calls : List (Call α β)) :
    GapFree (persistAll F .empty calls) ∧ PatchesFollow (persistAll F .empty calls) ∧
    HeadsNamed (persistAll F .empty calls) ∧
    (∀ later, Kept (persistAll F .empty calls) (persistAll F .empty (calls ++ later))) ∧
    ∀ call t' later, persistAndAdvance F (persistAll F .empty calls) call = .ok t' →
      (∀ done, done <+: later → EpochCurrent (persistAll F t' done) call.snapshot.rowKey) →
      Retried F (persistAll F t' later) call ∧
      ∀ again t'', again.snapshot.rowKey = call.snapshot.rowKey →
        persistAndAdvance F (persistAll F t' later) again = .ok t'' →
        t'' = persistAll F t' later := by
  have hs : Sound (persistAll F .empty calls) := persistAll_sound sound_empty calls
  refine ⟨hs.gapFree, hs.patches, hs.heads, ?_, ?_⟩
  · intro later
    unfold persistAll
    rw [commitAll_append]
    exact persistAll_kept F _ later
  · intro call t' later hcall hcurrent
    obtain ⟨hsnapshot, hpatch⟩ := persistAndAdvance_valid hcall
    obtain ⟨-, -, hpos, -⟩ := validateSnapshot_ok hsnapshot
    have hs' := persistAndAdvance_sound hs hcall
    have hr := (persistAndAdvance_reached hs hcall).run hs' hpos hcurrent
    have hlater : Sound (persistAll F t' later) := persistAll_sound hs' later
    constructor
    · exact hr.retried hlater hsnapshot hpatch (persistAndAdvance_epoch hs hcall)
    · intro again t'' hkey hagain
      exact (hkey ▸ hr : Reached _ again.snapshot.rowKey).unchanged hlater hagain

/-- Payloads and patch bodies as canonical JSON text, with the hashes of the worker. -/
def jsonFormats : Formats String String where
  schema _ := true
  patchShape _ _ := true
  payloadHash := Digest.sha256Hex
  patchHash patch := Digest.sha256Hex patch.body
  bodyHash := Digest.sha256Hex
  warningsHash warnings :=
    Digest.sha256Hex ("[" ++ ",".intercalate (warnings.map fun w => "\"" ++ w ++ "\"") ++ "]")
  timestampText := id
  samePayload := (· = ·)
  sameBody := (· = ·)

def emptyMap : String := "\x7b\"edges\":[],\"nodes\":[]\x7d"

/-- A teacher map without nodes, at a version of an epoch. -/
def emptyMapCall (epoch : String) (version : Int) (snapshotId : String) : Call String String where
  snapshot :=
    { roomId := "11111111-1111-4111-8111-111111111111"
      projectionKey := "echo.teacher_shadow"
      analysisEpoch := epoch
      algorithmVersion := "echo-cm-reference-v1.1+adapter-v1"
      parameterHash := Digest.sha256Hex "parameters"
      projectionVersion := version
      baseVersion := version - 1
      completeThroughRoomSeq := version
      watermarkEventTime := "2026-01-01T00:00:00Z"
      requiresReplay := false
      warnings := []
      payload := emptyMap }
  payloadHash := Digest.sha256Hex emptyMap
  patch := none
  patchHash := none
  snapshotId := snapshotId

def firstCall : Call String String :=
  emptyMapCall "22222222-2222-5222-8222-222222222222" 1 "44444444-4444-4444-8444-444444444441"

def secondCall : Call String String :=
  emptyMapCall "22222222-2222-5222-8222-222222222222" 2 "44444444-4444-4444-8444-444444444442"

def replayCall : Call String String :=
  emptyMapCall "33333333-3333-5333-8333-333333333333" 1 "44444444-4444-4444-8444-444444444443"

/-- Where the head of a call's projection stands. -/
def headAt (t : Tables α β) (call : Call α β) : Option (String × Int) :=
  (t.heads.get? call.snapshot.rowKey.head).map fun head => (head.analysisEpoch, head.version)

/-- The room goes on to another epoch and a retry of the first call takes it back. A retry of the
second call, whose epoch is then current again, moves the head to its version once more. -/
theorem retry_moves_head :
    persistAndAdvance jsonFormats (persistAll jsonFormats .empty [firstCall]) secondCall =
        .ok (persistAll jsonFormats .empty [firstCall, secondCall]) ∧
      headAt (persistAll jsonFormats .empty [firstCall, secondCall]) secondCall =
        some (secondCall.snapshot.analysisEpoch, 2) ∧
      headAt (persistAll jsonFormats .empty [firstCall, secondCall, replayCall, firstCall])
        secondCall = some (secondCall.snapshot.analysisEpoch, 1) ∧
      headAt (persistAll jsonFormats .empty
        [firstCall, secondCall, replayCall, firstCall, secondCall]) secondCall =
          some (secondCall.snapshot.analysisEpoch, 2) ∧
      ¬ Retried jsonFormats
        (persistAll jsonFormats .empty [firstCall, secondCall, replayCall]) firstCall ∧
      ¬ Retried jsonFormats
        (persistAll jsonFormats .empty [firstCall, secondCall, replayCall, firstCall])
        secondCall := by
  unfold Retried
  decide +kernel

/-- A retry of the first call after the second one. -/
theorem persistAll_keeps_retry :
    Retried jsonFormats (persistAll jsonFormats (persistAll jsonFormats .empty [firstCall])
      [secondCall]) firstCall := by
  have hfirst : persistAndAdvance jsonFormats (persistAll jsonFormats .empty []) firstCall =
      .ok (persistAll jsonFormats .empty [firstCall]) := by
    decide +kernel
  have hcurrent (done : List (Call String String)) (hd : done <+: [secondCall]) :
      EpochCurrent (persistAll jsonFormats (persistAll jsonFormats .empty [firstCall]) done)
        firstCall.snapshot.rowKey := by
    have hpre : done = [] ∨ done = [secondCall] := by
      rcases List.prefix_cons_iff.mp hd with rfl | ⟨rest, rfl, hrest⟩
      · exact .inl rfl
      · rw [List.prefix_nil] at hrest
        exact .inr (by rw [hrest])
    rcases hpre with rfl | rfl <;> decide +kernel
  exact ((persistAll_keeps jsonFormats []).2.2.2.2 firstCall _ [secondCall] hfirst hcurrent).1

end LearningOrbit.Projection
