import LearningOrbit.Projection.Reads

/-!
# The second writer

`persistProjection` writes the projection tables from the server, as `persist_and_advance` does
from the worker. It takes the version of the head for the version to follow whatever the epoch is,
and it compares with what is stored by its own hashes.
-/

namespace LearningOrbit.Projection.AnalyticsRepository

open LearningOrbit (Dict)

/-- What the writer takes from outside: the hash of a JSON value, and what reaches a `jsonb` column
when the driver is given an array of strings, if the column accepts it. -/
structure WriteFormats (α β : Type) extends ReadFormats α β where
  payloadHash : α → String
  bodyHash : β → String
  jsonbArray : List String → Option (List String)

structure ProjectionInput (α β : Type) where
  snapshot : ProjectionRow α
  patch : Option (PatchRow β)
  snapshotUrl : String

/-- The key of a row's unique columns, in the text the uuid columns print. -/
def ProjectionRow.rowKey {γ : Type} (row : ProjectionRow γ) : RowKey where
  roomId := (Uuid.canonical row.roomId).getD row.roomId
  projectionKey := row.projectionKey
  analysisEpoch := (Uuid.canonical row.analysisEpoch).getD row.analysisEpoch
  version := row.version

section

variable {α β : Type} (F : Formats α β) (W : WriteFormats α β)

/-- The checks of `persistProjection` on its input. -/
def checkInput (input : ProjectionInput α β) : Except String Unit :=
  let snapshot := input.snapshot
  if snapshot.projectionKey ∉ projectionKeys ∨ snapshot.version < 1 ∨
      maxSafeInteger < snapshot.version ∨ snapshot.baseVersion ≠ snapshot.version - 1 ∨
      !isSha256 snapshot.parameterHash ∨
      input.snapshotUrl ≠ "/v1/rooms/" ++ snapshot.roomId ++ "/analytics/" ++
        snapshot.projectionKey ++ "/latest" then .error corrupt
  else if !W.parseProjection snapshot then .error corrupt
  else
    match input.patch with
    | none => .ok ()
    | some patch =>
      if patch.roomId ≠ snapshot.roomId ∨ patch.projectionKey ≠ snapshot.projectionKey ∨
          patch.analysisEpoch ≠ snapshot.analysisEpoch ∨
          patch.baseVersion ≠ snapshot.baseVersion ∨ patch.version ≠ snapshot.version then
        .error corrupt
      else patchWire W.toReadFormats patch

/-- `assertPersistedSnapshot`, of the row under the key of the snapshot. -/
def persistedSnapshotMatches (row : SnapshotRow α) (snapshot : ProjectionRow α) : Bool :=
  (numberField row.completeThroughSeq).toOption = some snapshot.completeThroughRoomSeq &&
  (W.toISOString row.watermarkEventTime).isSome &&
  W.toISOString row.watermarkEventTime = W.toISOString snapshot.watermarkEventTime &&
  row.requiresReplay = snapshot.requiresReplay &&
  row.algorithmVersion = snapshot.algorithmVersion &&
  row.parameterHash = snapshot.parameterHash &&
  row.warningsSha256 = W.contentHash snapshot.warnings &&
  W.contentHash row.warnings = row.warningsSha256 &&
  row.contentSha256 = W.payloadHash snapshot.payload &&
  W.payloadHash row.payload = row.contentSha256

/-- What a patch row that is there already is asked for. -/
def persistedPatchMatches (row : Projection.PatchRow β) (patch : PatchRow β) : Bool :=
  row.contentSha256 = W.bodyHash patch.payload && W.bodyHash row.payload = row.contentSha256

def storedSnapshot (input : ProjectionInput α β) (warnings : List String) (snapshotId : String) :
    SnapshotRow α where
  snapshotId := snapshotId
  completeThroughSeq := input.snapshot.completeThroughRoomSeq
  watermarkEventTime := F.timestampText input.snapshot.watermarkEventTime
  requiresReplay := input.snapshot.requiresReplay
  algorithmVersion := input.snapshot.algorithmVersion
  parameterHash := input.snapshot.parameterHash
  warnings := warnings
  warningsSha256 := W.contentHash input.snapshot.warnings
  payload := input.snapshot.payload
  contentSha256 := W.payloadHash input.snapshot.payload

def storedPatch (patch : PatchRow β) : Projection.PatchRow β where
  baseVersion := patch.baseVersion
  completeThroughSeq := patch.completeThroughRoomSeq
  algorithmVersion := patch.algorithmVersion
  parameterHash := patch.parameterHash
  payload := patch.payload
  contentSha256 := W.bodyHash patch.payload

def storedHead (snapshot : ProjectionRow α) (snapshotId : String) : HeadRow where
  analysisEpoch := snapshot.rowKey.analysisEpoch
  version := snapshot.version
  completeThroughSeq := snapshot.completeThroughRoomSeq
  algorithmVersion := snapshot.algorithmVersion
  parameterHash := snapshot.parameterHash
  maxSeenEventTime := F.timestampText snapshot.watermarkEventTime
  watermarkEventTime := F.timestampText snapshot.watermarkEventTime
  requiresReplay := snapshot.requiresReplay
  snapshotId := some snapshotId

/-- The snapshot insert, `ON CONFLICT … DO NOTHING`, and the comparison after a conflict. -/
def insertSnapshot (t : Tables α β) (input : ProjectionInput α β) (snapshotId : String) :
    Except String (Tables α β) :=
  match W.jsonbArray input.snapshot.warnings with
  | none => .error "analysis_projection_snapshots.warnings"
  | some warnings =>
    match t.snapshots.get? input.snapshot.rowKey with
    | some row =>
      if persistedSnapshotMatches W row input.snapshot then .ok t else .error corrupt
    | none =>
      if t.snapshots.values.any (·.snapshotId = snapshotId) then
        .error "analysis_projection_snapshots_pkey"
      else .ok { t with
        snapshots := t.snapshots.set input.snapshot.rowKey
          (storedSnapshot F W input warnings snapshotId) }

/-- The patch insert, `ON CONFLICT … DO NOTHING`, and the comparison after a conflict. -/
def insertPatch (t : Tables α β) (input : ProjectionInput α β) : Except String (Tables α β) :=
  match input.patch with
  | none => .ok t
  | some patch =>
    match t.patches.get? patch.rowKey with
    | some row => if persistedPatchMatches W row patch then .ok t else .error corrupt
    | none => .ok { t with patches := t.patches.set patch.rowKey (storedPatch W patch) }

def currentVersion (t : Tables α β) (key : RowKey) : Except String Int :=
  match t.heads.get? key.head with
  | none => .ok 0
  | some head => numberField head.version

/-- The head upsert out of the snapshot row, and the outbox insert. -/
def advance (t : Tables α β) (input : ProjectionInput α β) : Tables α β :=
  { t with
    heads :=
      match t.snapshots.get? input.snapshot.rowKey with
      | none => t.heads
      | some row =>
        t.heads.set input.snapshot.rowKey.head (storedHead F input.snapshot row.snapshotId)
    outbox := t.outbox.setDefault input.snapshot.rowKey
      ⟨input.snapshot.completeThroughRoomSeq, input.snapshotUrl⟩ }

/-- `persistProjection`, with the id `gen_random_uuid()` yields for a new snapshot row. -/
def persistProjection (t : Tables α β) (input : ProjectionInput α β) (snapshotId : String) :
    Except String (Tables α β) := do
  checkInput W input
  let t ← insertSnapshot F W t input snapshotId
  let t ← insertPatch W t input
  let version ← currentVersion t input.snapshot.rowKey
  if version + 1 ≠ input.snapshot.version then
    if input.snapshot.version ≤ version then return t else .error corrupt
  else return advance F t input

end

/-! ## When the two agree -/

/-- One projection, as the worker and as the server pass it on. -/
structure SameProjection {α β : Type} (call : Call α β) (input : ProjectionInput α β) : Prop where
  roomId : input.snapshot.roomId = call.snapshot.roomId
  projectionKey : input.snapshot.projectionKey = call.snapshot.projectionKey
  analysisEpoch : input.snapshot.analysisEpoch = call.snapshot.analysisEpoch
  version : input.snapshot.version = call.snapshot.projectionVersion
  completeThroughRoomSeq :
    input.snapshot.completeThroughRoomSeq = call.snapshot.completeThroughRoomSeq
  watermarkEventTime : input.snapshot.watermarkEventTime = call.snapshot.watermarkEventTime
  algorithmVersion : input.snapshot.algorithmVersion = call.snapshot.algorithmVersion
  parameterHash : input.snapshot.parameterHash = call.snapshot.parameterHash
  requiresReplay : input.snapshot.requiresReplay = call.snapshot.requiresReplay
  warnings : input.snapshot.warnings = call.snapshot.warnings
  payload : input.snapshot.payload = call.snapshot.payload
  patch : input.patch.map (·.payload) = call.patch.map (·.body)

def HeadRow.position (head : HeadRow) : String × Int × Option String :=
  (head.analysisEpoch, head.version, head.snapshotId)

/-- The same heads, and rows under the same keys. -/
structure SameView {α β : Type} (t t' : Tables α β) : Prop where
  heads : ∀ k, (t.heads.get? k).map HeadRow.position = (t'.heads.get? k).map HeadRow.position
  snapshots : ∀ key, (t.snapshots.get? key).isSome = (t'.snapshots.get? key).isSome
  patches : ∀ key, (t.patches.get? key).isSome = (t'.patches.get? key).isSome
  outbox : ∀ key, (t.outbox.get? key).isSome = (t'.outbox.get? key).isSome

/-- Both calls fail, or both return with the same view. -/
def Agree {α β : Type} (x y : Except String (Tables α β)) : Prop :=
  match x, y with
  | .error _, .error _ => True
  | .ok t, .ok t' => SameView t t'
  | _, _ => False

section

variable {α β : Type} (F : Formats α β) (W : WriteFormats α β)

/-- What is stored under the key of a call is what the worker would store. -/
def Fits (t : Tables α β) (call : Call α β) : Prop :=
  (∀ row, t.snapshots.get? call.snapshot.rowKey = some row →
    existingSnapshotMatches F (some row) call.snapshot call.payloadHash = true) ∧
  ∀ patch row, call.patch = some patch → t.patches.get? call.snapshot.rowKey = some row →
    existingPatchMatches F (some row) call.snapshot patch = true

/-- The worker finds what it was given stored. -/
def Confirms (t : Tables α β) (call : Call α β) : Prop :=
  existingSnapshotMatches F (t.snapshots.get? call.snapshot.rowKey) call.snapshot
    call.payloadHash = true ∧
  ∀ patch, call.patch = some patch →
    existingPatchMatches F (t.patches.get? call.snapshot.rowKey) call.snapshot patch = true

/-- The database takes the rows of the server, and what is stored under their key is what the
server would store. -/
def Accepts (t : Tables α β) (input : ProjectionInput α β) : Prop :=
  (W.jsonbArray input.snapshot.warnings).isSome = true ∧
  (∀ row, t.snapshots.get? input.snapshot.rowKey = some row →
    persistedSnapshotMatches W row input.snapshot = true) ∧
  (∀ patch row, input.patch = some patch → t.patches.get? input.snapshot.rowKey = some row →
    persistedPatchMatches W row patch = true) ∧
  ∃ version, currentVersion t input.snapshot.rowKey = .ok version

/-- The head, if there is one, stands at the epoch of the call. -/
def SameEpoch (t : Tables α β) (call : Call α β) : Prop :=
  ∀ head, t.heads.get? call.snapshot.rowKey.head = some head →
    head.analysisEpoch = call.snapshot.analysisEpoch

/-- The version of the head, 0 without one. -/
def headVersion (t : Tables α β) (key : RowKey) : Int :=
  ((t.heads.get? key.head).map (·.version)).getD 0

/-- Unless the version leaves a gap to the head's, the comparisons of the two writers have to come
out alike; at another epoch they have to fail. -/
def Compatible (t : Tables α β) (call : Call α β) (input : ProjectionInput α β) : Prop :=
  call.snapshot.projectionVersion ≤ headVersion t call.snapshot.rowKey + 1 →
    (SameEpoch t call →
      (call.snapshot.projectionVersion ≤ headVersion t call.snapshot.rowKey →
        (Confirms F t call ↔ Accepts W t input)) ∧
      (call.snapshot.projectionVersion = headVersion t call.snapshot.rowKey + 1 →
        (Fits F t call ↔ Accepts W t input))) ∧
    (¬SameEpoch t call →
      ¬Accepts W t input ∧ (call.snapshot.projectionVersion = 1 → ¬Fits F t call))

end

/-! ## What each writer does -/

/-- Rows have been added under one key. -/
structure Wrote {α β : Type} (key : RowKey) (patched : Bool) (t t' : Tables α β) : Prop where
  snapshots : ∀ a, (t'.snapshots.get? a).isSome =
    (decide (a = key) || (t.snapshots.get? a).isSome)
  patches : ∀ a, (t'.patches.get? a).isSome =
    ((patched && decide (a = key)) || (t.patches.get? a).isSome)

section

variable {α β : Type} {F : Formats α β} {W : WriteFormats α β} {t t' : Tables α β}
  {call : Call α β} {input : ProjectionInput α β}

theorem SameProjection.rowKey (h : SameProjection call input) :
    input.snapshot.rowKey = call.snapshot.rowKey := by
  unfold ProjectionRow.rowKey Snapshot.rowKey
  rw [h.roomId, h.projectionKey, h.analysisEpoch, h.version]

/-- A patch that has been checked has the key of its snapshot. -/
theorem checkInput_patch {patch : PatchRow β} (h : checkInput W input = .ok ())
    (hp : input.patch = some patch) : patch.rowKey = input.snapshot.rowKey := by
  unfold checkInput at h
  dsimp only at h
  rw [hp] at h
  split at h
  · cases h
  split at h
  · cases h
  dsimp only at h
  split at h
  · cases h
  · rename_i hsame
    simp only [not_or, ne_eq, not_not] at hsame
    unfold ProjectionRow.rowKey
    rw [hsame.1, hsame.2.1, hsame.2.2.1, hsame.2.2.2.2]

/-- The id of the snapshot row under a key, or that of a new one. -/
def rowId (t : Tables α β) (key : RowKey) (snapshotId : String) : String :=
  ((t.snapshots.get? key).map (·.snapshotId)).getD snapshotId

theorem insertSnapshot_eq {snapshotId : String}
    (hfresh : ∀ row ∈ t.snapshots.values, row.snapshotId ≠ snapshotId) :
    (∃ e, insertSnapshot F W t input snapshotId = .error e) ∧
        ¬((W.jsonbArray input.snapshot.warnings).isSome = true ∧
          ∀ row, t.snapshots.get? input.snapshot.rowKey = some row →
            persistedSnapshotMatches W row input.snapshot = true) ∨
      ∃ row, insertSnapshot F W t input snapshotId =
          .ok { t with snapshots := t.snapshots.setDefault input.snapshot.rowKey row } ∧
        ((W.jsonbArray input.snapshot.warnings).isSome = true ∧
          ∀ row, t.snapshots.get? input.snapshot.rowKey = some row →
            persistedSnapshotMatches W row input.snapshot = true) ∧
        ((t.snapshots.setDefault input.snapshot.rowKey row).get? input.snapshot.rowKey).map
          (·.snapshotId) = some (rowId t input.snapshot.rowKey snapshotId) := by
  unfold insertSnapshot
  cases hwarnings : W.jsonbArray input.snapshot.warnings with
  | none => exact .inl ⟨⟨_, rfl⟩, by simp⟩
  | some warnings =>
    dsimp only
    cases hrow : t.snapshots.get? input.snapshot.rowKey with
    | some row =>
      dsimp only
      by_cases hmatch : persistedSnapshotMatches W row input.snapshot = true
      · rw [if_pos hmatch]
        refine .inr ⟨row, ?_, ⟨rfl, fun row' h => by cases h; exact hmatch⟩, ?_⟩
        · rw [Dict.setDefault_of_get? hrow]
        · rw [Dict.setDefault_of_get? hrow, hrow, rowId, hrow]
          rfl
      · rw [if_neg hmatch]
        exact .inl ⟨⟨_, rfl⟩, fun h => hmatch (h.2 row rfl)⟩
    | none =>
      dsimp only
      have hnew : ¬(t.snapshots.values.any (·.snapshotId = snapshotId)) = true := by
        simpa using hfresh
      rw [if_neg hnew]
      refine .inr ⟨storedSnapshot F W input warnings snapshotId, ?_, ⟨rfl, nofun⟩, ?_⟩
      · rw [Dict.setDefault_of_none hrow]
      · rw [Dict.setDefault_of_none hrow, Dict.get?_set_self, rowId, hrow]
        rfl

theorem insertPatch_eq (hkey : ∀ patch, input.patch = some patch →
    patch.rowKey = input.snapshot.rowKey) :
    (∃ e, insertPatch W t input = .error e) ∧
        ¬(∀ patch row, input.patch = some patch →
          t.patches.get? input.snapshot.rowKey = some row →
            persistedPatchMatches W row patch = true) ∨
      ∃ patches : Dict RowKey (Projection.PatchRow β),
        insertPatch W t input = .ok { t with patches } ∧
        (∀ patch row, input.patch = some patch →
          t.patches.get? input.snapshot.rowKey = some row →
            persistedPatchMatches W row patch = true) ∧
        ∀ a, (patches.get? a).isSome =
          ((input.patch.isSome && decide (a = input.snapshot.rowKey)) ||
            (t.patches.get? a).isSome) := by
  unfold insertPatch
  cases hpatch : input.patch with
  | none =>
    refine .inr ⟨t.patches, rfl, fun _ _ h => (by cases h), fun a => ?_⟩
    simp
  | some patch =>
    dsimp only
    rw [hkey patch hpatch]
    cases hrow : t.patches.get? input.snapshot.rowKey with
    | some row =>
      dsimp only
      by_cases hmatch : persistedPatchMatches W row patch = true
      · rw [if_pos hmatch]
        refine .inr ⟨t.patches, rfl, fun _ _ h h' => ?_, fun a => ?_⟩
        · cases h
          cases h'
          exact hmatch
        · by_cases ha : a = input.snapshot.rowKey <;> simp [ha, hrow]
      · rw [if_neg hmatch]
        exact .inl ⟨⟨_, rfl⟩, fun h => hmatch (h patch row rfl rfl)⟩
    | none =>
      refine .inr ⟨_, rfl, fun _ _ _ h => (by cases h), fun a => ?_⟩
      rw [Dict.get?_set]
      by_cases ha : a = input.snapshot.rowKey <;> simp [ha]

theorem currentVersion_ok {key : RowKey} {version : Int} (h : currentVersion t key = .ok version) :
    version = headVersion t key := by
  unfold currentVersion at h
  unfold headVersion
  cases hhead : t.heads.get? key.head with
  | none =>
    rw [hhead] at h
    cases h
    rfl
  | some head =>
    rw [hhead] at h
    exact (numberField_ok h).1

/-- The server refuses what it does not accept; else it writes the rows, and goes by the version of
the head. -/
theorem persistProjection_eq {snapshotId : String} (hvalid : checkInput W input = .ok ())
    (hfresh : ∀ row ∈ t.snapshots.values, row.snapshotId ≠ snapshotId) :
    (∃ e, persistProjection F W t input snapshotId = .error e) ∧ ¬Accepts W t input ∨
      Accepts W t input ∧ ∃ rows : Tables α β,
        Wrote input.snapshot.rowKey input.patch.isSome t rows ∧ rows.heads = t.heads ∧
        rows.outbox = t.outbox ∧
        (rows.snapshots.get? input.snapshot.rowKey).map (·.snapshotId) =
          some (rowId t input.snapshot.rowKey snapshotId) ∧
        persistProjection F W t input snapshotId =
          if headVersion t input.snapshot.rowKey + 1 ≠ input.snapshot.version then
            if input.snapshot.version ≤ headVersion t input.snapshot.rowKey then .ok rows
            else .error corrupt
          else .ok (advance F rows input) := by
  unfold persistProjection
  rw [hvalid]
  simp only [bind, Except.bind]
  rcases @insertSnapshot_eq α β F W t input snapshotId hfresh with
    ⟨⟨e, he⟩, hreject⟩ | ⟨row, hrow, haccept, hid⟩
  · rw [he]
    exact .inl ⟨⟨e, rfl⟩, fun h => hreject ⟨h.1, h.2.1⟩⟩
  rw [hrow]
  dsimp only
  rcases insertPatch_eq (t := { t with snapshots := t.snapshots.setDefault input.snapshot.rowKey row })
    (W := W) (fun patch => checkInput_patch hvalid) with ⟨⟨e, he⟩, hreject⟩ | ⟨patches, hp, hmatch, hkeys⟩
  · rw [he]
    exact .inl ⟨⟨e, rfl⟩, fun h => hreject h.2.2.1⟩
  rw [hp]
  dsimp only
  have hcurrent : currentVersion
      { t with snapshots := t.snapshots.setDefault input.snapshot.rowKey row, patches }
      input.snapshot.rowKey = currentVersion t input.snapshot.rowKey := rfl
  rw [hcurrent]
  cases hversion : currentVersion t input.snapshot.rowKey with
  | error e =>
    refine .inl ⟨⟨e, rfl⟩, fun h => ?_⟩
    obtain ⟨version, h⟩ := h.2.2.2
    rw [hversion] at h
    cases h
  | ok version =>
    have hhead := currentVersion_ok hversion
    subst hhead
    refine .inr ⟨⟨haccept.1, haccept.2, hmatch, _, hversion⟩,
      { t with snapshots := t.snapshots.setDefault input.snapshot.rowKey row, patches },
      ⟨fun a => Dict.isSome_setDefault, hkeys⟩, rfl, rfl, hid, rfl⟩

theorem worker_insertSnapshot_eq
    (hfresh : ∀ row ∈ t.snapshots.values, row.snapshotId ≠ call.snapshotId) :
    (∃ e, Projection.insertSnapshot F t call = .error e) ∧
        ¬(∀ row, t.snapshots.get? call.snapshot.rowKey = some row →
          existingSnapshotMatches F (some row) call.snapshot call.payloadHash = true) ∨
      (∀ row, t.snapshots.get? call.snapshot.rowKey = some row →
          existingSnapshotMatches F (some row) call.snapshot call.payloadHash = true) ∧
        ∃ row, Projection.insertSnapshot F t call =
          .ok ({ t with snapshots := t.snapshots.setDefault call.snapshot.rowKey row },
            rowId t call.snapshot.rowKey call.snapshotId) := by
  unfold Projection.insertSnapshot rowId
  cases hrow : t.snapshots.get? call.snapshot.rowKey with
  | some row =>
    dsimp only
    by_cases hmatch : existingSnapshotMatches F (some row) call.snapshot call.payloadHash = true
    · rw [if_pos hmatch]
      refine .inr ⟨fun row' h => (by cases h; exact hmatch), row, ?_⟩
      rw [Dict.setDefault_of_get? hrow]
      rfl
    · rw [if_neg hmatch]
      exact .inl ⟨⟨_, rfl⟩, fun h => hmatch (h row rfl)⟩
  | none =>
    have hnew : ¬(t.snapshots.values.any (·.snapshotId = call.snapshotId)) = true := by
      simpa using hfresh
    dsimp only
    rw [if_neg hnew]
    refine .inr ⟨fun _ h => (by cases h), snapshotRow F call, ?_⟩
    rw [Dict.setDefault_of_none hrow]
    rfl

theorem worker_insertPatch_eq :
    (∃ e, Projection.insertPatch F t call = .error e) ∧
        ¬(∀ patch row, call.patch = some patch →
          t.patches.get? call.snapshot.rowKey = some row →
            existingPatchMatches F (some row) call.snapshot patch = true) ∨
      (∀ patch row, call.patch = some patch → t.patches.get? call.snapshot.rowKey = some row →
          existingPatchMatches F (some row) call.snapshot patch = true) ∧
        ∃ patches : Dict RowKey (Projection.PatchRow β),
          Projection.insertPatch F t call = .ok { t with patches } ∧
          ∀ a, (patches.get? a).isSome =
            ((call.patch.isSome && decide (a = call.snapshot.rowKey)) ||
              (t.patches.get? a).isSome) := by
  unfold Projection.insertPatch
  cases hgiven : call.patch with
  | none =>
    refine .inr ⟨fun _ _ h => (by cases h), t.patches, rfl, fun a => ?_⟩
    simp
  | some patch =>
    dsimp only
    cases hrow : t.patches.get? call.snapshot.rowKey with
    | some row =>
      dsimp only
      by_cases hmatch : existingPatchMatches F (some row) call.snapshot patch = true
      · rw [if_pos hmatch]
        refine .inr ⟨fun _ _ h h' => ?_, t.patches, rfl, fun a => ?_⟩
        · cases h
          cases h'
          exact hmatch
        · by_cases ha : a = call.snapshot.rowKey <;> simp [ha, hrow]
      · rw [if_neg hmatch]
        exact .inl ⟨⟨_, rfl⟩, fun h => hmatch (h patch row rfl rfl)⟩
    | none =>
      refine .inr ⟨fun _ _ _ h => (by cases h), _, rfl, fun a => ?_⟩
      rw [Dict.get?_set]
      by_cases ha : a = call.snapshot.rowKey <;> simp [ha]

/-- What the worker leaves when it installs a version. -/
structure Advanced (F : Formats α β) (t : Tables α β) (call : Call α β) (t' : Tables α β) :
    Prop where
  wrote : Wrote call.snapshot.rowKey call.patch.isSome t t'
  heads : ∀ k, t'.heads.get? k = if k = call.snapshot.rowKey.head then
    some (headRow F call.snapshot (rowId t call.snapshot.rowKey call.snapshotId))
    else t.heads.get? k
  outbox : t'.outbox = t.outbox.setDefault call.snapshot.rowKey (outboxRow call.snapshot)

/-- The worker writes its rows and moves the head if what is stored fits. -/
theorem install_eq {head : HeadRow} (hhead : t.heads.get? call.snapshot.rowKey.head = some head)
    (hfresh : ∀ row ∈ t.snapshots.values, row.snapshotId ≠ call.snapshotId) :
    (∃ e, install F t call head = .error e) ∧ ¬Fits F t call ∨
      Fits F t call ∧ ∃ t', install F t call head = .ok t' ∧ Advanced F t call t' := by
  unfold install
  simp only [bind, Except.bind]
  rcases worker_insertSnapshot_eq (F := F) hfresh with ⟨⟨e, he⟩, hreject⟩ | ⟨hfits, row, hrow⟩
  · rw [he]
    exact .inl ⟨⟨e, rfl⟩, fun h => hreject h.1⟩
  rw [hrow]
  dsimp only
  rcases @worker_insertPatch_eq α β F
      { t with snapshots := t.snapshots.setDefault call.snapshot.rowKey row } call with
    ⟨⟨e, he⟩, hreject⟩ | ⟨hfits', patches, hp, hkeys⟩
  · rw [he]
    exact .inl ⟨⟨e, rfl⟩, fun h => hreject h.2⟩
  rw [hp]
  simp only [advanceHead, hhead, ne_eq, not_true_eq_false, or_self, ↓reduceIte]
  refine .inr ⟨⟨hfits, hfits'⟩, _, rfl, ⟨fun a => Dict.isSome_setDefault, hkeys⟩, fun k => ?_, rfl⟩
  exact Dict.get?_set ..

/-- The head a call reads, and the version it takes from it. -/
theorem ensureHead_read (F : Formats α β) (t : Tables α β) (call : Call α β) :
    ∃ head, (ensureHead F t call.snapshot).heads.get? call.snapshot.rowKey.head = some head ∧
      (SameEpoch t call →
        existingVersion head call.snapshot = headVersion t call.snapshot.rowKey) ∧
      (¬SameEpoch t call → existingVersion head call.snapshot = 0) := by
  unfold headVersion
  cases hhead : t.heads.get? call.snapshot.rowKey.head with
  | none =>
    rw [ensureHead_of_none hhead]
    exact ⟨initialHead F call.snapshot, Dict.get?_set_self .., fun _ => existingVersion_initialHead _,
      fun _ => existingVersion_initialHead _⟩
  | some head =>
    rw [ensureHead_of_some hhead]
    refine ⟨head, hhead, fun hsame => ?_, fun hother => ?_⟩
    · rw [existingVersion, if_neg (not_not.mpr (hsame head hhead))]
      rfl
    · have hne : head.analysisEpoch ≠ call.snapshot.analysisEpoch := by
        refine fun he => hother fun head' hhead' => ?_
        rw [hhead] at hhead'
        cases hhead'
        exact he
      rw [existingVersion, if_pos hne]

section

variable (hsnapshot : validateSnapshot F call.snapshot call.payloadHash = .ok ())
  (hpatch : validatePatch F call.snapshot call.patch call.patchHash = .ok ())

include hsnapshot hpatch

/-- A version the head has reached in its epoch is compared. -/
theorem worker_confirms (hsame : SameEpoch t call)
    (hle : call.snapshot.projectionVersion ≤ headVersion t call.snapshot.rowKey) :
    (∃ e, persistAndAdvance F t call = .error e) ∧ ¬Confirms F t call ∨
      Confirms F t call ∧ persistAndAdvance F t call = .ok t := by
  have hpos := (validateSnapshot_ok hsnapshot).2.2.1
  obtain ⟨head, hread, hexisting, -⟩ := ensureHead_read F t call
  have hensure : ensureHead F t call.snapshot = t := by
    cases hhead : t.heads.get? call.snapshot.rowKey.head with
    | none =>
      rw [headVersion, hhead] at hle
      have hle : call.snapshot.projectionVersion ≤ 0 := hle
      omega
    | some head' => exact ensureHead_of_some hhead
  rw [persistAndAdvance_of_head hsnapshot hpatch hread, hensure, hexisting hsame, if_pos hle]
  unfold confirmStored Confirms
  by_cases hmatch : existingSnapshotMatches F (t.snapshots.get? call.snapshot.rowKey)
    call.snapshot call.payloadHash = true
  · rw [if_neg (by simp [hmatch])]
    cases hgiven : call.patch with
    | none => exact .inr ⟨⟨hmatch, fun _ h => (by cases h)⟩, rfl⟩
    | some patch =>
      dsimp only
      by_cases hp : existingPatchMatches F (t.patches.get? call.snapshot.rowKey) call.snapshot
        patch = true
      · rw [if_pos hp]
        refine .inr ⟨⟨hmatch, fun _ h => ?_⟩, rfl⟩
        cases h
        exact hp
      · rw [if_neg hp]
        exact .inl ⟨⟨_, rfl⟩, fun h => hp (h.2 patch rfl)⟩
  · rw [if_pos (by simp [hmatch])]
    exact .inl ⟨⟨_, rfl⟩, fun h => hmatch h.1⟩

/-- The version the worker follows: that of the head, or none at another epoch. -/
theorem worker_installs
    (hfresh : ∀ row ∈ t.snapshots.values, row.snapshotId ≠ call.snapshotId)
    (hnext : (SameEpoch t call ∧
        call.snapshot.projectionVersion = headVersion t call.snapshot.rowKey + 1) ∨
      (¬SameEpoch t call ∧ call.snapshot.projectionVersion = 1)) :
    (∃ e, persistAndAdvance F t call = .error e) ∧ ¬Fits F t call ∨
      Fits F t call ∧ ∃ t', persistAndAdvance F t call = .ok t' ∧ Advanced F t call t' := by
  obtain ⟨head, hread, hsame, hother⟩ := ensureHead_read F t call
  have hexisting : call.snapshot.projectionVersion = existingVersion head call.snapshot + 1 := by
    rcases hnext with ⟨h, hv⟩ | ⟨h, hv⟩
    · rw [hsame h]
      exact hv
    · rw [hother h]
      exact hv
  rw [persistAndAdvance_of_head hsnapshot hpatch hread, if_neg (by omega), if_neg (by omega)]
  rcases install_eq (F := F) hread hfresh with hfail | ⟨hfits, t', ht', hwrote, hheads, houtbox⟩
  · exact .inl hfail
  · refine .inr ⟨hfits, t', ht', ⟨hwrote.snapshots, hwrote.patches⟩, fun k => ?_, houtbox⟩
    rw [hheads]
    by_cases hk : k = call.snapshot.rowKey.head
    · rw [if_pos hk, if_pos hk]
      rfl
    · rw [if_neg hk, if_neg hk]
      cases hhead : t.heads.get? call.snapshot.rowKey.head with
      | none =>
        rw [ensureHead_of_none hhead]
        exact Dict.get?_set_of_ne _ _ hk
      | some head' => rw [ensureHead_of_some hhead]

theorem worker_rejects
    (hgap : (SameEpoch t call ∧
        headVersion t call.snapshot.rowKey + 1 < call.snapshot.projectionVersion) ∨
      (¬SameEpoch t call ∧ call.snapshot.projectionVersion ≠ 1)) :
    ∃ e, persistAndAdvance F t call = .error e := by
  have hpos := (validateSnapshot_ok hsnapshot).2.2.1
  obtain ⟨head, hread, hsame, hother⟩ := ensureHead_read F t call
  have hexisting : existingVersion head call.snapshot + 1 < call.snapshot.projectionVersion := by
    rcases hgap with ⟨h, hv⟩ | ⟨h, hv⟩
    · rw [hsame h]
      exact hv
    · rw [hother h]
      omega
  rw [persistAndAdvance_of_head hsnapshot hpatch hread, if_neg (by omega), if_pos (by omega)]
  exact ⟨_, rfl⟩

end

/-! ## Every state the worker leaves -/

theorem persistAll_positive (F : Formats α β) (calls : List (Call α β)) :
    ∀ k head, (persistAll F .empty calls).heads.get? k = some head → 1 ≤ head.version := by
  refine commitAll_invariant (f := persistAndAdvance F)
    (P := fun t : Tables α β => ∀ k head, t.heads.get? k = some head → 1 ≤ head.version) ?_
    (fun _ _ h => (by cases h)) calls
  intro t call t' ht h k head hhead
  have hpos := (validateSnapshot_ok (persistAndAdvance_valid h).1).2.2.1
  cases persistAndAdvance_returned h with
  | confirmed => exact ht k head hhead
  | installed _ _ hi =>
    by_cases hk : k = call.snapshot.rowKey.head
    · subst hk
      obtain ⟨row, -, hnew, -⟩ := hi.snapshot
      rw [hnew] at hhead
      cases hhead
      exact hpos
    · rw [hi.otherHeads k hk] at hhead
      exact ht k head hhead

/-- At another epoch the key of a call that fits is not at the epoch of the head. -/
theorem Fits.epoch (hs : Sound t) (hpos : ∀ k head, t.heads.get? k = some head → 1 ≤ head.version)
    (hfits : Fits F t call) (hone : call.snapshot.projectionVersion = 1) {head : HeadRow}
    (hhead : t.heads.get? call.snapshot.rowKey.head = some head)
    (hother : head.analysisEpoch ≠ call.snapshot.analysisEpoch) :
    head.analysisEpoch ≠ call.snapshot.rowKey.analysisEpoch := by
  intro hsame
  have hreached : Reached t call.snapshot.rowKey :=
    ⟨head, hhead, hsame, hone.trans_le (hpos _ head hhead)⟩
  obtain ⟨row, hrow⟩ := hreached.row hs 1 (Int.le_refl 1) hone.ge
  rw [← hone] at hrow
  exact hother (hsame.trans (existingSnapshotMatches_epoch (hfits.1 row hrow)))

/-! ## The agreement, regime by regime -/

section

variable (hsnapshot : validateSnapshot F call.snapshot call.payloadHash = .ok ())
  (hpatch : validatePatch F call.snapshot call.patch call.patchHash = .ok ())
  (hvalid : checkInput W input = .ok ()) (hinput : SameProjection call input)
  (hfresh : ∀ row ∈ t.snapshots.values, row.snapshotId ≠ call.snapshotId)

include hsnapshot hpatch hvalid hinput hfresh

theorem agree_gap (hpos : ∀ k head, t.heads.get? k = some head → 1 ≤ head.version)
    (hgap : headVersion t call.snapshot.rowKey + 1 < call.snapshot.projectionVersion) :
    Agree (persistProjection F W t input call.snapshotId) (persistAndAdvance F t call) := by
  have hother : ¬SameEpoch t call → call.snapshot.projectionVersion ≠ 1 := by
    intro hother hone
    unfold SameEpoch at hother
    push Not at hother
    obtain ⟨head, hhead, -⟩ := hother
    have h := hpos _ head hhead
    rw [headVersion, hhead, hone] at hgap
    have hgap : head.version + 1 < 1 := hgap
    omega
  obtain ⟨e, he⟩ : ∃ e, persistAndAdvance F t call = .error e := by
    refine worker_rejects hsnapshot hpatch ?_
    by_cases hsame : SameEpoch t call
    · exact .inl ⟨hsame, hgap⟩
    · exact .inr ⟨hsame, hother hsame⟩
  rw [he]
  rcases persistProjection_eq (F := F) hvalid hfresh with
    ⟨⟨e', he'⟩, -⟩ | ⟨-, rows, -, -, -, -, heq⟩
  · rw [he']
    trivial
  · rw [hinput.rowKey, hinput.version] at heq
    rw [heq, if_pos (by omega), if_neg (by omega)]
    trivial

theorem agree_reached (hsame : SameEpoch t call)
    (hle : call.snapshot.projectionVersion ≤ headVersion t call.snapshot.rowKey) :
    Agree (persistProjection F W t input call.snapshotId) (persistAndAdvance F t call) ↔
      (Confirms F t call ↔ Accepts W t input) := by
  rcases persistProjection_eq (F := F) hvalid hfresh with
    ⟨⟨e', he'⟩, hreject⟩ | ⟨haccept, rows, hwrote, hheads, houtbox, -, heq⟩
  · rw [he']
    rcases worker_confirms hsnapshot hpatch hsame hle with ⟨⟨e, he⟩, hnot⟩ | ⟨hconfirms, he⟩
    · rw [he]
      exact iff_of_true trivial (iff_of_false hnot hreject)
    · rw [he]
      exact iff_of_false id fun h => hreject (h.mp hconfirms)
  · rw [hinput.rowKey, hinput.version] at heq
    rw [heq, if_pos (by omega), if_pos hle]
    rcases worker_confirms hsnapshot hpatch hsame hle with ⟨⟨e, he⟩, hnot⟩ | ⟨hconfirms, he⟩
    · rw [he]
      exact iff_of_false id fun h => hnot (h.mpr haccept)
    · rw [he]
      refine iff_of_true ⟨fun k => by rw [hheads], fun a => ?_, fun a => ?_, fun a => by rw [houtbox]⟩
        (iff_of_true hconfirms haccept)
      · -- What is compared is there, so nothing has been added.
        rw [hwrote.snapshots, hinput.rowKey]
        by_cases ha : a = call.snapshot.rowKey
        · subst ha
          obtain ⟨hrow, -⟩ := hconfirms
          cases hget : t.snapshots.get? call.snapshot.rowKey with
          | none =>
            rw [hget] at hrow
            cases hrow
          | some row => simp
        · simp [ha]
      · rw [hwrote.patches, hinput.rowKey]
        have hpatches := congrArg Option.isSome hinput.patch
        rw [Option.isSome_map, Option.isSome_map] at hpatches
        rw [hpatches]
        by_cases ha : a = call.snapshot.rowKey
        · subst ha
          cases hgiven : call.patch with
          | none => simp
          | some patch =>
            have hrow := hconfirms.2 patch hgiven
            cases hget : t.patches.get? call.snapshot.rowKey with
            | none =>
              rw [hget] at hrow
              cases hrow
            | some row => simp
        · simp [ha]

theorem agree_next (hsame : SameEpoch t call)
    (hnext : call.snapshot.projectionVersion = headVersion t call.snapshot.rowKey + 1) :
    Agree (persistProjection F W t input call.snapshotId) (persistAndAdvance F t call) ↔
      (Fits F t call ↔ Accepts W t input) := by
  have hworker := worker_installs hsnapshot hpatch hfresh (.inl ⟨hsame, hnext⟩)
  rcases persistProjection_eq (F := F) hvalid hfresh with
    ⟨⟨e', he'⟩, hreject⟩ | ⟨haccept, rows, hwrote, hheads, houtbox, hid, heq⟩
  · rw [he']
    rcases hworker with ⟨⟨e, he⟩, hnot⟩ | ⟨hfits, t', he, -⟩
    · rw [he]
      exact iff_of_true trivial (iff_of_false hnot hreject)
    · rw [he]
      exact iff_of_false id fun h => hreject (h.mp hfits)
  · rw [hinput.rowKey, hinput.version] at heq
    rw [heq, if_neg (by omega)]
    rcases hworker with ⟨⟨e, he⟩, hnot⟩ | ⟨hfits, t', he, hadvanced⟩
    · rw [he]
      exact iff_of_false id fun h => hnot (h.mpr haccept)
    · rw [he]
      obtain ⟨row, hrow, hrowId⟩ := Option.map_eq_some_iff.mp hid
      rw [hinput.rowKey] at hrow hrowId
      have hpatches := congrArg Option.isSome hinput.patch
      rw [Option.isSome_map, Option.isSome_map] at hpatches
      refine iff_of_true ⟨fun k => ?_, fun a => ?_, fun a => ?_, fun a => ?_⟩
        (iff_of_true hfits haccept)
      · rw [hadvanced.heads]
        simp only [advance, hrow, hinput.rowKey, hheads, Dict.get?_set]
        by_cases hk : k = call.snapshot.rowKey.head
        · rw [if_pos hk, if_pos hk]
          simp only [Option.map_some, HeadRow.position, storedHead, headRow, hrowId, hinput.rowKey,
            hinput.version]
        · rw [if_neg hk, if_neg hk]
      · rw [hadvanced.wrote.snapshots, ← hinput.rowKey]
        exact hwrote.snapshots a
      · rw [hadvanced.wrote.patches, ← hinput.rowKey, ← hpatches]
        exact hwrote.patches a
      · rw [hadvanced.outbox]
        simp only [advance, houtbox, Dict.isSome_setDefault, hinput.rowKey]

theorem agree_other (hs : Sound t)
    (hpos : ∀ k head, t.heads.get? k = some head → 1 ≤ head.version)
    (hother : ¬SameEpoch t call)
    (hle : call.snapshot.projectionVersion ≤ headVersion t call.snapshot.rowKey + 1) :
    Agree (persistProjection F W t input call.snapshotId) (persistAndAdvance F t call) ↔
      ¬Accepts W t input ∧ (call.snapshot.projectionVersion = 1 → ¬Fits F t call) := by
  have hhead : ∃ head, t.heads.get? call.snapshot.rowKey.head = some head ∧
      head.analysisEpoch ≠ call.snapshot.analysisEpoch := by
    unfold SameEpoch at hother
    push Not at hother
    exact hother
  obtain ⟨head, hhead, hepoch⟩ := hhead
  have hversion : headVersion t call.snapshot.rowKey = head.version := by
    rw [headVersion, hhead]
    rfl
  have hone := hpos _ head hhead
  rcases persistProjection_eq (F := F) hvalid hfresh with
    ⟨⟨e', he'⟩, hreject⟩ | ⟨haccept, rows, hwrote, hheads, -, -, heq⟩
  · rw [he']
    by_cases hv : call.snapshot.projectionVersion = 1
    · rcases worker_installs hsnapshot hpatch hfresh (.inr ⟨hother, hv⟩) with
        ⟨⟨e, he⟩, hnot⟩ | ⟨hfits, t', he, -⟩
      · rw [he]
        exact iff_of_true trivial ⟨hreject, fun _ => hnot⟩
      · rw [he]
        exact iff_of_false id fun h => h.2 hv hfits
    · obtain ⟨e, he⟩ := worker_rejects hsnapshot hpatch (.inr ⟨hother, hv⟩)
      rw [he]
      exact iff_of_true trivial ⟨hreject, fun h => absurd h hv⟩
  · refine iff_of_false (fun hagree => ?_) fun h => h.1 haccept
    rw [hinput.rowKey, hinput.version] at heq
    by_cases hv : call.snapshot.projectionVersion = 1
    · rw [heq, if_pos (by omega), if_pos (by omega)] at hagree
      rcases worker_installs hsnapshot hpatch hfresh (.inr ⟨hother, hv⟩) with
        ⟨⟨e, he⟩, -⟩ | ⟨hfits, t', he, hadvanced⟩
      · rw [he] at hagree
        exact hagree
      · rw [he] at hagree
        have hposition := hagree.heads call.snapshot.rowKey.head
        rw [hadvanced.heads, if_pos rfl, hheads, hhead] at hposition
        exact hfits.epoch hs hpos hv hhead hepoch (Prod.mk.inj (Option.some.inj hposition)).1
    · obtain ⟨e, he⟩ := worker_rejects hsnapshot hpatch (.inr ⟨hother, hv⟩)
      rw [heq, he] at hagree
      by_cases hnext : headVersion t call.snapshot.rowKey + 1 ≠ call.snapshot.projectionVersion
      · rw [if_pos hnext, if_pos (by omega)] at hagree
        exact hagree
      · rw [if_neg hnext] at hagree
        exact hagree

end

/-- Where a call leaves a head, if it returns. -/
def headAfter (x : Except String (Tables α β)) (k : String × String) :
    Option (String × Int × Option String) :=
  x.toOption.bind fun t => (t.heads.get? k).map HeadRow.position

/-- Calls that leave a head at different places do not agree. -/
theorem not_agree_of_head {x y : Except String (Tables α β)} {k : String × String}
    (h : headAfter x k ≠ headAfter y k) : ¬Agree x y := by
  intro hagree
  apply h
  cases x with
  | error e =>
    cases y with
    | error e' => rfl
    | ok t' => exact hagree.elim
  | ok t =>
    cases y with
    | error e => exact hagree.elim
    | ok t' => exact hagree.heads k

end

/-- The formats of the server, with what the driver makes of an array. -/
def serverFormats (jsonbArray : List String → Option (List String)) :
    WriteFormats String String :=
  { jsonReads with
    payloadHash := storedHash
    bodyHash := storedHash
    jsonbArray }

/-- An empty array is passed on as the text of an empty object. -/
def arrayLiteral : List String → Option (List String) := fun _ => none

/-- A call as the server would be given it. -/
def serverInput (call : Call String String) : ProjectionInput String String :=
  let snapshot : ProjectionRow String :=
    { roomId := call.snapshot.roomId
      projectionKey := call.snapshot.projectionKey
      analysisEpoch := call.snapshot.analysisEpoch
      version := call.snapshot.projectionVersion
      baseVersion := call.snapshot.baseVersion
      completeThroughRoomSeq := call.snapshot.completeThroughRoomSeq
      watermarkEventTime := call.snapshot.watermarkEventTime
      algorithmVersion := call.snapshot.algorithmVersion
      parameterHash := call.snapshot.parameterHash
      requiresReplay := call.snapshot.requiresReplay
      evidenceStatus := .active
      reviewStatus := .unreviewed
      displayStatus := .teacherShadow
      warnings := call.snapshot.warnings
      payload := call.snapshot.payload }
  { snapshot
    patch := call.patch.map fun patch => { snapshot with payload := patch.body }
    snapshotUrl := "/v1/rooms/" ++ snapshot.roomId ++ "/analytics/" ++ snapshot.projectionKey ++
      "/latest" }

theorem serverInput_same (call : Call String String) : SameProjection call (serverInput call) where
  roomId := rfl
  projectionKey := rfl
  analysisEpoch := rfl
  version := rfl
  completeThroughRoomSeq := rfl
  watermarkEventTime := rfl
  algorithmVersion := rfl
  parameterHash := rfl
  requiresReplay := rfl
  warnings := rfl
  payload := rfl
  patch := by
    rw [serverInput, Option.map_map]
    rfl

def firstStored : Tables String String := persistAll storedFormats .empty [patched firstCall]

def second : Call String String := patched secondCall

def replay : Call String String := patched replayCall

def roomHead : String × String := (readRoom, "echo.teacher_shadow")

theorem second_compatible :
    Compatible storedFormats (serverFormats some) firstStored second (serverInput second) := by
  obtain ⟨hkey, hhead, hrow, hrowPatch⟩ :
      second.snapshot.rowKey.head = roomHead ∧
      (firstStored.heads.get? roomHead).map (fun head => (head.analysisEpoch, head.version)) =
        some (second.snapshot.analysisEpoch, 1) ∧
      firstStored.snapshots.get? second.snapshot.rowKey = none ∧
      firstStored.patches.get? second.snapshot.rowKey = none := by
    decide +kernel
  obtain ⟨head, hget, hposition⟩ := Option.map_eq_some_iff.mp hhead
  obtain ⟨hepoch, hversion⟩ := Prod.mk.inj hposition
  have hcurrent : headVersion firstStored second.snapshot.rowKey = 1 := by
    rw [headVersion, hkey, hget, Option.map_some, hversion, Option.getD_some]
  have hsame : SameEpoch firstStored second := by
    intro head' hget'
    rw [hkey, hget] at hget'
    cases hget'
    exact hepoch
  have hfits : Fits storedFormats firstStored second := by
    refine ⟨fun row h => ?_, fun patch row _ h => ?_⟩
    · rw [hrow] at h
      cases h
    · rw [hrowPatch] at h
      cases h
  have haccepts : Accepts (serverFormats some) firstStored (serverInput second) := by
    refine ⟨rfl, fun row h => ?_, fun patch row _ h => ?_, 1, ?_⟩
    · rw [(serverInput_same _).rowKey, hrow] at h
      cases h
    · rw [(serverInput_same _).rowKey, hrowPatch] at h
      cases h
    · rw [currentVersion, (serverInput_same _).rowKey, hkey, hget]
      simp only [hversion]
      decide
  intro _
  exact ⟨fun _ => ⟨fun h => (by rw [hcurrent] at h; cases h), fun _ => iff_of_true hfits haccepts⟩,
    fun h => absurd hsame h⟩

end LearningOrbit.Projection.AnalyticsRepository
