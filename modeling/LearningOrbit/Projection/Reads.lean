import Mathlib.Algebra.Group.Int.Defs
import Mathlib.Data.List.Sort
import LearningOrbit.Projection.StoreRuns

/-!
# Reading patches

`patchesAfter` and `timeline` put their answers together from queries that run one after the
other, without a common snapshot of the tables. What the worker commits between two of them may
end in a resync, but never in a window with a gap.
-/

namespace LearningOrbit.Projection.AnalyticsRepository

open LearningOrbit (Dict)

inductive EvidenceStatus
  | active | requiresReplay
  deriving DecidableEq

inductive ReviewStatus
  | unreviewed | approved
  deriving DecidableEq

inductive DisplayStatus
  | teacherShadow | studentApproved | studentAggregate
  deriving DecidableEq

/-- A projection as the server returns it. -/
structure ProjectionRow (γ : Type) where
  roomId : String
  projectionKey : String
  analysisEpoch : String
  version : Int
  baseVersion : Int
  completeThroughRoomSeq : Int
  watermarkEventTime : String
  algorithmVersion : String
  parameterHash : String
  requiresReplay : Bool
  evidenceStatus : EvidenceStatus
  reviewStatus : ReviewStatus
  displayStatus : DisplayStatus
  warnings : List String
  payload : γ
  deriving DecidableEq

abbrev PatchRow (β : Type) := ProjectionRow β

/-- The members of a stored patch payload that the server looks at. -/
structure PayloadMembers where
  keys : List String
  warnings : Option (List String)
  requiresReplay : Option Bool

/-- What the server takes from outside: `Date`, the JSON of a payload, the contract's parsers and
the hash of the warnings. -/
structure ReadFormats (α β : Type) where
  toISOString : String → Option String
  patchPayload : β → Option PayloadMembers
  parsePatch : PatchRow β → Bool
  parseProjection : ProjectionRow α → Bool
  studentEchoHasContent : α → Bool
  contentHash : List String → String

/-- What the fence of a read finds under the lock of the room. -/
structure RoomFence where
  roomExists : Bool
  deletionActive : Bool
  policyCurrent : Bool
  studentProjectionAllowed : Bool

inductive PatchWindow (β : Type)
  | patches (patches : List (PatchRow β))
  | resync (snapshotUrl : String)
  deriving DecidableEq

inductive TimelineKind
  | timeline | resync
  deriving DecidableEq

structure Timeline (α β : Type) where
  kind : TimelineKind
  baseSnapshot : Option (ProjectionRow α)
  patches : List (PatchRow β)
  truncatedBeforeVersion : Option Int
  headVersion : Int
  deriving DecidableEq

def maxSafeInteger : Int := 2 ^ 53 - 1

/-- The code of an `AnalyticsRepositoryError`. -/
def corrupt : String := "ANALYTICS_CORRUPT"

/-- PostgreSQL refuses a text that is no uuid. -/
def uuidParameter (text : String) : Except String String :=
  match Uuid.canonical text with
  | none => .error "22P02"
  | some id => .ok id

def numberField (value : Int) : Except String Int :=
  if value < 0 ∨ maxSafeInteger < value then .error corrupt else .ok value

def STUDENT_PROJECTIONS : List String := ["echo.student_approved", "trace.student_bundle"]

/-- The algorithm a row of the projection is stored under. -/
def algorithm (projectionKey : String) : String :=
  if isEcho projectionKey then "ECHO-CM" else "TRACE-AI"

def displayStatus (projectionKey : String) : DisplayStatus :=
  if projectionKey = "echo.student_approved" then .studentApproved
  else if projectionKey = "trace.student_bundle" then .studentAggregate
  else .teacherShadow

def patchFields : List String :=
  ["requiresReplay", "warnings", "nodesAdded", "nodesUpdated", "nodesHidden", "edgesAdded",
    "edgesUpdated", "edgesHidden", "positionUpdates", "changeScore", "reasonCodes"]

/-- A lower-case SHA-256. -/
def isSha256 (text : String) : Bool := text.length = 64 && text.toList.all Uuid.isHex

section

variable {α β : Type} (G : ReadFormats α β)

/-- `patchWire`, as the check it is. -/
def patchWire (row : PatchRow β) : Except String Unit :=
  match G.patchPayload row.payload with
  | none => .error corrupt
  | some members =>
    let student : Bool := row.projectionKey = "echo.student_approved"
    let allowed := if student then patchFields else patchFields ++ ["evidenceRefs"]
    if !isEcho row.projectionKey || members.keys.any (· ∉ allowed)
        || patchFields.any (· ∉ members.keys)
        || (!student && "evidenceRefs" ∉ members.keys) then .error corrupt
    else if !G.parsePatch row then .error corrupt
    else .ok ()

/-- A patch row with the columns of its snapshot. -/
structure JoinedRow (β : Type) where
  key : RowKey
  patch : Projection.PatchRow β
  watermarkEventTime : String
  requiresReplay : Bool

/-- The patch `mapPatch` returns when its checks pass. -/
def mappedPatch (row : JoinedRow β) (watermark : String) (requiresReplay : Bool)
    (warnings : List String) : PatchRow β where
  roomId := row.key.roomId
  projectionKey := row.key.projectionKey
  analysisEpoch := row.key.analysisEpoch
  version := row.key.version
  baseVersion := row.patch.baseVersion
  completeThroughRoomSeq := row.patch.completeThroughSeq
  watermarkEventTime := watermark
  algorithmVersion := row.patch.algorithmVersion
  parameterHash := row.patch.parameterHash
  requiresReplay := requiresReplay
  evidenceStatus := if requiresReplay then .requiresReplay else .active
  reviewStatus := .unreviewed
  displayStatus := displayStatus row.key.projectionKey
  warnings := warnings
  payload := row.patch.payload

def mapPatch (row : JoinedRow β) : Except String (PatchRow β) :=
  match G.toISOString row.watermarkEventTime with
  | none => .error corrupt
  | some watermark => do
    let baseVersion ← numberField row.patch.baseVersion
    let version ← numberField row.key.version
    if baseVersion ≠ version - 1 then .error corrupt
    else if algorithm row.key.projectionKey ≠ "ECHO-CM" then .error corrupt
    else
      match G.patchPayload row.patch.payload with
      | some ⟨_, some warnings, some requiresReplay⟩ =>
        if requiresReplay ≠ row.requiresReplay then .error corrupt
        else if row.key.projectionKey ∉ projectionKeys then .error corrupt
        else do
          let _ ← numberField row.patch.completeThroughSeq
          patchWire G (mappedPatch row watermark requiresReplay warnings)
          return mappedPatch row watermark requiresReplay warnings
      | _ => .error corrupt

/-- What `validatePatchChain` compares each patch with. -/
structure ChainHead where
  version : Int
  analysisEpoch : String
  algorithmVersion : String
  parameterHash : String
  roomId : String
  projectionKey : String

/-- `validatePatchChain`, from the version expected next. -/
def validatePatchChain (head : ChainHead) : Int → List (JoinedRow β) → Option (List (PatchRow β))
  | expected, [] => if expected = head.version then some [] else none
  | expected, row :: rows =>
    match mapPatch G row with
    | .error _ => none
    | .ok patch =>
      if patch.roomId ≠ head.roomId ∨ patch.projectionKey ≠ head.projectionKey ∨
          patch.analysisEpoch ≠ head.analysisEpoch ∨
          patch.algorithmVersion ≠ head.algorithmVersion ∨
          patch.parameterHash ≠ head.parameterHash ∨ patch.baseVersion ≠ expected ∨
          patch.version ≠ expected + 1 then none
      else (validatePatchChain head patch.version rows).map (patch :: ·)

/-- The projection `mapProjection` returns when its checks pass. The query computes the base
version of a snapshot, as `GREATEST(0,version-1)`. -/
def mappedProjection (key : RowKey) (row : SnapshotRow α) (watermark : String) :
    ProjectionRow α where
  roomId := key.roomId
  projectionKey := key.projectionKey
  analysisEpoch := key.analysisEpoch
  version := key.version
  baseVersion := max 0 (key.version - 1)
  completeThroughRoomSeq := row.completeThroughSeq
  watermarkEventTime := watermark
  algorithmVersion := row.algorithmVersion
  parameterHash := row.parameterHash
  requiresReplay := row.requiresReplay
  evidenceStatus := if row.requiresReplay then .requiresReplay else .active
  reviewStatus :=
    if key.projectionKey = "trace.student_bundle" ∨ key.projectionKey = "echo.student_approved" ∧
        G.studentEchoHasContent row.payload then .approved
    else .unreviewed
  displayStatus := displayStatus key.projectionKey
  warnings := row.warnings
  payload := row.payload

def mapProjection (key : RowKey) (row : SnapshotRow α) : Except String (ProjectionRow α) :=
  if key.projectionKey ∉ projectionKeys then .error corrupt
  else
    match G.toISOString row.watermarkEventTime with
    | none => .error corrupt
    | some watermark => do
      let version ← numberField key.version
      let baseVersion ← numberField (max 0 (key.version - 1))
      if baseVersion ≠ version - 1 then .error corrupt
      else do
        let _ ← numberField row.completeThroughSeq
        if !isSha256 row.warningsSha256 || G.contentHash row.warnings ≠ row.warningsSha256 then
          .error corrupt
        else if !G.parseProjection (mappedProjection G key row watermark) then .error corrupt
        else return mappedProjection G key row watermark

/-! ## The queries -/

/-- The join of a patch with the snapshot of its version. -/
def joined (t : Tables α β) (key : RowKey) : Option (JoinedRow β) :=
  match t.patches.get? key, t.snapshots.get? key with
  | some patch, some snapshot =>
    some ⟨key, patch, snapshot.watermarkEventTime, snapshot.requiresReplay⟩
  | _, _ => none

/-- The patches of an epoch, `ORDER BY p.version`. -/
def patchRows (t : Tables α β) (roomId projectionKey analysisEpoch : String) :
    List (JoinedRow β) :=
  let keys := t.patches.keys.filter fun key : RowKey => key.roomId = roomId &&
    key.projectionKey = projectionKey && key.analysisEpoch = analysisEpoch
  (keys.insertionSort (·.version ≤ ·.version)).filterMap (joined t)

variable (callerHoldsCanonicalRoomLock : Bool) (fence : RoomFence)

def fenceRoomRead (projectionKey : String) : Except String Unit :=
  if callerHoldsCanonicalRoomLock then .ok ()
  else if !fence.roomExists then .error "ROOM_NOT_FOUND"
  else if fence.deletionActive then .error "ROOM_DELETION_IN_PROGRESS"
  else if !fence.policyCurrent then .error "RETENTION_POLICY_EXPIRED"
  else if projectionKey ∈ STUDENT_PROJECTIONS && !fence.studentProjectionAllowed then
    .error "STUDENT_ANALYTICS_NOT_PROMOTED"
  else .ok ()

def finishRead {γ : Type} (projectionKey : String) (value : γ) : Except String γ := do
  fenceRoomRead callerHoldsCanonicalRoomLock fence projectionKey
  return value

/-- `patchesAfter`, with the tables each of its two queries finds. -/
def patchesAfter (atHead atPatches : Tables α β) (roomId projectionKey analysisEpoch : String)
    (afterProjectionVersion : Int) (snapshotUrl : String) : Except String (PatchWindow β) :=
  let finish := finishRead (γ := PatchWindow β) callerHoldsCanonicalRoomLock fence projectionKey
  if afterProjectionVersion < 0 ∨ maxSafeInteger < afterProjectionVersion then .error corrupt
  else if "trace.".toList.isPrefixOf projectionKey.toList then finish (.resync snapshotUrl)
  else do
    let room ← uuidParameter roomId
    match atHead.heads.get? (room, projectionKey) with
    | none => finish (.resync snapshotUrl)
    | some head => do
      let headVersion ← numberField head.version
      if head.analysisEpoch ≠ analysisEpoch ∨ headVersion < afterProjectionVersion then
        finish (.resync snapshotUrl)
      else do
        let epoch ← uuidParameter analysisEpoch
        let rows := ((patchRows atPatches room projectionKey epoch).filter fun row =>
          afterProjectionVersion < row.key.version && row.key.version ≤ headVersion).take 201
        if 200 < rows.length then finish (.resync snapshotUrl)
        else
          match validatePatchChain G ⟨headVersion, head.analysisEpoch, head.algorithmVersion,
              head.parameterHash, roomId, projectionKey⟩ afterProjectionVersion rows with
          | none => finish (.resync snapshotUrl)
          | some patches => finish (.patches patches)

/-- The answer of `timeline` that sends a reader to the snapshot. -/
def timelineResync (headVersion : Int) : Timeline α β := ⟨.resync, none, [], none, headVersion⟩

/-- `timeline`, with the tables each of its three queries finds. -/
def timeline (atHead atPatches atBase : Tables α β) (roomId projectionKey analysisEpoch : String)
    (limit : Int) : Except String (Timeline α β) :=
  let finish := finishRead (γ := Timeline α β) callerHoldsCanonicalRoomLock fence projectionKey
  if limit < 1 ∨ 200 < limit then .error corrupt
  else do
    let room ← uuidParameter roomId
    let epoch ← uuidParameter analysisEpoch
    match (atHead.heads.get? (room, projectionKey)).filter (·.analysisEpoch = epoch) with
    | none => finish (timelineResync 0)
    | some head => do
      let headVersion ← numberField head.version
      let expectedCount := min limit headVersion
      let rows := (patchRows atPatches room projectionKey epoch).reverse.take limit.toNat
      if rows.length ≠ expectedCount then finish (timelineResync headVersion)
      else
        match validatePatchChain G ⟨headVersion, head.analysisEpoch, head.algorithmVersion,
            head.parameterHash, roomId, projectionKey⟩ (headVersion - expectedCount)
            rows.reverse with
        | none => finish (timelineResync headVersion)
        | some patches =>
          let start := (patches.head?.map (·.version)).getD headVersion
          if 0 < headVersion ∧ patches = [] then finish (timelineResync headVersion)
          else if 1 < start then
            let key : RowKey := ⟨room, projectionKey, epoch, start - 1⟩
            match atBase.snapshots.get? key with
            | none => finish (timelineResync headVersion)
            | some row => do
              let base ← mapProjection G key row
              finish ⟨.timeline, some base, patches, some (start - 1), headVersion⟩
          else finish ⟨.timeline, none, patches, none, headVersion⟩

end

/-! ## What a chain is made of -/

/-- The answer holds the patches stored under the versions after the base, in order, up to the
head. -/
structure Window {α β : Type} (t : Tables α β) (room projectionKey epoch : String)
    (base headVersion : Int) (patches : List (PatchRow β)) : Prop where
  reaches : base + patches.length = headVersion
  versions : patches.map (·.version) = (List.range patches.length).map fun i : Nat => base + 1 + i
  stored : ∀ p ∈ patches, p.roomId = room ∧ p.projectionKey = projectionKey ∧
    p.analysisEpoch = epoch ∧ ∃ row, t.patches.get? ⟨room, projectionKey, epoch, p.version⟩ =
      some row ∧ p.baseVersion = row.baseVersion ∧
        p.completeThroughRoomSeq = row.completeThroughSeq ∧
        p.algorithmVersion = row.algorithmVersion ∧ p.parameterHash = row.parameterHash ∧
        p.payload = row.payload

section

variable {α β : Type} {G : ReadFormats α β} {t : Tables α β}

theorem numberField_ok {value n : Int} (h : numberField value = .ok n) : n = value ∧ 0 ≤ n := by
  unfold numberField at h
  by_cases hv : value < 0 ∨ maxSafeInteger < value
  · rw [if_pos hv] at h
    cases h
  · rw [if_neg hv] at h
    cases h
    exact ⟨rfl, by omega⟩

theorem mapPatch_ok {row : JoinedRow β} {p : PatchRow β} (h : mapPatch G row = .ok p) :
    ∃ watermark requiresReplay warnings, p = mappedPatch row watermark requiresReplay warnings := by
  unfold mapPatch at h
  cases hwatermark : G.toISOString row.watermarkEventTime with
  | none =>
    rw [hwatermark] at h
    cases h
  | some watermark =>
    rw [hwatermark] at h
    obtain ⟨baseVersion, -, h⟩ := bind_eq_ok.mp h
    obtain ⟨version, -, h⟩ := bind_eq_ok.mp h
    split at h
    · cases h
    split at h
    · cases h
    split at h
    · split at h
      · cases h
      split at h
      · cases h
      obtain ⟨_, -, h⟩ := bind_eq_ok.mp h
      obtain ⟨_, -, h⟩ := bind_eq_ok.mp h
      cases h
      exact ⟨_, _, _, rfl⟩
    · cases h

theorem mem_patchRows {room projectionKey epoch : String} {row : JoinedRow β}
    (h : row ∈ patchRows t room projectionKey epoch) :
    row.key.roomId = room ∧ row.key.projectionKey = projectionKey ∧
      row.key.analysisEpoch = epoch ∧ t.patches.get? row.key = some row.patch := by
  obtain ⟨key, hkey, hrow⟩ := List.mem_filterMap.mp h
  have hkey := (List.mem_filter.mp ((List.mem_insertionSort _).mp hkey)).2
  simp only [Bool.and_eq_true, decide_eq_true_eq] at hkey
  unfold joined at hrow
  split at hrow
  · rename_i patch _ hpatch _
    cases hrow
    exact ⟨hkey.1.1, hkey.1.2, hkey.2, hpatch⟩
  · cases hrow

/-- A chain that is accepted starts after the expected version and ends at the head. -/
theorem validatePatchChain_some {head : ChainHead} {expected : Int} {rows : List (JoinedRow β)}
    {patches : List (PatchRow β)} (h : validatePatchChain G head expected rows = some patches) :
    expected + patches.length = head.version ∧
      patches.map (·.version) =
        (List.range patches.length).map (fun i : Nat => expected + 1 + i) ∧
      ∀ p ∈ patches, p.roomId = head.roomId ∧ ∃ row ∈ rows, mapPatch G row = .ok p := by
  induction rows generalizing expected patches with
  | nil =>
    unfold validatePatchChain at h
    by_cases he : expected = head.version
    · rw [if_pos he] at h
      cases h
      simp [he]
    · rw [if_neg he] at h
      cases h
  | cons row rows ih =>
    unfold validatePatchChain at h
    cases hrow : mapPatch G row with
    | error e =>
      rw [hrow] at h
      cases h
    | ok p =>
      simp only [hrow] at h
      split at h
      · cases h
      · rename_i hsame
        simp only [not_or, ne_eq, not_not] at hsame
        obtain ⟨hroom, -, -, -, -, -, hversion⟩ := hsame
        obtain ⟨rest, hrest, rfl⟩ := Option.map_eq_some_iff.mp h
        obtain ⟨hlength, hversions, hmem⟩ := ih hrest
        refine ⟨?_, ?_, ?_⟩
        · rw [List.length_cons]
          omega
        · rw [List.map_cons, hversions, List.length_cons, List.range_succ_eq_map, List.map_cons,
            List.map_map, hversion]
          congr 1
          · omega
          · apply List.map_congr_left
            intro i _
            rw [Function.comp_apply]
            omega
        · intro q hq
          rcases List.mem_cons.mp hq with rfl | hq
          · exact ⟨hroom, row, List.mem_cons_self, hrow⟩
          · obtain ⟨hq, row', hrow', hq'⟩ := hmem q hq
            exact ⟨hq, row', List.mem_cons_of_mem row hrow', hq'⟩

/-- A chain out of the patches of an epoch is a window, also in the tables that come later. -/
theorem Window.of_chain {t' : Tables α β} (hkept : Kept t t') {head : ChainHead} {expected : Int}
    {room projectionKey epoch : String} {rows : List (JoinedRow β)} {patches : List (PatchRow β)}
    (hrows : ∀ row ∈ rows, row ∈ patchRows t room projectionKey epoch)
    (h : validatePatchChain G head expected rows = some patches) :
    Window t' room projectionKey epoch expected head.version patches := by
  obtain ⟨hreaches, hversions, hmem⟩ := validatePatchChain_some h
  refine ⟨hreaches, hversions, fun p hp => ?_⟩
  obtain ⟨-, row, hrow, hmap⟩ := hmem p hp
  obtain ⟨hroom, hkey, hepoch, hget⟩ := mem_patchRows (hrows row hrow)
  obtain ⟨watermark, requiresReplay, warnings, rfl⟩ := mapPatch_ok hmap
  refine ⟨hroom, hkey, hepoch, row.patch, ?_, rfl, rfl, rfl, rfl, rfl⟩
  rw [← hroom, ← hkey, ← hepoch]
  exact hkept.2 row.key row.patch hget

theorem finishRead_ok {γ : Type} {lock : Bool} {fence : RoomFence} {projectionKey : String}
    {value answer : γ} (h : finishRead lock fence projectionKey value = .ok answer) :
    answer = value := by
  obtain ⟨_, -, h⟩ := bind_eq_ok.mp h
  cases h
  rfl

theorem uuidParameter_ok {text id : String} (h : uuidParameter text = .ok id) :
    Uuid.canonical text = some id := by
  unfold uuidParameter at h
  cases hid : Uuid.canonical text with
  | none =>
    rw [hid] at h
    cases h
  | some id' =>
    rw [hid] at h
    cases h
    rfl

theorem mapProjection_ok {key : RowKey} {row : SnapshotRow α} {p : ProjectionRow α}
    (h : mapProjection G key row = .ok p) :
    ∃ watermark, p = mappedProjection G key row watermark := by
  unfold mapProjection at h
  split at h
  · cases h
  split at h
  · cases h
  · rename_i watermark _
    obtain ⟨version, -, h⟩ := bind_eq_ok.mp h
    obtain ⟨baseVersion, -, h⟩ := bind_eq_ok.mp h
    split at h
    · cases h
    obtain ⟨_, -, h⟩ := bind_eq_ok.mp h
    split at h
    · cases h
    split at h
    · cases h
    cases h
    exact ⟨watermark, rfl⟩

/-! ## What a read answers -/

variable {lock : Bool} {fence : RoomFence} {roomId projectionKey analysisEpoch : String}
  {atHead atPatches atBase : Tables α β}

theorem patchesAfter_window {afterProjectionVersion : Int} {snapshotUrl : String}
    {patches : List (PatchRow β)} (hkept : Kept atPatches t)
    (h : patchesAfter G lock fence atHead atPatches roomId projectionKey analysisEpoch
      afterProjectionVersion snapshotUrl = .ok (.patches patches)) :
    ∃ room epoch head, Uuid.canonical roomId = some room ∧
      Uuid.canonical analysisEpoch = some epoch ∧
      atHead.heads.get? (room, projectionKey) = some head ∧ head.analysisEpoch = analysisEpoch ∧
      Window t room projectionKey epoch afterProjectionVersion head.version patches := by
  have hresync : ∀ {answer}, finishRead lock fence projectionKey
      (PatchWindow.resync (β := β) snapshotUrl) = .ok answer → answer ≠ .patches patches := by
    rintro answer h rfl
    cases finishRead_ok h
  unfold patchesAfter at h
  split at h
  · cases h
  split at h
  · exact absurd rfl (hresync h)
  obtain ⟨room, hroom, h⟩ := bind_eq_ok.mp h
  split at h
  · exact absurd rfl (hresync h)
  rename_i head hhead
  obtain ⟨headVersion, hversion, h⟩ := bind_eq_ok.mp h
  obtain ⟨rfl, -⟩ := numberField_ok hversion
  split at h
  · exact absurd rfl (hresync h)
  rename_i hcurrent
  obtain ⟨epoch, hepoch, h⟩ := bind_eq_ok.mp h
  dsimp only at h
  split at h
  · exact absurd rfl (hresync h)
  split at h
  · exact absurd rfl (hresync h)
  rename_i chain hchain
  cases finishRead_ok h
  simp only [not_or, ne_eq, not_not] at hcurrent
  refine ⟨room, epoch, head, uuidParameter_ok hroom, uuidParameter_ok hepoch, hhead, hcurrent.1, ?_⟩
  exact Window.of_chain hkept
    (fun row hrow => (List.mem_filter.mp (List.mem_of_mem_take hrow)).1) hchain

/-- The version a timeline's patches start from. -/
def Timeline.base (answer : Timeline α β) : Int := (answer.baseSnapshot.map (·.version)).getD 0

/-- The first patch of a window is the one after its base. -/
theorem Window.start {room epoch : String} {base headVersion : Int} {patches : List (PatchRow β)}
    (h : Window t room projectionKey epoch base headVersion patches) :
    (patches.head?.map (·.version)).getD headVersion =
      if patches = [] then base else base + 1 := by
  cases patches with
  | nil =>
    have hreaches := h.reaches
    simp only [List.length_nil] at hreaches
    simp only [List.head?_nil, Option.map_none, Option.getD_none, ↓reduceIte]
    omega
  | cons p patches =>
    have hversions := h.versions
    rw [List.map_cons, List.length_cons, List.range_succ_eq_map, List.map_cons] at hversions
    have hstart := (List.cons.inj hversions).1
    simp only [List.head?_cons, Option.map_some, Option.getD_some, reduceCtorEq, ↓reduceIte]
    omega

theorem timeline_window {limit : Int} {answer : Timeline α β} (hpatches : Kept atPatches t)
    (hbase : Kept atBase t)
    (h : timeline G lock fence atHead atPatches atBase roomId projectionKey analysisEpoch limit =
      .ok answer) (hkind : answer.kind = .timeline) :
    ∃ room epoch head, Uuid.canonical roomId = some room ∧
      Uuid.canonical analysisEpoch = some epoch ∧
      atHead.heads.get? (room, projectionKey) = some head ∧ head.analysisEpoch = epoch ∧
      answer.headVersion = head.version ∧
      Window t room projectionKey epoch answer.base head.version answer.patches ∧
      (answer.truncatedBeforeVersion = none ↔ answer.base = 0) ∧
      ∀ s ∈ answer.baseSnapshot, ∃ row watermark,
        t.snapshots.get? ⟨room, projectionKey, epoch, s.version⟩ = some row ∧
          s = mappedProjection G ⟨room, projectionKey, epoch, s.version⟩ row watermark := by
  have hresync : ∀ {headVersion}, finishRead lock fence projectionKey
      (timelineResync (α := α) (β := β) headVersion) ≠ .ok answer := by
    intro headVersion h
    rw [finishRead_ok h] at hkind
    cases hkind
  unfold timeline at h
  split at h
  · cases h
  rename_i hlimit
  obtain ⟨room, hroom, h⟩ := bind_eq_ok.mp h
  obtain ⟨epoch, hepoch, h⟩ := bind_eq_ok.mp h
  split at h
  · exact absurd h hresync
  rename_i head hhead
  obtain ⟨hhead, hcurrent⟩ := Option.filter_eq_some_iff.mp hhead
  obtain ⟨headVersion, hversion, h⟩ := bind_eq_ok.mp h
  obtain ⟨rfl, hpositive⟩ := numberField_ok hversion
  dsimp only at h
  split at h
  · exact absurd h hresync
  split at h
  · exact absurd h hresync
  rename_i patches hchain
  have hwindow : Window t room projectionKey epoch (head.version - min limit head.version)
      head.version patches :=
    Window.of_chain hpatches (fun row hrow =>
      List.mem_reverse.mp (List.mem_of_mem_take (List.mem_reverse.mp hrow))) hchain
  have hstart := hwindow.start
  simp only [hstart] at h
  refine ⟨room, epoch, head, uuidParameter_ok hroom, uuidParameter_ok hepoch, hhead,
    of_decide_eq_true hcurrent, ?_⟩
  split at h
  · exact absurd h hresync
  rename_i hsome
  by_cases hempty : patches = []
  · have hzero : head.version = 0 := by
      by_contra hne
      exact hsome ⟨by omega, hempty⟩
    have hone : min limit head.version = 0 := by omega
    rw [if_pos hempty, hone, hzero, if_neg (by omega)] at h
    rw [hone, Int.sub_zero] at hwindow
    cases finishRead_ok h
    refine ⟨hzero.symm, ?_, iff_of_true rfl rfl, fun s hs => by cases hs⟩
    rw [show Timeline.base _ = 0 from rfl, ← hzero]
    exact hwindow
  · rw [if_neg hempty] at h
    split at h
    · rename_i hcut
      split at h
      · exact absurd h hresync
      rename_i row hrow
      obtain ⟨base, hmap, h⟩ := bind_eq_ok.mp h
      cases finishRead_ok h
      obtain ⟨watermark, rfl⟩ := mapProjection_ok hmap
      refine ⟨rfl, ?_, iff_of_false nofun ?_, ?_⟩
      · have hbefore := Int.add_sub_cancel (head.version - min limit head.version) 1
        rw [← hbefore] at hwindow
        exact hwindow
      · have hlate : (head.version - min limit head.version) + 1 - 1 ≠ 0 := by omega
        exact hlate
      · intro s hs
        cases hs
        exact ⟨row, watermark, hbase.1 _ row hrow, rfl⟩
    · rename_i hcut
      cases finishRead_ok h
      have hzero : head.version - min limit head.version = 0 := by omega
      refine ⟨rfl, ?_, iff_of_true rfl rfl, fun s hs => by cases hs⟩
      rw [hzero] at hwindow
      exact hwindow

end

/-- Whatever is persisted between the queries, a read that does not send its reader to the snapshot
answers the patches of one epoch from its base to the head it started with. -/
theorem reads_complete {α β : Type} (F : Formats α β) (G : ReadFormats α β)
    (calls₀ calls₁ calls₂ : List (Call α β)) (lock : Bool) (fence : RoomFence)
    (roomId projectionKey analysisEpoch : String) :
    let t₀ := persistAll F .empty calls₀
    let t₁ := persistAll F t₀ calls₁
    let t₂ := persistAll F t₁ calls₂
    (∀ afterProjectionVersion snapshotUrl patches,
      patchesAfter G lock fence t₀ t₁ roomId projectionKey analysisEpoch afterProjectionVersion
        snapshotUrl = .ok (.patches patches) →
      ∃ room head, Uuid.canonical roomId = some room ∧
        t₀.heads.get? (room, projectionKey) = some head ∧ head.analysisEpoch = analysisEpoch ∧
        Window t₂ room projectionKey analysisEpoch afterProjectionVersion head.version patches) ∧
    ∀ limit answer,
      timeline G lock fence t₀ t₁ t₂ roomId projectionKey analysisEpoch limit = .ok answer →
      answer.kind = .timeline →
      ∃ room epoch head, Uuid.canonical roomId = some room ∧
        Uuid.canonical analysisEpoch = some epoch ∧
        t₀.heads.get? (room, projectionKey) = some head ∧ head.analysisEpoch = epoch ∧
        answer.headVersion = head.version ∧
        Window t₂ room projectionKey epoch answer.base head.version answer.patches ∧
        (answer.truncatedBeforeVersion = none ↔ answer.base = 0) ∧
        ∀ s ∈ answer.baseSnapshot, ∃ row watermark,
          t₂.snapshots.get? ⟨room, projectionKey, epoch, s.version⟩ = some row ∧
            s = mappedProjection G ⟨room, projectionKey, epoch, s.version⟩ row watermark := by
  intro t₀ t₁ t₂
  have hkept : Kept t₁ t₂ := persistAll_kept F t₁ calls₂
  constructor
  · intro afterProjectionVersion snapshotUrl patches h
    obtain ⟨room, epoch, head, hroom, hepoch, hhead, rfl, hwindow⟩ := patchesAfter_window hkept h
    have hstored : Uuid.Stored head.analysisEpoch :=
      (persistAll_sound (F := F) sound_empty calls₀).stored _ head hhead
    rw [hstored] at hepoch
    cases hepoch
    exact ⟨room, head, hroom, hhead, rfl, hwindow⟩
  · intro limit answer h hkind
    exact timeline_window hkept ⟨fun _ _ h => h, fun _ _ h => h⟩ h hkind

theorem persistAll_nil {α β : Type} (F : Formats α β) (t : Tables α β) : persistAll F t [] = t :=
  rfl

/-- The payload of a teacher patch that changes nothing. -/
def emptyPatch : String :=
  "\x7b\"changeScore\":0,\"edgesAdded\":[],\"edgesHidden\":[],\"edgesUpdated\":[]," ++
  "\"evidenceRefs\":[],\"nodesAdded\":[],\"nodesHidden\":[],\"nodesUpdated\":[]," ++
  "\"positionUpdates\":[],\"reasonCodes\":[],\"requiresReplay\":false,\"warnings\":[]\x7d"

/-- The hash of the two texts above, without working it out. -/
def storedHash (text : String) : String :=
  if text = emptyMap then "57501e5c6808b3e14852a4ea21dc7873abf9409032a06f9b740c973e83f62cf7"
  else if text = emptyPatch then "b7fbe71efcf6019be7aa0ccd5e427097b350f760166548cd4cfb0bcba4176be6"
  else Digest.sha256Hex text

def storedFormats : Formats String String :=
  { jsonFormats with
    payloadHash := storedHash
    patchHash := fun patch => storedHash patch.body
    bodyHash := storedHash }

/-- A map without nodes, with the patch that leads to it. -/
def patched (call : Call String String) : Call String String :=
  let patch : Patch String :=
    { roomId := none
      projectionKey := none
      analysisEpoch := call.snapshot.analysisEpoch
      algorithmVersion := call.snapshot.algorithmVersion
      parameterHash := call.snapshot.parameterHash
      projectionVersion := call.snapshot.projectionVersion
      baseVersion := call.snapshot.baseVersion
      completeThroughRoomSeq := call.snapshot.completeThroughRoomSeq
      requiresReplay := call.snapshot.requiresReplay
      body := emptyPatch }
  { call with
    payloadHash := storedHash call.snapshot.payload
    patch := some patch
    patchHash := some (storedHash patch.body) }

/-- The formats, for the texts of the empty maps and patches. -/
def jsonReads : ReadFormats String String where
  toISOString text := if text = "2026-01-01T00:00:00Z" then some "2026-01-01T00:00:00.000Z" else none
  patchPayload body :=
    if body = emptyPatch then some ⟨"evidenceRefs" :: patchFields, some [], some false⟩ else none
  parsePatch _ := true
  parseProjection _ := true
  studentEchoHasContent _ := false
  contentHash := jsonFormats.warningsHash

/-- Two versions of a room, and what a replay makes of them. -/
def beforeReplay : Tables String String :=
  persistAll storedFormats .empty [patched firstCall, patched secondCall]

def afterReplay : Tables String String := persistAll storedFormats beforeReplay [patched replayCall]

def readRoom : String := "11111111-1111-4111-8111-111111111111"

def readEpoch : String := "22222222-2222-5222-8222-222222222222"

def openRoom : RoomFence := ⟨true, false, true, false⟩

/-- The second version is read while a replay takes the room to another epoch. -/
theorem reads_complete_replay :
    ∃ patches answer,
      patchesAfter jsonReads false openRoom beforeReplay afterReplay readRoom
        "echo.teacher_shadow" readEpoch 1 "" = .ok (.patches patches) ∧
      Window afterReplay readRoom "echo.teacher_shadow" readEpoch 1 2 patches ∧
      timeline jsonReads false openRoom beforeReplay afterReplay afterReplay readRoom
        "echo.teacher_shadow" readEpoch 1 = .ok answer ∧
      Window afterReplay readRoom "echo.teacher_shadow" readEpoch 1 2 answer.patches := by
  obtain ⟨hpatches, htimeline⟩ := reads_complete storedFormats jsonReads
    [patched firstCall, patched secondCall] [patched replayCall] [] false openRoom readRoom
    "echo.teacher_shadow" readEpoch
  simp only [persistAll_nil] at hpatches htimeline
  obtain ⟨hread, hanswer, hhead, hroom, hepoch⟩ :
      (patchesAfter jsonReads false openRoom beforeReplay afterReplay readRoom
        "echo.teacher_shadow" readEpoch 1 "").toOption.any
          (fun w => match w with | .patches _ => true | .resync _ => false) = true ∧
      (timeline jsonReads false openRoom beforeReplay afterReplay afterReplay readRoom
        "echo.teacher_shadow" readEpoch 1).toOption.any
          (fun a => a.kind = .timeline ∧ a.base = 1) = true ∧
      ((beforeReplay.heads.get? (readRoom, "echo.teacher_shadow")).map (·.version)) = some 2 ∧
      Uuid.canonical readRoom = some readRoom ∧ Uuid.canonical readEpoch = some readEpoch := by
    decide +kernel
  obtain ⟨answer, ha, hkind⟩ := (Option.any_eq_true ..).mp hanswer
  obtain ⟨hkind, hbase⟩ := of_decide_eq_true hkind
  obtain ⟨w, hw, hpatched⟩ := (Option.any_eq_true ..).mp hread
  obtain ⟨head, hget, hversion⟩ := Option.map_eq_some_iff.mp hhead
  have ha := toOption_eq_some ha
  have hw := toOption_eq_some hw
  obtain ⟨patches, rfl⟩ : ∃ patches, w = .patches patches := by
    cases w with
    | patches patches => exact ⟨patches, rfl⟩
    | resync url => cases hpatched
  refine ⟨patches, answer, hw, ?_, ha, ?_⟩
  · obtain ⟨room, head', hroom', hget', -, hwindow⟩ := hpatches 1 "" patches hw
    rw [hroom] at hroom'
    cases hroom'
    have hget' : beforeReplay.heads.get? (readRoom, "echo.teacher_shadow") = some head' := hget'
    rw [hget] at hget'
    cases hget'
    rw [hversion] at hwindow
    exact hwindow
  · obtain ⟨room, epoch, head', hroom', hepoch', hget', -, -, hwindow, -⟩ :=
      htimeline 1 answer ha hkind
    rw [hroom] at hroom'
    cases hroom'
    rw [hepoch] at hepoch'
    cases hepoch'
    have hget' : beforeReplay.heads.get? (readRoom, "echo.teacher_shadow") = some head' := hget'
    rw [hget] at hget'
    cases hget'
    rw [hbase, hversion] at hwindow
    exact hwindow

end LearningOrbit.Projection.AnalyticsRepository
