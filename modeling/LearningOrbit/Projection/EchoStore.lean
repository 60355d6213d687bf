import LearningOrbit.Projection.ConceptReducer

/-!
# Materializing ECHO projections

The per-key loop of `_materialize` for the two ECHO keys: the baseline of the next
patch, the metadata, the patch and the call of `persist_and_advance`. The TRACE
projections of the same transaction write rows under other keys and enter through
their raise only. A persisted row is read back as the server puts it on the wire.
-/

namespace LearningOrbit.Projection

open LearningOrbit (Dict Delta)

/-! ## What the store checks of an ECHO projection -/

/-- The content hashes of the worker. -/
structure EchoHashes where
  payload : EchoPayload → String
  patch : Patch PatchBody → String
  body : PatchBody → String
  warnings : List String → String
  timestampText : String → String

/-- The envelope `project_echo_snapshot` puts around a view. -/
def envelope (s : Snapshot EchoPayload) : ConceptMapSnapshot where
  roomId := s.roomId
  projectionKey := s.projectionKey
  analysisEpoch := s.analysisEpoch
  algorithmVersion := s.algorithmVersion
  parameterHash := s.parameterHash
  projectionVersion := s.projectionVersion
  baseVersion := s.baseVersion
  completeThroughRoomSeq := s.completeThroughRoomSeq
  watermarkEventTime := s.watermarkEventTime
  requiresReplay := s.requiresReplay
  evidenceStatus := if s.requiresReplay then .requiresReplay else .active
  reviewStatus := reviewed (isStudent s.projectionKey &&
    (!s.payload.nodes.isEmpty || !s.payload.edges.isEmpty))
  displayStatus := if isStudent s.projectionKey then .studentApproved else .teacherShadow
  warnings := s.warnings
  payload := s.payload

def isUuid (text : String) : Bool := (Uuid.canonical text).isSome

/-- The shape checks of `_validate_patch`. -/
def echoPatchShape (projectionKey : String) (p : Patch PatchBody) : Bool :=
  let student := isStudent projectionKey
  decide (p.body.evidenceRefs.isNone = student) &&
    decide (1 ≤ p.projectionVersion ∧ 0 ≤ p.baseVersion ∧ 0 ≤ p.completeThroughRoomSeq) &&
    isUuid p.analysisEpoch && lengthIn 1 160 p.algorithmVersion && isSha256 p.parameterHash &&
    p.body.positionUpdates.all (·.2.ok) &&
    ((p.body.nodes.added ++ p.body.nodes.updated).all fun n =>
      !student || n.reviewStatus = .approved) &&
    ((p.body.edges.added ++ p.body.edges.updated).all fun e =>
      (if student then e.reviewStatus = .approved ∧ e.detail = none else e.detail.isSome) &&
        isUuid e.edgeId) &&
    ((p.body.nodes.hidden ++ p.body.reasonCodes ++ p.body.warnings).all (·.length ≤ 160)) &&
    p.body.edges.hidden.all isUuid &&
    ((p.body.evidenceRefs.getD []).all fun r =>
      isUuid r.eventId && decide (0 ≤ r.start ∧ r.start < r.stop)) &&
    decide (0 ≤ p.body.changeScore ∧ p.body.changeScore ≤ 1)

/-- The store at ECHO payloads; stored values are compared as JSON values. -/
def echoFormats (H : EchoHashes) : Formats EchoPayload PatchBody where
  schema s := lengthIn 1 160 s.algorithmVersion && isSha256 s.parameterHash &&
    decide (0 ≤ s.completeThroughRoomSeq) && decide (s.warnings.length ≤ 64) &&
    s.warnings.all (lengthIn 1 160) && snapshotSchema .none (envelope s)
  patchShape := echoPatchShape
  payloadHash := H.payload
  patchHash := H.patch
  bodyHash := H.body
  warningsHash := H.warnings
  timestampText := H.timestampText
  samePayload := (· = ·)
  sameBody := (· = ·)

/-! ## Materialization -/

abbrev EchoTables := Tables EchoPayload PatchBody

def ECHO_VERSION : String := "echo-cm-reference-v1.1+adapter-v1"

def PARAMETER_HASH : String :=
  "04fc84f555e9a5209bc54cb9db8be001675f71b8912ae63d5343a99929305edf"

/-- The hash of the parameters of the algorithms, as sorted JSON. -/
theorem PARAMETER_HASH_eq : PARAMETER_HASH = Digest.sha256Hex
    ("\x7b\"adapterVersion\":1,\"allowedLatenessSeconds\":5,\"echoHalfLifeSeconds\":1800," ++
      "\"traceCommunicationHalfLifeSeconds\":600\x7d") := by
  decide +kernel

def roomKey (roomId : String) : String := (Uuid.canonical roomId).getD roomId

/-- `snapshot_for_head`. -/
def snapshotForHead (t : EchoTables) (snapshotId : Option String) :
    Option (SnapshotRow EchoPayload) :=
  snapshotId.bind fun id => t.snapshots.values.find? (·.snapshotId = id)

/-- `_patch_baseline`: only a snapshot of the same epoch is a base. -/
def patchBaseline (previous : Option (SnapshotRow EchoPayload)) (head : Option HeadRow)
    (epoch : String) : EchoPayload :=
  match previous, head with
  | some row, some head => if head.analysisEpoch ≠ epoch then .empty else row.payload
  | _, _ => .empty

/-- `_metadata` for an ECHO key. -/
def echoMetadata (roomId epoch : String) (version through : Int) (input : EchoInput) :
    Metadata where
  roomId
  analysisEpoch := epoch
  algorithmVersion := ECHO_VERSION
  parameterHash := PARAMETER_HASH
  projectionVersion := version
  baseVersion := version - 1
  completeThroughRoomSeq := through
  watermarkEventTime := input.watermark
  requiresReplay := input.requiresReplay && input.enqueueReplay
  warnings := (input.warnings ++
    if input.requiresReplay && input.enqueueReplay then ["requires_replay"] else []).eraseDups
  reasonCodes := []

def echoSnapshot (m : Metadata) (projectionKey : String) (payload : EchoPayload) :
    Snapshot EchoPayload where
  roomId := m.roomId
  projectionKey
  analysisEpoch := m.analysisEpoch
  algorithmVersion := m.algorithmVersion
  parameterHash := m.parameterHash
  projectionVersion := m.projectionVersion
  baseVersion := m.baseVersion
  completeThroughRoomSeq := m.completeThroughRoomSeq
  watermarkEventTime := m.watermarkEventTime
  requiresReplay := m.requiresReplay
  warnings := m.warnings
  payload

def PatchBody.changed (body : PatchBody) : Bool :=
  body.nodes.size + body.edges.size + body.positionUpdates.length ≠ 0

/-- The reason codes of a patch. -/
def reasonCodes (input : EchoInput) (body : PatchBody) : List String :=
  (if input.requiresReplay then ["late_event"] else []) ++
    [if body.changed then "event_applied" else "semantic_noop:" ++ input.latestType]

/-- The version a materialization gives its projection. -/
def nextVersion (head : Option HeadRow) (epoch : String) : Int :=
  match head with
  | none => 1
  | some head => (if head.analysisEpoch = epoch then head.version else 0) + 1

/-- The call of `persist_and_advance` for a view. -/
def echoCall (H : EchoHashes) (t : EchoTables) (roomId epoch : String) (through : Int)
    (input : EchoInput) (projectionKey snapshotId : String) (current : EchoPayload) :
    Call EchoPayload PatchBody :=
  let head := t.heads.get? (roomKey roomId, projectionKey)
  let m := echoMetadata roomId epoch (nextVersion head epoch) through input
  let prior := patchBaseline (snapshotForHead t (head.bind HeadRow.snapshotId)) head epoch
  let reasons := reasonCodes input (diffEchoSnapshots prior current projectionKey m).body
  let patch := diffEchoSnapshots prior current projectionKey { m with reasonCodes := reasons }
  { snapshot := echoSnapshot m projectionKey current
    payloadHash := H.payload current
    patch := some patch
    patchHash := some (H.patch patch)
    snapshotId }

/-- The rows of a room's ECHO projections and its consumer checkpoint. -/
structure EchoStore where
  tables : EchoTables
  checkpoint : Int

def EchoStore.init : EchoStore := ⟨.empty, 0⟩

/-- The ECHO part of `_materialize`, and the checkpoint it advances. -/
def materializeEcho (h : EchoHost) (H : EchoHashes) (roomId : String) (s : EchoStore)
    (through : Int) (epoch : String) (input : EchoInput) : Except String EchoStore := do
  let views ← projectEchoSnapshot h roomId input
  let t ← persistAndAdvance (echoFormats H) s.tables (echoCall H s.tables roomId epoch through
    input "echo.teacher_shadow" input.teacherSnapshotId views.teacher)
  let t ← persistAndAdvance (echoFormats H) t (echoCall H t roomId epoch through
    input "echo.student_approved" input.studentSnapshotId views.student)
  match input.fault with
  | some message => .error message
  | none => .ok ⟨t, max s.checkpoint through⟩

/-- What makes the worker materialize: the next event, or a replay at the checkpoint. -/
inductive Trigger
  | consume
  | replay

structure EchoJob where
  trigger : Trigger
  epoch : String
  input : EchoInput

/-- A handler that reaches `_materialize`: a consume passes the cursor gate only for the event
after the checkpoint, a replay rebuilds up to it. -/
def runEchoJob (h : EchoHost) (H : EchoHashes) (roomId : String) (s : EchoStore)
    (job : EchoJob) : Except String EchoStore :=
  match job.trigger with
  | .consume => materializeEcho h H roomId s (s.checkpoint + 1) job.epoch job.input
  | .replay => materializeEcho h H roomId s s.checkpoint job.epoch job.input

def runEchoJobs (h : EchoHost) (H : EchoHashes) (roomId : String) (jobs : List EchoJob) :
    EchoStore :=
  commitAll (runEchoJob h H roomId) .init jobs

/-! ## Reading rows back -/

/-- The server and the browser: what `toISOString` prints passes the date-time format. -/
structure Wire where
  toISOString : String → String
  dateTime : String → Bool
  iso : ∀ text, dateTime (toISOString text) = true

/-- The uuid format: hyphens in place, letters of either case. -/
def uuidFormat (text : String) : Bool :=
  Uuid.canonical text = some (String.ofList (text.toList.map Char.toLower))

def Wire.checks (W : Wire) : FormatChecks := ⟨uuidFormat, W.dateTime⟩

/-- A persisted snapshot on the wire, as `mapProjection` and `projectionWire` give it. -/
def storedSnapshot (W : Wire) (key : RowKey) (row : SnapshotRow EchoPayload) :
    ConceptMapSnapshot where
  roomId := key.roomId
  projectionKey := key.projectionKey
  analysisEpoch := key.analysisEpoch
  algorithmVersion := row.algorithmVersion
  parameterHash := row.parameterHash
  projectionVersion := key.version
  baseVersion := key.version - 1
  completeThroughRoomSeq := row.completeThroughSeq
  watermarkEventTime := W.toISOString row.watermarkEventTime
  requiresReplay := row.requiresReplay
  evidenceStatus := if row.requiresReplay then .requiresReplay else .active
  reviewStatus := reviewed (isStudent key.projectionKey &&
    (!row.payload.nodes.isEmpty || !row.payload.edges.isEmpty))
  displayStatus := if isStudent key.projectionKey then .studentApproved else .teacherShadow
  warnings := row.warnings
  payload := row.payload

/-- A persisted patch on the wire, as `mapPatch` and `patchWire` give it. -/
def storedPatch (key : RowKey) (row : PatchRow PatchBody) : ConceptMapPatch where
  analysisEpoch := key.analysisEpoch
  algorithmVersion := row.algorithmVersion
  parameterHash := row.parameterHash
  projectionVersion := key.version
  baseVersion := row.baseVersion
  completeThroughRoomSeq := row.completeThroughSeq
  requiresReplay := row.payload.requiresReplay
  warnings := row.payload.warnings
  nodes := row.payload.nodes
  edges := row.payload.edges
  positionUpdates := row.payload.positionUpdates

/-- The key of a later version of the same epoch. -/
def RowKey.later (key : RowKey) (n : Nat) : RowKey := { key with version := key.version + n }

/-- The patches of the `n` versions after a key's, in order of version. -/
def patchWindow (t : EchoTables) (key : RowKey) (n : Nat) : List ConceptMapPatch :=
  (List.range n).filterMap fun (i : Nat) =>
    (t.patches.get? (key.later (i + 1))).map (storedPatch (key.later (i + 1)))

/-- A map without content at version 0 of an epoch. -/
def emptySnapshot (W : Wire) (key : RowKey) (watermark : String) : ConceptMapSnapshot where
  roomId := key.roomId
  projectionKey := key.projectionKey
  analysisEpoch := key.analysisEpoch
  algorithmVersion := ECHO_VERSION
  parameterHash := PARAMETER_HASH
  projectionVersion := 0
  baseVersion := 0
  completeThroughRoomSeq := 0
  watermarkEventTime := W.toISOString watermark
  requiresReplay := false
  evidenceStatus := .active
  reviewStatus := .unreviewed
  displayStatus := if isStudent key.projectionKey then .studentApproved else .teacherShadow
  warnings := []
  payload := .empty

end LearningOrbit.Projection
