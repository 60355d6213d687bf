import LearningOrbit.Projection.EchoMap

/-!
# The concept reducer of the browser

The closed contract of a concept map snapshot, which the worker checks before it
persists one and the browser checks after each patch, and `applyConceptPatch`.
-/

namespace LearningOrbit.Projection

open LearningOrbit (Dict Delta)

inductive MapEvidence
  | active | retracted | superseded | requiresReplay
  deriving DecidableEq

inductive MapDisplay
  | hidden | teacherShadow | studentApproved
  deriving DecidableEq

structure ConceptMapSnapshot where
  roomId : String
  projectionKey : String
  analysisEpoch : String
  algorithmVersion : String
  parameterHash : String
  projectionVersion : Int
  baseVersion : Int
  completeThroughRoomSeq : Int
  watermarkEventTime : String
  requiresReplay : Bool
  evidenceStatus : MapEvidence
  reviewStatus : ReviewStatus
  displayStatus : MapDisplay
  warnings : List String
  payload : EchoPayload
  deriving DecidableEq

structure ConceptMapPatch where
  analysisEpoch : String
  algorithmVersion : String
  parameterHash : String
  projectionVersion : Int
  baseVersion : Int
  completeThroughRoomSeq : Int
  requiresReplay : Bool
  warnings : List String
  nodes : Delta String Node
  edges : Delta String Edge
  positionUpdates : List (String × Position)
  deriving DecidableEq

/-! ## The contract -/

/-- How a validator reads `format`: the worker's does not assert it. -/
structure FormatChecks where
  uuid : String → Bool
  dateTime : String → Bool

def FormatChecks.none : FormatChecks := ⟨fun _ => true, fun _ => true⟩

def lengthIn (low high : Nat) (s : String) : Bool := low ≤ s.length ∧ s.length ≤ high

def isSha256 (s : String) : Bool := s.length = 64 ∧ s.toList.all Uuid.isHex

def isStudent (projectionKey : String) : Bool := projectionKey = "echo.student_approved"

def Position.ok (p : Position) : Bool := 0 ≤ p.x ∧ p.x ≤ 1 ∧ 0 ≤ p.y ∧ p.y ≤ 1

def Node.ok (student : Bool) (n : Node) : Bool :=
  lengthIn 1 160 n.nodeId && lengthIn 1 160 n.label && n.position.ok &&
    (!student || n.reviewStatus = .approved)

def EvidenceRef.ok (checks : FormatChecks) (r : EvidenceRef) : Bool :=
  checks.uuid r.eventId && decide (0 ≤ r.start) && decide (1 ≤ r.stop)

def EdgeDetail.ok (checks : FormatChecks) (d : EdgeDetail) : Bool :=
  d.channels.values.all (0 ≤ ·) && decide (0 ≤ d.activityScore) && !d.evidenceRefs.isEmpty &&
    d.evidenceRefs.all (·.ok checks)

def Edge.ok (checks : FormatChecks) (student : Bool) (e : Edge) : Bool :=
  checks.uuid e.edgeId && lengthIn 1 160 e.head && lengthIn 1 160 e.predicate &&
    lengthIn 1 160 e.tail && lengthIn 1 80 e.relationFamily &&
    (if student then e.reviewStatus = .approved ∧ e.detail = none
      else match e.detail with
        | none => false
        | some d => d.ok checks)

/-- The branch `ConceptMapSnapshot` of the schema `echo-concept-projection.v1`. -/
def snapshotSchema (checks : FormatChecks) (s : ConceptMapSnapshot) : Bool :=
  decide (s.projectionKey = "echo.teacher_shadow" ∨ s.projectionKey = "echo.student_approved") &&
    checks.uuid s.roomId && checks.uuid s.analysisEpoch && lengthIn 1 160 s.algorithmVersion &&
    isSha256 s.parameterHash && decide (1 ≤ s.projectionVersion) && decide (0 ≤ s.baseVersion) &&
    decide (0 ≤ s.completeThroughRoomSeq) && checks.dateTime s.watermarkEventTime &&
    s.warnings.all (lengthIn 1 160) &&
    (if isStudent s.projectionKey then
      decide (s.displayStatus = .studentApproved) &&
        decide (s.reviewStatus =
          reviewed (!s.payload.nodes.isEmpty || !s.payload.edges.isEmpty))
      else decide (s.displayStatus = .teacherShadow)) &&
    s.payload.nodes.all (·.ok (isStudent s.projectionKey)) &&
    s.payload.edges.all (·.ok checks (isStudent s.projectionKey))

/-- `assertEchoSpans` on a snapshot. -/
def assertEchoSpans (p : EchoPayload) : Bool :=
  p.edges.all fun e => match e.detail with
    | none => true
    | some d => d.evidenceRefs.all fun r => r.start < r.stop

/-- `assertEchoSnapshotSemantics`. -/
def assertEchoSnapshotSemantics (s : ConceptMapSnapshot) : Bool :=
  decide (s.baseVersion = s.projectionVersion - 1) &&
    decide (s.requiresReplay = decide (s.evidenceStatus = .requiresReplay)) &&
    (if s.projectionKey = "echo.teacher_shadow" then decide (s.displayStatus = .teacherShadow)
      else decide (s.displayStatus = .studentApproved) && decide (s.reviewStatus =
        reviewed (!s.payload.nodes.isEmpty || !s.payload.edges.isEmpty))) &&
    decide (s.payload.nodes.map Node.nodeId).Nodup &&
    decide (s.payload.edges.map Edge.edgeId).Nodup &&
    (s.payload.nodes.all fun n => !isStudent s.projectionKey || n.reviewStatus = .approved) &&
    (s.payload.edges.all fun e => (!isStudent s.projectionKey || e.reviewStatus = .approved) &&
      decide (e.head ∈ s.payload.nodes.map Node.nodeId) &&
      decide (e.tail ∈ s.payload.nodes.map Node.nodeId))

/-- `analyticsContract.parseEchoSnapshot`. -/
def parseEchoSnapshot (checks : FormatChecks) (s : ConceptMapSnapshot) :
    Except String ConceptMapSnapshot :=
  if !snapshotSchema checks s then .error "INVALID_ECHO_PROJECTION"
  else if !assertEchoSpans s.payload then .error "INVALID_ECHO_EVIDENCE_SPAN"
  else if !assertEchoSnapshotSemantics s then .error "INVALID_ECHO_PROJECTION"
  else .ok s

/-! ## The reducer -/

def nodeCodes : Delta.Codes where
  addConflict := "CONCEPT_PATCH_NODE_ADD_CONFLICT"
  updateMissing := "CONCEPT_PATCH_NODE_UPDATE_MISSING"
  hideMissing := "CONCEPT_PATCH_NODE_HIDE_MISSING"

def edgeCodes : Delta.Codes where
  addConflict := "CONCEPT_PATCH_EDGE_ADD_CONFLICT"
  updateMissing := "CONCEPT_PATCH_EDGE_UPDATE_MISSING"
  hideMissing := "CONCEPT_PATCH_EDGE_HIDE_MISSING"

def updatePosition (nodes : Dict String Node) (update : String × Position) :
    Except String (Dict String Node) :=
  match nodes.get? update.1 with
  | none => .error "CONCEPT_PATCH_POSITION_TARGET_MISSING"
  | some node => .ok (nodes.set update.1 { node with position := update.2 })

/-- The checks of a patch against the snapshot it is applied to. -/
def checkBaseline (snapshot : ConceptMapSnapshot) (patch : ConceptMapPatch) :
    Except String Unit :=
  if snapshot.requiresReplay ∨ snapshot.evidenceStatus ≠ .active ∨ patch.requiresReplay then
    .error "CONCEPT_PATCH_REPLAY_REQUIRED"
  else if patch.analysisEpoch ≠ snapshot.analysisEpoch then .error "CONCEPT_PATCH_EPOCH_MISMATCH"
  else if patch.algorithmVersion ≠ snapshot.algorithmVersion ∨
      patch.parameterHash ≠ snapshot.parameterHash then .error "CONCEPT_PATCH_BASELINE_MISMATCH"
  else if patch.baseVersion ≠ snapshot.projectionVersion ∨
      patch.projectionVersion ≠ snapshot.projectionVersion + 1 then
    .error "CONCEPT_PATCH_VERSION_MISMATCH"
  else if patch.completeThroughRoomSeq < snapshot.completeThroughRoomSeq then
    .error "CONCEPT_PATCH_CURSOR_REGRESSION"
  else .ok ()

def checkDangling (nodes : Dict String Node) (edges : Dict String Edge) : Except String Unit :=
  if edges.values.all fun e => nodes.contains e.head && nodes.contains e.tail then .ok ()
  else .error "CONCEPT_PATCH_DANGLING_EDGE"

/-- The snapshot a patch leads to. -/
def patched (snapshot : ConceptMapSnapshot) (patch : ConceptMapPatch) (payload : EchoPayload) :
    ConceptMapSnapshot :=
  { snapshot with
    analysisEpoch := patch.analysisEpoch
    algorithmVersion := patch.algorithmVersion
    parameterHash := patch.parameterHash
    projectionVersion := patch.projectionVersion
    baseVersion := patch.baseVersion
    completeThroughRoomSeq := patch.completeThroughRoomSeq
    requiresReplay := false
    evidenceStatus := .active
    reviewStatus := if snapshot.projectionKey = "echo.student_approved" then
        reviewed (!payload.nodes.isEmpty || !payload.edges.isEmpty)
      else snapshot.reviewStatus
    warnings := patch.warnings
    payload }

/-- `applyConceptPatch`. -/
def applyConceptPatch (checks : FormatChecks) (snapshot : ConceptMapSnapshot)
    (patch : ConceptMapPatch) : Except String ConceptMapSnapshot := do
  checkBaseline snapshot patch
  let nodes ← Delta.apply Node.nodeId nodeCodes snapshot.payload.nodeIndex patch.nodes
  let edges ← Delta.apply Edge.edgeId edgeCodes snapshot.payload.edgeIndex patch.edges
  let nodes ← patch.positionUpdates.foldlM updatePosition nodes
  checkDangling nodes edges
  match parseEchoSnapshot checks (patched snapshot patch ⟨nodes.values, edges.values⟩) with
  | .ok next => .ok next
  | .error _ => .error "CONCEPT_PATCH_RESULT_INVALID"

end LearningOrbit.Projection
