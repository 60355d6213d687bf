import Mathlib.Data.Rat.Defs
import Mathlib.Algebra.Order.Ring.Rat
import LearningOrbit.Delta
import LearningOrbit.Text
import LearningOrbit.Projection.Store

/-!
# ECHO maps

The wire form of a concept map, its two views, the patch between two of them, and
the materialization that persists both under the projection store. Numbers are
the exact values of the JSON numerals.
-/

namespace LearningOrbit.Projection

open LearningOrbit (Dict Delta Host)

inductive EvidenceStatus
  | supported | challenged | uncertain | disputed | retracted | superseded | requiresReplay
  deriving DecidableEq

inductive ReviewStatus
  | unreviewed | approved | rejected | corrected
  deriving DecidableEq

inductive DisplayStatus
  | confirmed | provisional | disputed | inactive
  deriving DecidableEq

structure Position where
  x : ℚ
  y : ℚ
  deriving DecidableEq

/-- A span of an event's text, `start` to `end`. -/
structure EvidenceRef where
  eventId : String
  start : Int
  stop : Int
  deriving DecidableEq

structure Channels where
  support : ℚ
  challenge : ℚ
  uncertain : ℚ
  question : ℚ
  deriving DecidableEq

/-- The fields of a teacher edge that a student edge does not have. -/
structure EdgeDetail where
  channels : Channels
  activityScore : ℚ
  evidenceRefs : List EvidenceRef
  deriving DecidableEq

structure Node where
  nodeId : String
  label : String
  evidenceStatus : EvidenceStatus
  reviewStatus : ReviewStatus
  displayStatus : DisplayStatus
  position : Position
  deriving DecidableEq

structure Edge where
  edgeId : String
  head : String
  predicate : String
  tail : String
  relationFamily : String
  evidenceStatus : EvidenceStatus
  reviewStatus : ReviewStatus
  displayStatus : DisplayStatus
  detail : Option EdgeDetail
  deriving DecidableEq

structure EchoPayload where
  nodes : List Node
  edges : List Edge
  deriving DecidableEq

def EchoPayload.empty : EchoPayload := ⟨[], []⟩

def EchoPayload.nodeIndex (p : EchoPayload) : Dict String Node := Delta.index Node.nodeId p.nodes

def EchoPayload.edgeIndex (p : EchoPayload) : Dict String Edge := Delta.index Edge.edgeId p.edges

/-! ## The two views -/

/-- The worker's runtime: `str(uuid5(…))` prints a uuid, and rounding is that of floats. -/
structure EchoHost extends Host where
  uuid5_stored : ∀ ns name, Uuid.Stored (uuid5 ns name)
  round12 : ℚ → ℚ

structure InternalNode where
  nodeId : String
  label : String
  x : ℚ
  y : ℚ
  deriving DecidableEq

/-- An edge of the reference snapshot, as `_canonical_edges` lists it. -/
structure InternalEdge where
  head : String
  predicate : String
  tail : String
  relationFamily : String
  status : EvidenceStatus
  channels : Channels
  evidenceIds : List String
  deriving DecidableEq

/-- An entry of the evidence index; the event id comes from a uuid column. -/
structure IndexedEvidence where
  eventId : String
  start : Int
  stop : Int
  stored : Uuid.Stored eventId

structure Metadata where
  roomId : String
  analysisEpoch : String
  algorithmVersion : String
  parameterHash : String
  projectionVersion : Int
  baseVersion : Int
  completeThroughRoomSeq : Int
  watermarkEventTime : String
  requiresReplay : Bool
  warnings : List String
  reasonCodes : List String

def ECHO_EDGE_NAMESPACE : String := "e9dd1cf5-3f28-5fe7-9d73-8f98f8bca0e1"

/-- One character of a JSON string, written without `ensure_ascii`. -/
def jsonChar (c : Char) : String :=
  if c = '"' then "\\\"" else if c = '\\' then "\\\\" else if c = '\n' then "\\n"
  else if c = '\r' then "\\r" else if c = '\t' then "\\t" else if c.toNat = 8 then "\\b"
  else if c.toNat = 12 then "\\f"
  else if c.toNat < 32 then "\\u00" ++ String.ofList (Digest.hex [c.toNat])
  else c.toString

def jsonString (s : String) : String :=
  "\"" ++ s.toList.foldl (fun acc c => acc ++ jsonChar c) "" ++ "\""

def echoWireEdgeId (h : EchoHost) (roomId : String) (e : InternalEdge) : String :=
  h.uuid5 ECHO_EDGE_NAMESPACE ("[" ++ Text.join "," ([roomId, h.nfc e.head, h.nfc e.predicate,
    h.nfc e.tail, h.nfc e.relationFamily].map jsonString) ++ "]")

def normalizePosition (h : EchoHost) (value : ℚ) : Except String ℚ :=
  if value < -1 ∨ 1 < value then .error "reference ECHO position outside [-1,1]"
  else .ok (h.round12 ((value + 1) / 2))

def nodeEvidenceStatus (nodeId : String) (edges : List InternalEdge) : EvidenceStatus :=
  let incident := edges.filter fun e => nodeId = e.head ∨ nodeId = e.tail
  let support := incident.any fun e => 0 < e.channels.support
  let challenge := incident.any fun e => 0 < e.channels.challenge
  if support && challenge then .disputed
  else if support then .supported
  else if challenge then .challenged
  else .uncertain

def visualStatus (evidenceStatus : EvidenceStatus) (approved : Bool) : DisplayStatus :=
  if evidenceStatus = .disputed then .disputed
  else if approved ∧ evidenceStatus = .supported then .confirmed
  else .provisional

def reviewed (approved : Bool) : ReviewStatus := if approved then .approved else .unreviewed

/-- `_evidence_ref`. -/
def evidenceRef (ref : IndexedEvidence) : Except String EvidenceRef :=
  if ref.eventId = "" then .error "ECHO evidence requires eventId"
  else if ref.stop ≤ ref.start then .error "invalid ECHO evidence span"
  else .ok ⟨ref.eventId, ref.start, ref.stop⟩

def evidenceRefOf (evidence : Dict String IndexedEvidence) (id : String) :
    Except String EvidenceRef :=
  match evidence.get? id with
  | none => .error ("unknown ECHO evidence: " ++ id)
  | some ref => evidenceRef ref

def Channels.values (c : Channels) : List ℚ := [c.support, c.challenge, c.uncertain, c.question]

def projectEdge (h : EchoHost) (roomId : String) (evidence : Dict String IndexedEvidence)
    (approvedEdgeIds : List String) (e : InternalEdge) : Except String Edge := do
  let wireId := echoWireEdgeId h roomId e
  let refs ← e.evidenceIds.mapM (evidenceRefOf evidence)
  if e.channels.values.any (· < 0) then .error "ECHO channels must be finite and non-negative"
  else return {
    edgeId := wireId
    head := e.head
    predicate := e.predicate
    tail := e.tail
    relationFamily := e.relationFamily
    evidenceStatus := e.status
    reviewStatus := reviewed (wireId ∈ approvedEdgeIds)
    displayStatus := visualStatus e.status (wireId ∈ approvedEdgeIds)
    detail := some {
      channels := e.channels
      activityScore := e.channels.values.foldl max 0
      evidenceRefs := refs } }

def projectNode (h : EchoHost) (edges : List InternalEdge) (studentIds : List String)
    (n : InternalNode) : Except String Node := do
  let x ← normalizePosition h n.x
  let y ← normalizePosition h n.y
  let status := nodeEvidenceStatus n.nodeId edges
  return {
    nodeId := n.nodeId
    label := n.label
    evidenceStatus := status
    reviewStatus := reviewed (n.nodeId ∈ studentIds)
    displayStatus := visualStatus status (n.nodeId ∈ studentIds)
    position := ⟨x, y⟩ }

/-- What a materialization has computed when it comes to the ECHO projections. -/
structure EchoInput where
  nodes : List InternalNode
  edges : List InternalEdge
  evidence : Dict String IndexedEvidence
  approvedEdgeIds : List String
  approvedNodeIds : List String
  watermark : String
  warnings : List String
  requiresReplay : Bool
  enqueueReplay : Bool
  latestType : String
  teacherSnapshotId : String
  studentSnapshotId : String
  fault : Option String

structure EchoViews where
  teacher : EchoPayload
  student : EchoPayload

/-- `project_echo_snapshot`: the teacher view, and of it what students may see. -/
def projectEchoSnapshot (h : EchoHost) (roomId : String) (input : EchoInput) :
    Except String EchoViews := do
  let teacherEdges ← input.edges.mapM
    (projectEdge h roomId input.evidence input.approvedEdgeIds)
  let studentEdges := teacherEdges.filter (·.edgeId ∈ input.approvedEdgeIds)
  let studentIds := input.approvedNodeIds ++ studentEdges.flatMap fun e => [e.head, e.tail]
  let teacherNodes ← input.nodes.mapM (projectNode h input.edges studentIds)
  return {
    teacher := ⟨teacherNodes, teacherEdges⟩
    student := ⟨teacherNodes.filter (·.nodeId ∈ studentIds),
      studentEdges.map fun e => { e with detail := none }⟩ }

/-! ## Patches -/

/-- The compact payload of a stored patch. -/
structure PatchBody where
  requiresReplay : Bool
  warnings : List String
  nodes : Delta String Node
  edges : Delta String Edge
  positionUpdates : List (String × Position)
  changeScore : ℚ
  reasonCodes : List String
  evidenceRefs : Option (List EvidenceRef)
  deriving DecidableEq

/-- Python's order on strings, by code point. -/
def sorted (keys : List String) : List String := keys.insertionSort (· ≤ ·)

def EvidenceRef.le (a b : EvidenceRef) : Prop :=
  a.eventId < b.eventId ∨ a.eventId = b.eventId ∧
    (a.start < b.start ∨ a.start = b.start ∧ a.stop ≤ b.stop)

instance : DecidableRel EvidenceRef.le := fun a b =>
  inferInstanceAs (Decidable (a.eventId < b.eventId ∨ a.eventId = b.eventId ∧
    (a.start < b.start ∨ a.start = b.start ∧ a.stop ≤ b.stop)))

/-- `diff_echo_snapshots`. -/
def diffEchoSnapshots (previous current : EchoPayload) (projectionKey : String) (m : Metadata) :
    Patch PatchBody :=
  let nodes := Delta.between sorted previous.nodeIndex current.nodeIndex
  let edges := Delta.between sorted previous.edgeIndex current.edgeIndex
  let refs := ((edges.added ++ edges.updated).flatMap fun e =>
    (e.detail.map EdgeDetail.evidenceRefs).getD []).dedup.insertionSort EvidenceRef.le
  { roomId := none
    projectionKey := none
    analysisEpoch := m.analysisEpoch
    algorithmVersion := m.algorithmVersion
    parameterHash := m.parameterHash
    projectionVersion := m.projectionVersion
    baseVersion := m.baseVersion
    completeThroughRoomSeq := m.completeThroughRoomSeq
    requiresReplay := m.requiresReplay
    body :=
      { requiresReplay := m.requiresReplay
        warnings := m.warnings
        nodes
        edges
        positionUpdates := (nodes.added ++ nodes.updated).map fun n => (n.nodeId, n.position)
        changeScore := min 1 ((nodes.size + edges.size : ℕ) /
          (max 1 (previous.nodeIndex.size + previous.edgeIndex.size) : ℕ))
        reasonCodes := m.reasonCodes
        evidenceRefs := if projectionKey = "echo.student_approved" then none else some refs } }

end LearningOrbit.Projection
