import LearningOrbit.Projection.Corrections

/-!
# What a student's concept map depends on

Students see the approved edges and the nodes the teacher approved or an approved edge
ends in. A node is shown with the evidence status it has in the whole map.
-/

namespace LearningOrbit.Projection

section Student

variable (h : EchoHost) (roomId : String) (input : EchoInput)

def approvedEdges : List InternalEdge :=
  input.edges.filter fun e => echoWireEdgeId h roomId e ∈ input.approvedEdgeIds

/-- The nodes that were approved, and the ends of approved edges. -/
def studentIds : List String :=
  input.approvedNodeIds ++ (approvedEdges h roomId input).flatMap fun e => [e.head, e.tail]

def approvedNodes : List InternalNode :=
  input.nodes.filter fun n => n.nodeId ∈ studentIds h roomId input

end Student

/-- Two snapshots with their approvals that differ in unapproved material only. -/
structure SameApproved (h : EchoHost) (roomId : String) (i j : EchoInput) : Prop where
  edges : approvedEdges h roomId i = approvedEdges h roomId j
  nodes : approvedNodes h roomId i = approvedNodes h roomId j

/-- An approved edge as students see it. -/
def studentEdge (h : EchoHost) (roomId : String) (e : InternalEdge) : Edge where
  edgeId := echoWireEdgeId h roomId e
  head := e.head
  predicate := e.predicate
  tail := e.tail
  relationFamily := e.relationFamily
  evidenceStatus := e.status
  reviewStatus := .approved
  displayStatus := visualStatus e.status true
  detail := none

def studentNode (h : EchoHost) (n : InternalNode) (status : EvidenceStatus) : Node where
  nodeId := n.nodeId
  label := n.label
  evidenceStatus := status
  reviewStatus := .approved
  displayStatus := visualStatus status true
  position := ⟨h.round12 ((n.x + 1) / 2), h.round12 ((n.y + 1) / 2)⟩

section Projected

variable {h : EchoHost} {roomId : String} {input : EchoInput} {views : EchoViews}

theorem projectEdge_eq {e : InternalEdge} {edge : Edge}
    (he : projectEdge h roomId input.evidence input.approvedEdgeIds e = .ok edge) :
    edge.edgeId = echoWireEdgeId h roomId e ∧ edge.head = e.head ∧ edge.tail = e.tail ∧
      (echoWireEdgeId h roomId e ∈ input.approvedEdgeIds →
        { edge with detail := none } = studentEdge h roomId e) := by
  unfold projectEdge at he
  obtain ⟨refs, -, he⟩ := bind_eq_ok.mp he
  split at he
  · cases he
  · cases he
    refine ⟨rfl, rfl, rfl, fun happroved => ?_⟩
    simp [studentEdge, happroved, reviewed]

theorem normalizePosition_eq {x y : ℚ} (hx : normalizePosition h x = .ok y) :
    y = h.round12 ((x + 1) / 2) := by
  unfold normalizePosition at hx
  split at hx
  · cases hx
  · cases hx
    rfl

theorem projectNode_eq {edges : List InternalEdge} {ids : List String} {n : InternalNode}
    {node : Node} (hn : projectNode h edges ids n = .ok node) :
    node.nodeId = n.nodeId ∧
      (n.nodeId ∈ ids → node = studentNode h n (nodeEvidenceStatus n.nodeId edges)) := by
  unfold projectNode at hn
  obtain ⟨x, hx, hn⟩ := bind_eq_ok.mp hn
  obtain ⟨y, hy, hn⟩ := bind_eq_ok.mp hn
  cases hn
  refine ⟨rfl, fun hid => ?_⟩
  simp [studentNode, hid, reviewed, normalizePosition_eq hx, normalizePosition_eq hy]

/-- The student view in terms of the approved material and the statuses of its nodes. -/
theorem projectEchoSnapshot_student (hv : projectEchoSnapshot h roomId input = .ok views) :
    views.student.edges = (approvedEdges h roomId input).map (studentEdge h roomId) ∧
      views.student.nodes = (approvedNodes h roomId input).map fun n =>
        studentNode h n (nodeEvidenceStatus n.nodeId input.edges) := by
  unfold projectEchoSnapshot at hv
  obtain ⟨edges, hedges, hv⟩ := bind_eq_ok.mp hv
  obtain ⟨nodes, hnodes, hv⟩ := bind_eq_ok.mp hv
  cases hv
  have hkept : ∀ e edge, projectEdge h roomId input.evidence input.approvedEdgeIds e = .ok edge →
      decide (edge.edgeId ∈ input.approvedEdgeIds) =
        decide (echoWireEdgeId h roomId e ∈ input.approvedEdgeIds) := by
    intro e edge he
    rw [(projectEdge_eq he).1]
  have hids : (edges.filter fun e => e.edgeId ∈ input.approvedEdgeIds).flatMap
        (fun e => [e.head, e.tail]) =
      (approvedEdges h roomId input).flatMap fun e => [e.head, e.tail] := by
    rw [List.flatMap_def, List.flatMap_def]
    congr 1
    apply map_filter_of_mapM_ok hedges hkept
    intro e edge he _
    obtain ⟨-, hhead, htail, -⟩ := projectEdge_eq he
    rw [hhead, htail]
  rw [hids] at hnodes
  constructor
  · apply map_filter_of_mapM_ok hedges hkept
    intro e edge he happroved
    exact (projectEdge_eq he).2.2.2 (of_decide_eq_true happroved)
  · dsimp only
    rw [hids, ← List.map_id (List.filter _ nodes)]
    apply map_filter_of_mapM_ok hnodes
    · intro n node hn
      rw [(projectNode_eq hn).1]
      rfl
    · intro n node hn happroved
      exact (projectNode_eq hn).2 (of_decide_eq_true happroved)

end Projected

/-! ## The status of a node -/

def Touches (nodeId : String) (e : InternalEdge) : Prop := nodeId = e.head ∨ nodeId = e.tail

/-- Some edge of the map supports the node. -/
def Supported (nodeId : String) (edges : List InternalEdge) : Prop :=
  ∃ e ∈ edges, Touches nodeId e ∧ 0 < e.channels.support

def Challenged (nodeId : String) (edges : List InternalEdge) : Prop :=
  ∃ e ∈ edges, Touches nodeId e ∧ 0 < e.channels.challenge

/-- The four statuses tell the four cases apart. -/
theorem nodeEvidenceStatus_eq_iff (nodeId : String) (edges edges' : List InternalEdge) :
    nodeEvidenceStatus nodeId edges = nodeEvidenceStatus nodeId edges' ↔
      (Supported nodeId edges ↔ Supported nodeId edges') ∧
        (Challenged nodeId edges ↔ Challenged nodeId edges') := by
  have hsupport : ∀ l : List InternalEdge, Supported nodeId l ↔
      ((l.filter fun e => nodeId = e.head ∨ nodeId = e.tail).any
        fun e => 0 < e.channels.support) = true := by
    intro l
    simp [Supported, Touches]
  have hchallenge : ∀ l : List InternalEdge, Challenged nodeId l ↔
      ((l.filter fun e => nodeId = e.head ∨ nodeId = e.tail).any
        fun e => 0 < e.channels.challenge) = true := by
    intro l
    simp [Challenged, Touches]
  rw [hsupport, hsupport, hchallenge, hchallenge]
  unfold nodeEvidenceStatus
  dsimp only
  generalize (List.any (List.filter _ edges) fun e : InternalEdge => 0 < e.channels.support) = s
  generalize (List.any (List.filter _ edges') fun e : InternalEdge => 0 < e.channels.support) = s'
  generalize (List.any (List.filter _ edges) fun e : InternalEdge => 0 < e.channels.challenge) = c
  generalize (List.any (List.filter _ edges') fun e : InternalEdge => 0 < e.channels.challenge) = c'
  revert s s' c c'
  decide

/-- Students are shown the same map exactly when no unapproved edge makes a difference to the
support or the challenge of a node they see. -/
theorem student_map_eq_iff (h : EchoHost) (roomId : String) (i j : EchoInput)
    (hsame : SameApproved h roomId i j) (v v' : EchoViews)
    (hi : projectEchoSnapshot h roomId i = .ok v) (hj : projectEchoSnapshot h roomId j = .ok v') :
    v.student = v'.student ↔ ∀ n ∈ approvedNodes h roomId i,
      (Supported n.nodeId i.edges ↔ Supported n.nodeId j.edges) ∧
        (Challenged n.nodeId i.edges ↔ Challenged n.nodeId j.edges) := by
  obtain ⟨hedges, hnodes⟩ := projectEchoSnapshot_student hi
  obtain ⟨hedges', hnodes'⟩ := projectEchoSnapshot_student hj
  rw [← hsame.edges] at hedges'
  rw [← hsame.nodes] at hnodes'
  have hpayload : v.student = v'.student ↔ v.student.nodes = v'.student.nodes := by
    constructor
    · intro he
      rw [he]
    · intro he
      exact congrArg₂ EchoPayload.mk he (hedges.trans hedges'.symm)
  rw [hpayload, hnodes, hnodes', List.map_inj_left]
  constructor
  · intro he n hn
    exact (nodeEvidenceStatus_eq_iff ..).mp (congrArg Node.evidenceStatus (he n hn))
  · intro he n hn
    rw [(nodeEvidenceStatus_eq_iff ..).mpr (he n hn)]

/-! ## A garden of which students see the plants -/

def gardenInput (edges : List InternalEdge) : EchoInput where
  nodes := [⟨"plants", "plants", 0, 0⟩, ⟨"light", "light", 1, 0⟩, ⟨"soil", "soil", -1, 0⟩]
  edges := edges
  evidence := .empty
  approvedEdgeIds := []
  approvedNodeIds := ["plants"]
  watermark := ""
  warnings := []
  requiresReplay := false
  enqueueReplay := false
  latestType := "message.added"
  teacherSnapshotId := ""
  studentSnapshotId := ""
  fault := none

/-- An edge nobody has approved. -/
def hiddenEdge (head tail : String) : InternalEdge :=
  ⟨head, "need", tail, "causal", .supported, gardenChannels, []⟩

theorem gardenInput_sameApproved (e : InternalEdge) :
    SameApproved .ascii gardenRoom (gardenInput []) (gardenInput [e]) := by
  constructor
  · simp [approvedEdges, gardenInput]
  · simp [approvedNodes, studentIds, approvedEdges, gardenInput]

/-- What an edge between other nodes does not change. -/
theorem student_map_eq_iff_apart :
    SameApproved .ascii gardenRoom (gardenInput []) (gardenInput [hiddenEdge "light" "soil"]) ∧
      ∃ v v', projectEchoSnapshot .ascii gardenRoom (gardenInput []) = .ok v ∧
        projectEchoSnapshot .ascii gardenRoom (gardenInput [hiddenEdge "light" "soil"]) = .ok v' ∧
        v.student = v'.student := by
  obtain ⟨v, hv⟩ : ∃ v, projectEchoSnapshot .ascii gardenRoom (gardenInput []) = .ok v := ⟨_, rfl⟩
  obtain ⟨v', hv'⟩ : ∃ v, projectEchoSnapshot .ascii gardenRoom
      (gardenInput [hiddenEdge "light" "soil"]) = .ok v := ⟨_, rfl⟩
  refine ⟨gardenInput_sameApproved _, v, v', hv, hv', ?_⟩
  refine (student_map_eq_iff .ascii gardenRoom _ _ (gardenInput_sameApproved _) v v' hv hv').mpr ?_
  simp [approvedNodes, studentIds, approvedEdges, gardenInput, Supported, Challenged, Touches,
    hiddenEdge]

/-- What an edge of the plants does. -/
theorem hidden_edge_seen :
    SameApproved .ascii gardenRoom (gardenInput []) (gardenInput [hiddenEdge "plants" "light"]) ∧
      ∃ v v', projectEchoSnapshot .ascii gardenRoom (gardenInput []) = .ok v ∧
        projectEchoSnapshot .ascii gardenRoom (gardenInput [hiddenEdge "plants" "light"]) = .ok v' ∧
        v.student ≠ v'.student := by
  refine ⟨gardenInput_sameApproved _, _, _, rfl, rfl, fun he => ?_⟩
  have hstatus := congrArg (fun p : EchoPayload => p.nodes.map Node.evidenceStatus) he
  revert hstatus
  decide

end LearningOrbit.Projection
