import LearningOrbit.Projection.EchoStore
import LearningOrbit.Projection.StoreRuns

/-!
# Patch chains

Every persisted ECHO version carries the delta from the version before it, so a
browser that holds one version and applies the patches after it holds, map for
map, what the worker persisted.
-/

namespace LearningOrbit.Projection

open LearningOrbit (Dict Delta)

/-! ## One patch -/

theorem sorted_perm (l : List String) : (sorted l).Perm l := List.perm_insertionSort ..

/-- No edge names a node that is not there. -/
def NoDangling (p : EchoPayload) : Prop :=
  ∀ e ∈ p.edges, e.head ∈ p.nodes.map Node.nodeId ∧ e.tail ∈ p.nodes.map Node.nodeId

/-- What a browser holds of a version: its identity and its content as maps. -/
structure Holding (W : Wire) (s : ConceptMapSnapshot) (key : RowKey) (payload : EchoPayload)
    (through : Int) : Prop where
  roomId : s.roomId = key.roomId
  projectionKey : s.projectionKey = key.projectionKey
  analysisEpoch : s.analysisEpoch = key.analysisEpoch
  algorithm : s.algorithmVersion = ECHO_VERSION
  parameters : s.parameterHash = PARAMETER_HASH
  version : s.projectionVersion = key.version
  through : s.completeThroughRoomSeq = through
  replay : s.requiresReplay = false
  evidence : s.evidenceStatus = .active
  review : isStudent key.projectionKey = false → s.reviewStatus = .unreviewed
  display : s.displayStatus =
    if isStudent key.projectionKey then .studentApproved else .teacherShadow
  watermark : W.dateTime s.watermarkEventTime = true
  nodes : ∀ id, s.payload.nodeIndex.get? id = payload.nodeIndex.get? id
  edges : ∀ id, s.payload.edgeIndex.get? id = payload.edgeIndex.get? id

/-- A patch row takes a base to a snapshot row. -/
structure PatchOf (key : RowKey) (row : SnapshotRow EchoPayload) (patch : PatchRow PatchBody)
    (base : EchoPayload) (through : Int) : Prop where
  baseVersion : patch.baseVersion = key.version - 1
  completeThrough : patch.completeThroughSeq = row.completeThroughSeq
  algorithm : patch.algorithmVersion = ECHO_VERSION
  parameters : patch.parameterHash = PARAMETER_HASH
  replay : patch.payload.requiresReplay = row.requiresReplay
  warnings : patch.payload.warnings = row.warnings
  nodes : patch.payload.nodes = Delta.between sorted base.nodeIndex row.payload.nodeIndex
  edges : patch.payload.edges = Delta.between sorted base.edgeIndex row.payload.edgeIndex
  positions : patch.payload.positionUpdates =
    (patch.payload.nodes.added ++ patch.payload.nodes.updated).map fun n => (n.nodeId, n.position)
  cursor : through ≤ row.completeThroughSeq

/-- A snapshot row the browser accepts, whatever it refers to. -/
structure RowOk (W : Wire) (key : RowKey) (row : SnapshotRow EchoPayload) : Prop where
  schema : snapshotSchema W.checks (storedSnapshot W key row) = true
  spans : assertEchoSpans row.payload = true
  algorithm : row.algorithmVersion = ECHO_VERSION
  parameters : row.parameterHash = PARAMETER_HASH

theorem Holding.checkBaseline {W : Wire} {s : ConceptMapSnapshot} {key : RowKey}
    {row : SnapshotRow EchoPayload} {patch : PatchRow PatchBody} {base : EchoPayload}
    {through : Int} (hs : Holding W s { key with version := key.version - 1 } base through)
    (hp : PatchOf key row patch base through) (hreplay : row.requiresReplay = false) :
    checkBaseline s (storedPatch key patch) = .ok () := by
  have hversion : s.projectionVersion = key.version - 1 := hs.version
  have hepoch : s.analysisEpoch = key.analysisEpoch := hs.analysisEpoch
  have hcursor := hp.cursor
  unfold Projection.checkBaseline storedPatch
  rw [if_neg (by simp [hs.replay, hs.evidence, hp.replay, hreplay]), if_neg (by simp [hepoch]),
    if_neg (by simp [hs.algorithm, hs.parameters, hp.algorithm, hp.parameters]),
    if_neg (by simp [hversion, hp.baseVersion]),
    if_neg (by simp [hs.through, hp.completeThrough]; omega)]

/-- Moving nodes to where they are changes nothing. -/
theorem foldlM_updatePosition {cur nodes : Dict String Node} {items : List Node}
    (hget : ∀ id, nodes.get? id = cur.get? id) (hitems : ∀ n ∈ items, cur.get? n.nodeId = some n) :
    ∃ nodes', (items.map fun n => (n.nodeId, n.position)).foldlM updatePosition nodes = .ok nodes' ∧
      ∀ id, nodes'.get? id = cur.get? id := by
  induction items generalizing nodes with
  | nil => exact ⟨nodes, rfl, hget⟩
  | cons n items ih =>
    have hn := hitems n (List.mem_cons_self ..)
    have hstep : updatePosition nodes (n.nodeId, n.position) = .ok (nodes.set n.nodeId n) := by
      unfold updatePosition
      simp only [hget, hn]
    have hget' (id : String) : (nodes.set n.nodeId n).get? id = cur.get? id := by
      rw [Dict.get?_set]
      split
      · rename_i hid
        rw [hid, hn]
      · exact hget id
    obtain ⟨nodes', hfold, h⟩ := ih hget' fun m hm => hitems m (List.mem_cons_of_mem _ hm)
    refine ⟨nodes', ?_, h⟩
    rw [List.map_cons, List.foldlM_cons, hstep]
    exact hfold

/-- The snapshot a patch leads to, next to the persisted one: same identity, and content drawn
from it. -/
structure Mirrors (W : Wire) (next : ConceptMapSnapshot) (key : RowKey)
    (row : SnapshotRow EchoPayload) (nodes : Dict String Node) (edges : Dict String Edge) :
    Prop where
  holding : Holding W next key row.payload row.completeThroughSeq
  baseVersion : next.baseVersion = key.version - 1
  warnings : next.warnings = row.warnings
  review : next.reviewStatus = (storedSnapshot W key row).reviewStatus
  payload : next.payload = ⟨nodes.values, edges.values⟩
  nodes : ∀ id, nodes.get? id = row.payload.nodeIndex.get? id
  edges : ∀ id, edges.get? id = row.payload.edgeIndex.get? id

section Mirrors

variable {W : Wire} {next : ConceptMapSnapshot} {key : RowKey} {row : SnapshotRow EchoPayload}
  {nodes : Dict String Node} {edges : Dict String Edge} (hm : Mirrors W next key row nodes edges)

include hm

theorem Mirrors.mem_nodes {n : Node} (hn : n ∈ next.payload.nodes) : n ∈ row.payload.nodes := by
  rw [hm.payload] at hn
  obtain ⟨id, hid⟩ := Dict.mem_values.mp hn
  rw [hm.nodes] at hid
  exact Delta.mem_of_index hid

theorem Mirrors.mem_edges {e : Edge} (he : e ∈ next.payload.edges) : e ∈ row.payload.edges := by
  rw [hm.payload] at he
  obtain ⟨id, hid⟩ := Dict.mem_values.mp he
  rw [hm.edges] at hid
  exact Delta.mem_of_index hid

theorem Mirrors.nodes_keyed : Delta.Keyed Node.nodeId nodes := by
  intro id n hn
  rw [hm.nodes] at hn
  exact Delta.index_keyed _ id n hn

theorem Mirrors.edges_keyed : Delta.Keyed Edge.edgeId edges := by
  intro id e he
  rw [hm.edges] at he
  exact Delta.index_keyed _ id e he

theorem Mirrors.isEmpty : next.payload.nodes.isEmpty = row.payload.nodes.isEmpty ∧
    next.payload.edges.isEmpty = row.payload.edges.isEmpty := by
  rw [hm.payload]
  exact ⟨Delta.isEmpty_values hm.nodes, Delta.isEmpty_values hm.edges⟩

theorem Mirrors.mem_nodeIds {id : String} :
    id ∈ next.payload.nodes.map Node.nodeId ↔ id ∈ row.payload.nodes.map Node.nodeId := by
  rw [hm.payload, Delta.map_values hm.nodes_keyed, ← Delta.mem_keys_index]
  exact Delta.mem_keys_congr hm.nodes

/-- What the schema says of the persisted snapshot it says of the reduced one. -/
theorem Mirrors.schema (hrow : snapshotSchema W.checks (storedSnapshot W key row) = true)
    (ha : row.algorithmVersion = ECHO_VERSION) (hp : row.parameterHash = PARAMETER_HASH) :
    snapshotSchema W.checks next = true := by
  have hkey := hm.holding.projectionKey
  have hdisplay := hm.holding.display
  have hreview := hm.review
  unfold snapshotSchema at hrow ⊢
  simp only [Bool.and_eq_true, decide_eq_true_eq, List.all_eq_true] at hrow ⊢
  obtain ⟨⟨⟨⟨⟨⟨⟨⟨⟨⟨⟨⟨hk, hroom⟩, hepoch⟩, hlen⟩, hsha⟩, hversion⟩, hbase⟩, hthrough⟩, -⟩,
    hwarnings⟩, hstatus⟩, hnodes⟩, hedges⟩ := hrow
  refine ⟨⟨⟨⟨⟨⟨⟨⟨⟨⟨⟨⟨by rw [hkey]; exact hk, by rw [hm.holding.roomId]; exact hroom⟩,
    by rw [hm.holding.analysisEpoch]; exact hepoch⟩,
    by rw [hm.holding.algorithm, ← ha]; exact hlen⟩,
    by rw [hm.holding.parameters, ← hp]; exact hsha⟩,
    by rw [hm.holding.version]; exact hversion⟩, by rw [hm.baseVersion]; exact hbase⟩,
    by rw [hm.holding.through]; exact hthrough⟩, hm.holding.watermark⟩,
    by rw [hm.warnings]; exact hwarnings⟩, ?_⟩, ?_⟩, ?_⟩
  · rw [hkey, hdisplay, hreview, hm.isEmpty.1, hm.isEmpty.2]
    exact hstatus
  · intro n hn
    rw [hkey]
    exact hnodes n (hm.mem_nodes hn)
  · intro e he
    rw [hkey]
    exact hedges e (hm.mem_edges he)

theorem Mirrors.spans (hrow : assertEchoSpans row.payload = true) :
    assertEchoSpans next.payload = true := by
  unfold assertEchoSpans at hrow ⊢
  rw [List.all_eq_true] at hrow ⊢
  exact fun e he => hrow e (hm.mem_edges he)

theorem Mirrors.semantics (hrow : snapshotSchema W.checks (storedSnapshot W key row) = true)
    (hd : NoDangling row.payload) : assertEchoSnapshotSemantics next = true := by
  have hkey := hm.holding.projectionKey
  have hdisplay := hm.holding.display
  have hreview := hm.review
  unfold snapshotSchema at hrow
  simp only [Bool.and_eq_true, decide_eq_true_eq, List.all_eq_true] at hrow
  obtain ⟨⟨⟨⟨⟨⟨⟨⟨⟨⟨⟨⟨hk, -⟩, -⟩, -⟩, -⟩, -⟩, -⟩, -⟩, -⟩, -⟩, -⟩, hnodes⟩, hedges⟩ := hrow
  have hk : key.projectionKey = "echo.teacher_shadow" ∨
      key.projectionKey = "echo.student_approved" := hk
  unfold assertEchoSnapshotSemantics
  simp only [Bool.and_eq_true, decide_eq_true_eq, List.all_eq_true]
  refine ⟨⟨⟨⟨⟨⟨?_, ?_⟩, ?_⟩, ?_⟩, ?_⟩, ?_⟩, ?_⟩
  · rw [hm.baseVersion, hm.holding.version]
  · rw [hm.holding.replay, hm.holding.evidence]; rfl
  · rw [hkey, hdisplay, hreview, hm.isEmpty.1, hm.isEmpty.2]
    rcases hk with hk | hk <;> simp [hk, isStudent, storedSnapshot]
  · rw [hm.payload, Delta.map_values hm.nodes_keyed]; exact nodes.keys_nodup
  · rw [hm.payload, Delta.map_values hm.edges_keyed]; exact edges.keys_nodup
  · intro n hn
    have hok : n.ok (isStudent key.projectionKey) = true := hnodes n (hm.mem_nodes hn)
    unfold Node.ok at hok
    rw [hkey]
    exact (Bool.and_eq_true_iff.mp hok).2
  · intro e he
    obtain ⟨hhead, htail⟩ := hd e (hm.mem_edges he)
    have hok : e.ok W.checks (isStudent key.projectionKey) = true := hedges e (hm.mem_edges he)
    refine ⟨⟨?_, hm.mem_nodeIds.mpr hhead⟩, hm.mem_nodeIds.mpr htail⟩
    unfold Edge.ok at hok
    rw [hkey]
    cases hstudent : isStudent key.projectionKey with
    | false => rfl
    | true =>
      rw [hstudent] at hok
      simpa using (of_decide_eq_true (Bool.and_eq_true_iff.mp hok).2).1

theorem Mirrors.parse (hrow : RowOk W key row) (hd : NoDangling row.payload) :
    parseEchoSnapshot W.checks next = .ok next := by
  unfold parseEchoSnapshot
  rw [hm.schema hrow.schema hrow.algorithm hrow.parameters, hm.spans hrow.spans,
    hm.semantics hrow.schema hd]
  rfl

end Mirrors

/-- The result of a patch mirrors the row it was made for. -/
theorem Holding.mirrors {W : Wire} {s : ConceptMapSnapshot} {key : RowKey}
    {row : SnapshotRow EchoPayload} {patch : PatchRow PatchBody} {base : EchoPayload}
    {through : Int} (hs : Holding W s { key with version := key.version - 1 } base through)
    (hp : PatchOf key row patch base through) {nodes : Dict String Node} {edges : Dict String Edge}
    (hnodes : ∀ id, nodes.get? id = row.payload.nodeIndex.get? id)
    (hedges : ∀ id, edges.get? id = row.payload.edgeIndex.get? id) :
    Mirrors W (patched s (storedPatch key patch) ⟨nodes.values, edges.values⟩) key row nodes
      edges := by
  have hkey : s.projectionKey = key.projectionKey := hs.projectionKey
  have hkeyed : Delta.Keyed Node.nodeId nodes :=
    fun id n hn => Delta.index_keyed _ id n ((hnodes id).symm.trans hn)
  have hkeyedE : Delta.Keyed Edge.edgeId edges :=
    fun id e he => Delta.index_keyed _ id e ((hedges id).symm.trans he)
  have hreview : (patched s (storedPatch key patch) ⟨nodes.values, edges.values⟩).reviewStatus =
      (storedSnapshot W key row).reviewStatus := by
    simp only [patched, storedSnapshot, hkey, Delta.isEmpty_values hnodes,
      Delta.isEmpty_values hedges, isStudent]
    by_cases hstudent : key.projectionKey = "echo.student_approved"
    · simp [hstudent]
    · have := hs.review (by simpa [isStudent] using hstudent)
      simp [hstudent, this, reviewed]
  refine ⟨⟨hs.roomId, hkey, rfl, hp.algorithm, hp.parameters, rfl, hp.completeThrough, rfl, rfl,
    ?_, hs.display, hs.watermark, ?_, ?_⟩, hp.baseVersion, hp.warnings, hreview, rfl, hnodes,
    hedges⟩
  · intro hteacher
    rw [hreview]
    simp [storedSnapshot, hteacher, reviewed]
  · intro id
    exact (Delta.get?_index_values hkeyed id).trans (hnodes id)
  · intro id
    exact (Delta.get?_index_values hkeyedE id).trans (hedges id)

/-- A browser that holds the version before a row and applies the row's patch holds the row. -/
theorem Holding.step {W : Wire} {s : ConceptMapSnapshot} {key : RowKey}
    {row : SnapshotRow EchoPayload} {patch : PatchRow PatchBody} {base : EchoPayload}
    {through : Int} (hs : Holding W s { key with version := key.version - 1 } base through)
    (hp : PatchOf key row patch base through) (hrow : RowOk W key row)
    (hreplay : row.requiresReplay = false) (hd : NoDangling row.payload) :
    ∃ next, applyConceptPatch W.checks s (storedPatch key patch) = .ok next ∧
      Holding W next key row.payload row.completeThroughSeq ∧ next.warnings = row.warnings ∧
      next.reviewStatus = (storedSnapshot W key row).reviewStatus := by
  have hkeyed : Delta.Keyed Node.nodeId row.payload.nodeIndex := Delta.index_keyed _
  have hkeyedE : Delta.Keyed Edge.edgeId row.payload.edgeIndex := Delta.index_keyed _
  obtain ⟨nodes₁, hnodes₁, hget₁⟩ : ∃ nodes, Delta.apply Node.nodeId nodeCodes
      s.payload.nodeIndex patch.payload.nodes = .ok nodes ∧
      ∀ id, nodes.get? id = row.payload.nodeIndex.get? id := by
    rw [hp.nodes]
    exact Delta.apply_between sorted_perm hkeyed hs.nodes
  obtain ⟨edges, hedges, hgetE⟩ : ∃ edges, Delta.apply Edge.edgeId edgeCodes
      s.payload.edgeIndex patch.payload.edges = .ok edges ∧
      ∀ id, edges.get? id = row.payload.edgeIndex.get? id := by
    rw [hp.edges]
    exact Delta.apply_between sorted_perm hkeyedE hs.edges
  obtain ⟨nodes, hnodes, hget⟩ : ∃ nodes,
      patch.payload.positionUpdates.foldlM updatePosition nodes₁ = .ok nodes ∧
      ∀ id, nodes.get? id = row.payload.nodeIndex.get? id := by
    rw [hp.positions]
    refine foldlM_updatePosition hget₁ fun n hn => ?_
    rw [hp.nodes] at hn
    exact Delta.mem_between hkeyed hn
  have hdangling : checkDangling nodes edges = .ok () := by
    have hnode {id : String} (hid : id ∈ row.payload.nodes.map Node.nodeId) :
        nodes.contains id = true := by
      rw [Dict.contains_iff, Delta.mem_keys_congr hget]
      exact Delta.mem_keys_index.mpr hid
    unfold checkDangling
    rw [if_pos]
    rw [List.all_eq_true]
    intro e he
    obtain ⟨id, hid⟩ := Dict.mem_values.mp he
    rw [hgetE] at hid
    obtain ⟨hhead, htail⟩ := hd e (Delta.mem_of_index hid)
    rw [hnode hhead, hnode htail]
    rfl
  have hm : Mirrors W (patched s (storedPatch key patch) ⟨nodes.values, edges.values⟩) key row
      nodes edges := hs.mirrors hp hget hgetE
  refine ⟨_, ?_, hm.holding, hm.warnings, hm.review⟩
  unfold applyConceptPatch
  rw [hs.checkBaseline hp hreplay]
  simp only [storedPatch, bind, Except.bind, hnodes₁, hedges, hnodes, hdangling]
  have hparse := hm.parse hrow hd
  simp only [storedPatch] at hparse
  rw [hparse]

/-! ## Persisted rows -/

/-- Ids and spans of the edges of a view are those the contract asks for. -/
def Projected (p : EchoPayload) : Prop :=
  ∀ e ∈ p.edges, Uuid.Stored e.edgeId ∧
    ∀ d, e.detail = some d → ∀ r ∈ d.evidenceRefs, Uuid.Stored r.eventId ∧ r.start < r.stop

theorem evidenceRefOf_ok {evidence : Dict String IndexedEvidence} {id : String} {r : EvidenceRef}
    (hr : evidenceRefOf evidence id = .ok r) : Uuid.Stored r.eventId ∧ r.start < r.stop := by
  unfold evidenceRefOf at hr
  split at hr
  · cases hr
  · rename_i ref _
    unfold evidenceRef at hr
    split at hr
    · cases hr
    · split at hr
      · cases hr
      · rename_i hspan
        cases hr
        exact ⟨ref.stored, Int.not_le.mp hspan⟩

theorem projectEdge_ok {h : EchoHost} {roomId : String} {evidence : Dict String IndexedEvidence}
    {approved : List String} {e : InternalEdge} {edge : Edge}
    (he : projectEdge h roomId evidence approved e = .ok edge) :
    Uuid.Stored edge.edgeId ∧
      ∀ d, edge.detail = some d → ∀ r ∈ d.evidenceRefs, Uuid.Stored r.eventId ∧ r.start < r.stop := by
  unfold projectEdge at he
  obtain ⟨refs, hrefs, he⟩ := bind_eq_ok.mp he
  split at he
  · cases he
  · cases he
    refine ⟨h.uuid5_stored _ _, ?_⟩
    rintro d ⟨⟩ r hr
    obtain ⟨id, -, hid⟩ := mem_of_mapM_ok hrefs r hr
    exact evidenceRefOf_ok hid

theorem projectEchoSnapshot_projected {h : EchoHost} {roomId : String} {input : EchoInput}
    {views : EchoViews} (hv : projectEchoSnapshot h roomId input = .ok views) :
    Projected views.teacher ∧ Projected views.student := by
  unfold projectEchoSnapshot at hv
  obtain ⟨edges, hedges, hv⟩ := bind_eq_ok.mp hv
  obtain ⟨nodes, -, hv⟩ := bind_eq_ok.mp hv
  cases hv
  have hteacher : Projected ⟨nodes, edges⟩ := by
    intro e he
    obtain ⟨i, -, hi⟩ := mem_of_mapM_ok hedges e he
    exact projectEdge_ok hi
  refine ⟨hteacher, ?_⟩
  intro e he
  obtain ⟨f, hf, rfl⟩ := List.mem_map.mp he
  exact ⟨(hteacher f (List.mem_of_mem_filter hf)).1, nofun⟩

theorem uuidFormat_stored {id : String} (h : Uuid.Stored id) : uuidFormat id = true := by
  unfold uuidFormat
  rw [h.lower]
  exact decide_eq_true h

theorem Projected.spans {p : EchoPayload} (hp : Projected p) : assertEchoSpans p = true := by
  unfold assertEchoSpans
  rw [List.all_eq_true]
  intro e he
  cases hd : e.detail with
  | none => rfl
  | some d =>
    change d.evidenceRefs.all _ = true
    rw [List.all_eq_true]
    intro r hr
    simpa using ((hp e he).2 d hd r hr).2

/-- An edge the worker's validator accepts passes with the formats asserted. -/
theorem Projected.edge_ok {W : Wire} {p : EchoPayload} (hp : Projected p) {e : Edge}
    (he : e ∈ p.edges) {student : Bool} (hok : e.ok .none student = true) :
    e.ok W.checks student = true := by
  obtain ⟨hid, hrefs⟩ := hp e he
  have huuid : W.checks.uuid e.edgeId = true := uuidFormat_stored hid
  unfold Edge.ok at hok ⊢
  simp only [Bool.and_eq_true] at hok ⊢
  obtain ⟨⟨⟨⟨⟨-, hhead⟩, hpredicate⟩, htail⟩, hfamily⟩, hdetail⟩ := hok
  refine ⟨⟨⟨⟨⟨huuid, hhead⟩, hpredicate⟩, htail⟩, hfamily⟩, ?_⟩
  cases student with
  | true => exact hdetail
  | false =>
    cases hd : e.detail with
    | none => rw [hd] at hdetail; exact hdetail
    | some d =>
      rw [hd] at hdetail
      simp only [Bool.false_eq_true, ↓reduceIte, EdgeDetail.ok, Bool.and_eq_true,
        List.all_eq_true] at hdetail ⊢
      refine ⟨hdetail.1, fun r hr => ?_⟩
      have hr' := hdetail.2 r hr
      simp only [EvidenceRef.ok, Bool.and_eq_true] at hr' ⊢
      exact ⟨⟨uuidFormat_stored (hrefs d hd r hr).1, hr'.1.2⟩, hr'.2⟩

/-- A new snapshot row is one the browser accepts. -/
theorem rowOk_snapshotRow {W : Wire} {H : EchoHashes} {call : Call EchoPayload PatchBody}
    (hsnapshot : validateSnapshot (echoFormats H) call.snapshot call.payloadHash = .ok ())
    (hproj : Projected call.snapshot.payload)
    (ha : call.snapshot.algorithmVersion = ECHO_VERSION)
    (hp : call.snapshot.parameterHash = PARAMETER_HASH) :
    RowOk W call.snapshot.rowKey (snapshotRow (echoFormats H) call) := by
  obtain ⟨hroom, hepoch, hpos, hbase⟩ := validateSnapshot_ok hsnapshot
  have hformats := validateSnapshot_schema hsnapshot
  simp only [echoFormats, Bool.and_eq_true] at hformats
  have hschema := hformats.2
  refine ⟨?_, hproj.spans, ha, hp⟩
  simp only [snapshotSchema, envelope, Bool.and_eq_true, List.all_eq_true] at hschema
  obtain ⟨⟨⟨⟨⟨⟨⟨⟨⟨⟨⟨⟨hk, -⟩, -⟩, hlen⟩, hsha⟩, hversion⟩, -⟩, hthrough⟩, -⟩, hwarnings⟩, hstatus⟩,
    hnodes⟩, hedges⟩ := hschema
  have hbase : decide (0 ≤ call.snapshot.rowKey.version - 1) = true :=
    decide_eq_true (show 0 ≤ call.snapshot.projectionVersion - 1 by omega)
  have huuid {text id : String} (h : Uuid.canonical text = some id) :
      W.checks.uuid id = true := uuidFormat_stored (Uuid.canonical_stored h)
  simp only [snapshotSchema, storedSnapshot, snapshotRow, Bool.and_eq_true, List.all_eq_true]
  exact ⟨⟨⟨⟨⟨⟨⟨⟨⟨⟨⟨⟨hk, huuid hroom⟩, huuid hepoch⟩, hlen⟩, hsha⟩, hversion⟩, hbase⟩, hthrough⟩,
    W.iso _⟩, hwarnings⟩, hstatus⟩, hnodes⟩, fun e he => hproj.edge_ok he (hedges e he)⟩

/-- The base of a version: the version before it, or nothing. -/
def IsBase (t : EchoTables) (key : RowKey) (base : EchoPayload) (through : Int) : Prop :=
  (key.version = 1 ∧ base = .empty ∧ through = 0) ∨
    ∃ prior, t.snapshots.get? { key with version := key.version - 1 } = some prior ∧
      base = prior.payload ∧ through = prior.completeThroughSeq

/-- A persisted snapshot with the patch that leads to it. -/
structure Linked (W : Wire) (t : EchoTables) (key : RowKey) (row : SnapshotRow EchoPayload) :
    Prop where
  ok : RowOk W key row
  patch : ∃ patch base through, t.patches.get? key = some patch ∧ IsBase t key base through ∧
    PatchOf key row patch base through

/-- All persisted snapshots are linked, and none is ahead of the consumer. -/
structure Chained (W : Wire) (t : EchoTables) (checkpoint : Int) : Prop where
  sound : Sound t
  started : ∀ k head, t.heads.get? k = some head → 1 ≤ head.version
  unique : ∀ k k' row row', t.snapshots.get? k = some row → t.snapshots.get? k' = some row' →
    row.snapshotId = row'.snapshotId → row = row'
  linked : ∀ key row, t.snapshots.get? key = some row → Linked W t key row
  behind : ∀ key row, t.snapshots.get? key = some row → row.completeThroughSeq ≤ checkpoint

theorem IsBase.mono {t t' : EchoTables} {key : RowKey} {base : EchoPayload} {through : Int}
    (hb : IsBase t key base through) (hk : Kept t t') : IsBase t' key base through := by
  rcases hb with hfirst | ⟨prior, hprior, hrest⟩
  · exact .inl hfirst
  · exact .inr ⟨prior, hk.1 _ _ hprior, hrest⟩

theorem Linked.mono {W : Wire} {t t' : EchoTables} {key : RowKey} {row : SnapshotRow EchoPayload}
    (hl : Linked W t key row) (hk : Kept t t') : Linked W t' key row := by
  obtain ⟨hok, patch, base, through, hpatch, hbase, hof⟩ := hl
  exact ⟨hok, patch, base, through, hk.2 _ _ hpatch, hbase.mono hk, hof⟩

/-- The head of an epoch leads to the snapshot at its version. -/
theorem Chained.snapshotForHead {W : Wire} {t : EchoTables} {c : Int} (hc : Chained W t c)
    {room projectionKey : String} {head : HeadRow}
    (hhead : t.heads.get? (room, projectionKey) = some head) :
    ∃ row, t.snapshots.get? ⟨room, projectionKey, head.analysisEpoch, head.version⟩ = some row ∧
      snapshotForHead t head.snapshotId = some row := by
  have hpos := hc.started _ head hhead
  rcases hc.sound.heads _ _ head hhead with hzero | ⟨row, hrow, hid⟩
  · omega
  · refine ⟨row, hrow, ?_⟩
    unfold Projection.snapshotForHead
    rw [hid, Option.bind_some]
    cases hfind : t.snapshots.values.find? (·.snapshotId = row.snapshotId) with
    | none =>
      have := List.find?_eq_none.mp hfind row (Dict.mem_values.mpr ⟨_, hrow⟩)
      simp at this
    | some found =>
      have hsame : found.snapshotId = row.snapshotId := by
        simpa using List.find?_some hfind
      obtain ⟨k, hk⟩ := Dict.mem_values.mp (List.mem_of_find?_eq_some hfind)
      rw [hc.unique _ _ _ _ hk hrow hsame]

section Persist

variable {W : Wire} {H : EchoHashes} {t t' : EchoTables} {c through : Int}
  {roomId epoch projectionKey snapshotId : String} {input : EchoInput} {current : EchoPayload}

/-- The payload a materialization diffs against. -/
def priorOf (t : EchoTables) (roomId epoch projectionKey : String) : EchoPayload :=
  patchBaseline (snapshotForHead t
    ((t.heads.get? (roomKey roomId, projectionKey)).bind HeadRow.snapshotId))
    (t.heads.get? (roomKey roomId, projectionKey)) epoch

/-- The baseline of a materialization is the base of the version it gives. -/
theorem priorOf_isBase (hc : Chained W t c) {key : RowKey}
    (hroom : key.roomId = roomKey roomId) (hkey : key.projectionKey = projectionKey)
    (hversion : key.version =
      nextVersion (t.heads.get? (roomKey roomId, projectionKey)) epoch)
    (hepoch : Uuid.canonical epoch = some key.analysisEpoch) :
    ∃ before, IsBase t key (priorOf t roomId epoch projectionKey) before ∧ before ≤ max 0 c := by
  unfold priorOf
  cases hhead : t.heads.get? (roomKey roomId, projectionKey) with
  | none =>
    rw [hhead] at hversion
    exact ⟨0, .inl ⟨hversion, rfl, rfl⟩, by omega⟩
  | some head =>
    rw [hhead] at hversion
    obtain ⟨row, hrow, hfor⟩ := hc.snapshotForHead hhead
    simp only [nextVersion] at hversion
    simp only [Option.bind_some, hfor, patchBaseline]
    by_cases hsame : head.analysisEpoch = epoch
    · have hstored : Uuid.canonical head.analysisEpoch = some head.analysisEpoch :=
        hc.sound.stored _ _ hhead
      rw [hsame, hepoch] at hstored
      rw [if_pos hsame] at hversion
      have hprior : ({ key with version := key.version - 1 } : RowKey) =
          ⟨roomKey roomId, projectionKey, head.analysisEpoch, head.version⟩ := by
        rw [hsame, ← Option.some.inj hstored, hroom, hkey, hversion]
        congr 1
        omega
      refine ⟨row.completeThroughSeq, .inr ⟨row, by rw [hprior]; exact hrow, ?_, rfl⟩, ?_⟩
      · simp [hsame]
      · exact Int.le_trans (hc.behind _ _ hrow) (Int.le_max_right ..)
    · rw [if_neg hsame] at hversion
      refine ⟨0, .inl ⟨by omega, ?_, rfl⟩, Int.le_max_left ..⟩
      simp [hsame]

theorem existingPatchMatches_echo {row : PatchRow PatchBody} {snapshot : Snapshot EchoPayload}
    {patch : Patch PatchBody}
    (h : existingPatchMatches (echoFormats H) (some row) snapshot patch = true) :
    row.baseVersion = patch.baseVersion ∧
      row.completeThroughSeq = patch.completeThroughRoomSeq ∧
      row.algorithmVersion = patch.algorithmVersion ∧ row.parameterHash = patch.parameterHash ∧
      row.payload = patch.body := by
  simp only [existingPatchMatches, echoFormats, Bool.and_eq_true, decide_eq_true_eq] at h
  tauto

/-- The patch row of a call is the patch it was given, found or written. -/
theorem patchOf_echoCall {row : PatchRow PatchBody} {patch : Patch PatchBody} {before : Int}
    (hpatch : (echoCall H t roomId epoch through input projectionKey snapshotId current).patch =
      some patch)
    (hrow : row = patchRow (echoFormats H)
        (echoCall H t roomId epoch through input projectionKey snapshotId current).snapshot patch ∨
      existingPatchMatches (echoFormats H) (some row)
        (echoCall H t roomId epoch through input projectionKey snapshotId current).snapshot patch)
    (hbefore : before ≤ through) :
    PatchOf (echoCall H t roomId epoch through input projectionKey snapshotId current).snapshot.rowKey
      (snapshotRow (echoFormats H)
        (echoCall H t roomId epoch through input projectionKey snapshotId current))
      row (priorOf t roomId epoch projectionKey) before := by
  cases hpatch
  rcases hrow with rfl | hm
  · exact ⟨rfl, rfl, rfl, rfl, rfl, rfl, rfl, rfl, rfl, hbefore⟩
  · obtain ⟨hbase, hthrough, ha, hp, hbody⟩ := existingPatchMatches_echo hm
    refine ⟨hbase, hthrough, ha, hp, ?_, ?_, ?_, ?_, ?_, hbefore⟩ <;> rw [hbody] <;> rfl

theorem Chained.weaken (hc : Chained W t c) (hle : c ≤ through) : Chained W t through :=
  ⟨hc.sound, hc.started, hc.unique, hc.linked,
    fun key row hrow => Int.le_trans (hc.behind key row hrow) hle⟩

theorem Installed.started {call : Call EchoPayload PatchBody} (hi : Installed (echoFormats H) t call t')
    (hpos : 1 ≤ call.snapshot.projectionVersion)
    (hs : ∀ k head, t.heads.get? k = some head → 1 ≤ head.version) :
    ∀ k head, t'.heads.get? k = some head → 1 ≤ head.version := by
  intro k head hhead
  by_cases hk : k = call.snapshot.rowKey.head
  · obtain ⟨row, -, hnew, -⟩ := hi.snapshot
    rw [hk, hnew] at hhead
    cases hhead
    exact hpos
  · rw [hi.otherHeads k hk] at hhead
    exact hs k head hhead

/-- A row after an install was there before, or is the new row of the call. -/
theorem Installed.row_cases {call : Call EchoPayload PatchBody}
    (hi : Installed (echoFormats H) t call t') {key : RowKey} {row : SnapshotRow EchoPayload}
    (hrow : t'.snapshots.get? key = some row) :
    t.snapshots.get? key = some row ∨
      key = call.snapshot.rowKey ∧ row = snapshotRow (echoFormats H) call ∧
        ∀ other ∈ t.snapshots.values, other.snapshotId ≠ call.snapshotId := by
  by_cases hk : key = call.snapshot.rowKey
  · subst hk
    obtain ⟨new, hnew, -, ⟨-, hrow', hfresh⟩ | ⟨hold, -⟩⟩ := hi.snapshot
    · rw [hrow] at hnew
      cases hnew
      exact .inr ⟨rfl, hrow', hfresh⟩
    · rw [hrow] at hnew
      cases hnew
      exact .inl hold
  · rw [hi.otherSnapshots key hk] at hrow
    exact .inl hrow

theorem Installed.unique {call : Call EchoPayload PatchBody}
    (hi : Installed (echoFormats H) t call t')
    (hu : ∀ k k' row row', t.snapshots.get? k = some row → t.snapshots.get? k' = some row' →
      row.snapshotId = row'.snapshotId → row = row') :
    ∀ k k' row row', t'.snapshots.get? k = some row → t'.snapshots.get? k' = some row' →
      row.snapshotId = row'.snapshotId → row = row' := by
  intro k k' row row' hrow hrow' hid
  rcases hi.row_cases hrow with hold | ⟨-, rfl, hfresh⟩
  · rcases hi.row_cases hrow' with hold' | ⟨-, rfl, hfresh⟩
    · exact hu k k' row row' hold hold' hid
    · exact absurd hid (hfresh row (Dict.mem_values.mpr ⟨k, hold⟩))
  · rcases hi.row_cases hrow' with hold' | ⟨-, rfl, -⟩
    · exact absurd hid.symm (hfresh row' (Dict.mem_values.mpr ⟨k', hold'⟩))
    · rfl

/-- One projection of a materialization keeps the chain. -/
theorem Chained.persist (hc : Chained W t c) (hle : c ≤ through) (hproj : Projected current)
    (h : persistAndAdvance (echoFormats H) t
      (echoCall H t roomId epoch through input projectionKey snapshotId current) = .ok t') :
    Chained W t' through := by
  obtain ⟨hsnapshot, -⟩ := persistAndAdvance_valid h
  obtain ⟨-, hepoch, hpos, -⟩ := validateSnapshot_ok hsnapshot
  have hkept := (persistAndAdvance_returned h).kept
  cases persistAndAdvance_returned h with
  | confirmed => exact hc.weaken hle
  | installed _ _ hi =>
    have hlinked : Linked W t' (echoCall H t roomId epoch through input projectionKey snapshotId
        current).snapshot.rowKey (snapshotRow (echoFormats H)
          (echoCall H t roomId epoch through input projectionKey snapshotId current)) := by
      obtain ⟨before, hbase, hbefore⟩ : ∃ before, IsBase t (echoCall H t roomId epoch through
          input projectionKey snapshotId current).snapshot.rowKey
          (priorOf t roomId epoch projectionKey) before ∧ before ≤ max 0 c :=
        priorOf_isBase hc rfl rfl rfl hepoch
      have hthrough : 0 ≤ through := by
        have hformats := validateSnapshot_schema hsnapshot
        simp only [echoFormats, Bool.and_eq_true, decide_eq_true_eq] at hformats
        exact hformats.1.1.1.2
      obtain ⟨patch, hpatch, hrow⟩ := hi.patch _ rfl
      exact ⟨rowOk_snapshotRow hsnapshot hproj rfl rfl, patch, _, before, hpatch, hbase.mono hkept,
        patchOf_echoCall rfl hrow (by omega)⟩
    refine ⟨persistAndAdvance_sound hc.sound h, hi.started hpos hc.started, hi.unique hc.unique,
      ?_, ?_⟩
    · intro key row hrow
      rcases hi.row_cases hrow with hold | ⟨rfl, rfl, -⟩
      · exact (hc.linked key row hold).mono hkept
      · exact hlinked
    · intro key row hrow
      rcases hi.row_cases hrow with hold | ⟨rfl, rfl, -⟩
      · exact Int.le_trans (hc.behind key row hold) hle
      · exact Int.le_refl _

end Persist

/-! ## Runs -/

section Runs

variable {W : Wire} {h : EchoHost} {H : EchoHashes} {roomId : String}

theorem materializeEcho_chained {s s' : EchoStore} {through : Int} {epoch : String}
    {input : EchoInput} (hc : Chained W s.tables s.checkpoint) (hle : s.checkpoint ≤ through)
    (hs : materializeEcho h H roomId s through epoch input = .ok s') :
    Chained W s'.tables s'.checkpoint := by
  unfold materializeEcho at hs
  obtain ⟨views, hviews, hs⟩ := bind_eq_ok.mp hs
  obtain ⟨t₁, h₁, hs⟩ := bind_eq_ok.mp hs
  obtain ⟨t₂, h₂, hs⟩ := bind_eq_ok.mp hs
  obtain ⟨hteacher, hstudent⟩ := projectEchoSnapshot_projected hviews
  have hc₂ := (hc.persist hle hteacher h₁).persist (Int.le_refl _) hstudent h₂
  split at hs
  · cases hs
  · cases hs
    exact hc₂.weaken (Int.le_max_right ..)

theorem runEchoJob_chained {s s' : EchoStore} {job : EchoJob}
    (hc : Chained W s.tables s.checkpoint) (hs : runEchoJob h H roomId s job = .ok s') :
    Chained W s'.tables s'.checkpoint := by
  unfold runEchoJob at hs
  split at hs
  · exact materializeEcho_chained hc (by omega) hs
  · exact materializeEcho_chained hc (Int.le_refl _) hs

theorem chained_init : Chained W EchoStore.init.tables EchoStore.init.checkpoint where
  sound := sound_empty
  started _ _ hk := by cases hk
  unique _ _ _ _ hk := by cases hk
  linked _ _ hk := by cases hk
  behind _ _ hk := by cases hk

theorem runEchoJobs_chained (W : Wire) (h : EchoHost) (H : EchoHashes) (roomId : String)
    (jobs : List EchoJob) : Chained W (runEchoJobs h H roomId jobs).tables
      (runEchoJobs h H roomId jobs).checkpoint :=
  commitAll_invariant (P := fun s : EchoStore => Chained W s.tables s.checkpoint)
    (fun _ _ _ hc hs => runEchoJob_chained hc hs) chained_init jobs

end Runs

/-! ## Folding patches -/

theorem RowKey.later_zero (key : RowKey) : key.later 0 = key := by
  simp [RowKey.later]

theorem RowKey.later_succ (key : RowKey) (n : Nat) :
    key.later (n + 1) = { key with version := key.version + n + 1 } := by
  unfold RowKey.later
  congr 1
  push_cast
  omega

theorem IsBase.unique {t : EchoTables} (hs : Sound t) {key : RowKey} {base base' : EchoPayload}
    {through through' : Int} (hb : IsBase t key base through) (hb' : IsBase t key base' through') :
    base = base' ∧ through = through' := by
  have hzero (hone : key.version = 1) (prior : SnapshotRow EchoPayload) :
      t.snapshots.get? { key with version := key.version - 1 } ≠ some prior := by
    intro hprior
    obtain ⟨m, hm⟩ := hs.gapFree key.roomId key.projectionKey key.analysisEpoch
    have := ((hm (key.version - 1)).mp (by rw [hprior]; rfl)).1
    omega
  rcases hb with ⟨hone, rfl, rfl⟩ | ⟨prior, hprior, rfl, rfl⟩
  · rcases hb' with ⟨-, rfl, rfl⟩ | ⟨prior, hprior, -, -⟩
    · exact ⟨rfl, rfl⟩
    · exact absurd hprior (hzero hone prior)
  · rcases hb' with ⟨hone, -, -⟩ | ⟨prior', hprior', rfl, rfl⟩
    · exact absurd hprior (hzero hone prior)
    · rw [hprior] at hprior'
      cases hprior'
      exact ⟨rfl, rfl⟩

theorem patchWindow_succ {t : EchoTables} {key : RowKey} {n : Nat} {patch : PatchRow PatchBody}
    (hp : t.patches.get? (key.later (n + 1)) = some patch) :
    patchWindow t key (n + 1) = patchWindow t key n ++ [storedPatch (key.later (n + 1)) patch] := by
  unfold patchWindow
  rw [List.range_succ, List.filterMap_append]
  congr 1
  simp only [List.filterMap_cons, List.filterMap_nil, hp, Option.map_some]

/-- A version the browser can be brought to. -/
def Foldable (t : EchoTables) (key : RowKey) : Prop :=
  ∃ row, t.snapshots.get? key = some row ∧ row.requiresReplay = false ∧ NoDangling row.payload

/-- By induction over the window: after `n` patches the browser holds the version `n` later. -/
theorem fold_patchWindow {W : Wire} {t : EchoTables} {c : Int} (hc : Chained W t c) {key : RowKey}
    {start : ConceptMapSnapshot} {base : EchoPayload} {through : Int}
    (hstart : Holding W start key base through)
    (hbase : IsBase t { key with version := key.version + 1 } base through) (n : Nat)
    (hrows : ∀ i < n, Foldable t (key.later (i + 1))) :
    ∃ result payload through', (patchWindow t key n).foldlM (applyConceptPatch W.checks) start =
        .ok result ∧ Holding W result (key.later n) payload through' ∧
      IsBase t { key with version := key.version + n + 1 } payload through' ∧
      (n = 0 ∧ result = start ∨ ∃ row, t.snapshots.get? (key.later n) = some row ∧
        payload = row.payload ∧ through' = row.completeThroughSeq ∧
        result.warnings = row.warnings ∧
        result.reviewStatus = (storedSnapshot W (key.later n) row).reviewStatus) := by
  induction n with
  | zero =>
    refine ⟨start, base, through, rfl, by rw [RowKey.later_zero]; exact hstart, ?_,
      .inl ⟨rfl, rfl⟩⟩
    simpa using hbase
  | succ n ih =>
    obtain ⟨mid, payload, through', hfold, hmid, hbaseMid, -⟩ := ih fun i hi => hrows i (by omega)
    obtain ⟨row, hrow, hreplay, hd⟩ := hrows n (by omega)
    obtain ⟨hok, patch, base', before, hpatch, hbase', hof⟩ := hc.linked _ _ hrow
    obtain ⟨rfl, rfl⟩ := IsBase.unique hc.sound (key.later_succ n ▸ hbase') hbaseMid
    have hprev : ({ key.later (n + 1) with version := (key.later (n + 1)).version - 1 } : RowKey) =
        key.later n := by
      simp only [RowKey.later, Nat.cast_add, Nat.cast_one, RowKey.mk.injEq, true_and]
      omega
    obtain ⟨next, happly, hnext, hwarnings, hreview⟩ :=
      Holding.step (hprev.symm ▸ hmid) hof hok hreplay hd
    refine ⟨next, row.payload, row.completeThroughSeq, ?_, hnext, .inr ⟨row, ?_, rfl, rfl⟩,
      .inr ⟨row, hrow, rfl, rfl, hwarnings, hreview⟩⟩
    · rw [patchWindow_succ hpatch, List.foldlM_append, hfold]
      simp only [bind, Except.bind, List.foldlM_cons, List.foldlM_nil, happly]
      rfl
    · rw [← hrow]
      congr 1
      unfold RowKey.later
      congr 1
      exact Int.add_sub_cancel ..

/-- The same content by id. -/
def SameMaps (p q : EchoPayload) : Prop :=
  (∀ id, p.nodeIndex.get? id = q.nodeIndex.get? id) ∧
    ∀ id, p.edgeIndex.get? id = q.edgeIndex.get? id

/-- A projected map with distinct ids and no dangling edge. -/
structure Clean (p : EchoPayload) : Prop where
  nodes : (p.nodes.map Node.nodeId).Nodup
  edges : (p.edges.map Edge.edgeId).Nodup
  dangling : NoDangling p

theorem storedSnapshot_holding {W : Wire} {key : RowKey} {row : SnapshotRow EchoPayload}
    (hok : RowOk W key row) (hreplay : row.requiresReplay = false) :
    Holding W (storedSnapshot W key row) key row.payload row.completeThroughSeq := by
  refine ⟨rfl, rfl, rfl, hok.algorithm, hok.parameters, rfl, rfl, hreplay, ?_, ?_, rfl,
    W.iso _, fun _ => rfl, fun _ => rfl⟩
  · simp [storedSnapshot, hreplay]
  · intro hteacher
    simp [storedSnapshot, hteacher, reviewed]

theorem emptySnapshot_holding (W : Wire) (key : RowKey) (hzero : key.version = 0)
    (watermark : String) : Holding W (emptySnapshot W key watermark) key .empty 0 :=
  ⟨rfl, rfl, rfl, rfl, rfl, hzero.symm, rfl, rfl, rfl, fun _ => rfl, rfl, W.iso _, fun _ => rfl,
    fun _ => rfl⟩

/-- After any materializations: from a persisted snapshot, the patches of the versions after it
lead to the persisted snapshot at the end of the window; so do all patches from an empty map.
The projections are asked to be clean only up to there. -/
theorem patches_rebuild_snapshot (W : Wire) (h : EchoHost) (H : EchoHashes) (roomId : String)
    (jobs : List EchoJob) (key : RowKey) (n : Nat) (start last : SnapshotRow EchoPayload)
    (watermark : String)
    (hstart : (runEchoJobs h H roomId jobs).tables.snapshots.get? key = some start)
    (hlast : (runEchoJobs h H roomId jobs).tables.snapshots.get? (key.later n) = some last)
    (hclean : ∀ version row, version ≤ key.version + n →
      (runEchoJobs h H roomId jobs).tables.snapshots.get? { key with version } = some row →
      row.requiresReplay = false ∧ Clean row.payload) :
    (∃ result, (patchWindow (runEchoJobs h H roomId jobs).tables key n).foldlM
        (applyConceptPatch W.checks) (storedSnapshot W key start) = .ok result ∧
      SameMaps result.payload last.payload ∧
      result.projectionVersion = (storedSnapshot W (key.later n) last).projectionVersion ∧
      result.completeThroughRoomSeq =
        (storedSnapshot W (key.later n) last).completeThroughRoomSeq ∧
      result.warnings = (storedSnapshot W (key.later n) last).warnings ∧
      result.reviewStatus = (storedSnapshot W (key.later n) last).reviewStatus) ∧
    ∃ result, (patchWindow (runEchoJobs h H roomId jobs).tables { key with version := 0 }
        (key.version + n).toNat).foldlM (applyConceptPatch W.checks)
        (emptySnapshot W { key with version := 0 } watermark) = .ok result ∧
      SameMaps result.payload last.payload := by
  have hc := runEchoJobs_chained W h H roomId jobs
  generalize (runEchoJobs h H roomId jobs).tables = t at hc hstart hlast hclean ⊢
  obtain ⟨m, hm⟩ := hc.sound.gapFree key.roomId key.projectionKey key.analysisEpoch
  have hlo := ((hm key.version).mp (by rw [hstart]; rfl)).1
  have hhi := ((hm (key.version + n)).mp (by
    have : t.snapshots.get? ⟨key.roomId, key.projectionKey, key.analysisEpoch, key.version + n⟩ =
      some last := hlast
    rw [this]; rfl)).2
  -- Between the first version and the last of the window no version is missing.
  have hrow (version : Int) (h1 : 1 ≤ version) (h2 : version ≤ key.version + n) :
      Foldable t { key with version } := by
    obtain ⟨row, hrow⟩ := Option.isSome_iff_exists.mp ((hm version).mpr ⟨h1, by omega⟩)
    obtain ⟨hreplay, hcl⟩ := hclean version row h2 hrow
    exact ⟨row, hrow, hreplay, hcl.dangling⟩
  constructor
  · have hok := (hc.linked _ _ hstart).ok
    have hreplay := (hclean key.version start (by omega) hstart).1
    have hbase : IsBase t { key with version := key.version + 1 } start.payload
        start.completeThroughSeq := by
      refine .inr ⟨start, ?_, rfl, rfl⟩
      rw [← hstart]
      congr 1
      simp only [Int.add_sub_cancel]
    obtain ⟨result, payload, through, hfold, hholding, -, hend⟩ :=
      fold_patchWindow hc (storedSnapshot_holding hok hreplay) hbase n fun i hi =>
        hrow _ (by push_cast; omega) (by push_cast; omega)
    refine ⟨result, hfold, ?_⟩
    rcases hend with ⟨rfl, rfl⟩ | ⟨row, hrow', rfl, rfl, hwarnings, hreview⟩
    · rw [RowKey.later_zero] at hlast ⊢
      rw [hstart] at hlast
      cases hlast
      exact ⟨⟨fun _ => rfl, fun _ => rfl⟩, rfl, rfl, rfl, rfl⟩
    · rw [hlast] at hrow'
      cases hrow'
      exact ⟨⟨hholding.nodes, hholding.edges⟩, hholding.version, hholding.through, hwarnings,
        hreview⟩
  · have hend : ({ key with version := 0 } : RowKey).later (key.version + n).toNat =
        key.later n := by
      unfold RowKey.later
      congr 1
      dsimp only
      omega
    obtain ⟨result, payload, through, hfold, hholding, -, hres⟩ :=
      fold_patchWindow hc (emptySnapshot_holding W { key with version := 0 } rfl watermark)
        (.inl ⟨rfl, rfl, rfl⟩) (key.version + n).toNat fun i hi =>
          hrow _ (by dsimp only; omega) (by dsimp only; omega)
    refine ⟨result, hfold, ?_⟩
    rcases hres with ⟨hzero, -⟩ | ⟨row, hrow', rfl, rfl, -, -⟩
    · omega
    · rw [hend, hlast] at hrow'
      cases hrow'
      exact ⟨hholding.nodes, hholding.edges⟩

instance (p : EchoPayload) : Decidable (NoDangling p) :=
  inferInstanceAs (Decidable (∀ e ∈ p.edges, _))

instance (p : EchoPayload) : Decidable (Clean p) :=
  decidable_of_iff ((p.nodes.map Node.nodeId).Nodup ∧ (p.edges.map Edge.edgeId).Nodup ∧
    NoDangling p) ⟨fun ⟨hn, he, hd⟩ => ⟨hn, he, hd⟩, fun hc => ⟨hc.nodes, hc.edges, hc.dangling⟩⟩

/-- The name-based uuid of the one edge below. -/
def plainEdgeId : String := "15d5f9d8-96cb-561c-9240-f0a8d2ca006a"

theorem plainEdgeId_stored : Uuid.Stored plainEdgeId := by decide +kernel

def plainHost : EchoHost where
  toHost := { Host.ascii with uuid5 := fun _ _ => plainEdgeId }
  uuid5_stored _ _ := plainEdgeId_stored
  round12 := id

example : plainEdgeId = Digest.uuid5 ECHO_EDGE_NAMESPACE
    "[\"11111111-1111-4111-8111-111111111111\",\"plants\",\"need\",\"light\",\"causal\"]" := by
  decide +kernel

def plainHashes : EchoHashes where
  payload p := toString p.nodes.length
  patch p := toString p.projectionVersion
  body b := toString b.changeScore
  warnings w := toString w.length
  timestampText := id

def plainWire : Wire where
  toISOString text := if text.length = 24 then text else "1970-01-01T00:00:00.000Z"
  dateTime text := text.length = 24
  iso text := by
    split
    · exact decide_eq_true ‹_›
    · decide

def plainRoom : String := "11111111-1111-4111-8111-111111111111"

def plainEpoch : String := "22222222-2222-5222-8222-222222222222"

/-- Two concepts and a link between them, of which students may see one concept. -/
def linkedInput : EchoInput where
  nodes := [⟨"plants", "Plants", -1, 0⟩, ⟨"light", "Light", 1, 0⟩]
  edges := [⟨"plants", "need", "light", "causal", .supported, ⟨1, 0, 0, 0⟩, ["e1"]⟩]
  evidence := (.empty : Dict String IndexedEvidence).set "e1"
    ⟨"55555555-5555-4555-8555-555555555555", 0, 12, by decide +kernel⟩
  approvedEdgeIds := []
  approvedNodeIds := ["light"]
  watermark := "2026-01-01T00:00:00.000Z"
  warnings := []
  requiresReplay := false
  enqueueReplay := true
  latestType := "message.added.v1"
  teacherSnapshotId := "44444444-4444-4444-8444-444444444441"
  studentSnapshotId := "44444444-4444-4444-8444-444444444442"
  fault := none

/-- The link is gone, one concept has moved and another has come. -/
def movedInput : EchoInput :=
  { linkedInput with
    nodes := [⟨"light", "Light", 0, 0⟩, ⟨"plants", "Plants", -1, 0⟩, ⟨"water", "Water", 1, 1⟩]
    edges := []
    teacherSnapshotId := "44444444-4444-4444-8444-444444444443"
    studentSnapshotId := "44444444-4444-4444-8444-444444444444" }

def plainJobs : List EchoJob :=
  [⟨.consume, plainEpoch, linkedInput⟩, ⟨.consume, plainEpoch, movedInput⟩]

def plainKey : RowKey := ⟨plainRoom, "echo.teacher_shadow", plainEpoch, 1⟩

/-- The second version from the first. -/
theorem patches_rebuild_snapshot_moved :
    ∃ start last result,
      (runEchoJobs plainHost plainHashes plainRoom plainJobs).tables.snapshots.get? plainKey =
        some start ∧
      (runEchoJobs plainHost plainHashes plainRoom plainJobs).tables.snapshots.get?
        (plainKey.later 1) = some last ∧
      (patchWindow (runEchoJobs plainHost plainHashes plainRoom plainJobs).tables plainKey 1).foldlM
        (applyConceptPatch plainWire.checks) (storedSnapshot plainWire plainKey start) =
          .ok result ∧
      SameMaps result.payload last.payload := by
  have hrun : ((runEchoJobs plainHost plainHashes plainRoom plainJobs).tables.snapshots.get?
        plainKey).isSome ∧
      ((runEchoJobs plainHost plainHashes plainRoom plainJobs).tables.snapshots.get?
        (plainKey.later 1)).isSome ∧
      ∀ e ∈ (runEchoJobs plainHost plainHashes plainRoom plainJobs).tables.snapshots.entries,
        e.2.requiresReplay = false ∧ Clean e.2.payload := by
    decide +kernel
  obtain ⟨hfirst, hsecond, hclean⟩ := hrun
  obtain ⟨start, hstart⟩ := Option.isSome_iff_exists.mp hfirst
  obtain ⟨last, hlast⟩ := Option.isSome_iff_exists.mp hsecond
  obtain ⟨⟨result, hfold, hsame, -⟩, -⟩ := patches_rebuild_snapshot plainWire plainHost plainHashes
    plainRoom plainJobs plainKey 1 start last linkedInput.watermark hstart hlast
    fun version row _ hrow => hclean _ (Dict.get?_eq_some.mp hrow)
  exact ⟨start, last, result, hstart, hlast, hfold, hsame⟩

end LearningOrbit.Projection
