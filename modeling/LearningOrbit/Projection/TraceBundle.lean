import LearningOrbit.Projection.EchoMap

/-!
# TRACE bundles

The adapter takes three views of each of two windows from the reference to the wire: a
bundle for the teacher under the ids of the actors, and one for students under pseudonyms.
-/

namespace LearningOrbit.Projection

open LearningOrbit (Dict)

def TRACE_EDGE_NAMESPACE : String := "7dd764bf-8848-5e96-8683-6f14bd1f7941"

def TRACE_STUDENT_INTERPRETATION_ZH_HANT : String :=
  "此圖呈現系統觀測到的近期互動事件，不等同友情、地位、能力、貢獻價值、學習成績、心理關係或 Agent 因果效果。"

def STUDENT_EDGE_LAYERS : List String := ["communication", "uptake"]

def STUDENT_WARNINGS : List String :=
  ["small_group_interpretation_warning", "recent_group_interaction_only", "requires_replay",
    "insufficient_window"]

/-! ## The reference -/

/-- What may stand where a number is wanted. -/
inductive Scalar
  | number (value : ℚ)
  /-- A NaN or an infinity. -/
  | notFinite
  | other
  deriving DecidableEq

structure TraceNode where
  nodeId : String
  actorKind : Option String
  kind : Option String
  deriving DecidableEq

/-- The kind of a node, which `human` is if it says none. -/
def TraceNode.actor (n : TraceNode) : String := (n.actorKind.or n.kind).getD "human"

structure TraceEdge where
  edgeId : Option String
  sourceId : String
  targetId : String
  layer : String
  channels : Option (Dict String Scalar)
  weight : Scalar
  evidenceIds : List String

/-- One view as `SnaSnapshot.to_dict` writes it. -/
structure TraceSource where
  nodes : List TraceNode
  edges : List TraceEdge
  metrics : Option (Dict String Scalar)
  warnings : Option (List String)

/-- A snapshot, which may hold its views one by one. -/
structure TraceReference extends TraceSource where
  views : Option (Dict String TraceSource)

inductive TraceViewName
  | observed | humanOnly | lineageAdjusted
  deriving DecidableEq

def TraceViewName.name : TraceViewName → String
  | .observed => "observed"
  | .humanOnly => "human_only"
  | .lineageAdjusted => "lineage_adjusted"

def TraceReference.source (r : TraceReference) (view : TraceViewName) : TraceSource :=
  (r.views.bind fun views => views.get? view.name).getD r.toTraceSource

/-- An entry of the evidence index. -/
structure TraceEvidence where
  eventId : String
  start : Option Int
  stop : Option Int
  basis : String := "text_span"
  deriving DecidableEq

/-! ## One view -/

/-- One character of a JSON string in ASCII. -/
def asciiChar (c : Char) : List Char :=
  let escape := fun unit => '\\' :: 'u' :: Digest.hex [unit / 256, unit % 256]
  if c.toNat < 127 then (jsonChar c).toList
  else if c.toNat < 0x10000 then escape c.toNat
  else escape (0xd800 + (c.toNat - 0x10000) / 1024) ++ escape (0xdc00 + (c.toNat - 0x10000) % 1024)

def asciiString (s : String) : String :=
  "\"" ++ String.ofList (s.toList.flatMap asciiChar) ++ "\""

def traceWireEdgeId (h : EchoHost) (roomId : String) (e : TraceEdge) : String :=
  h.uuid5 TRACE_EDGE_NAMESPACE ("[" ++ Text.join "," [asciiString roomId,
    (e.edgeId.map asciiString).getD "null", asciiString e.sourceId, asciiString e.targetId,
    asciiString e.layer] ++ "]")

structure TraceMetrics where
  participationBalance : ℚ
  reciprocity : ℚ
  agentShare : ℚ
  semanticCoverage : ℚ
  deriving DecidableEq

/-- The first of the names that is there. -/
def bounded (raw : Dict String Scalar) (names : List String) : Except String ℚ :=
  match names.findSome? raw.get? with
  | some (.number value) =>
    if value < 0 ∨ 1 < value then .error "INVALID_TRACE_METRICS" else .ok value
  | _ => .error "INVALID_TRACE_METRICS"

/-- `_metrics`. -/
def traceMetrics (raw : Option (Dict String Scalar)) : Except String TraceMetrics :=
  match raw with
  | none => .error "INVALID_TRACE_METRICS"
  | some raw => do
    let reciprocity ← bounded raw ["weightedReciprocity", "reciprocity"]
    let again ← if raw.contains "weightedReciprocity" && raw.contains "reciprocity"
      then bounded raw ["reciprocity"] else .ok reciprocity
    if reciprocity ≠ again then .error "INVALID_TRACE_METRICS"
    else
      let participationBalance ← bounded raw ["participationBalance"]
      let agentShare ← bounded raw ["agentShare"]
      let semanticCoverage ← bounded raw ["semanticCoverage"]
      return ⟨participationBalance, reciprocity, agentShare, semanticCoverage⟩

def isHuman (kind : Option String) : Bool := kind = some "human" || kind = some "learner"

/-- The evidence an edge cites; metadata has no span. -/
def traceEvidenceRef (index : Dict String TraceEvidence) (id : String) :
    Except String TraceEvidence :=
  match index.get? id with
  | none => .error "unknown TRACE evidence"
  | some ref =>
    if ref.basis = "event_metadata" then .ok { ref with start := none, stop := none }
    else
      match ref.start, ref.stop with
      | some start, some stop =>
        if stop ≤ start then .error "TRACE text evidence requires a valid span" else .ok ref
      | _, _ => .error "TRACE text evidence requires a valid span"

structure TraceChannels where
  positive : ℚ
  challenge : ℚ
  uncertain : ℚ
  deriving DecidableEq

def traceChannel (raw : Dict String Scalar) (key : String) : Except String ℚ :=
  match raw.get? key with
  | some (.number value) => if value < 0 then .error "INVALID_TRACE_EDGE" else .ok value
  | _ => .error "INVALID_TRACE_EDGE"

def traceChannels (raw : Option (Dict String Scalar)) : Except String TraceChannels :=
  match raw with
  | none => .error "INVALID_TRACE_EDGE"
  | some raw => do
    let positive ← traceChannel raw "positive"
    let challenge ← traceChannel raw "challenge"
    let uncertain ← traceChannel raw "uncertain"
    return ⟨positive, challenge, uncertain⟩

def traceWeight : Scalar → Except String ℚ
  | .number value => if value ≤ 0 then .error "INVALID_TRACE_EDGE" else .ok value
  | _ => .error "INVALID_TRACE_EDGE"

structure TraceWireEdge where
  edgeId : String
  sourceId : String
  targetId : String
  layer : String
  channels : TraceChannels
  weight : ℚ
  evidenceRefs : List TraceEvidence
  deriving DecidableEq

/-- The view has no place for the edge. -/
def TraceViewName.skips (view : TraceViewName) (kinds : Dict String String) (e : TraceEdge) : Bool :=
  match view with
  | .observed => false
  | .humanOnly => !isHuman (kinds.get? e.sourceId) || !isHuman (kinds.get? e.targetId)
  | .lineageAdjusted => e.layer ≠ "uptake"

/-- The body of the loop over the edges. -/
def normalizeEdge (h : EchoHost) (roomId : String) (evidence : Dict String TraceEvidence)
    (view : TraceViewName) (kinds : Dict String String) (e : TraceEdge) :
    Except String (Option TraceWireEdge) :=
  if view.skips kinds e then .ok none
  else do
    let refs ← e.evidenceIds.mapM (traceEvidenceRef evidence)
    if view = .lineageAdjusted ∧ refs = [] then return none
    else
      let channels ← traceChannels e.channels
      let weight ← traceWeight e.weight
      return some ⟨traceWireEdgeId h roomId e, e.sourceId, e.targetId, e.layer, channels, weight, refs⟩

structure TraceView where
  nodes : List TraceNode
  edges : List TraceWireEdge
  metrics : TraceMetrics
  warnings : List String

/-- The kind each id has; of two nodes of one id the last one counts. -/
def nodeKinds (nodes : List TraceNode) : Dict String String :=
  nodes.foldl (fun d n => d.set n.nodeId n.actor) .empty

/-- The nodes of the view. -/
def TraceViewName.keeps (view : TraceViewName) (kinds : Dict String String)
    (edges : List TraceWireEdge) (n : TraceNode) : Bool :=
  match view with
  | .observed => true
  | .humanOnly => isHuman (kinds.get? n.nodeId)
  | .lineageAdjusted => n.nodeId ∈ edges.map (·.sourceId) ++ edges.map (·.targetId)

/-- The ids edges may have as ends. In the lineage view every end has passed. -/
def TraceViewName.ids (view : TraceViewName) (nodes : List TraceNode)
    (edges : List TraceWireEdge) : List String :=
  match view with
  | .lineageAdjusted => edges.map (·.sourceId) ++ edges.map (·.targetId)
  | _ => nodes.map (·.nodeId)

/-- `_normalize_view`. -/
def normalizeView (h : EchoHost) (roomId : String) (evidence : Dict String TraceEvidence)
    (r : TraceReference) (view : TraceViewName) : Except String TraceView := do
  let source := r.source view
  let kinds := nodeKinds source.nodes
  let listed ← source.edges.mapM (normalizeEdge h roomId evidence view kinds)
  let edges := listed.filterMap id
  let nodes := source.nodes.filter (view.keeps kinds edges)
  let ids := view.ids nodes edges
  let metrics ← traceMetrics source.metrics
  return {
    nodes
    edges := edges.filter fun e => e.sourceId ∈ ids && e.targetId ∈ ids
    metrics
    warnings := (source.warnings.or r.warnings).getD [] }

/-- `validate_internal_views`. A node that says no kind is no human here. -/
def validateInternalViews (human lineage : TraceView) : Except String Unit :=
  if human.nodes.any fun n => !isHuman (n.actorKind.or n.kind) then
    .error "human_only contains Agent or ROOM"
  else if human.edges.any fun e =>
      e.sourceId ∉ human.nodes.map (·.nodeId) || e.targetId ∉ human.nodes.map (·.nodeId) then
    .error "human_only edge leaves human node set"
  else if lineage.edges.any fun e => e.layer ≠ "uptake" || e.evidenceRefs.isEmpty
      || e.sourceId ∉ lineage.nodes.map (·.nodeId) || e.targetId ∉ lineage.nodes.map (·.nodeId) then
    .error "lineage_adjusted requires evidence-backed uptake"
  else .ok ()

/-! ## The two sides of a view -/

/-- An entry of the actor mapping. The members that are there are strings. -/
structure ActorEntry where
  actorId : Option String
  roomId : Option String
  pseudonym : Option String
  kind : Option String
  deriving DecidableEq

structure Pseudonym where
  nodeId : String
  label : String
  kind : String
  deriving DecidableEq

/-- A node on the wire. -/
structure TraceWireNode where
  nodeId : String
  label : String
  kind : String
  deriving DecidableEq

structure TeacherTraceView where
  nodes : List TraceWireNode
  edges : List TraceWireEdge
  metrics : TraceMetrics
  warnings : List String

structure StudentTraceEdge where
  sourceNodeId : String
  targetNodeId : String
  layer : String
  deriving DecidableEq

structure StudentTraceView where
  nodes : List TraceWireNode
  edges : List StudentTraceEdge
  metrics : TraceMetrics
  warnings : List String
  deriving DecidableEq

def teacherNode (mapping : Dict String ActorEntry) (n : TraceNode) : Except String TraceWireNode :=
  let expected := if isHuman (some n.actor) then "learner" else n.actor
  match (mapping.get? n.nodeId).bind fun entry => entry.pseudonym.map fun p => (entry.kind, p) with
  | some (kind, pseudonym) =>
    if kind = some expected ∧ 1 ≤ pseudonym.length ∧ pseudonym.length ≤ 160 then
      .ok ⟨n.nodeId, pseudonym, expected⟩
    else .error "INVALID_TRACE_ACTOR_MAPPING"
  | none => .error "INVALID_TRACE_ACTOR_MAPPING"

def addWarning (warning : String) (when : Bool) (warnings : List String) : List String :=
  if when && warning ∉ warnings then warnings ++ [warning] else warnings

def viewWarnings (window : String) (humanCount : Int) (warnings : List String) : List String :=
  addWarning "small_group_interpretation_warning" (humanCount < 5)
    (addWarning "recent_group_interaction_only" (window = "recent_10m") warnings)

/-- The pseudonym of a node students may see. -/
def learnerOf (pseudonyms : Dict String Pseudonym) (n : TraceNode) : Option Pseudonym :=
  (pseudonyms.get? n.nodeId).filter fun p => isHuman (some n.actor) && p.kind = "learner"

def studentTraceEdge (pseudonyms : Dict String Pseudonym) (learnerIds : List String)
    (e : TraceWireEdge) : Option StudentTraceEdge :=
  if e.layer ∈ STUDENT_EDGE_LAYERS && e.sourceId ∈ learnerIds && e.targetId ∈ learnerIds then
    match pseudonyms.get? e.sourceId, pseudonyms.get? e.targetId with
    | some src, some dst =>
      if src.kind = "learner" ∧ dst.kind = "learner" then some ⟨src.nodeId, dst.nodeId, e.layer⟩
      else none
    | _, _ => none
  else none

def studentTraceView (pseudonyms : Dict String Pseudonym) (warnings : List String) (v : TraceView) :
    StudentTraceView :=
  let learnerIds := (v.nodes.filter fun n => (learnerOf pseudonyms n).isSome).map (·.nodeId)
  { nodes := (v.nodes.filterMap (learnerOf pseudonyms)).map fun p => ⟨p.nodeId, p.label, "learner"⟩
    edges := v.edges.filterMap (studentTraceEdge pseudonyms learnerIds)
    metrics := v.metrics
    warnings := warnings.filter (· ∈ STUDENT_WARNINGS) }

def teacherTraceView (mapping : Dict String ActorEntry) (warnings : List String) (v : TraceView) :
    Except String TeacherTraceView := do
  let nodes ← v.nodes.mapM (teacherNode mapping)
  return ⟨nodes, v.edges, v.metrics, warnings⟩

structure TraceMetadata extends Metadata where
  teacherActorMapping : Option (Dict String ActorEntry)

/-- What a call of the adapter is given beside the references. -/
structure TraceInput where
  metadata : TraceMetadata
  pseudonyms : Dict String Pseudonym
  evidence : Dict String TraceEvidence
  humanCount : Int

abbrev ByView (V : Type) := List (TraceViewName × V)

/-- `_single`. -/
def traceWindow (h : EchoHost) (input : TraceInput) (window : String) (r : TraceReference) :
    Except String (ByView TeacherTraceView × ByView StudentTraceView) := do
  let normalize := normalizeView h input.metadata.roomId input.evidence r
  let observed ← normalize .observed
  let human ← normalize .humanOnly
  let lineage ← normalize .lineageAdjusted
  validateInternalViews human lineage
  match input.metadata.teacherActorMapping with
  | none => .error "INVALID_TRACE_ACTOR_MAPPING"
  | some mapping =>
    let views := [(TraceViewName.observed, observed), (.humanOnly, human), (.lineageAdjusted, lineage)]
    let teacher ← views.mapM fun v =>
      (teacherTraceView mapping (viewWarnings window input.humanCount v.2.warnings) v.2).map (v.1, ·)
    return (teacher, views.map fun v =>
      (v.1, studentTraceView input.pseudonyms (viewWarnings window input.humanCount v.2.warnings) v.2))

/-! ## The bundles -/

structure WindowBounds where
  windowStartEventTime : String
  windowEndEventTime : String
  deriving DecidableEq

structure TraceCommon where
  roomId : String
  analysisEpoch : String
  algorithmVersion : String
  parameterHash : String
  projectionVersion : Int
  baseVersion : Int
  completeThroughRoomSeq : Int
  watermarkEventTime : String
  requiresReplay : Bool
  evidenceStatus : String
  deriving DecidableEq

def TraceMetadata.common (m : TraceMetadata) : TraceCommon where
  roomId := m.roomId
  analysisEpoch := m.analysisEpoch
  algorithmVersion := m.algorithmVersion
  parameterHash := m.parameterHash
  projectionVersion := m.projectionVersion
  baseVersion := m.baseVersion
  completeThroughRoomSeq := m.completeThroughRoomSeq
  watermarkEventTime := m.watermarkEventTime
  requiresReplay := m.requiresReplay
  evidenceStatus := if m.requiresReplay then "requires_replay" else "active"

/-- One window of a bundle. -/
structure TraceWindow (V : Type) where
  window : String
  bounds : WindowBounds
  views : ByView V

structure TeacherBundle where
  common : TraceCommon
  warnings : List String
  windows : List (TraceWindow TeacherTraceView)
  actorMapping : List (String × ActorEntry)

structure StudentBundle where
  common : TraceCommon
  warnings : List String
  windows : List (TraceWindow StudentTraceView)
  interpretation : String

/-- What the teacher is told of an actor; a member that is not there is a `KeyError`. -/
def wireActor (entry : ActorEntry) : Except String ActorEntry :=
  if entry.kind = some "room" then
    match entry.roomId, entry.pseudonym with
    | some roomId, some pseudonym => .ok ⟨none, some roomId, some pseudonym, some "room"⟩
    | none, _ => .error "roomId"
    | _, none => .error "pseudonym"
  else
    match entry.actorId, entry.pseudonym, entry.kind with
    | some actorId, some pseudonym, some kind => .ok ⟨some actorId, none, some pseudonym, some kind⟩
    | none, _, _ => .error "actorId"
    | _, none, _ => .error "pseudonym"
    | _, _, none => .error "kind"

/-- The body of the loop over the windows. -/
def projectWindow (h : EchoHost) (input : TraceInput) (bounds : Dict String WindowBounds)
    (window : String) (r : TraceReference) :
    Except String (TraceWindow TeacherTraceView × TraceWindow StudentTraceView) := do
  let (teacher, student) ← traceWindow h input window r
  match bounds.get? window with
  | none => .error window
  | some bounds => return (⟨window, bounds, teacher⟩, ⟨window, bounds, student⟩)

/-- `project_trace`. -/
def projectTrace (h : EchoHost) (references : Dict String TraceReference)
    (bounds : Dict String WindowBounds) (input : TraceInput) :
    Except String (TeacherBundle × StudentBundle) :=
  match references.get? "recent_10m", references.get? "session_45m" with
  | some recent, some session => do
    if references.size ≠ 2 then .error "TRACE requires both fixed windows"
    else
      let recent ← projectWindow h input bounds "recent_10m" recent
      let session ← projectWindow h input bounds "session_45m" session
      let m := input.metadata
      let actorMapping ← (m.teacherActorMapping.getD .empty).entries.mapM fun kv =>
        (wireActor kv.2).map (kv.1, ·)
      return (
        { common := m.common
          warnings := m.warnings
          windows := [recent.1, session.1]
          actorMapping },
        { common := m.common
          warnings := addWarning "small_group_interpretation_warning" (input.humanCount < 5)
            (m.warnings.filter (· ∈ STUDENT_WARNINGS))
          windows := [recent.2, session.2]
          interpretation := TRACE_STUDENT_INTERPRETATION_ZH_HANT })
  | _, _ => .error "TRACE requires both fixed windows"

/-! ## The pseudonyms of a room -/

/-- The mac is HMAC-SHA256 under the key of the room, in hexadecimal. -/
def scopedNodeId (mac : String → String) (roomId analysisEpoch internalNodeId : String) : String :=
  "p-" ++ String.ofList
    ((mac (roomId ++ "\x00" ++ analysisEpoch ++ "\x00" ++ internalNodeId)).toList.take 16)

/-- `_pseudonym_index`, from the members of the room by seat and its agent. -/
def pseudonymIndex (mac : String → String) (roomId : String) (members : List (String × String))
    (nova : Option String) : Dict String Pseudonym × Dict String ActorEntry :=
  let nodeId := scopedNodeId mac roomId "EPOCH_PLACEHOLDER"
  let seated := members.foldl (fun (acc : Dict String Pseudonym × Dict String ActorEntry) m =>
    (acc.1.set m.1 ⟨nodeId m.1, m.2, "learner"⟩,
      acc.2.set m.1 ⟨some m.1, none, some m.2, some "learner"⟩)) (.empty, .empty)
  match nova with
  | none => seated
  | some nova =>
    ((seated.1.set nova ⟨nodeId nova, "Nova Agent", "agent"⟩).set "ROOM"
        ⟨nodeId "ROOM", "共學聊天室", "room"⟩,
      (seated.2.set nova ⟨some nova, none, some "Nova Agent", some "agent"⟩).set "ROOM"
        ⟨none, some roomId, some "共學聊天室", some "room"⟩)

/-- Scoped ids are rotated with the epoch. -/
def rotated (mac : String → String) (roomId epoch : String) (index : Dict String Pseudonym) :
    Dict String Pseudonym :=
  index.mapValues fun actor p => { p with nodeId := scopedNodeId mac roomId epoch actor }

end LearningOrbit.Projection
