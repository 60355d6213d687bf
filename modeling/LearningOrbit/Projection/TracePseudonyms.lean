import LearningOrbit.Projection.Corrections
import LearningOrbit.Projection.TraceBundle
import LearningOrbit.TwoRuns

/-!
# A student bundle without raw identities

The adapter is run twice, the second time with every raw actor id renamed. Students are told
the same. Whatever they are told of a person is a pseudonym of a learner.
-/

namespace LearningOrbit.Projection

open LearningOrbit (Dict TwoRuns)

/-! ## Renaming -/

section Rename

variable (σ : String → String)

def TraceNode.rename (n : TraceNode) : TraceNode := { n with nodeId := σ n.nodeId }

/-- An edge id may be made from the ids of its ends. -/
def TraceEdge.rename (τ : Option String → Option String) (e : TraceEdge) : TraceEdge :=
  { e with edgeId := τ e.edgeId, sourceId := σ e.sourceId, targetId := σ e.targetId }

def TraceSource.rename (τ : Option String → Option String) (s : TraceSource) : TraceSource :=
  { s with nodes := s.nodes.map (·.rename σ), edges := s.edges.map (·.rename σ τ) }

def TraceReference.rename (τ : Option String → Option String) (r : TraceReference) :
    TraceReference :=
  { r.toTraceSource.rename σ τ with
    views := r.views.map fun views => views.mapValues fun _ s => s.rename σ τ }

def TraceInput.rename (hσ : Function.Injective σ) (input : TraceInput) : TraceInput :=
  { input with
    metadata := { input.metadata with
      teacherActorMapping := input.metadata.teacherActorMapping.map (·.mapKeys σ hσ) }
    pseudonyms := input.pseudonyms.mapKeys σ hσ }

end Rename

/-- An edge of the second run. Only its id may be another. -/
structure EdgeRenamed (σ : String → String) (e e' : TraceWireEdge) : Prop where
  sourceId : e'.sourceId = σ e.sourceId
  targetId : e'.targetId = σ e.targetId
  layer : e'.layer = e.layer
  evidenceRefs : e'.evidenceRefs = e.evidenceRefs

structure ViewRenamed (σ : String → String) (v v' : TraceView) : Prop where
  nodes : v'.nodes = v.nodes.map (·.rename σ)
  edges : List.Forall₂ (EdgeRenamed σ) v.edges v'.edges
  metrics : v'.metrics = v.metrics
  warnings : v'.warnings = v.warnings

section Runs

variable {σ : String → String} {τ : Option String → Option String}

@[simp] theorem rename_actor (n : TraceNode) : (n.rename σ).actor = n.actor := rfl

theorem source_rename (r : TraceReference) (view : TraceViewName) :
    (r.rename σ τ).source view = (r.source view).rename σ τ := by
  unfold TraceReference.source TraceReference.rename
  cases r.views with
  | none => rfl
  | some views =>
    simp only [Option.map_some, Option.bind_some, Dict.get?_mapValues]
    cases views.get? view.name with
    | none => rfl
    | some s => rfl

theorem nodeKinds_foldl (hσ : Function.Injective σ) (nodes : List TraceNode)
    (d d' : Dict String String) (hd : ∀ id, d'.get? (σ id) = d.get? id) (id : String) :
    ((nodes.map (·.rename σ)).foldl (fun d n => d.set n.nodeId n.actor) d').get? (σ id) =
      (nodes.foldl (fun d n => d.set n.nodeId n.actor) d).get? id := by
  induction nodes generalizing d d' with
  | nil => exact hd id
  | cons n nodes ih =>
    apply ih
    intro id
    change (d'.set (σ n.nodeId) n.actor).get? (σ id) = _
    rw [Dict.get?_set, Dict.get?_set]
    by_cases h : id = n.nodeId
    · rw [if_pos h, if_pos (congrArg σ h)]
    · rw [if_neg h, if_neg (fun he => h (hσ he)), hd]

theorem nodeKinds_rename (hσ : Function.Injective σ) (nodes : List TraceNode) (id : String) :
    (nodeKinds (nodes.map (·.rename σ))).get? (σ id) = (nodeKinds nodes).get? id :=
  nodeKinds_foldl hσ nodes .empty .empty (fun _ => rfl) id

theorem skips_rename {kinds kinds' : Dict String String}
    (hk : ∀ id, kinds'.get? (σ id) = kinds.get? id) (view : TraceViewName) (e : TraceEdge) :
    view.skips kinds' (e.rename σ τ) = view.skips kinds e := by
  cases view with
  | observed => rfl
  | humanOnly =>
    unfold TraceViewName.skips TraceEdge.rename
    dsimp only
    rw [hk, hk]
  | lineageAdjusted => rfl

theorem normalizeEdge_rename {kinds kinds' : Dict String String}
    (hk : ∀ id, kinds'.get? (σ id) = kinds.get? id) (h : EchoHost) (roomId : String)
    (evidence : Dict String TraceEvidence) (view : TraceViewName) (e : TraceEdge) :
    TwoRuns (Option.Rel (EdgeRenamed σ)) (normalizeEdge h roomId evidence view kinds e)
      (normalizeEdge h roomId evidence view kinds' (e.rename σ τ)) := by
  unfold normalizeEdge
  rw [skips_rename hk]
  split
  · exact .returns .none
  · apply TwoRuns.same
    intro refs
    split
    · exact .returns .none
    · apply TwoRuns.same
      intro channels
      apply TwoRuns.same
      intro weight
      exact .returns (.some ⟨rfl, rfl, rfl, rfl⟩)

theorem sourceIds_renamed {l l' : List TraceWireEdge} (h : List.Forall₂ (EdgeRenamed σ) l l') :
    l'.map (·.sourceId) = (l.map (·.sourceId)).map σ := by
  induction h with
  | nil => rfl
  | cons he _ ih => simp only [List.map_cons, he.sourceId, ih]

theorem targetIds_renamed {l l' : List TraceWireEdge} (h : List.Forall₂ (EdgeRenamed σ) l l') :
    l'.map (·.targetId) = (l.map (·.targetId)).map σ := by
  induction h with
  | nil => rfl
  | cons he _ ih => simp only [List.map_cons, he.targetId, ih]

theorem nodeIds_renamed (nodes : List TraceNode) :
    (nodes.map (·.rename σ)).map (·.nodeId) = (nodes.map (·.nodeId)).map σ := by
  rw [List.map_map, List.map_map]
  rfl

theorem mem_ids_iff (hσ : Function.Injective σ) (id : String) (ids : List String) :
    decide (σ id ∈ ids.map σ) = decide (id ∈ ids) :=
  decide_eq_decide.mpr (List.mem_map_of_injective hσ)

theorem keeps_rename (hσ : Function.Injective σ) {kinds kinds' : Dict String String}
    (hk : ∀ id, kinds'.get? (σ id) = kinds.get? id) {l l' : List TraceWireEdge}
    (h : List.Forall₂ (EdgeRenamed σ) l l') (view : TraceViewName) (n : TraceNode) :
    view.keeps kinds' l' (n.rename σ) = view.keeps kinds l n := by
  cases view with
  | observed => rfl
  | humanOnly => exact congrArg isHuman (hk n.nodeId)
  | lineageAdjusted =>
    unfold TraceViewName.keeps TraceNode.rename
    dsimp only
    rw [sourceIds_renamed h, targetIds_renamed h, ← List.map_append, mem_ids_iff hσ]

theorem ids_rename {l l' : List TraceWireEdge} (h : List.Forall₂ (EdgeRenamed σ) l l')
    (view : TraceViewName) (nodes : List TraceNode) :
    view.ids (nodes.map (·.rename σ)) l' = (view.ids nodes l).map σ := by
  cases view with
  | observed => exact nodeIds_renamed nodes
  | humanOnly => exact nodeIds_renamed nodes
  | lineageAdjusted =>
    unfold TraceViewName.ids
    dsimp only
    rw [sourceIds_renamed h, targetIds_renamed h, List.map_append]

theorem normalizeView_rename (hσ : Function.Injective σ) (h : EchoHost) (roomId : String)
    (evidence : Dict String TraceEvidence) (r : TraceReference) (view : TraceViewName) :
    TwoRuns (ViewRenamed σ) (normalizeView h roomId evidence r view)
      (normalizeView h roomId evidence (r.rename σ τ) view) := by
  unfold normalizeView
  dsimp only
  rw [source_rename]
  simp only [TraceSource.rename]
  generalize r.source view = s
  have hk := nodeKinds_rename hσ s.nodes
  have hrenamed : List.Forall₂ (fun e e' => e' = e.rename σ τ) s.edges
      (s.edges.map (·.rename σ τ)) := forall₂_map_self fun _ _ => rfl
  have hlisted := TwoRuns.mapM hrenamed fun e e' he => by
    subst he
    exact normalizeEdge_rename hk h roomId evidence view e
  apply hlisted.bind
  intro listed listed' hl
  have hedges : List.Forall₂ (EdgeRenamed σ) (listed.filterMap id) (listed'.filterMap id) :=
    List.rel_filterMap (fun _ _ hab => hab) hl
  have hnodes : (s.nodes.map (·.rename σ)).filter
        (view.keeps (nodeKinds (s.nodes.map (·.rename σ))) (listed'.filterMap id)) =
      (s.nodes.filter (view.keeps (nodeKinds s.nodes) (listed.filterMap id))).map (·.rename σ) := by
    rw [List.filter_map]
    congr 1
    apply List.filter_congr
    intro n _
    exact keeps_rename hσ hk hedges view n
  apply TwoRuns.same
  intro metrics
  refine .returns ⟨hnodes, ?_, rfl, rfl⟩
  apply forall₂_filter hedges
  intro e e' he
  rw [Bool.eq_iff_iff]
  simp only [Bool.and_eq_true, decide_eq_true_eq, hnodes, ids_rename hedges, he.sourceId,
    he.targetId, List.mem_map_of_injective hσ]

/-- A check that looks at one node at a time. -/
theorem any_rename {p q : TraceNode → Bool} (h : ∀ n, q (n.rename σ) = p n)
    (nodes : List TraceNode) : (nodes.map (·.rename σ)).any q = nodes.any p := by
  rw [List.any_map]
  apply congrArg (List.any nodes)
  funext n
  exact h n

theorem validate_rename (hσ : Function.Injective σ) {human human' lineage lineage' : TraceView}
    (hh : ViewRenamed σ human human') (hl : ViewRenamed σ lineage lineage') :
    validateInternalViews human' lineage' = validateInternalViews human lineage := by
  have hkinds : (human'.nodes.any fun n => !isHuman (n.actorKind.or n.kind)) =
      human.nodes.any fun n => !isHuman (n.actorKind.or n.kind) := by
    rw [hh.nodes]
    exact any_rename (fun _ => rfl) _
  have hleaves : (human'.edges.any fun e =>
        e.sourceId ∉ human'.nodes.map (·.nodeId) || e.targetId ∉ human'.nodes.map (·.nodeId)) =
      human.edges.any fun e =>
        e.sourceId ∉ human.nodes.map (·.nodeId) || e.targetId ∉ human.nodes.map (·.nodeId) := by
    symm
    apply any_eq_of_forall₂ hh.edges
    intro e e' he
    rw [Bool.eq_iff_iff]
    simp only [Bool.or_eq_true, decide_eq_true_eq, hh.nodes, nodeIds_renamed, he.sourceId,
      he.targetId, List.mem_map_of_injective hσ]
  have hlineage : (lineage'.edges.any fun e => e.layer ≠ "uptake" || e.evidenceRefs.isEmpty
        || e.sourceId ∉ lineage'.nodes.map (·.nodeId)
        || e.targetId ∉ lineage'.nodes.map (·.nodeId)) =
      lineage.edges.any fun e => e.layer ≠ "uptake" || e.evidenceRefs.isEmpty
        || e.sourceId ∉ lineage.nodes.map (·.nodeId)
        || e.targetId ∉ lineage.nodes.map (·.nodeId) := by
    symm
    apply any_eq_of_forall₂ hl.edges
    intro e e' he
    rw [Bool.eq_iff_iff]
    simp only [Bool.or_eq_true, decide_eq_true_eq, hl.nodes, nodeIds_renamed, he.sourceId,
      he.targetId, he.layer, he.evidenceRefs, List.mem_map_of_injective hσ]
  unfold validateInternalViews
  rw [hkinds, hleaves, hlineage]

/-! ## The two sides -/

theorem teacherNode_rename (hσ : Function.Injective σ) (mapping : Dict String ActorEntry)
    (n : TraceNode) :
    TwoRuns (fun _ _ => True) (teacherNode mapping n)
      (teacherNode (mapping.mapKeys σ hσ) (n.rename σ)) := by
  unfold teacherNode
  dsimp only
  rw [rename_actor, show (n.rename σ).nodeId = σ n.nodeId from rfl, Dict.get?_mapKeys]
  generalize (if isHuman (some n.actor) = true then "learner" else n.actor) = expected
  split
  · split
    · exact .returns trivial
    · exact .raises _
  · exact .raises _

theorem teacherTraceView_rename (hσ : Function.Injective σ) (mapping : Dict String ActorEntry)
    (warnings : List String) {v v' : TraceView} (h : ViewRenamed σ v v') :
    TwoRuns (fun _ _ => True) (teacherTraceView mapping warnings v)
      (teacherTraceView (mapping.mapKeys σ hσ) warnings v') := by
  unfold teacherTraceView
  rw [h.nodes]
  have hrenamed : List.Forall₂ (fun n n' => n' = n.rename σ) v.nodes
      (v.nodes.map (·.rename σ)) := forall₂_map_self fun _ _ => rfl
  have hnodes := TwoRuns.mapM hrenamed fun n n' hn => by
    subst hn
    exact teacherNode_rename hσ mapping n
  apply hnodes.bind
  intro _ _ _
  exact .returns trivial

theorem learnerOf_rename (hσ : Function.Injective σ) (pseudonyms : Dict String Pseudonym)
    (n : TraceNode) :
    learnerOf (pseudonyms.mapKeys σ hσ) (n.rename σ) = learnerOf pseudonyms n := by
  unfold learnerOf
  rw [rename_actor, show (n.rename σ).nodeId = σ n.nodeId from rfl, Dict.get?_mapKeys]

theorem studentTraceView_rename (hσ : Function.Injective σ) (pseudonyms : Dict String Pseudonym)
    (warnings : List String) {v v' : TraceView} (h : ViewRenamed σ v v') :
    studentTraceView (pseudonyms.mapKeys σ hσ) warnings v' =
      studentTraceView pseudonyms warnings v := by
  have hnodes : v'.nodes.filterMap (learnerOf (pseudonyms.mapKeys σ hσ)) =
      v.nodes.filterMap (learnerOf pseudonyms) := by
    rw [h.nodes, List.filterMap_map]
    apply List.filterMap_congr
    intro n _
    exact learnerOf_rename hσ pseudonyms n
  have hids : (v'.nodes.filter fun n => (learnerOf (pseudonyms.mapKeys σ hσ) n).isSome).map
        (·.nodeId) =
      ((v.nodes.filter fun n => (learnerOf pseudonyms n).isSome).map (·.nodeId)).map σ := by
    rw [h.nodes, List.filter_map, ← nodeIds_renamed]
    congr 2
    apply List.filter_congr
    intro n _
    exact congrArg Option.isSome (learnerOf_rename hσ pseudonyms n)
  have hedges : ∀ ids : List String,
      v'.edges.filterMap (studentTraceEdge (pseudonyms.mapKeys σ hσ) (ids.map σ)) =
        v.edges.filterMap (studentTraceEdge pseudonyms ids) := by
    intro ids
    symm
    apply filterMap_eq_of_forall₂ h.edges
    intro e e' he
    unfold studentTraceEdge
    rw [he.sourceId, he.targetId, he.layer, mem_ids_iff hσ, mem_ids_iff hσ, Dict.get?_mapKeys,
      Dict.get?_mapKeys]
  unfold studentTraceView
  dsimp only
  rw [hnodes, hids, hedges, h.metrics]

theorem traceWindow_rename (hσ : Function.Injective σ) (h : EchoHost) (input : TraceInput)
    (window : String) (r : TraceReference) :
    TwoRuns (fun a b => b.2 = a.2) (traceWindow h input window r)
      (traceWindow h (input.rename σ hσ) window (r.rename σ τ)) := by
  unfold traceWindow
  dsimp only
  have hview := fun view => normalizeView_rename (τ := τ) hσ h input.metadata.roomId
    input.evidence r view
  apply (hview .observed).bind
  intro observed observed' ho
  apply (hview .humanOnly).bind
  intro human human' hh
  apply (hview .lineageAdjusted).bind
  intro lineage lineage' hl
  rw [validate_rename hσ hh hl]
  apply TwoRuns.same
  intro _
  unfold TraceInput.rename
  dsimp only
  cases input.metadata.teacherActorMapping with
  | none => exact .raises _
  | some mapping =>
    dsimp only [Option.map_some]
    have hteacher : ∀ (name : TraceViewName) (v v' : TraceView), ViewRenamed σ v v' →
        TwoRuns (fun _ _ => True)
          ((teacherTraceView mapping (viewWarnings window input.humanCount v.warnings) v).map
            (name, ·))
          ((teacherTraceView (mapping.mapKeys σ hσ)
            (viewWarnings window input.humanCount v'.warnings) v').map (name, ·)) := by
      intro name v v' hv
      rw [hv.warnings]
      apply (teacherTraceView_rename hσ mapping _ hv).map
      intro _ _ _
      trivial
    have hviews : List.Forall₂
        (fun (a b : TraceViewName × TraceView) => b.1 = a.1 ∧ ViewRenamed σ a.2 b.2)
        [(.observed, observed), (.humanOnly, human), (.lineageAdjusted, lineage)]
        [(.observed, observed'), (.humanOnly, human'), (.lineageAdjusted, lineage')] :=
      .cons ⟨rfl, ho⟩ (.cons ⟨rfl, hh⟩ (.cons ⟨rfl, hl⟩ .nil))
    apply (TwoRuns.mapM hviews fun a b hab => by
      rw [hab.1]
      exact hteacher a.1 a.2 b.2 hab.2).bind
    intro _ _ _
    refine .returns ?_
    simp only [List.map_cons, List.map_nil, studentTraceView_rename hσ _ _ ho,
      studentTraceView_rename hσ _ _ hh, studentTraceView_rename hσ _ _ hl, ho.warnings,
      hh.warnings, hl.warnings]

theorem projectWindow_rename (hσ : Function.Injective σ) (h : EchoHost) (input : TraceInput)
    (bounds : Dict String WindowBounds) (window : String) (r : TraceReference) :
    TwoRuns (fun a b => b.2 = a.2) (projectWindow h input bounds window r)
      (projectWindow h (input.rename σ hσ) bounds window (r.rename σ τ)) := by
  unfold projectWindow
  apply (traceWindow_rename hσ h input window r).bind
  rintro ⟨teacher, student⟩ ⟨teacher', student'⟩ rfl
  dsimp only
  split
  · exact .raises _
  · exact .returns rfl

/-- The adapter on two references with every raw id renamed. -/
theorem projectTrace_rename (hσ : Function.Injective σ) (h : EchoHost)
    (references : Dict String TraceReference) (bounds : Dict String WindowBounds)
    (input : TraceInput) :
    TwoRuns (fun a b => b.2 = a.2) (projectTrace h references bounds input)
      (projectTrace h (references.mapValues fun _ r => r.rename σ τ) bounds
        (input.rename σ hσ)) := by
  unfold projectTrace
  rw [Dict.get?_mapValues, Dict.get?_mapValues]
  cases references.get? "recent_10m" with
  | none => exact .raises _
  | some recent =>
    cases references.get? "session_45m" with
    | none => exact .raises _
    | some session =>
      dsimp only [Option.map_some]
      rw [show (references.mapValues fun _ r => r.rename σ τ).size = references.size by
        simp [Dict.size, Dict.mapValues]]
      split
      · exact .raises _
      · apply (projectWindow_rename hσ h input bounds "recent_10m" recent).bind
        rintro ⟨teacher₁, student₁⟩ ⟨teacher₁', _⟩ rfl
        apply (projectWindow_rename hσ h input bounds "session_45m" session).bind
        rintro ⟨teacher₂, student₂⟩ ⟨teacher₂', _⟩ rfl
        have hmapping : TwoRuns (fun _ _ => True)
            ((input.metadata.teacherActorMapping.getD .empty).entries.mapM fun kv =>
              (wireActor kv.2).map (kv.1, ·))
            (((input.rename σ hσ).metadata.teacherActorMapping.getD .empty).entries.mapM fun kv =>
              (wireActor kv.2).map (kv.1, ·)) := by
          have hentries : List.Forall₂ (fun a b => b.2 = a.2)
              (input.metadata.teacherActorMapping.getD .empty).entries
              ((input.rename σ hσ).metadata.teacherActorMapping.getD .empty).entries := by
            unfold TraceInput.rename
            dsimp only
            cases input.metadata.teacherActorMapping with
            | none => exact .nil
            | some mapping => exact forall₂_map_self fun _ _ => rfl
          apply (TwoRuns.mapM hentries _).mono
          · intro _ _ _
            trivial
          · exact fun _ _ => True
          · rintro ⟨_, _⟩ ⟨_, entry⟩ rfl
            apply (TwoRuns.refl (fun _ => rfl) (wireActor entry)).map
            intro _ _ _
            trivial
        apply hmapping.bind
        intro _ _ _
        exact .returns rfl

end Runs

/-! ## What students are told -/

/-- The person of the reference a student node stands for. -/
structure StandsFor (pseudonyms : Dict String Pseudonym) (source : TraceSource)
    (n : TraceWireNode) (raw : TraceNode) (p : Pseudonym) : Prop where
  listed : raw ∈ source.nodes
  entry : pseudonyms.get? raw.nodeId = some p
  learner : p.kind = "learner"
  human : isHuman (some raw.actor) = true
  shown : n = ⟨p.nodeId, p.label, "learner"⟩

structure Anonymous (pseudonyms : Dict String Pseudonym) (source : TraceSource)
    (v : StudentTraceView) : Prop where
  nodes : ∀ n ∈ v.nodes, ∃ raw p, StandsFor pseudonyms source n raw p
  sources : ∀ e ∈ v.edges, ∃ n ∈ v.nodes, n.nodeId = e.sourceNodeId
  targets : ∀ e ∈ v.edges, ∃ n ∈ v.nodes, n.nodeId = e.targetNodeId
  layers : ∀ e ∈ v.edges, e.layer = "communication" ∨ e.layer = "uptake"

section Told

variable {h : EchoHost} {input : TraceInput} {pseudonyms : Dict String Pseudonym}

theorem normalizeView_nodes {roomId : String} {evidence : Dict String TraceEvidence}
    {r : TraceReference} {view : TraceViewName} {v : TraceView}
    (hv : normalizeView h roomId evidence r view = .ok v) :
    ∀ n ∈ v.nodes, n ∈ (r.source view).nodes := by
  unfold normalizeView at hv
  obtain ⟨listed, -, hv⟩ := bind_eq_ok.mp hv
  obtain ⟨metrics, -, hv⟩ := bind_eq_ok.mp hv
  cases hv
  intro n hn
  exact List.mem_of_mem_filter hn

theorem learnerOf_eq_some {n : TraceNode} {p : Pseudonym} (hp : learnerOf pseudonyms n = some p) :
    pseudonyms.get? n.nodeId = some p ∧ isHuman (some n.actor) = true ∧ p.kind = "learner" := by
  unfold learnerOf at hp
  rw [Option.filter_eq_some_iff] at hp
  simp only [Bool.and_eq_true, decide_eq_true_eq] at hp
  exact hp

/-- An end of an edge is shown as the node it belongs to. -/
theorem learner_shown {v : TraceView} {id : String} {p : Pseudonym} {warnings : List String}
    (hid : id ∈ (v.nodes.filter fun n => (learnerOf pseudonyms n).isSome).map (·.nodeId))
    (hp : pseudonyms.get? id = some p) :
    ∃ n ∈ (studentTraceView pseudonyms warnings v).nodes, n.nodeId = p.nodeId := by
  obtain ⟨n, hn, rfl⟩ := List.mem_map.mp hid
  obtain ⟨hmem, hsome⟩ := List.mem_filter.mp hn
  obtain ⟨q, hq⟩ := Option.isSome_iff_exists.mp hsome
  have hpq : q = p := by
    have := (learnerOf_eq_some hq).1
    rw [hp] at this
    exact (Option.some.inj this).symm
  subst hpq
  refine ⟨⟨q.nodeId, q.label, "learner"⟩, ?_, rfl⟩
  exact List.mem_map.mpr ⟨q, List.mem_filterMap.mpr ⟨n, hmem, hq⟩, rfl⟩

theorem studentTraceEdge_eq_some {ids : List String} {e : TraceWireEdge} {s : StudentTraceEdge}
    (hs : studentTraceEdge pseudonyms ids e = some s) :
    e.layer ∈ STUDENT_EDGE_LAYERS ∧ e.sourceId ∈ ids ∧ e.targetId ∈ ids ∧ s.layer = e.layer ∧
      (∃ p, pseudonyms.get? e.sourceId = some p ∧ p.nodeId = s.sourceNodeId) ∧
      ∃ p, pseudonyms.get? e.targetId = some p ∧ p.nodeId = s.targetNodeId := by
  unfold studentTraceEdge at hs
  split at hs
  · rename_i hkept
    simp only [Bool.and_eq_true, decide_eq_true_eq] at hkept
    split at hs
    · rename_i src dst hsrc hdst
      split at hs
      · cases hs
        exact ⟨hkept.1.1, hkept.1.2, hkept.2, rfl, ⟨src, hsrc, rfl⟩, ⟨dst, hdst, rfl⟩⟩
      · cases hs
    · cases hs
  · cases hs

theorem studentTraceView_anonymous {source : TraceSource} {v : TraceView}
    (hnodes : ∀ n ∈ v.nodes, n ∈ source.nodes) (warnings : List String) :
    Anonymous pseudonyms source (studentTraceView pseudonyms warnings v) := by
  have hedge : ∀ s ∈ (studentTraceView pseudonyms warnings v).edges, ∃ e,
      studentTraceEdge pseudonyms
        ((v.nodes.filter fun n => (learnerOf pseudonyms n).isSome).map (·.nodeId)) e = some s := by
    intro s hs
    obtain ⟨e, -, he⟩ := List.mem_filterMap.mp hs
    exact ⟨e, he⟩
  constructor
  · intro n hn
    obtain ⟨p, hp, rfl⟩ := List.mem_map.mp hn
    obtain ⟨raw, hraw, hlearner⟩ := List.mem_filterMap.mp hp
    obtain ⟨hentry, hhuman, hkind⟩ := learnerOf_eq_some hlearner
    exact ⟨raw, p, hnodes raw hraw, hentry, hkind, hhuman, rfl⟩
  · intro s hs
    obtain ⟨e, he⟩ := hedge s hs
    obtain ⟨-, hid, -, -, ⟨p, hp, hshown⟩, -⟩ := studentTraceEdge_eq_some he
    rw [← hshown]
    exact learner_shown hid hp
  · intro s hs
    obtain ⟨e, he⟩ := hedge s hs
    obtain ⟨-, -, hid, -, -, ⟨p, hp, hshown⟩⟩ := studentTraceEdge_eq_some he
    rw [← hshown]
    exact learner_shown hid hp
  · intro s hs
    obtain ⟨e, he⟩ := hedge s hs
    obtain ⟨hlayer, -, -, hsame, -⟩ := studentTraceEdge_eq_some he
    rw [hsame]
    simpa [STUDENT_EDGE_LAYERS] using hlayer

theorem traceWindow_anonymous {window : String} {r : TraceReference}
    {told : ByView TeacherTraceView × ByView StudentTraceView}
    (hw : traceWindow h input window r = .ok told) :
    ∀ nv ∈ told.2, Anonymous input.pseudonyms (r.source nv.1) nv.2 := by
  unfold traceWindow at hw
  obtain ⟨observed, ho, hw⟩ := bind_eq_ok.mp hw
  obtain ⟨human, hh, hw⟩ := bind_eq_ok.mp hw
  obtain ⟨lineage, hl, hw⟩ := bind_eq_ok.mp hw
  obtain ⟨_, -, hw⟩ := bind_eq_ok.mp hw
  split at hw
  · cases hw
  · obtain ⟨teacher, -, hw⟩ := bind_eq_ok.mp hw
    cases hw
    intro nv hnv
    simp only [List.map_cons, List.map_nil, List.mem_cons, List.not_mem_nil, or_false] at hnv
    rcases hnv with rfl | rfl | rfl
    · exact studentTraceView_anonymous (normalizeView_nodes ho) _
    · exact studentTraceView_anonymous (normalizeView_nodes hh) _
    · exact studentTraceView_anonymous (normalizeView_nodes hl) _

theorem projectWindow_anonymous {bounds : Dict String WindowBounds} {window : String}
    {r : TraceReference} {told : TraceWindow TeacherTraceView × TraceWindow StudentTraceView}
    (hw : projectWindow h input bounds window r = .ok told) :
    told.2.window = window ∧
      ∀ nv ∈ told.2.views, Anonymous input.pseudonyms (r.source nv.1) nv.2 := by
  unfold projectWindow at hw
  obtain ⟨⟨teacher, student⟩, ht, hw⟩ := bind_eq_ok.mp hw
  dsimp only at hw
  split at hw
  · cases hw
  · cases hw
    exact ⟨rfl, traceWindow_anonymous ht⟩

theorem projectTrace_anonymous {references : Dict String TraceReference}
    {bounds : Dict String WindowBounds} {told : TeacherBundle × StudentBundle}
    (hp : projectTrace h references bounds input = .ok told) :
    ∀ w ∈ told.2.windows, ∃ r, references.get? w.window = some r ∧
      ∀ nv ∈ w.views, Anonymous input.pseudonyms (r.source nv.1) nv.2 := by
  unfold projectTrace at hp
  split at hp
  · rename_i recent session hrecent hsession
    split at hp
    · cases hp
    · obtain ⟨w₁, hw₁, hp⟩ := bind_eq_ok.mp hp
      obtain ⟨w₂, hw₂, hp⟩ := bind_eq_ok.mp hp
      obtain ⟨mapping, -, hp⟩ := bind_eq_ok.mp hp
      cases hp
      obtain ⟨hname₁, hviews₁⟩ := projectWindow_anonymous hw₁
      obtain ⟨hname₂, hviews₂⟩ := projectWindow_anonymous hw₂
      intro w hw
      simp only [List.mem_cons, List.not_mem_nil, or_false] at hw
      rcases hw with rfl | rfl
      · exact ⟨recent, hname₁ ▸ hrecent, hviews₁⟩
      · exact ⟨session, hname₂ ▸ hsession, hviews₂⟩
  · cases hp

end Told

/-- The index a room's rows give knows the agent and the room as such. -/
theorem rotated_not_learner {mac : String → String} {roomId epoch : String}
    {members : List (String × String)} {nova raw : String} {p : Pseudonym}
    (hp : (rotated mac roomId epoch (pseudonymIndex mac roomId members (some nova)).1).get? raw =
      some p) (hlearner : p.kind = "learner") : raw ≠ nova ∧ raw ≠ "ROOM" := by
  unfold rotated at hp
  rw [Dict.get?_mapValues] at hp
  obtain ⟨q, hq, rfl⟩ := Option.map_eq_some_iff.mp hp
  dsimp only at hlearner
  unfold pseudonymIndex at hq
  dsimp only at hq
  rw [Dict.get?_set] at hq
  split at hq
  · cases hq
    simp at hlearner
  · rename_i hroom
    rw [Dict.get?_set] at hq
    split at hq
    · cases hq
      simp at hlearner
    · rename_i hnova
      exact ⟨hnova, hroom⟩

/-- Students are told nothing that depends on a raw id, and of persons only of learners, by
pseudonym. -/
theorem student_bundle_anonymous (h : EchoHost) (references : Dict String TraceReference)
    (bounds : Dict String WindowBounds) (input : TraceInput) (teacher : TeacherBundle)
    (student : StudentBundle) (hok : projectTrace h references bounds input = .ok (teacher, student)) :
    (∀ (σ : String → String) (hσ : Function.Injective σ) (τ : Option String → Option String),
      ∃ teacher', projectTrace h (references.mapValues fun _ r => r.rename σ τ) bounds
        (input.rename σ hσ) = .ok (teacher', student)) ∧
    (∀ w ∈ student.windows, ∃ r, references.get? w.window = some r ∧
      ∀ nv ∈ w.views, Anonymous input.pseudonyms (r.source nv.1) nv.2) ∧
    ∀ mac roomId epoch members nova,
      input.pseudonyms = rotated mac roomId epoch (pseudonymIndex mac roomId members (some nova)).1 →
      ∀ source n raw p, StandsFor input.pseudonyms source n raw p →
        raw.nodeId ≠ nova ∧ raw.nodeId ≠ "ROOM" := by
  refine ⟨fun σ hσ τ => ?_, projectTrace_anonymous hok, ?_⟩
  · obtain ⟨⟨teacher', student'⟩, hrun, hsame⟩ :=
      (projectTrace_rename (τ := τ) hσ h references bounds input).ok hok
    dsimp only at hsame
    subst hsame
    exact ⟨teacher', hrun⟩
  · intro mac roomId epoch members nova hindex source n raw p hstands
    have hentry := hstands.entry
    rw [hindex] at hentry
    exact rotated_not_learner hentry hstands.learner

/-! ## Two learners and the agent -/

def talkScalars (names : List String) : Dict String Scalar :=
  names.foldl (fun d name => d.set name (.number 1)) .empty

def talkEdge (sourceId targetId layer : String) : TraceEdge where
  edgeId := none
  sourceId := sourceId
  targetId := targetId
  layer := layer
  channels := some (talkScalars ["positive", "challenge", "uncertain"])
  weight := .number 1
  evidenceIds := ["e1"]

/-- A learner takes up what another said; the agent speaks to both. -/
def talk : TraceReference where
  nodes := [⟨"ann", some "human", none⟩, ⟨"bob", some "human", none⟩, ⟨"nova", some "agent", none⟩]
  edges := [talkEdge "ann" "bob" "uptake", talkEdge "nova" "ann" "communication"]
  metrics := some (talkScalars
    ["participationBalance", "weightedReciprocity", "agentShare", "semanticCoverage"])
  warnings := none
  views := none

def talkInput : TraceInput where
  metadata :=
    { roomId := gardenRoom
      analysisEpoch := "33333333-3333-4333-8333-333333333333"
      algorithmVersion := "trace-ai"
      parameterHash := ""
      projectionVersion := 1
      baseVersion := 0
      completeThroughRoomSeq := 2
      watermarkEventTime := ""
      requiresReplay := false
      warnings := []
      reasonCodes := []
      teacherActorMapping := some
        (pseudonymIndex id gardenRoom [("ann", "A"), ("bob", "B")] (some "nova")).2 }
  pseudonyms := rotated id gardenRoom "33333333-3333-4333-8333-333333333333"
    (pseudonymIndex id gardenRoom [("ann", "A"), ("bob", "B")] (some "nova")).1
  evidence := Dict.empty.set "e1" ⟨"e1", some 0, some 3, "text_span"⟩
  humanCount := 4

def talkReferences : Dict String TraceReference :=
  (Dict.empty.set "recent_10m" talk).set "session_45m" talk

def talkBounds : Dict String WindowBounds :=
  (Dict.empty.set "recent_10m" ⟨"", ""⟩).set "session_45m" ⟨"", ""⟩

theorem student_bundle_anonymous_talk : ∃ teacher student,
    projectTrace .ascii talkReferences talkBounds talkInput = .ok (teacher, student) ∧
      (∀ w ∈ student.windows, ∀ nv ∈ w.views, nv.2.nodes.map (·.label) = ["A", "B"]) ∧
      ∀ w ∈ student.windows, ∃ r, talkReferences.get? w.window = some r ∧
        ∀ nv ∈ w.views, Anonymous talkInput.pseudonyms (r.source nv.1) nv.2 := by
  have hlabels : (projectTrace .ascii talkReferences talkBounds talkInput).toOption.map
      (fun told => told.2.windows.map fun w => w.views.map fun nv => nv.2.nodes.map (·.label)) =
      some (List.replicate 2 (List.replicate 3 ["A", "B"])) := by
    decide +kernel
  cases hok : projectTrace .ascii talkReferences talkBounds talkInput with
  | error e =>
    rw [hok] at hlabels
    cases hlabels
  | ok told =>
    obtain ⟨teacher, student⟩ := told
    refine ⟨teacher, student, rfl, ?_, (student_bundle_anonymous .ascii talkReferences talkBounds
      talkInput teacher student hok).2.1⟩
    rw [hok] at hlabels
    have hall : student.windows.map (fun w => w.views.map fun nv => nv.2.nodes.map (·.label)) =
      List.replicate 2 (List.replicate 3 ["A", "B"]) := Option.some.inj hlabels
    intro w hw nv hnv
    have hviews := List.mem_map_of_mem (f := fun w => w.views.map fun nv =>
      nv.2.nodes.map (·.label)) hw
    rw [hall] at hviews
    have hnodes := List.mem_map_of_mem (f := fun nv : TraceViewName × StudentTraceView =>
      nv.2.nodes.map (·.label)) hnv
    rw [List.eq_of_mem_replicate hviews] at hnodes
    exact List.eq_of_mem_replicate hnodes

end LearningOrbit.Projection
