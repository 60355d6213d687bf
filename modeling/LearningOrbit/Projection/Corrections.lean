import LearningOrbit.Rows
import LearningOrbit.Projection.Reviews

/-!
# The correction ledger

Corrections are replayed over a fresh reference snapshot, one after the other. A merged
alias has its edges merged too, so that no two of them say the same; a replaced relation
has not.
-/

namespace LearningOrbit.Projection

open LearningOrbit (Dict)

def InternalEdge.identity (e : InternalEdge) : Relation :=
  ⟨e.head, e.predicate, e.tail, e.relationFamily⟩

def InternalEdge.relabel (e : InternalEdge) (r : Relation) : InternalEdge :=
  { e with head := r.head, predicate := r.predicate, tail := r.tail,
           relationFamily := r.relationFamily }

def InternalEdge.withEvidence (e : InternalEdge) (ids : List String) : InternalEdge :=
  { e with evidenceIds := ids }

/-- What the edge says once the node `old` is called `new`. -/
def InternalEdge.rename (e : InternalEdge) (old new : String) : InternalEdge :=
  { e with head := if e.head = old then new else e.head,
           tail := if e.tail = old then new else e.tail }

def Channels.add (a b : Channels) : Channels :=
  ⟨a.support + b.support, a.challenge + b.challenge, a.uncertain + b.uncertain,
    a.question + b.question⟩

/-- `list(dict.fromkeys(ids))`: the first of equal ids stays. -/
def distinct (ids : List String) : List String :=
  ids.foldl (fun seen id => if id ∈ seen then seen else seen ++ [id]) []

/-- A later edge of the same identity adds to the first. -/
def InternalEdge.absorb (current edge : InternalEdge) : InternalEdge :=
  { current with
    channels := current.channels.add edge.channels
    evidenceIds := distinct (current.evidenceIds ++ edge.evidenceIds) }

def mergeEdge (merged : Dict Relation InternalEdge) (edge : InternalEdge) :
    Dict Relation InternalEdge :=
  match merged.get? edge.identity with
  | none => merged.set edge.identity edge
  | some current => merged.set edge.identity (current.absorb edge)

/-- `_merge_duplicate_edges`. -/
def mergeDuplicateEdges (edges : List InternalEdge) : List InternalEdge :=
  (edges.foldl mergeEdge Dict.empty).values

structure Corrected where
  nodes : List InternalNode
  edges : List InternalEdge
  refs : Dict String EvidenceRef
  deriving DecidableEq

def Corrected.nodeIds (s : Corrected) : List String := s.nodes.map InternalNode.nodeId

def Corrected.identities (s : Corrected) : List Relation := s.edges.map InternalEdge.identity

def targetInvalid {α : Type} : Except String α := .error "ANALYTICS_CORRECTION_TARGET_INVALID"

section
variable (h : EchoHost) (roomId : String)

/-- The first edge of that wire id, and where it is. -/
def targetEdge (edges : List InternalEdge) (edgeId : String) :
    Except String (InternalEdge × Nat) :=
  match edges.zipIdx.find? fun item => echoWireEdgeId h roomId item.1 = edgeId with
  | some found => .ok found
  | none => targetInvalid

def replaceEvidenceSpan (s : Corrected) (reviewEventId edgeId : String)
    (target replacement : EvidenceRef) : Except String Corrected := do
  let found ← targetEdge h roomId s.edges edgeId
  match found.1.evidenceIds.findIdx? fun key => s.refs.get? key = some target with
  | none => targetInvalid
  | some at' =>
    let key := "correction:" ++ reviewEventId
    return { s with
      refs := s.refs.set key replacement
      edges := s.edges.set found.2 (found.1.withEvidence (found.1.evidenceIds.set at' key)) }

def replaceRelation (s : Corrected) (edgeId : String) (r : Relation) : Except String Corrected := do
  let found ← targetEdge h roomId s.edges edgeId
  if r.head ∈ s.nodeIds ∧ r.tail ∈ s.nodeIds then
    return { s with edges := s.edges.set found.2 (found.1.relabel r) }
  else targetInvalid

def mergeAlias (s : Corrected) (canonical aliasId : String) : Except String Corrected :=
  if canonical ∈ s.nodeIds ∧ aliasId ∈ s.nodeIds then
    .ok { s with
      nodes := s.nodes.filter fun n => n.nodeId ≠ aliasId
      edges := mergeDuplicateEdges (s.edges.map fun e => e.rename aliasId canonical) }
  else targetInvalid

def InternalNode.rename (n : InternalNode) (old new label : String) : InternalNode :=
  if n.nodeId = old then { n with nodeId := new, label := label } else n

def splitAlias (s : Corrected) (aliasId newId newLabel : String) : Except String Corrected :=
  if aliasId ∈ s.nodeIds ∧ newId ∉ s.nodeIds then
    .ok { s with
      nodes := s.nodes.map fun n => n.rename aliasId newId newLabel
      edges := s.edges.map fun e => e.rename aliasId newId }
  else targetInvalid

def retractEdge (s : Corrected) (edgeId : String) : Except String Corrected :=
  let edges := s.edges.filter fun e => echoWireEdgeId h roomId e ≠ edgeId
  if edges.length = s.edges.length then targetInvalid else .ok { s with edges }

end

/-- The evidence of an edge that is not of the event. -/
def keptEvidence (refs : Dict String EvidenceRef) (event : String) (e : InternalEdge) :
    List String :=
  e.evidenceIds.filter fun key => (refs.get? key).map EvidenceRef.eventId ≠ some event

def dropEvidence (refs : Dict String EvidenceRef) (event : String) (e : InternalEdge) :
    Option InternalEdge :=
  if keptEvidence refs event e = [] then none
  else some (e.withEvidence (keptEvidence refs event e))

def retractEvidence (s : Corrected) (event : String) : Corrected :=
  { s with edges := s.edges.filterMap (dropEvidence s.refs event) }

/-- The event a retraction speaks of: that of the text, or the one it names. -/
def retractedEvent (d : ReviewDetail) (targetType : TargetType) (targetId : String) :
    Option String :=
  let event := if targetType = .derivedText then d.targetEventId else some targetId
  event.filter fun id => id ≠ "" ∧ id ≠ "None"

section
variable (h : EchoHost) (roomId : String)

def applyCorrection (undone : List String) (s : Corrected) (d : ReviewDetail) :
    Except String Corrected :=
  match d.payload.command with
  | .review .. | .replaceText .. | .undoMerge _ => .ok s
  | .replaceEvidenceSpan edgeId target replacement =>
    replaceEvidenceSpan h roomId s d.reviewEventId edgeId target replacement
  | .replaceRelation edgeId replacement => replaceRelation h roomId s edgeId replacement
  | .mergeAlias canonical aliasId =>
    if d.reviewEventId ∈ undone then .ok s else mergeAlias s canonical aliasId
  | .splitAlias _ aliasId newId newLabel => splitAlias s aliasId newId newLabel
  | .retract .projection targetId => retractEdge h roomId s targetId
  | .retract targetType targetId =>
    match retractedEvent d targetType targetId with
    | none => targetInvalid
    | some event => .ok (retractEvidence s event)

/-- The merges that some row of the ledger undoes. -/
def undoneMerges (details : List ReviewDetail) : List String :=
  details.filterMap fun d =>
    match d.payload.command with
    | .undoMerge target => some target
    | _ => none

/-- What the loop of `_apply_projection_corrections` holds after `n` rows. -/
def correctedThrough (details : List ReviewDetail) (start : Corrected) (n : Nat) :
    Except String Corrected :=
  (details.take n).foldlM (applyCorrection h roomId (undoneMerges details)) start

/-- `_apply_projection_corrections`. -/
def applyProjectionCorrections (start : Corrected) (details : List ReviewDetail) :
    Except String Corrected := do
  let parsed ← details.mapM ReviewDetail.parsed
  parsed.foldlM (applyCorrection h roomId (undoneMerges parsed)) start

end

/-! ## Distinct edges -/

/-- Distinct node ids, distinct identities, and every endpoint a node. -/
structure Corrected.Distinct (s : Corrected) : Prop where
  nodes : s.nodeIds.Nodup
  edges : s.identities.Nodup
  ends : ∀ e ∈ s.edges, e.head ∈ s.nodeIds ∧ e.tail ∈ s.nodeIds

def Relation.rename (r : Relation) (old new : String) : Relation :=
  { r with head := if r.head = old then new else r.head,
           tail := if r.tail = old then new else r.tail }

theorem identity_relabel (e : InternalEdge) (r : Relation) : (e.relabel r).identity = r := rfl

theorem identity_withEvidence (e : InternalEdge) (ids : List String) :
    (e.withEvidence ids).identity = e.identity := rfl

theorem identity_absorb (e f : InternalEdge) : (e.absorb f).identity = e.identity := rfl

/-- Edges filed under what they say. -/
def Filed (merged : Dict Relation InternalEdge) : Prop :=
  ∀ r e, merged.get? r = some e → e.identity = r

theorem mergeEdge_eq (merged : Dict Relation InternalEdge) (edge : InternalEdge) :
    ∃ e, mergeEdge merged edge = merged.set edge.identity e ∧
      (e = edge ∨ ∃ current, merged.get? edge.identity = some current ∧
        e = current.absorb edge) := by
  unfold mergeEdge
  split
  · exact ⟨edge, rfl, .inl rfl⟩
  · rename_i current hget
    exact ⟨_, rfl, .inr ⟨current, hget, rfl⟩⟩

theorem mergeEdge_filed {merged : Dict Relation InternalEdge} (hf : Filed merged)
    (edge : InternalEdge) : Filed (mergeEdge merged edge) := by
  obtain ⟨e, heq, he⟩ := mergeEdge_eq merged edge
  have hid : e.identity = edge.identity := by
    rcases he with rfl | ⟨current, hget, rfl⟩
    · rfl
    · rw [identity_absorb, hf _ _ hget]
  intro r f hget
  rw [heq, Dict.get?_set] at hget
  split at hget
  · rename_i hr
    rw [hr, ← Option.some.inj hget, hid]
  · exact hf r f hget

theorem mergeEdges_filed (edges : List InternalEdge) {merged : Dict Relation InternalEdge}
    (hf : Filed merged) : Filed (edges.foldl mergeEdge merged) := by
  induction edges generalizing merged with
  | nil => exact hf
  | cons edge rest ih => exact ih (mergeEdge_filed hf edge)

theorem mem_mergeEdges (edges : List InternalEdge) (merged : Dict Relation InternalEdge)
    (r : Relation) : r ∈ (edges.foldl mergeEdge merged).keys ↔
      r ∈ edges.map InternalEdge.identity ∨ r ∈ merged.keys := by
  induction edges generalizing merged with
  | nil => simp
  | cons edge rest ih =>
    obtain ⟨e, heq, -⟩ := mergeEdge_eq merged edge
    rw [List.foldl_cons, ih, heq, Dict.mem_keys_set, List.map_cons, List.mem_cons]
    tauto

theorem Filed.identities {merged : Dict Relation InternalEdge} (hf : Filed merged) :
    merged.values.map InternalEdge.identity = merged.keys := by
  unfold Dict.values Dict.keys
  rw [List.map_map]
  apply List.map_congr_left
  intro entry hentry
  exact hf entry.1 entry.2 (Dict.get?_eq_some.mpr hentry)

theorem filed_empty : Filed Dict.empty := by
  intro r e hget
  cases hget

/-- Merged edges say different things, and between them what was said before. -/
theorem mergeDuplicateEdges_identities (edges : List InternalEdge) :
    ((mergeDuplicateEdges edges).map InternalEdge.identity).Nodup ∧
      ∀ r, r ∈ (mergeDuplicateEdges edges).map InternalEdge.identity ↔
        r ∈ edges.map InternalEdge.identity := by
  have hids : (mergeDuplicateEdges edges).map InternalEdge.identity =
      (edges.foldl mergeEdge Dict.empty).keys :=
    (mergeEdges_filed edges filed_empty).identities
  rw [hids]
  refine ⟨Dict.keys_nodup _, fun r => ?_⟩
  rw [mem_mergeEdges]
  simp [Dict.keys, Dict.empty]

section
variable {h : EchoHost} {roomId : String}

theorem echoWireEdgeId_congr {e f : InternalEdge} (he : e.identity = f.identity) :
    echoWireEdgeId h roomId e = echoWireEdgeId h roomId f := by
  simp only [InternalEdge.identity, Relation.mk.injEq] at he
  obtain ⟨hh, hp, ht, hf⟩ := he
  unfold echoWireEdgeId
  rw [hh, hp, ht, hf]

theorem targetEdge_ok {edges : List InternalEdge} {edgeId : String} {found : InternalEdge × Nat}
    (hf : targetEdge h roomId edges edgeId = .ok found) :
    edges[found.2]? = some found.1 ∧ echoWireEdgeId h roomId found.1 = edgeId := by
  unfold targetEdge at hf
  split at hf
  · rename_i item hitem
    cases hf
    refine ⟨List.mk_mem_zipIdx_iff_getElem?.mp (List.mem_of_find?_eq_some hitem), ?_⟩
    simpa using List.find?_some hitem
  · cases hf

/-- What the edges say, or part of it, about the same nodes. -/
theorem Corrected.Distinct.of_sublist {s t : Corrected} (hs : s.Distinct)
    (hn : t.nodeIds = s.nodeIds) (he : t.identities.Sublist s.identities) : t.Distinct := by
  refine ⟨hn ▸ hs.nodes, hs.edges.sublist he, fun e hmem => ?_⟩
  have hid : e.identity ∈ s.identities := he.subset (List.mem_map_of_mem hmem)
  obtain ⟨f, hf, hfe⟩ := List.mem_map.mp hid
  simp only [InternalEdge.identity, Relation.mk.injEq] at hfe
  rw [hn, ← hfe.1, ← hfe.2.2.1]
  exact hs.ends f hf

theorem replaceEvidenceSpan_identities {s t : Corrected} {reviewEventId edgeId : String}
    {target replacement : EvidenceRef}
    (ht : replaceEvidenceSpan h roomId s reviewEventId edgeId target replacement = .ok t) :
    t.nodeIds = s.nodeIds ∧ t.identities = s.identities := by
  obtain ⟨found, hfound, ht⟩ := bind_eq_ok.mp ht
  split at ht
  · cases ht
  · cases ht
    refine ⟨rfl, ?_⟩
    have hat := congrArg (Option.map InternalEdge.identity) (targetEdge_ok hfound).1
    rw [← List.getElem?_map, Option.map_some] at hat
    unfold Corrected.identities
    rw [List.map_set, identity_withEvidence]
    obtain ⟨hi, hval⟩ := List.getElem?_eq_some_iff.mp hat
    rw [← hval, List.set_getElem_self]

/-- The row asks for a relation that an edge other than its target has. -/
def Collides (h : EchoHost) (roomId : String) (s : Corrected) (d : ReviewDetail) : Prop :=
  ∃ edgeId r found, d.payload.command = .replaceRelation edgeId r ∧
    targetEdge h roomId s.edges edgeId = .ok found ∧ r.head ∈ s.nodeIds ∧ r.tail ∈ s.nodeIds ∧
    ∃ j, j ≠ found.2 ∧ s.identities[j]? = some r

theorem replaceRelation_ok {s t : Corrected} {edgeId : String} {r : Relation}
    (ht : replaceRelation h roomId s edgeId r = .ok t) :
    ∃ found, targetEdge h roomId s.edges edgeId = .ok found ∧
      r.head ∈ s.nodeIds ∧ r.tail ∈ s.nodeIds ∧
      t = { s with edges := s.edges.set found.2 (found.1.relabel r) } := by
  obtain ⟨found, hfound, ht⟩ := bind_eq_ok.mp ht
  split at ht
  · rename_i hends
    cases ht
    exact ⟨found, hfound, hends.1, hends.2, rfl⟩
  · cases ht

/-- Replacing a relation keeps the edges distinct exactly when no other edge has it. -/
theorem replaceRelation_distinct {s t : Corrected} {d : ReviewDetail} {edgeId : String}
    {r : Relation} (hs : s.Distinct) (hd : d.payload.command = .replaceRelation edgeId r)
    (ht : replaceRelation h roomId s edgeId r = .ok t) :
    t.Distinct ↔ ¬ Collides h roomId s d := by
  obtain ⟨found, hfound, hhead, htail, rfl⟩ := replaceRelation_ok ht
  have hat := (targetEdge_ok hfound).1
  have hi : found.2 < s.identities.length := by
    rw [Corrected.identities, List.length_map]
    exact (List.getElem?_eq_some_iff.mp hat).1
  have hids : Corrected.identities { s with edges := s.edges.set found.2 (found.1.relabel r) } =
      s.identities.set found.2 r := by
    unfold Corrected.identities
    rw [List.map_set, identity_relabel]
  have hcollides : Collides h roomId s d ↔ ∃ j, j ≠ found.2 ∧ s.identities[j]? = some r := by
    constructor
    · rintro ⟨edgeId', r', found', hd', hfound', -, -, hj⟩
      rw [hd] at hd'
      cases hd'
      rw [hfound] at hfound'
      cases hfound'
      exact hj
    · intro hj
      exact ⟨edgeId, r, found, hd, hfound, hhead, htail, hj⟩
  rw [hcollides]
  constructor
  · rintro ht ⟨j, hj, hr⟩
    have hn := ht.edges
    rw [hids, Rows.nodup_set_iff hs.edges hi] at hn
    exact hn j hj hr
  · intro hfree
    refine ⟨hs.nodes, ?_, fun e he => ?_⟩
    · rw [hids, Rows.nodup_set_iff hs.edges hi]
      exact fun j hj hr => hfree ⟨j, hj, hr⟩
    · rcases List.mem_or_eq_of_mem_set he with he | rfl
      · exact hs.ends e he
      · exact ⟨hhead, htail⟩

theorem mem_nodeIds_rename {s : Corrected} {old new id : String} (hnew : new ∈ s.nodeIds)
    (hne : new ≠ old) (hid : id ∈ s.nodeIds) :
    (if id = old then new else id) ∈
      (s.nodes.filter fun n => n.nodeId ≠ old).map InternalNode.nodeId := by
  have hkept {a : String} (ha : a ∈ s.nodeIds) (hao : a ≠ old) :
      a ∈ (s.nodes.filter fun n => n.nodeId ≠ old).map InternalNode.nodeId := by
    obtain ⟨n, hn, rfl⟩ := List.mem_map.mp ha
    exact List.mem_map_of_mem (List.mem_filter.mpr ⟨hn, by simpa using hao⟩)
  split
  · exact hkept hnew hne
  · rename_i hio
    exact hkept hid hio

theorem mergeAlias_distinct {s t : Corrected} {canonical aliasId : String} (hs : s.Distinct)
    (hne : canonical ≠ aliasId) (ht : mergeAlias s canonical aliasId = .ok t) : t.Distinct := by
  unfold mergeAlias at ht
  split at ht
  · rename_i hnodes
    cases ht
    obtain ⟨hnodup, hmem⟩ :=
      mergeDuplicateEdges_identities (s.edges.map fun e => e.rename aliasId canonical)
    refine ⟨hs.nodes.sublist (List.filter_sublist.map _), hnodup, fun e he => ?_⟩
    obtain ⟨f, hf, hfe⟩ := List.mem_map.mp ((hmem e.identity).mp (List.mem_map_of_mem he))
    obtain ⟨g, hg, rfl⟩ := List.mem_map.mp hf
    have hends := hs.ends g hg
    simp only [InternalEdge.identity, InternalEdge.rename, Relation.mk.injEq] at hfe
    rw [← hfe.1, ← hfe.2.2.1]
    exact ⟨mem_nodeIds_rename hnodes.1 hne hends.1, mem_nodeIds_rename hnodes.1 hne hends.2⟩
  · cases ht

/-- A node id that is not in use renames injectively. -/
theorem rename_injOn {ids : List String} {old new a b : String} (hnew : new ∉ ids) (ha : a ∈ ids)
    (hb : b ∈ ids) (he : (if a = old then new else a) = if b = old then new else b) : a = b := by
  split at he <;> split at he
  · rename_i h₁ h₂
    rw [h₁, h₂]
  · exact absurd (he ▸ hb) hnew
  · exact absurd (he ▸ ha) hnew
  · exact he

theorem nodeId_rename (n : InternalNode) (old new label : String) :
    (n.rename old new label).nodeId = if n.nodeId = old then new else n.nodeId := by
  unfold InternalNode.rename
  split <;> rfl

theorem splitAlias_distinct {s t : Corrected} {aliasId newId newLabel : String} (hs : s.Distinct)
    (ht : splitAlias s aliasId newId newLabel = .ok t) : t.Distinct := by
  unfold splitAlias at ht
  split at ht
  · rename_i hnodes
    cases ht
    have hnodeIds : Corrected.nodeIds
        { s with nodes := s.nodes.map fun n => n.rename aliasId newId newLabel,
                 edges := s.edges.map fun e => e.rename aliasId newId } =
        s.nodeIds.map fun id => if id = aliasId then newId else id := by
      unfold Corrected.nodeIds
      rw [List.map_map, List.map_map]
      exact List.map_congr_left fun n _ => nodeId_rename n aliasId newId newLabel
    refine ⟨?_, ?_, fun e he => ?_⟩
    · rw [hnodeIds]
      exact hs.nodes.map_on fun a ha b hb he => rename_injOn hnodes.2 ha hb he
    · have hedges : s.edges.Nodup := hs.edges.of_map _
      unfold Corrected.identities
      rw [List.map_map]
      apply hedges.map_on
      intro e he f hf hef
      apply List.inj_on_of_nodup_map hs.edges he hf
      simp only [Function.comp, InternalEdge.identity, InternalEdge.rename,
        Relation.mk.injEq] at hef ⊢
      obtain ⟨hh, hp, ht, hr⟩ := hef
      exact ⟨rename_injOn hnodes.2 (hs.ends e he).1 (hs.ends f hf).1 hh, hp,
        rename_injOn hnodes.2 (hs.ends e he).2 (hs.ends f hf).2 ht, hr⟩
    · obtain ⟨f, hf, rfl⟩ := List.mem_map.mp he
      rw [hnodeIds]
      exact ⟨List.mem_map_of_mem (hs.ends f hf).1, List.mem_map_of_mem (hs.ends f hf).2⟩
  · cases ht

theorem retractEvidence_identities (s : Corrected) (event : String) :
    (retractEvidence s event).identities.Sublist s.identities := by
  unfold retractEvidence Corrected.identities
  dsimp only
  induction s.edges with
  | nil => exact List.Sublist.refl _
  | cons e rest ih =>
    rw [List.filterMap_cons]
    cases hd : dropEvidence s.refs event e with
    | none => exact ih.cons _
    | some f =>
      have hf : f.identity = e.identity := by
        unfold dropEvidence at hd
        split at hd
        · cases hd
        · cases hd
          rfl
      rw [List.map_cons, List.map_cons, hf]
      exact ih.cons_cons _

theorem retractEdge_distinct {s t : Corrected} {edgeId : String} (hs : s.Distinct)
    (ht : retractEdge h roomId s edgeId = .ok t) : t.Distinct := by
  unfold retractEdge at ht
  dsimp only at ht
  split at ht
  · cases ht
  · cases ht
    exact hs.of_sublist rfl (List.filter_sublist.map _)

/-- One row of the ledger keeps the edges distinct exactly when it does not collide. -/
theorem applyCorrection_distinct {undone : List String} {s t : Corrected} {d : ReviewDetail}
    (hs : s.Distinct) (hd : d.payload.accepted)
    (ht : applyCorrection h roomId undone s d = .ok t) :
    t.Distinct ↔ ¬ Collides h roomId s d := by
  -- Every kind but one keeps the edges distinct, and only that one can collide.
  have hother (hkind : ∀ edgeId r, d.payload.command ≠ .replaceRelation edgeId r)
      (hkeep : t.Distinct) : t.Distinct ↔ ¬ Collides h roomId s d := by
    refine iff_of_true hkeep ?_
    rintro ⟨edgeId, r, found, hcmd, -⟩
    exact hkind edgeId r hcmd
  have haccepted : d.payload.command.accepted = true := by
    unfold ReviewRequest.accepted at hd
    exact (Bool.and_eq_true_iff.mp hd).2
  unfold applyCorrection at ht
  cases hcmd : d.payload.command with
  | review | replaceText | undoMerge =>
    rw [hcmd] at ht
    cases ht
    exact hother (by simp [hcmd]) hs
  | replaceEvidenceSpan edgeId target replacement =>
    rw [hcmd] at ht
    obtain ⟨hn, he⟩ := replaceEvidenceSpan_identities ht
    exact hother (by simp [hcmd]) (hs.of_sublist hn (he ▸ List.Sublist.refl _))
  | replaceRelation edgeId r =>
    rw [hcmd] at ht
    exact replaceRelation_distinct hs hcmd ht
  | mergeAlias canonical aliasId =>
    rw [hcmd] at ht haccepted
    apply hother (by simp [hcmd])
    have hne : canonical ≠ aliasId := by
      simp only [ReviewCommand.accepted, Bool.and_eq_true, decide_eq_true_eq] at haccepted
      exact haccepted.2
    dsimp only at ht
    split at ht
    · cases ht
      exact hs
    · exact mergeAlias_distinct hs hne ht
  | splitAlias canonical aliasId newId newLabel =>
    rw [hcmd] at ht
    exact hother (by simp [hcmd]) (splitAlias_distinct hs ht)
  | retract targetType targetId =>
    apply hother (by simp [hcmd])
    have hevent (ht : (match retractedEvent d targetType targetId with
        | none => targetInvalid
        | some event => Except.ok (retractEvidence s event)) = .ok t) : t.Distinct := by
      split at ht
      · cases ht
      · cases ht
        exact hs.of_sublist rfl (retractEvidence_identities s _)
    rw [hcmd] at ht
    cases targetType with
    | projection => exact retractEdge_distinct hs ht
    | evidence | derivedText => exact hevent ht

/-! ## The ledger -/

/-- On these edges `uuid5` and NFC tell apart what they say. -/
def Separated (h : EchoHost) (roomId : String) (s : Corrected) : Prop :=
  ∀ e ∈ s.edges, ∀ f ∈ s.edges,
    echoWireEdgeId h roomId e = echoWireEdgeId h roomId f → e.identity = f.identity

/-- Distinct node ids, distinct wire ids, and every endpoint a node. -/
structure WellFormed (h : EchoHost) (roomId : String) (s : Corrected) : Prop where
  nodes : s.nodeIds.Nodup
  wireIds : (s.edges.map (echoWireEdgeId h roomId)).Nodup
  ends : ∀ e ∈ s.edges, e.head ∈ s.nodeIds ∧ e.tail ∈ s.nodeIds

theorem Separated.wellFormed_iff {s : Corrected} (hsep : Separated h roomId s) :
    WellFormed h roomId s ↔ s.Distinct := by
  have hiff : (s.edges.map (echoWireEdgeId h roomId)).Nodup ↔ s.identities.Nodup := by
    unfold Corrected.identities List.Nodup
    rw [List.pairwise_map, List.pairwise_map]
    apply List.Pairwise.iff_of_mem
    intro e f he hf
    exact not_congr ⟨hsep e he f hf, echoWireEdgeId_congr⟩
  exact ⟨fun hw => ⟨hw.nodes, hiff.mp hw.wireIds, hw.ends⟩,
    fun hd => ⟨hd.nodes, hiff.mpr hd.edges, hd.ends⟩⟩

theorem correctedThrough_succ {details : List ReviewDetail} {start : Corrected} {n : Nat}
    {d : ReviewDetail} (hd : details[n]? = some d) :
    correctedThrough h roomId details start (n + 1) =
      correctedThrough h roomId details start n >>=
        fun s => applyCorrection h roomId (undoneMerges details) s d := by
  unfold correctedThrough
  rw [List.take_add_one, hd, List.foldlM_append]
  congr 1
  funext s
  change (applyCorrection h roomId (undoneMerges details) s d >>= pure) = _
  exact bind_pure _

theorem correctedThrough_beyond {details : List ReviewDetail} {start : Corrected} {n : Nat}
    (hn : details[n]? = none) :
    correctedThrough h roomId details start (n + 1) =
      correctedThrough h roomId details start n := by
  have hlen : details.length ≤ n := List.getElem?_eq_none_iff.mp hn
  unfold correctedThrough
  rw [List.take_of_length_le hlen, List.take_of_length_le (Nat.le_succ_of_le hlen)]

/-- As long as no row collides the edges stay distinct. -/
theorem correctedThrough_distinct {details : List ReviewDetail} {start : Corrected}
    (hstart : start.Distinct) (haccepted : ∀ d ∈ details, d.payload.accepted)
    (hfree : ∀ n d s, details[n]? = some d → correctedThrough h roomId details start n = .ok s →
      ¬ Collides h roomId s d)
    (n : Nat) (s : Corrected) (hs : correctedThrough h roomId details start n = .ok s) :
    s.Distinct := by
  induction n generalizing s with
  | zero =>
    cases hs
    exact hstart
  | succ n ih =>
    cases hd : details[n]? with
    | none => exact ih s (correctedThrough_beyond hd ▸ hs)
    | some d =>
      rw [correctedThrough_succ hd] at hs
      obtain ⟨before, hbefore, hs⟩ := bind_eq_ok.mp hs
      have haccept := haccepted d (List.mem_of_getElem? hd)
      exact (applyCorrection_distinct (ih before hbefore) haccept hs).mpr (hfree n d before hd hbefore)

theorem collides_returns (undone : List String) {s : Corrected} {d : ReviewDetail}
    (hc : Collides h roomId s d) : ∃ t, applyCorrection h roomId undone s d = .ok t := by
  obtain ⟨edgeId, r, found, hcmd, hfound, hhead, htail, -⟩ := hc
  refine ⟨{ s with edges := s.edges.set found.2 (found.1.relabel r) }, ?_⟩
  unfold applyCorrection
  rw [hcmd]
  dsimp only
  unfold replaceRelation
  rw [hfound]
  exact if_pos ⟨hhead, htail⟩

end

/-- No detail that was accepted fails to parse. -/
theorem applyProjectionCorrections_eq (h : EchoHost) (roomId : String) (start : Corrected)
    {details : List ReviewDetail} (haccepted : ∀ d ∈ details, d.payload.accepted) :
    applyProjectionCorrections h roomId start details =
      correctedThrough h roomId details start details.length := by
  unfold applyProjectionCorrections correctedThrough
  rw [parsed_details haccepted, List.take_length]
  rfl

/-- The snapshot is well formed all along the ledger, and so when it is returned, exactly
when no row replaces a relation by one that another edge has. -/
theorem corrections_wellFormed_iff (h : EchoHost) (roomId : String) (start : Corrected)
    (details : List ReviewDetail) (hstart : start.Distinct)
    (haccepted : ∀ d ∈ details, d.payload.accepted)
    (hsep : ∀ n s, correctedThrough h roomId details start n = .ok s → Separated h roomId s) :
    applyProjectionCorrections h roomId start details =
        correctedThrough h roomId details start details.length ∧
      ((∀ n s, correctedThrough h roomId details start n = .ok s → WellFormed h roomId s) ↔
        ∀ n d s, details[n]? = some d → correctedThrough h roomId details start n = .ok s →
          ¬ Collides h roomId s d) := by
  refine ⟨applyProjectionCorrections_eq h roomId start haccepted,
    fun hall n d s hd hs hc => ?_, fun hfree n s hs => ?_⟩
  · -- The colliding row returns, and what it returns is not well formed.
    obtain ⟨t, ht⟩ := collides_returns (undoneMerges details) hc
    have hnext : correctedThrough h roomId details start (n + 1) = .ok t := by
      rw [correctedThrough_succ hd, hs]
      exact ht
    have hdistinct := (hsep n s hs).wellFormed_iff.mp (hall n s hs)
    have hafter := (hsep (n + 1) t hnext).wellFormed_iff.mp (hall (n + 1) t hnext)
    exact (applyCorrection_distinct hdistinct (haccepted d (List.mem_of_getElem? hd)) ht).mp hafter hc
  · exact (hsep n s hs).wellFormed_iff.mpr
      (correctedThrough_distinct hstart haccepted hfree n s hs)

/-! ## Two edges that come to say the same -/

instance (s : Corrected) : Decidable s.Distinct :=
  decidable_of_iff (s.nodeIds.Nodup ∧ s.identities.Nodup ∧
      ∀ e ∈ s.edges, e.head ∈ s.nodeIds ∧ e.tail ∈ s.nodeIds)
    ⟨fun ⟨hn, he, hd⟩ => ⟨hn, he, hd⟩, fun hs => ⟨hs.nodes, hs.edges, hs.ends⟩⟩

instance (h : EchoHost) (roomId : String) (s : Corrected) : Decidable (Separated h roomId s) :=
  inferInstanceAs (Decidable (∀ e ∈ s.edges, _))

/-- A runtime on plain text. -/
def EchoHost.ascii : EchoHost where
  toHost := Host.ascii
  uuid5_stored := Digest.uuid5_stored
  round12 := id

def gardenRoom : String := "11111111-1111-4111-8111-111111111111"

def gardenChannels : Channels := ⟨1, 0, 0, 0⟩

/-- Plants need light and use light. -/
def garden : Corrected where
  nodes := [⟨"plants", "plants", 0, 0⟩, ⟨"light", "light", 1, 0⟩]
  edges :=
    [⟨"plants", "need", "light", "causal", .supported, gardenChannels, ["ev:1"]⟩,
     ⟨"plants", "use", "light", "causal", .supported, gardenChannels, ["ev:2"]⟩]
  refs := Dict.empty

/-- A teacher puts another relation in the place of the second edge. -/
def gardenCorrection (predicate : String) : ReviewDetail where
  reviewEventId := "22222222-2222-4222-8222-222222222222"
  payload :=
    { command := .replaceRelation "0c95bcfc-69d2-5e10-ad16-49e771b6c76f"
        ⟨"plants", predicate, "light", "causal"⟩
      reason := "said so"
      expectedAnalysisEpoch := "33333333-3333-4333-8333-333333333333"
      expectedProjectionVersion := 1 }
  roomSeq := 5
  createdAt := "2026-01-01T00:00:00.000Z"
  targetEventId := none

def gardenWith (predicate : String) : Corrected :=
  { garden with edges :=
      [⟨"plants", "need", "light", "causal", .supported, gardenChannels, ["ev:1"]⟩,
       ⟨"plants", predicate, "light", "causal", .supported, gardenChannels, ["ev:2"]⟩] }

theorem correctedThrough_garden {predicate : String}
    (hstep : applyCorrection .ascii gardenRoom [] garden (gardenCorrection predicate) =
      .ok (gardenWith predicate)) (n : Nat) :
    correctedThrough .ascii gardenRoom [gardenCorrection predicate] garden n =
      .ok (if n = 0 then garden else gardenWith predicate) := by
  cases n with
  | zero => rfl
  | succ n =>
    rw [if_neg (Nat.succ_ne_zero n)]
    unfold correctedThrough
    rw [List.take_of_length_le (by simp), List.foldlM_cons]
    change (applyCorrection .ascii gardenRoom [] garden (gardenCorrection predicate) >>= pure) = _
    rw [hstep]
    rfl

/-- What the wire ids of the garden come to, worked out together. -/
theorem garden_facts :
    (garden.Distinct ∧ Separated .ascii gardenRoom garden) ∧
      (applyCorrection .ascii gardenRoom [] garden (gardenCorrection "need") =
          .ok (gardenWith "need") ∧ Separated .ascii gardenRoom (gardenWith "need")) ∧
      (applyCorrection .ascii gardenRoom [] garden (gardenCorrection "absorb") =
          .ok (gardenWith "absorb") ∧ Separated .ascii gardenRoom (gardenWith "absorb")) ∧
      ¬ ((gardenWith "need").edges.map (echoWireEdgeId .ascii gardenRoom)).Nodup := by
  decide +kernel

theorem garden_separated {predicate : String}
    (hstep : applyCorrection .ascii gardenRoom [] garden (gardenCorrection predicate) =
      .ok (gardenWith predicate))
    (hsep : Separated .ascii gardenRoom (gardenWith predicate)) (n : Nat) (s : Corrected)
    (hs : correctedThrough .ascii gardenRoom [gardenCorrection predicate] garden n = .ok s) :
    Separated .ascii gardenRoom s := by
  rw [correctedThrough_garden hstep] at hs
  cases hs
  split
  · exact garden_facts.1.2
  · exact hsep

/-- A relation no other edge has: the map is well formed before and after. -/
theorem corrections_wellFormed_iff_absorb :
    applyProjectionCorrections .ascii gardenRoom garden [gardenCorrection "absorb"] =
        .ok (gardenWith "absorb") ∧
      WellFormed .ascii gardenRoom (gardenWith "absorb") := by
  obtain ⟨⟨hdistinct, -⟩, -, ⟨habsorbs, hsep⟩, -⟩ := garden_facts
  obtain ⟨hlast, hiff⟩ := corrections_wellFormed_iff .ascii gardenRoom garden
    [gardenCorrection "absorb"] hdistinct (by decide) (garden_separated habsorbs hsep)
  have hreturned := correctedThrough_garden habsorbs 1
  refine ⟨hlast.trans hreturned, hiff.mpr ?_ 1 _ hreturned⟩
  intro n d s hd hs
  cases n with
  | succ n => simp at hd
  | zero =>
    cases hd
    rw [correctedThrough_garden habsorbs] at hs
    cases hs
    rintro ⟨edgeId, r, found, hcmd, hfound, -, -, j, hj, hr⟩
    cases hcmd
    have hids : ∀ i < 2, garden.identities[i]? ≠ some ⟨"plants", "absorb", "light", "causal"⟩ := by
      decide
    have hjl : j < 2 := (List.getElem?_eq_some_iff.mp hr).1
    exact hids j hjl hr

/-- The relation of the first edge: two edges of one wire id are returned. -/
theorem replaced_relation_twice :
    garden.Distinct ∧ (gardenCorrection "need").payload.accepted ∧
      (∀ n s, correctedThrough .ascii gardenRoom [gardenCorrection "need"] garden n = .ok s →
        Separated .ascii gardenRoom s) ∧
      applyProjectionCorrections .ascii gardenRoom garden [gardenCorrection "need"] =
        .ok (gardenWith "need") ∧
      ¬ WellFormed .ascii gardenRoom (gardenWith "need") := by
  obtain ⟨⟨hdistinct, -⟩, ⟨hneeds, hsep⟩, -, htwice⟩ := garden_facts
  refine ⟨hdistinct, by decide, garden_separated hneeds hsep, ?_, fun hw => htwice hw.wireIds⟩
  rw [applyProjectionCorrections_eq _ _ _ (by decide)]
  exact correctedThrough_garden hneeds 1

end LearningOrbit.Projection
