import LearningOrbit.Projection.Corrections
import LearningOrbit.Projection.EchoSnapshot

/-!
# The status of corrected edges

The reference computes the status of an edge from its channels. A merged alias adds
the channels of edges that come to say the same, and keeps the status of the first.
-/

namespace LearningOrbit.Projection

open LearningOrbit (Dict)

/-- Every edge has the status its channels give it. -/
def Corrected.Consistent (s : Corrected) : Prop := ∀ e ∈ s.edges, e.status = e.channels.status

instance (s : Corrected) : Decidable s.Consistent :=
  inferInstanceAs (Decidable (∀ e ∈ s.edges, _))

/-- The channels of edges that are merged into the first of them. -/
def summed (e : InternalEdge) (rest : List InternalEdge) : Channels :=
  rest.foldl (fun channels other => channels.add other.channels) e.channels

theorem absorbed (e : InternalEdge) (rest : List InternalEdge) :
    (rest.foldl InternalEdge.absorb e).status = e.status ∧
      (rest.foldl InternalEdge.absorb e).channels = summed e rest := by
  induction rest generalizing e with
  | nil => exact ⟨rfl, rfl⟩
  | cons other rest ih =>
    obtain ⟨hstatus, hchannels⟩ := ih (e.absorb other)
    exact ⟨hstatus, hchannels⟩

/-- Edges of one identity gather in their order under the first. -/
def gather (found : Option InternalEdge) (edge : InternalEdge) : Option InternalEdge :=
  match found with
  | none => some edge
  | some current => some (current.absorb edge)

theorem mergeEdges_get? (edges : List InternalEdge) (merged : Dict Relation InternalEdge)
    (r : Relation) :
    (edges.foldl mergeEdge merged).get? r =
      (edges.filter fun e => e.identity = r).foldl gather (merged.get? r) := by
  induction edges generalizing merged with
  | nil => rfl
  | cons edge rest ih =>
    rw [List.foldl_cons, ih, List.filter_cons]
    by_cases hr : edge.identity = r
    · subst hr
      simp only [decide_true, ↓reduceIte, List.foldl_cons]
      congr 1
      unfold mergeEdge gather
      cases merged.get? edge.identity with
      | none => simp
      | some current => simp
    · have hkeep : (mergeEdge merged edge).get? r = merged.get? r := by
        unfold mergeEdge
        cases merged.get? edge.identity with
        | none => exact Dict.get?_set_of_ne _ _ (Ne.symm hr)
        | some current => exact Dict.get?_set_of_ne _ _ (Ne.symm hr)
      simp [hr, hkeep]

theorem gather_cons (e : InternalEdge) (rest : List InternalEdge) :
    (e :: rest).foldl gather none = some (rest.foldl InternalEdge.absorb e) := by
  rw [List.foldl_cons]
  change rest.foldl gather (some e) = _
  induction rest generalizing e with
  | nil => rfl
  | cons other rest ih => exact ih (e.absorb other)

/-- A merged edge is the first of its identity with what the others add. -/
theorem mem_mergeDuplicateEdges {edges : List InternalEdge} {e : InternalEdge} :
    e ∈ mergeDuplicateEdges edges ↔
      ∃ r lead rest, (edges.filter fun e => e.identity = r) = lead :: rest ∧
        rest.foldl InternalEdge.absorb lead = e := by
  unfold mergeDuplicateEdges
  rw [Dict.mem_values]
  refine exists_congr fun r => ?_
  rw [mergeEdges_get?]
  cases hgroup : edges.filter fun e => e.identity = r with
  | nil => simp [Dict.get?_empty]
  | cons lead rest =>
    rw [Dict.get?_empty, gather_cons]
    simp

/-- A row that merges an alias of the map, after which some edge has gathered channels of
another status than its own. -/
def TipsOver (undone : List String) (s : Corrected) (d : ReviewDetail) : Prop :=
  ∃ canonical aliasId r lead rest,
    d.payload.command = .mergeAlias canonical aliasId ∧ d.reviewEventId ∉ undone ∧
    canonical ∈ s.nodeIds ∧ aliasId ∈ s.nodeIds ∧
    (s.edges.map fun e => e.rename aliasId canonical).filter (fun e => e.identity = r) =
      lead :: rest ∧
    lead.status ≠ (summed lead rest).status

theorem mergeAlias_consistent {s t : Corrected} {canonical aliasId : String}
    (ht : mergeAlias s canonical aliasId = .ok t) :
    t.Consistent ↔ ∀ r lead rest,
      (s.edges.map fun e => e.rename aliasId canonical).filter (fun e => e.identity = r) =
        lead :: rest → lead.status = (summed lead rest).status := by
  unfold mergeAlias at ht
  split at ht
  swap
  · cases ht
  cases ht
  unfold Corrected.Consistent
  constructor
  · intro hall r lead rest hgroup
    have hmerged := hall _ (mem_mergeDuplicateEdges.mpr ⟨r, lead, rest, hgroup, rfl⟩)
    rwa [(absorbed lead rest).1, (absorbed lead rest).2] at hmerged
  · intro hall e he
    obtain ⟨r, lead, rest, hgroup, rfl⟩ := mem_mergeDuplicateEdges.mp he
    rw [(absorbed lead rest).1, (absorbed lead rest).2]
    exact hall r lead rest hgroup

/-! ## One row -/

/-- Every edge weighs what some edge weighed before. -/
def Weighed (s t : Corrected) : Prop :=
  ∀ e ∈ t.edges, ∃ f ∈ s.edges, e.status = f.status ∧ e.channels = f.channels

theorem Weighed.consistent {s t : Corrected} (hw : Weighed s t) (hs : s.Consistent) :
    t.Consistent := by
  intro e he
  obtain ⟨f, hf, hstatus, hchannels⟩ := hw e he
  rw [hstatus, hchannels]
  exact hs f hf

section
variable {h : EchoHost} {roomId : String}

/-- Putting a reworded edge in the place of the target. -/
theorem Weighed.set {s : Corrected} {edgeId : String} {found : InternalEdge × Nat}
    {e : InternalEdge} (hfound : targetEdge h roomId s.edges edgeId = .ok found)
    (he : e.status = found.1.status ∧ e.channels = found.1.channels)
    (refs : Dict String EvidenceRef) :
    Weighed s { s with edges := s.edges.set found.2 e, refs } := by
  intro f hf
  rcases List.mem_or_eq_of_mem_set hf with hf | rfl
  · exact ⟨f, hf, rfl, rfl⟩
  · exact ⟨found.1, List.mem_of_getElem? (targetEdge_ok hfound).1, he⟩

theorem replaceEvidenceSpan_weighed {s t : Corrected} {reviewEventId edgeId : String}
    {target replacement : EvidenceRef}
    (ht : replaceEvidenceSpan h roomId s reviewEventId edgeId target replacement = .ok t) :
    Weighed s t := by
  obtain ⟨found, hfound, ht⟩ := bind_eq_ok.mp ht
  split at ht
  · cases ht
  · cases ht
    refine Weighed.set hfound ?_ _
    exact ⟨rfl, rfl⟩

theorem replaceRelation_weighed {s t : Corrected} {edgeId : String} {r : Relation}
    (ht : replaceRelation h roomId s edgeId r = .ok t) : Weighed s t := by
  obtain ⟨found, hfound, -, -, rfl⟩ := replaceRelation_ok ht
  refine Weighed.set hfound ?_ _
  exact ⟨rfl, rfl⟩

theorem splitAlias_weighed {s t : Corrected} {aliasId newId newLabel : String}
    (ht : splitAlias s aliasId newId newLabel = .ok t) : Weighed s t := by
  unfold splitAlias at ht
  split at ht
  swap
  · cases ht
  cases ht
  intro e he
  obtain ⟨f, hf, rfl⟩ := List.mem_map.mp he
  exact ⟨f, hf, rfl, rfl⟩

theorem retractEdge_weighed {s t : Corrected} {edgeId : String}
    (ht : retractEdge h roomId s edgeId = .ok t) : Weighed s t := by
  unfold retractEdge at ht
  dsimp only at ht
  split at ht
  · cases ht
  · cases ht
    intro e he
    exact ⟨e, (List.mem_filter.mp he).1, rfl, rfl⟩

theorem retractEvidence_weighed (s : Corrected) (event : String) :
    Weighed s (retractEvidence s event) := by
  intro e he
  obtain ⟨f, hf, hd⟩ := List.mem_filterMap.mp he
  unfold dropEvidence at hd
  split at hd
  · cases hd
  · cases hd
    exact ⟨f, hf, rfl, rfl⟩

theorem retractedEvent_weighed {s t : Corrected} {event : Option String}
    (ht : (match event with
      | none => targetInvalid
      | some event => Except.ok (retractEvidence s event)) = .ok t) : Weighed s t := by
  cases event with
  | none => cases ht
  | some event =>
    cases ht
    exact retractEvidence_weighed s event

/-- One row of the ledger keeps every status exactly when it tips none over. -/
theorem applyCorrection_consistent {undone : List String} {s t : Corrected} {d : ReviewDetail}
    (hs : s.Consistent) (ht : applyCorrection h roomId undone s d = .ok t) :
    t.Consistent ↔ ¬TipsOver undone s d := by
  -- every kind but one leaves the weights alone, and only that one can tip an edge over
  have hother (hkind : ∀ canonical aliasId, d.payload.command ≠ .mergeAlias canonical aliasId)
      (hw : Weighed s t) : t.Consistent ↔ ¬TipsOver undone s d := by
    refine iff_of_true (hw.consistent hs) ?_
    rintro ⟨canonical, aliasId, r, lead, rest, hcmd, -⟩
    exact hkind canonical aliasId hcmd
  have hsame : Weighed s s := fun e he => ⟨e, he, rfl, rfl⟩
  unfold applyCorrection at ht
  cases hcmd : d.payload.command with
  | review | replaceText | undoMerge =>
    rw [hcmd] at ht
    cases ht
    exact hother (by simp [hcmd]) hsame
  | replaceEvidenceSpan edgeId target replacement =>
    rw [hcmd] at ht
    exact hother (by simp [hcmd]) (replaceEvidenceSpan_weighed ht)
  | replaceRelation edgeId r =>
    rw [hcmd] at ht
    exact hother (by simp [hcmd]) (replaceRelation_weighed ht)
  | mergeAlias canonical aliasId =>
    rw [hcmd] at ht
    dsimp only at ht
    split at ht
    · rename_i hundone
      cases ht
      refine iff_of_true hs ?_
      rintro ⟨canonical, aliasId, r, lead, rest, -, hnot, -⟩
      exact hnot hundone
    · rename_i hactive
      rw [mergeAlias_consistent ht]
      unfold mergeAlias at ht
      split at ht
      swap
      · cases ht
      rename_i hnodes
      constructor
      · rintro hall ⟨canonical', aliasId', r, lead, rest, hcmd', -, -, -, hgroup, hne⟩
        rw [hcmd] at hcmd'
        cases hcmd'
        exact hne (hall r lead rest hgroup)
      · intro hkeep r lead rest hgroup
        by_contra hne
        exact hkeep ⟨canonical, aliasId, r, lead, rest, hcmd, hactive, hnodes.1, hnodes.2,
          hgroup, hne⟩
  | splitAlias canonical aliasId newId newLabel =>
    rw [hcmd] at ht
    exact hother (by simp [hcmd]) (splitAlias_weighed ht)
  | retract targetType targetId =>
    apply hother (by simp [hcmd])
    rw [hcmd] at ht
    cases targetType with
    | projection => exact retractEdge_weighed ht
    | evidence | derivedText => exact retractedEvent_weighed ht

/-! ## The ledger -/

theorem correctedThrough_consistent {details : List ReviewDetail} {start : Corrected}
    (hstart : start.Consistent)
    (hkeep : ∀ n d s, details[n]? = some d → correctedThrough h roomId details start n = .ok s →
      ¬TipsOver (undoneMerges details) s d)
    (n : Nat) (s : Corrected) (hs : correctedThrough h roomId details start n = .ok s) :
    s.Consistent := by
  induction n generalizing s with
  | zero =>
    cases hs
    exact hstart
  | succ n ih =>
    cases hd : details[n]? with
    | none => exact ih s (correctedThrough_beyond hd ▸ hs)
    | some d =>
      rw [correctedThrough_succ hd] at hs
      obtain ⟨before, hbefore, hs⟩ := bind_eq_ok.mp hs
      exact (applyCorrection_consistent (ih before hbefore) hs).mpr (hkeep n d before hd hbefore)

theorem tipsOver_returns (h : EchoHost) (roomId : String) {undone : List String} {s : Corrected} {d : ReviewDetail}
    (hd : TipsOver undone s d) : ∃ t, applyCorrection h roomId undone s d = .ok t := by
  obtain ⟨canonical, aliasId, r, lead, rest, hcmd, hactive, hcanonical, halias, -⟩ := hd
  unfold applyCorrection
  rw [hcmd]
  dsimp only
  rw [if_neg hactive]
  unfold mergeAlias
  rw [if_pos ⟨hcanonical, halias⟩]
  exact ⟨_, rfl⟩

end

/-- Plants need light; of herbs it is challenged. -/
def herbGarden (challenge : ℚ) : Corrected where
  nodes := [⟨"plants", "plants", 0, 0⟩, ⟨"light", "light", 1, 0⟩, ⟨"herbs", "herbs", 0, 1⟩]
  edges :=
    [⟨"plants", "need", "light", "causal", .supported, ⟨1, 0, 0, 0⟩, ["ev:1"]⟩,
     ⟨"herbs", "need", "light", "causal", .challenged, ⟨0, challenge, 0, 0⟩, ["ev:2"]⟩]
  refs := Dict.empty

/-- A teacher merges herbs into plants. -/
def herbsArePlants : ReviewDetail where
  reviewEventId := "22222222-2222-4222-8222-222222222222"
  payload :=
    { command := .mergeAlias "plants" "herbs"
      reason := "the same"
      expectedAnalysisEpoch := "33333333-3333-4333-8333-333333333333"
      expectedProjectionVersion := 1 }
  roomSeq := 5
  createdAt := "2026-01-01T00:00:00.000Z"
  targetEventId := none

def herbsMerged (challenge : ℚ) : Corrected where
  nodes := [⟨"plants", "plants", 0, 0⟩, ⟨"light", "light", 1, 0⟩]
  edges :=
    [⟨"plants", "need", "light", "causal", .supported, ⟨1, challenge, 0, 0⟩, ["ev:1", "ev:2"]⟩]
  refs := Dict.empty

end LearningOrbit.Projection
