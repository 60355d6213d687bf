import Mathlib.Algebra.BigOperators.Ring.List
import LearningOrbit.Reference.NetworkViews
import LearningOrbit.Reference.Replay

/-!
# The budget of one call

The evidence an accepted call pools, derived, extracted and supplied, shares a budget of one
for each source and layer. Self-loops use up a part of it and are only audited.
-/

namespace LearningOrbit.Reference

open LearningOrbit (Host Dict)

theorem sourceRef_confidence {s : SourceRef} (h : validateSourceRef s = .ok ()) :
    0 ≤ s.confidence ∧ s.confidence ≤ 1 := by
  obtain ⟨-, -, h⟩ := bind_eq_ok.mp h
  obtain ⟨-, -, h⟩ := bind_eq_ok.mp h
  obtain ⟨-, -, h⟩ := bind_eq_ok.mp h
  by_cases hk : s.actorKind = .system
  · rw [if_pos hk] at h
    cases h
  · rw [if_neg hk] at h
    exact requireProbability_eq_ok.mp h

/-- The numbers a validated item has. -/
structure EdgeEvidence.InRange (e : EdgeEvidence) : Prop where
  magnitude : 0 ≤ e.magnitude
  confidence : 0 ≤ e.confidence ∧ e.confidence ≤ 1
  provenance : ∀ s ∈ e.provenance, 0 ≤ s.confidence ∧ s.confidence ≤ 1

theorem validateEdgeEvidence_inRange {e : EdgeEvidence} (h : validateEdgeEvidence e = .ok ()) :
    e.InRange := by
  obtain ⟨-, -, h⟩ := bind_eq_ok.mp h
  obtain ⟨-, -, h⟩ := bind_eq_ok.mp h
  obtain ⟨-, -, h⟩ := bind_eq_ok.mp h
  obtain ⟨-, -, h⟩ := bind_eq_ok.mp h
  obtain ⟨⟨⟩, hm, h⟩ := bind_eq_ok.mp h
  obtain ⟨⟨⟩, hc, h⟩ := bind_eq_ok.mp h
  constructor
  · exact requireNonnegativeNumber_eq_ok.mp hm
  · exact requireProbability_eq_ok.mp hc
  · intro s hs
    exact sourceRef_confidence (forM_eq_ok.mp h s hs)

namespace StreamingInteractionNetwork

/-! ## Normalising -/

/-- The magnitudes of a source on a layer. -/
def groupTotal (items : List EdgeEvidence) (sourceId : String) (layer : Layer) : ℚ :=
  ((items.filter fun i => i.sourceId = sourceId && i.layer = layer).map (·.magnitude)).sum

/-- What the items of a group are scaled by. -/
def groupScale (items : List EdgeEvidence) (sourceId : String) (layer : Layer) : ℚ :=
  if 1 < groupTotal items sourceId layer then 1 / groupTotal items sourceId layer else 1

/-- The items that are no self-loops. -/
def loopless (items : List EdgeEvidence) : List EdgeEvidence :=
  items.filter fun i => i.sourceId ≠ i.targetId

theorem normalizeItem_magnitude (items : List EdgeEvidence) (i : EdgeEvidence) :
    (normalizeItem items i).magnitude = i.magnitude * groupScale items i.sourceId i.layer := rfl

theorem groupScale_nonneg (items : List EdgeEvidence) (sourceId : String) (layer : Layer) :
    0 ≤ groupScale items sourceId layer := by
  unfold groupScale
  split
  · rename_i hlt
    exact div_nonneg zero_le_one (zero_le_one.trans hlt.le)
  · exact zero_le_one

/-- The scale leaves at most one of the group. -/
theorem groupTotal_mul_scale_le (items : List EdgeEvidence) (sourceId : String) (layer : Layer) :
    groupTotal items sourceId layer * groupScale items sourceId layer ≤ 1 := by
  unfold groupScale
  split
  · rename_i hlt
    rw [mul_one_div_cancel (ne_of_gt (zero_lt_one.trans hlt))]
  · rename_i hle
    rw [mul_one]
    exact not_lt.mp hle

theorem normalizeEvidence_spec {event : ChatEvent} {items normalized : List EdgeEvidence}
    {audits : List SelfLoopAudit} (h : normalizeEvidence event items = .ok (normalized, audits)) :
    (∀ i ∈ items, i.InRange) ∧ normalized = (loopless items).map (normalizeItem items) ∧
      audits = (items.filter fun i => i.sourceId = i.targetId).map fun i =>
        ⟨event.eventId, i.sourceId, i.targetId, i.layer⟩ := by
  obtain ⟨⟨⟩, hvalid, h⟩ := bind_eq_ok.mp h
  cases h
  refine ⟨fun i hi => ?_, rfl, rfl⟩
  exact validateEdgeEvidence_inRange (forM_eq_ok.mp hvalid i hi)

/-- The group of a source and layer, after normalising. -/
theorem groupTotal_normalized {items : List EdgeEvidence} (hitems : ∀ i ∈ items, i.InRange)
    (sourceId : String) (layer : Layer) :
    groupTotal ((loopless items).map (normalizeItem items)) sourceId layer ≤ 1 := by
  have hfilter : ((loopless items).map (normalizeItem items)).filter
      (fun i => i.sourceId = sourceId && i.layer = layer) =
      ((loopless items).filter fun i => i.sourceId = sourceId && i.layer = layer).map
        (normalizeItem items) := List.filter_map
  have hscaled : groupTotal ((loopless items).map (normalizeItem items)) sourceId layer =
      groupTotal (loopless items) sourceId layer * groupScale items sourceId layer := by
    unfold groupTotal
    rw [hfilter, List.map_map, ← List.sum_map_mul_right]
    congr 1
    refine List.map_congr_left fun i hi => ?_
    have hgroup := (List.mem_filter.mp hi).2
    simp only [Bool.and_eq_true, decide_eq_true_eq] at hgroup
    rw [Function.comp_apply, normalizeItem_magnitude, hgroup.1, hgroup.2]
  have hkept : groupTotal (loopless items) sourceId layer ≤ groupTotal items sourceId layer := by
    unfold groupTotal loopless
    rw [List.filter_filter, List.filter_congr fun i _ => Bool.and_comm .., ← List.filter_filter]
    exact sum_filter_le fun i hi => (hitems i (List.mem_of_mem_filter hi)).magnitude
  calc groupTotal ((loopless items).map (normalizeItem items)) sourceId layer
      = groupTotal (loopless items) sourceId layer * groupScale items sourceId layer := hscaled
    _ ≤ groupTotal items sourceId layer * groupScale items sourceId layer :=
        mul_le_mul_of_nonneg_right hkept (groupScale_nonneg ..)
    _ ≤ 1 := groupTotal_mul_scale_le ..

/-! ## Storing -/

/-- The contributions the loop of `apply` stores. -/
def stageEach (h : Host) (event : ChatEvent) (normalized : List EdgeEvidence) :
    List NetworkContribution :=
  normalized.zipIdx.map fun (item, index) => stage h event index item

/-- What a contribution keeps of its item. -/
theorem map_stageEach {α : Type} {h : Host} {event : ChatEvent} (normalized : List EdgeEvidence)
    {f : NetworkContribution → α} {g : EdgeEvidence → α}
    (hfg : ∀ index item, f (stage h event index item) = g item) :
    (stageEach h event normalized).map f = normalized.map g := by
  unfold stageEach
  rw [List.map_map]
  have hcomp : (f ∘ fun x : EdgeEvidence × Nat => stage h event x.2 x.1) = g ∘ Prod.fst := by
    funext x
    exact hfg x.2 x.1
  calc normalized.zipIdx.map (f ∘ fun x : EdgeEvidence × Nat => stage h event x.2 x.1)
      = (normalized.zipIdx.map Prod.fst).map g := by rw [hcomp, List.map_map]
    _ = normalized.map g := by rw [List.zipIdx_map_fst]

/-- The magnitudes of a source on a layer, among contributions. -/
def stagedTotal (staged : List NetworkContribution) (sourceId : String) (layer : Layer) : ℚ :=
  ((staged.filter fun c => c.sourceId = sourceId && c.layer = layer).map (·.magnitude)).sum

theorem stagedTotal_stageEach (h : Host) (event : ChatEvent) (normalized : List EdgeEvidence)
    (sourceId : String) (layer : Layer) :
    stagedTotal (stageEach h event normalized) sourceId layer =
      groupTotal normalized sourceId layer := by
  have hmap : (stageEach h event normalized).map (fun c => (c.sourceId, c.layer, c.magnitude)) =
      normalized.map fun i => (i.sourceId, i.layer, i.magnitude) :=
    map_stageEach normalized fun _ _ => rfl
  have hfilter := congrArg (fun l : List (String × Layer × ℚ) =>
    ((l.filter fun t => t.1 = sourceId && t.2.1 = layer).map (·.2.2)).sum) hmap
  simp only [List.filter_map, List.map_map] at hfilter
  exact hfilter

/-- What is stored after the target of an operation is deactivated. -/
theorem applyStaged_contributions (n : StreamingInteractionNetwork) (event : ChatEvent)
    (args : Supplied) (context : List ChatEvent) (deactivateTarget : Bool)
    (audits : List SelfLoopAudit) (summary : Option (List SourceRef))
    (staged : List NetworkContribution) :
    (n.applyStaged event args context deactivateTarget audits summary staged).contributions =
      staged.foldl (fun d c => d.set c.contributionId c)
        (if deactivateTarget then n.deactivate event.target else n).contributions := by
  cases deactivateTarget <;> rfl

theorem applyStaged_actorKinds (n : StreamingInteractionNetwork) (event : ChatEvent)
    (args : Supplied) (context : List ChatEvent) (deactivateTarget : Bool)
    (audits : List SelfLoopAudit) (summary : Option (List SourceRef))
    (staged : List NetworkContribution) :
    (n.applyStaged event args context deactivateTarget audits summary staged).actorKinds =
      n.actorKinds.set event.actorId event.actorKind := by
  cases deactivateTarget <;> rfl

theorem patch_reason {h : Host} {event : ChatEvent} {nodes added removed : List String}
    {duplicate requiresReplay accepted : Bool} {reason : String} (hne : reason ≠ "applied") :
    ∀ p, Except.ok (ε := String)
      (patch h event nodes added removed duplicate requiresReplay accepted reason) = .ok p →
      p.reason ≠ "applied" := by
  intro p hp
  cases hp
  exact hne

/-- An accepted call stores what it pooled; any other call at most deactivates. -/
theorem apply_changes (h : Host) (extractor : Option RelationExtractor)
    (n : StreamingInteractionNetwork) (event : ChatEvent) (args : Supplied) :
    (∃ items normalized audits p,
      n.relations h extractor event args (n.prospective event) = .ok items ∧
      normalizeEvidence event items = .ok (normalized, audits) ∧
      n.apply h extractor event args =
        (n.applyStaged event args (contextOf args (n.prospective event)) (n.replaces event) audits
          (summarySourcesForEvent event args.sources (n.prospective event))
          (stageEach h event normalized), .ok p)) ∨
    ((n.apply h extractor event args).1.contributions = n.contributions ∨
      (n.apply h extractor event args).1.contributions =
        (n.deactivate event.target).contributions) ∧
      ∀ p, (n.apply h extractor event args).2 = .ok p → p.reason ≠ "applied" := by
  by_cases hnew : event.key ∈ n.seen
  · have heq : n.apply h extractor event args =
        (n, .ok (patch h event [] [] [] true false true "duplicate")) := by
      simp only [apply, hnew, ↓reduceIte]
    rw [heq]
    exact .inr ⟨.inl rfl, patch_reason (by decide)⟩
  by_cases hlate : tooLate n.watermark n.allowedLateness event.eventTime = true
  · have heq : n.apply h extractor event args = (n.applyLate event args,
        .ok (patch h event [] [] [] false true false "beyond_allowed_lateness")) := by
      simp only [apply, hnew, hlate, ↓reduceIte]
    rw [heq]
    exact .inr ⟨.inl rfl, patch_reason (by decide)⟩
  rw [apply_eq hnew (Bool.eq_false_iff.mpr hlate)]
  by_cases hstale : n.stale event = true
  · rw [if_pos hstale]
    exact .inr ⟨.inl rfl, patch_reason (by decide)⟩
  rw [if_neg hstale]
  unfold applyAccepted
  by_cases hop : event.operation = .delete ∨ event.operation = .retract
  · rw [if_pos hop]
    exact .inr ⟨.inr rfl, patch_reason (by decide)⟩
  rw [if_neg hop]
  cases hitems : n.relations h extractor event args (n.prospective event) with
  | error e => exact .inr ⟨.inl rfl, fun p hp => by cases hp⟩
  | ok items =>
    have hbind : (Except.ok items >>= normalizeEvidence event) = normalizeEvidence event items := rfl
    rw [hbind]
    cases hnormal : normalizeEvidence event items with
    | error e => exact .inr ⟨.inl rfl, fun p hp => by cases hp⟩
    | ok result => exact .inl ⟨items, result.1, result.2, _, rfl, hnormal, rfl⟩

/-! ## Numbers in range -/

/-- Every stored contribution has the numbers of validated evidence. -/
def Weighted (n : StreamingInteractionNetwork) : Prop :=
  ∀ c ∈ n.contributions.values, 0 ≤ c.magnitude ∧ (0 ≤ c.confidence ∧ c.confidence ≤ 1) ∧
    ∀ s ∈ c.provenance, 0 ≤ s.confidence ∧ s.confidence ≤ 1

theorem Weighted.deactivate {n : StreamingInteractionNetwork} (hn : Weighted n) (target : String) :
    Weighted (n.deactivate target) := by
  intro c hc
  obtain ⟨id, c₀, hget, rfl⟩ := Dict.mem_values_mapValues.mp hc
  have hold := hn c₀ (Dict.mem_values.mpr ⟨id, hget⟩)
  split
  · exact hold
  · exact hold

theorem normalizeItem_inRange {items : List EdgeEvidence} {i : EdgeEvidence} (hi : i.InRange) :
    (normalizeItem items i).InRange where
  magnitude := mul_nonneg hi.magnitude (groupScale_nonneg items i.sourceId i.layer)
  confidence := hi.confidence
  provenance := hi.provenance

theorem normalized_inRange {event : ChatEvent} {items normalized : List EdgeEvidence}
    {audits : List SelfLoopAudit} (h : normalizeEvidence event items = .ok (normalized, audits)) :
    ∀ i ∈ normalized, i.InRange := by
  obtain ⟨hitems, rfl, -⟩ := normalizeEvidence_spec h
  intro i hi
  obtain ⟨j, hj, rfl⟩ := List.mem_map.mp hi
  exact normalizeItem_inRange (hitems j (List.mem_of_mem_filter hj))

theorem mem_stageEach {h : Host} {event : ChatEvent} {normalized : List EdgeEvidence}
    {c : NetworkContribution} (hc : c ∈ stageEach h event normalized) :
    ∃ i ∈ normalized, ∃ index, c = stage h event index i := by
  obtain ⟨⟨i, index⟩, hi, rfl⟩ := List.mem_map.mp hc
  exact ⟨i, (List.mem_zipIdx hi).2.2 ▸ List.getElem_mem _, index, rfl⟩

theorem Weighted.apply {n : StreamingInteractionNetwork} (hn : Weighted n) (h : Host)
    (extractor : Option RelationExtractor) (event : ChatEvent) (args : Supplied) :
    Weighted (n.apply h extractor event args).1 := by
  cases apply_changes h extractor n event args with
  | inl happlied =>
    obtain ⟨items, normalized, audits, p, -, hnormal, hresult⟩ := happlied
    rw [hresult]
    unfold Weighted
    rw [applyStaged_contributions]
    intro c hc
    cases Dict.mem_values_foldl_set hc with
    | inl hstaged =>
      obtain ⟨d, hd, rfl⟩ := hstaged
      obtain ⟨i, hi, index, rfl⟩ := mem_stageEach hd
      have hrange := normalized_inRange hnormal i hi
      exact ⟨hrange.magnitude, hrange.confidence, hrange.provenance⟩
    | inr hold =>
      split at hold
      · exact hn.deactivate event.target c hold
      · exact hn c hold
  | inr hother =>
    unfold Weighted
    cases hother.1 with
    | inl hsame =>
      rw [hsame]
      exact hn
    | inr hless =>
      rw [hless]
      exact hn.deactivate event.target

/-- A public call of the network. -/
inductive NetworkCall
  | apply (input : NetworkInput)
  | replay (inputs : Option (List NetworkInput))

def after (h : Host) (extractor : Option RelationExtractor) (n : StreamingInteractionNetwork) :
    NetworkCall → StreamingInteractionNetwork
  | .apply input => n.call h extractor input
  | .replay inputs => (n.replay h extractor inputs).1

/-- The network after some calls. -/
def reached (h : Host) (extractor : Option RelationExtractor) (allowed : Lateness)
    (calls : List NetworkCall) : StreamingInteractionNetwork :=
  calls.foldl (after h extractor) (fresh allowed)

theorem reached_weighted (h : Host) (extractor : Option RelationExtractor) (allowed : Lateness)
    (calls : List NetworkCall) : Weighted (reached h extractor allowed calls) := by
  have hempty : ∀ n : StreamingInteractionNetwork, n.contributions = .empty → Weighted n := by
    intro n hn c hc
    rw [hn] at hc
    cases hc
  have hafter : ∀ n call, Weighted n → Weighted (after h extractor n call) := by
    intro n call hn
    cases call with
    | apply input => exact hn.apply h extractor input.event (supplied input true)
    | replay inputs =>
      refine Journal.refeed_keeps (I := Weighted) (fun n item hn => ?_) (hempty _ rfl) _
      exact hn.apply h extractor item.event (supplied item false)
  have hrun : ∀ n, Weighted n → Weighted (calls.foldl (after h extractor) n) := by
    induction calls with
    | nil => exact fun n hn => hn
    | cons call calls ih => exact fun n hn => ih _ (hafter n call hn)
  exact hrun _ (hempty _ rfl)

/-! ## What a view shows -/

section

variable (n : StreamingInteractionNetwork) (decay : Decay) (now : Int) (view : View)
  (sourceId : String) (layer : Layer)

/-- The weight of the rows of some contributions, from one source on one layer. -/
def rowsWeight (contributions : List NetworkContribution) : ℚ :=
  (((contributions.flatMap fun c => (n.rowsOf decay now view c).1).filter fun r =>
    r.sourceId = sourceId && r.layer = layer).map (·.weight)).sum

/-- The weight of one source on one layer in a view. -/
def viewWeight : ℚ :=
  (((n.virtualRows decay now view).1.filter fun r =>
    r.sourceId = sourceId && r.layer = layer).map (·.weight)).sum

/-- What a contribution shows in a view without lineage. -/
def shown (c : NetworkContribution) : ℚ :=
  if view = .humanOnly ∧ (n.isAgent c.sourceId || n.isAgent c.targetId) = true then 0
  else if c.sourceId = sourceId ∧ c.layer = layer then c.weight decay now else 0

/-- What it shows as long as it is active. -/
def activeShown (c : NetworkContribution) : ℚ :=
  if c.active then n.shown decay now view sourceId layer c else 0

end

variable {n n' : StreamingInteractionNetwork} {decay : Decay} {now : Int} {view : View}
  {sourceId : String} {layer : Layer}

theorem rowsWeight_eq (hview : view ≠ .lineageAdjusted) (contributions : List NetworkContribution) :
    n.rowsWeight decay now view sourceId layer contributions =
      (contributions.map (n.shown decay now view sourceId layer)).sum := by
  induction contributions with
  | nil => rfl
  | cons c contributions ih =>
    have hone : ((((n.rowsOf decay now view c).1).filter fun r =>
        r.sourceId = sourceId && r.layer = layer).map (·.weight)).sum =
        n.shown decay now view sourceId layer c := by
      have hplain : n.adjustsLineage view c = false := by
        simp [adjustsLineage, hview]
      unfold rowsOf shown
      rw [hplain]
      by_cases hhidden : view = .humanOnly ∧ (n.isAgent c.sourceId || n.isAgent c.targetId) = true
      · simp [hhidden]
      · have hvisible : ¬(view = .humanOnly && (n.isAgent c.sourceId || n.isAgent c.targetId)) =
            true := by
          simpa using hhidden
        rw [if_neg hvisible, if_neg hhidden, if_neg Bool.false_ne_true]
        by_cases hgroup : c.sourceId = sourceId ∧ c.layer = layer
        · simp [NetworkContribution.row, hgroup]
        · have hother : ¬(decide (c.sourceId = sourceId) && decide (c.layer = layer)) = true := by
            simpa using hgroup
          rw [if_neg hgroup]
          simp [NetworkContribution.row, hother]
    unfold rowsWeight at ih ⊢
    rw [List.flatMap_cons, List.filter_append, List.map_append, List.sum_append, ih, hone,
      List.map_cons, List.sum_cons]

/-- The weight of a view is a total over what is stored. -/
theorem viewWeight_eq (hview : view ≠ .lineageAdjusted) :
    n.viewWeight decay now view sourceId layer =
      n.contributions.total (n.activeShown decay now view sourceId layer) := by
  have hrows : n.viewWeight decay now view sourceId layer =
      n.rowsWeight decay now view sourceId layer n.activeContributions := rfl
  rw [hrows, rowsWeight_eq hview]
  unfold activeContributions Dict.total
  induction n.contributions.values with
  | nil => rfl
  | cons c values ih =>
    rw [List.map_cons, List.sum_cons, ← ih, List.filter_cons]
    unfold activeShown
    split
    · rw [List.map_cons, List.sum_cons]
    · rw [zero_add]

theorem weight_bounds {c : NetworkContribution} (hm : 0 ≤ c.magnitude)
    (hc : 0 ≤ c.confidence ∧ c.confidence ≤ 1) :
    0 ≤ c.weight decay now ∧ c.weight decay now ≤ c.magnitude := by
  obtain ⟨hlow, hhigh⟩ := decay.bounded c.layer (max 0 (now - c.eventTime)) (le_max_left ..)
  have hproduct : 0 ≤ c.magnitude * c.confidence := mul_nonneg hm hc.1
  constructor
  · exact mul_nonneg hproduct hlow
  · calc c.weight decay now
        ≤ c.magnitude * c.confidence := mul_le_of_le_one_right hproduct hhigh
      _ ≤ c.magnitude := mul_le_of_le_one_right hm hc.2

theorem shown_bounds {c : NetworkContribution} (hm : 0 ≤ c.magnitude)
    (hc : 0 ≤ c.confidence ∧ c.confidence ≤ 1) :
    0 ≤ n.shown decay now view sourceId layer c ∧
      n.shown decay now view sourceId layer c ≤ c.magnitude := by
  unfold shown
  by_cases hhidden : view = .humanOnly ∧ (n.isAgent c.sourceId || n.isAgent c.targetId) = true
  · rw [if_pos hhidden]
    exact ⟨le_refl 0, hm⟩
  · rw [if_neg hhidden]
    by_cases hgroup : c.sourceId = sourceId ∧ c.layer = layer
    · rw [if_pos hgroup]
      exact weight_bounds hm hc
    · rw [if_neg hgroup]
      exact ⟨le_refl 0, hm⟩

theorem shown_other {c : NetworkContribution} (hother : ¬(c.sourceId = sourceId ∧ c.layer = layer)) :
    n.shown decay now view sourceId layer c = 0 := by
  unfold shown
  rw [if_neg hother, ite_self]

theorem activeShown_nonneg (hn : Weighted n) {c : NetworkContribution}
    (hc : c ∈ n.contributions.values) : 0 ≤ n'.activeShown decay now view sourceId layer c := by
  obtain ⟨hm, hconf, -⟩ := hn c hc
  unfold activeShown
  split
  · exact (shown_bounds hm hconf).1
  · exact le_refl 0

/-- Staged contributions show no more than the magnitudes of their group. -/
theorem sum_shown_le {staged : List NetworkContribution}
    (hrange : ∀ c ∈ staged, 0 ≤ c.magnitude ∧ 0 ≤ c.confidence ∧ c.confidence ≤ 1) :
    (staged.map (n.shown decay now view sourceId layer)).sum ≤ stagedTotal staged sourceId layer := by
  unfold stagedTotal
  induction staged with
  | nil => exact le_refl 0
  | cons c staged ih =>
    have hrest := ih fun d hd => hrange d (List.mem_cons_of_mem c hd)
    obtain ⟨hm, hconf⟩ := hrange c List.mem_cons_self
    rw [List.map_cons, List.sum_cons, List.filter_cons]
    by_cases hgroup : c.sourceId = sourceId ∧ c.layer = layer
    · have hin : (decide (c.sourceId = sourceId) && decide (c.layer = layer)) = true := by
        simpa using hgroup
      rw [if_pos hin, List.map_cons, List.sum_cons]
      exact add_le_add (shown_bounds hm hconf).2 hrest
    · have hout : ¬(decide (c.sourceId = sourceId) && decide (c.layer = layer)) = true := by
        simpa using hgroup
      rw [if_neg hout, shown_other hgroup, zero_add]
      exact hrest

/-- Deactivating shows no more. -/
theorem total_deactivate_le (hn : Weighted n) (target : String) :
    (n.deactivate target).contributions.total (n'.activeShown decay now view sourceId layer) ≤
      n.contributions.total (n'.activeShown decay now view sourceId layer) := by
  refine Dict.total_mapValues_le fun id c hget => ?_
  split
  · exact activeShown_nonneg hn (Dict.mem_values.mpr ⟨id, hget⟩)
  · exact le_refl _

/-- A view that hides no less shows no more. -/
theorem shown_mono {c : NetworkContribution} (hm : 0 ≤ c.magnitude)
    (hc : 0 ≤ c.confidence ∧ c.confidence ≤ 1)
    (hagents : view = .humanOnly → ∀ id, n.isAgent id = true → n'.isAgent id = true) :
    n'.shown decay now view sourceId layer c ≤ n.shown decay now view sourceId layer c := by
  by_cases hhidden : view = .humanOnly ∧ (n.isAgent c.sourceId || n.isAgent c.targetId) = true
  · have hstill : view = .humanOnly ∧ (n'.isAgent c.sourceId || n'.isAgent c.targetId) = true := by
      refine ⟨hhidden.1, ?_⟩
      cases Bool.or_eq_true_iff.mp hhidden.2 with
      | inl hsource => rw [hagents hhidden.1 _ hsource, Bool.true_or]
      | inr htarget => rw [hagents hhidden.1 _ htarget, Bool.or_true]
    unfold shown
    rw [if_pos hhidden, if_pos hstill]
  · have hplain : n.shown decay now view sourceId layer c =
        if c.sourceId = sourceId ∧ c.layer = layer then c.weight decay now else 0 := by
      unfold shown
      rw [if_neg hhidden]
    by_cases hgroup : c.sourceId = sourceId ∧ c.layer = layer
    · rw [hplain, if_pos hgroup]
      unfold shown
      by_cases hnow : view = .humanOnly ∧ (n'.isAgent c.sourceId || n'.isAgent c.targetId) = true
      · rw [if_pos hnow]
        exact (weight_bounds hm hc).1
      · rw [if_neg hnow, if_pos hgroup]
    · rw [shown_other hgroup, shown_other hgroup]

/-- A view grows by no more than what is staged. -/
theorem viewWeight_grows (hn : Weighted n) (hview : view ≠ .lineageAdjusted)
    (hagents : view = .humanOnly → ∀ id, n.isAgent id = true → n'.isAgent id = true)
    {deactivateTarget : Bool} {target : String} {staged : List NetworkContribution}
    (hstored : n'.contributions = staged.foldl (fun d c => d.set c.contributionId c)
      (if deactivateTarget then n.deactivate target else n).contributions)
    (hrange : ∀ c ∈ staged, 0 ≤ c.magnitude ∧ 0 ≤ c.confidence ∧ c.confidence ≤ 1) :
    n'.viewWeight decay now view sourceId layer ≤
      n.viewWeight decay now view sourceId layer + stagedTotal staged sourceId layer := by
  have hbase : Weighted (if deactivateTarget then n.deactivate target else n) := by
    split
    · exact hn.deactivate target
    · exact hn
  have hstaged : ∀ c ∈ staged, 0 ≤ n'.activeShown decay now view sourceId layer c ∧
      n'.activeShown decay now view sourceId layer c ≤ n'.shown decay now view sourceId layer c := by
    intro c hc
    have hlow : 0 ≤ n'.shown decay now view sourceId layer c :=
      (shown_bounds (hrange c hc).1 (hrange c hc).2).1
    unfold activeShown
    split
    · exact ⟨hlow, le_refl _⟩
    · exact ⟨le_refl 0, hlow⟩
  have hfold : (staged.foldl (fun d c => d.set c.contributionId c)
      (if deactivateTarget then n.deactivate target else n).contributions).total
        (n'.activeShown decay now view sourceId layer) ≤
      (if deactivateTarget then n.deactivate target else n).contributions.total
        (n'.activeShown decay now view sourceId layer) +
      (staged.map (n'.activeShown decay now view sourceId layer)).sum :=
    Dict.total_foldl_set_le (fun c hc => activeShown_nonneg hbase hc) fun c hc => (hstaged c hc).1
  have hsame : (if deactivateTarget then n.deactivate target else n).contributions.total
      (n'.activeShown decay now view sourceId layer) ≤
      n.contributions.total (n'.activeShown decay now view sourceId layer) := by
    split
    · exact total_deactivate_le hn target
    · exact le_refl _
  have hless : n.contributions.total (n'.activeShown decay now view sourceId layer) ≤
      n.contributions.total (n.activeShown decay now view sourceId layer) := by
    refine List.sum_le_sum fun c hc => ?_
    unfold activeShown
    split
    · exact shown_mono (hn c hc).1 (hn c hc).2.1 hagents
    · exact le_refl 0
  rw [viewWeight_eq hview, viewWeight_eq hview, hstored]
  calc _ ≤ _ := hfold
    _ ≤ n.contributions.total (n.activeShown decay now view sourceId layer) +
        (staged.map (n'.shown decay now view sourceId layer)).sum :=
      add_le_add (hsame.trans hless) (List.sum_le_sum fun c hc => (hstaged c hc).2)
    _ ≤ _ := add_le_add_right (sum_shown_le hrange) _

/-! ## The budget -/

/-- The normalised item a contribution was made of. -/
def item (c : NetworkContribution) : EdgeEvidence where
  sourceId := c.sourceId
  targetId := c.targetId
  layer := c.layer
  polarity := c.polarity
  magnitude := c.magnitude
  confidence := c.confidence
  basis := c.basis
  objectId := c.objectId
  provenance := c.provenance

/-- A call that takes a network to the next one stores these contributions, the last one of an
id; the others stay or are deactivated. -/
structure Stores (n n' : StreamingInteractionNetwork) (staged : List NetworkContribution) : Prop where
  stored : ∀ id ∈ staged.map (·.contributionId), ∃ c ∈ staged,
    c.contributionId = id ∧ n'.contributions.get? id = some c
  others : ∀ id, id ∉ staged.map (·.contributionId) →
    n'.contributions.get? id = n.contributions.get? id ∨
      ∃ c, n.contributions.get? id = some c ∧
        n'.contributions.get? id = some { c with active := false }

/-- Every pooled item that is no self-loop is staged; a group keeps its proportions and shares at
most one, and its self-loops are in the audit. -/
structure Budgeted (event : ChatEvent) (items : List EdgeEvidence)
    (staged : List NetworkContribution) (audit : List SelfLoopAudit) : Prop where
  carries : List.Forall₂ (fun i c => item c = { i with magnitude := c.magnitude })
    (loopless items) staged
  noLoop : ∀ c ∈ staged, c.sourceId ≠ c.targetId
  budget : ∀ sourceId layer, stagedTotal staged sourceId layer ≤ 1
  proportions : ∀ i c j d, (i, c) ∈ (loopless items).zip staged →
    (j, d) ∈ (loopless items).zip staged → i.sourceId = j.sourceId → i.layer = j.layer →
      c.magnitude * j.magnitude = d.magnitude * i.magnitude
  keeps : ∀ i c, (i, c) ∈ (loopless items).zip staged →
    groupTotal items i.sourceId i.layer ≤ 1 → c.magnitude = i.magnitude
  audited : ∀ i ∈ items, i.sourceId = i.targetId →
    ⟨event.eventId, i.sourceId, i.targetId, i.layer⟩ ∈ audit

theorem mem_foldl_appendNew {α : Type} [DecidableEq α] {l acc : List α} {a : α}
    (ha : a ∈ acc ∨ a ∈ l) : a ∈ l.foldl appendNew acc := by
  induction l generalizing acc with
  | nil => exact ha.resolve_right List.not_mem_nil
  | cons b l ih =>
    refine ih ?_
    unfold appendNew
    cases ha with
    | inl hacc =>
      left
      split
      · exact hacc
      · exact List.mem_append_left _ hacc
    | inr hcons =>
      cases List.mem_cons.mp hcons with
      | inl hhead =>
        left
        subst hhead
        split
        · assumption
        · exact List.mem_append_right _ (List.mem_singleton_self a)
      | inr htail => exact .inr htail

theorem stores_staged {event : ChatEvent} {deactivateTarget : Bool}
    {staged : List NetworkContribution}
    (hstored : n'.contributions = staged.foldl (fun d c => d.set c.contributionId c)
      (if deactivateTarget then n.deactivate event.target else n).contributions) :
    Stores n n' staged := by
  constructor
  · intro id hid
    rw [hstored]
    exact Dict.get?_foldl_set_of_mem (fun c : NetworkContribution => c.contributionId)
      (fun c => c) _ hid
  · intro id hid
    have hget : (staged.foldl (fun d c => d.set c.contributionId c)
        (if deactivateTarget then n.deactivate event.target else n).contributions).get? id =
        (if deactivateTarget then n.deactivate event.target else n).contributions.get? id :=
      Dict.get?_foldl_set_of_not_mem hid
    rw [hstored, hget]
    split
    · unfold deactivate
      rw [Dict.get?_mapValues]
      cases hc : n.contributions.get? id with
      | none => exact .inl rfl
      | some c =>
        rw [Option.map_some]
        split
        · exact .inr ⟨c, rfl, rfl⟩
        · exact .inl rfl
    · exact .inl rfl

theorem budgeted_staged {h : Host} {event : ChatEvent} {items normalized : List EdgeEvidence}
    {audits : List SelfLoopAudit} (audit : List SelfLoopAudit)
    (hnormal : normalizeEvidence event items = .ok (normalized, audits)) :
    Budgeted event items (stageEach h event normalized) (audits.foldl appendNew audit) := by
  obtain ⟨hitems, rfl, rfl⟩ := normalizeEvidence_spec hnormal
  have hall : List.Forall₂ (fun i c => normalizeItem items i = item c) (loopless items)
      (stageEach h event ((loopless items).map (normalizeItem items))) := by
    have hmap : (stageEach h event ((loopless items).map (normalizeItem items))).map item =
        ((loopless items).map (normalizeItem items)).map id :=
      map_stageEach ((loopless items).map (normalizeItem items)) fun _ _ => rfl
    rw [List.map_id, ← List.forall₂_eq_eq_eq, List.forall₂_map_left_iff,
      List.forall₂_map_right_iff] at hmap
    exact hmap.flip.imp fun i c hic => hic.symm
  have hscaled : ∀ i c, (i, c) ∈ (loopless items).zip
      (stageEach h event ((loopless items).map (normalizeItem items))) →
      c.magnitude = i.magnitude * groupScale items i.sourceId i.layer := by
    intro i c hic
    have heq := (List.forall₂_iff_zip.mp hall).2 hic
    exact (congrArg EdgeEvidence.magnitude heq).symm
  constructor
  · refine hall.imp fun i c hic => ?_
    rw [← hic]
    exact congrArg (fun m => { i with magnitude := m })
      (congrArg EdgeEvidence.magnitude hic)
  · intro c hc
    obtain ⟨i, hi, index, rfl⟩ := mem_stageEach hc
    obtain ⟨j, hj, rfl⟩ := List.mem_map.mp hi
    exact of_decide_eq_true (List.mem_filter.mp hj).2
  · intro sourceId layer
    rw [stagedTotal_stageEach]
    exact groupTotal_normalized hitems sourceId layer
  · intro i c j d hic hjd hsource hlayer
    rw [hscaled i c hic, hscaled j d hjd, hsource, hlayer, mul_right_comm,
      mul_comm i.magnitude j.magnitude, mul_right_comm]
  · intro i c hic hle
    rw [hscaled i c hic, groupScale, if_neg (not_lt.mpr hle), mul_one]
  · intro i hi hloop
    refine mem_foldl_appendNew (.inr (List.mem_map.mpr ⟨i, ?_, rfl⟩))
    exact List.mem_filter.mpr ⟨hi, decide_eq_true hloop⟩

/-- An accepted call stores the evidence it pooled within its budget, so what it stores has at
most weight one for a source and layer in the views without lineage. The observed view grows by
no more; nor does the view of the humans, unless the call takes its actor for an agent no
longer. -/
theorem evidence_budget (h : Host) (extractor : Option RelationExtractor) (allowed : Lateness)
    (calls : List NetworkCall) (event : ChatEvent) (args : Supplied)
    (happlied : ((reached h extractor allowed calls).apply h extractor event args).2.map
      (·.reason) = .ok "applied") :
    ∃ items staged,
      (reached h extractor allowed calls).relations h extractor event args
        ((reached h extractor allowed calls).prospective event) = .ok items ∧
      Stores (reached h extractor allowed calls)
        ((reached h extractor allowed calls).apply h extractor event args).1 staged ∧
      Budgeted event items staged
        ((reached h extractor allowed calls).apply h extractor event args).1.audit ∧
      ∀ decay now sourceId layer,
        (∀ view, view ≠ .lineageAdjusted →
          ((reached h extractor allowed calls).apply h extractor event args).1.rowsWeight decay now
            view sourceId layer staged ≤ 1) ∧
        ((reached h extractor allowed calls).apply h extractor event args).1.viewWeight decay now
            .observed sourceId layer ≤
          (reached h extractor allowed calls).viewWeight decay now .observed sourceId layer + 1 ∧
        (((reached h extractor allowed calls).isAgent event.actorId = true →
            event.actorKind = .agent) →
          ((reached h extractor allowed calls).apply h extractor event args).1.viewWeight decay now
              .humanOnly sourceId layer ≤
            (reached h extractor allowed calls).viewWeight decay now .humanOnly sourceId layer +
              1) := by
  have hn := reached_weighted h extractor allowed calls
  generalize reached h extractor allowed calls = n at hn happlied ⊢
  cases apply_changes h extractor n event args with
  | inr hother =>
    obtain ⟨p, hp, hreason⟩ := map_eq_ok.mp happlied
    exact absurd hreason (hother.2 p hp)
  | inl hstores =>
    obtain ⟨items, normalized, audits, p, hitems, hnormal, hresult⟩ := hstores
    rw [hresult]
    have hstored := applyStaged_contributions n event args (contextOf args (n.prospective event))
      (n.replaces event) audits
      (summarySourcesForEvent event args.sources (n.prospective event))
      (stageEach h event normalized)
    have hbudgeted : Budgeted event items (stageEach h event normalized)
        (audits.foldl appendNew n.audit) := budgeted_staged n.audit hnormal
    have hrange : ∀ c ∈ stageEach h event normalized,
        0 ≤ c.magnitude ∧ 0 ≤ c.confidence ∧ c.confidence ≤ 1 := by
      intro c hc
      obtain ⟨i, hi, index, rfl⟩ := mem_stageEach hc
      have hi' := normalized_inRange hnormal i hi
      exact ⟨hi'.magnitude, hi'.confidence⟩
    refine ⟨items, stageEach h event normalized, hitems, stores_staged hstored, ?_, ?_⟩
    · cases hd : n.replaces event <;> exact hbudgeted
    intro decay now sourceId layer
    have hle := hbudgeted.budget sourceId layer
    refine ⟨fun view hview => ?_, ?_, fun hkind => ?_⟩
    · rw [rowsWeight_eq hview]
      exact (sum_shown_le hrange).trans hle
    · refine (viewWeight_grows hn (by decide) (fun hv => ?_) hstored hrange).trans
        (add_le_add_right hle _)
      cases hv
    · refine (viewWeight_grows hn (by decide) (fun _ id hid => ?_) hstored hrange).trans
        (add_le_add_right hle _)
      rw [isAgent, applyStaged_actorKinds, Dict.get?_set]
      by_cases hself : id = event.actorId
      · rw [if_pos hself, hkind (hself ▸ hid)]
        rfl
      · rw [if_neg hself]
        exact hid

/-- A turn of the actor "nova", at one instant. -/
def novaTurn (eventId : String) (hid : eventId ≠ "") (kind : ActorKind) (hkind : kind ≠ .system) :
    NetworkInput where
  event := { sunRemark with
    eventId
    actorId := "nova"
    actorKind := kind
    speaker := hkind
    required := ⟨hid, by decide, by decide⟩ }
  evidence := []
  sources := []
  context := none
  deriveEventRelations := true

/-- No contribution loses weight with time. -/
def noDecay : Decay where
  factor := fun _ _ => 1
  bounded := fun _ _ _ => ⟨zero_le_one, le_refl 1⟩

/-- Two turns of an agent, and then one of a human. -/
def novaAgentTurns : List NetworkCall :=
  [ .apply (novaTurn "n1" (by decide) .agent (by decide)),
    .apply (novaTurn "n2" (by decide) .agent (by decide)) ]

def novaHumanTurn : NetworkInput := novaTurn "n3" (by decide) .human sunRemark.speaker

theorem evidence_budget_nova :
    ∃ items staged,
      (reached .ascii none (.within (seconds 5)) novaAgentTurns).relations .ascii none
        novaHumanTurn.event (supplied novaHumanTurn true)
        ((reached .ascii none (.within (seconds 5)) novaAgentTurns).prospective
          novaHumanTurn.event) = .ok items ∧
      Stores (reached .ascii none (.within (seconds 5)) novaAgentTurns)
        ((reached .ascii none (.within (seconds 5)) novaAgentTurns).call .ascii none
          novaHumanTurn) staged ∧
      Budgeted novaHumanTurn.event items staged
        ((reached .ascii none (.within (seconds 5)) novaAgentTurns).call .ascii none
          novaHumanTurn).audit := by
  obtain ⟨items, staged, hitems, hstores, hbudgeted, -⟩ :=
    evidence_budget .ascii none (.within (seconds 5)) novaAgentTurns novaHumanTurn.event
      (supplied novaHumanTurn true) (by decide +kernel)
  exact ⟨items, staged, hitems, hstores, hbudgeted⟩

/-- The call for the human turn stores weight one. It also takes "nova" for an agent no longer,
and the two older turns come into the view of the humans with it. -/
theorem human_turn_reveals :
    ((reached .ascii none (.within (seconds 5)) novaAgentTurns).apply .ascii none
      novaHumanTurn.event (supplied novaHumanTurn true)).2.map (·.reason) = .ok "applied" ∧
    ¬((reached .ascii none (.within (seconds 5)) novaAgentTurns).call .ascii none
        novaHumanTurn).viewWeight noDecay 0 .humanOnly "nova" .communication ≤
      (reached .ascii none (.within (seconds 5)) novaAgentTurns).viewWeight noDecay 0 .humanOnly
        "nova" .communication + 1 := by
  decide +kernel

end StreamingInteractionNetwork

end LearningOrbit.Reference
