import Mathlib.Data.List.Sort
import LearningOrbit.Reference.Budget

/-!
# No view weighs more than the observed one

What a contribution puts into a view is a part of its weight, an edge adds up its rows, and the
shares of the metrics are parts of a whole.
-/

namespace LearningOrbit.Reference

open LearningOrbit (Host Dict)

/-! ## Rows -/

theorem humanSources_confidence {c : NetworkContribution}
    (hc : ∀ s ∈ c.provenance, 0 ≤ s.confidence ∧ s.confidence ≤ 1) :
    ∀ s ∈ c.lineage, 0 ≤ s.2.confidence ∧ s.2.confidence ≤ 1 := by
  intro s hs
  have hentry : s ∈ c.humanSources.entries := (List.mem_insertionSort _).mp hs
  have hvalue : s.2 ∈ c.humanSources.values := List.mem_map_of_mem hentry
  cases Dict.mem_values_foldl_set hvalue with
  | inl hsource =>
    obtain ⟨source, hmem, heq⟩ := hsource
    rw [heq]
    exact hc source (List.mem_of_mem_filter hmem)
  | inr hempty => cases hempty

/-- The shares of the human sources leave nothing over the weight they split. -/
theorem sum_sourceRow_le {decay : Decay} {now : Int} {c : NetworkContribution}
    (hweight : 0 ≤ c.weight decay now) (hsize : c.humanSources.size ≠ 0)
    (hc : ∀ s ∈ c.provenance, 0 ≤ s.confidence ∧ s.confidence ≤ 1) (p : String × SourceRef → Bool) :
    ((c.lineage.filter p).map fun s => (c.sourceRow decay now s).weight).sum ≤
      c.weight decay now := by
  have hpos : (0 : ℚ) < c.humanSources.size := Nat.cast_pos.mpr (Nat.pos_of_ne_zero hsize)
  have hconfidence := humanSources_confidence hc
  have hlength : c.lineage.length = c.humanSources.size := List.length_insertionSort ..
  calc ((c.lineage.filter p).map fun s => (c.sourceRow decay now s).weight).sum
      ≤ (c.lineage.map fun s => (c.sourceRow decay now s).weight).sum :=
        sum_filter_le fun s hs => div_nonneg (mul_nonneg hweight (hconfidence s hs).1) hpos.le
    _ ≤ (c.lineage.map fun _ => c.weight decay now / c.humanSources.size).sum := by
        refine List.sum_le_sum fun s hs => ?_
        exact div_le_div_of_nonneg_right
          (mul_le_of_le_one_right hweight (hconfidence s hs).2) hpos.le
    _ = c.weight decay now := by
        rw [List.map_const', List.sum_replicate, hlength, nsmul_eq_mul,
          mul_div_cancel₀ _ (ne_of_gt hpos)]

namespace StreamingInteractionNetwork

variable {n : StreamingInteractionNetwork} {decay : Decay} {now : Int} {view : View}

/-- A row touches an agent. -/
def touchesAgent (n : StreamingInteractionNetwork) (row : NetworkRow) : Bool :=
  n.isAgent row.sourceId || n.isAgent row.targetId

theorem rowsOf_observed (c : NetworkContribution) :
    (n.rowsOf decay now .observed c).1 = [c.row decay now] := by
  simp [rowsOf, adjustsLineage]

theorem rowsOf_humanOnly (c : NetworkContribution) :
    (n.rowsOf decay now .humanOnly c).1 =
      [c.row decay now].filter fun row => !n.touchesAgent row := by
  unfold rowsOf
  cases hagent : (n.isAgent c.sourceId || n.isAgent c.targetId) with
  | true =>
    have htouches : n.touchesAgent (c.row decay now) = true := hagent
    simp [htouches]
  | false =>
    have htouches : n.touchesAgent (c.row decay now) = false := hagent
    simp [htouches, adjustsLineage]

theorem rowsOf_plain {c : NetworkContribution} (hview : view ≠ .humanOnly)
    (hplain : n.adjustsLineage view c = false) :
    (n.rowsOf decay now view c).1 = [c.row decay now] := by
  simp [rowsOf, hview, hplain]

theorem rowsOf_lineage {c : NetworkContribution} (hview : view ≠ .humanOnly)
    (hadjusts : n.adjustsLineage view c = true) :
    (n.rowsOf decay now view c).1 =
      (c.lineage.filter fun s => s.1 ≠ c.targetId).map (c.sourceRow decay now) := by
  simp [rowsOf, hview, hadjusts]

/-- The rows of the humans are the observed rows that touch no agent. -/
theorem virtualRows_humanOnly :
    (n.virtualRows decay now .humanOnly).1 =
      (n.virtualRows decay now .observed).1.filter fun row => !n.touchesAgent row := by
  unfold virtualRows
  rw [List.filter_flatMap]
  refine List.flatMap_congr fun c _ => ?_
  rw [rowsOf_humanOnly, rowsOf_observed]

/-- The row of a contribution weighs what it weighs, as long as the view keeps it. -/
theorem row_weights {c : NetworkContribution} (hweight : 0 ≤ c.weight decay now)
    (kept : NetworkRow → Bool) :
    (∀ row ∈ [c.row decay now].filter kept, 0 ≤ row.weight) ∧
      (([c.row decay now].filter kept).map (·.weight)).sum ≤ c.weight decay now := by
  rw [List.filter_singleton]
  cases kept (c.row decay now) with
  | true =>
    constructor
    · intro row hrow
      rw [List.mem_singleton.mp hrow]
      exact hweight
    · simp [NetworkContribution.row]
  | false => exact ⟨fun _ hrow => absurd hrow List.not_mem_nil, hweight⟩

/-- A stored contribution puts no more into a view than its weight, and nothing negative. -/
theorem rowsOf_weights (hn : Weighted n) {c : NetworkContribution}
    (hc : c ∈ n.contributions.values) :
    (∀ row ∈ (n.rowsOf decay now view c).1, 0 ≤ row.weight) ∧
      ((n.rowsOf decay now view c).1.map (·.weight)).sum ≤ c.weight decay now := by
  obtain ⟨hmagnitude, hconfidence, hprovenance⟩ := hn c hc
  have hweight : 0 ≤ c.weight decay now := (weight_bounds hmagnitude hconfidence).1
  have hwhole := row_weights hweight fun _ => true
  rw [List.filter_true] at hwhole
  cases view with
  | observed =>
    rw [rowsOf_observed]
    exact hwhole
  | humanOnly =>
    rw [rowsOf_humanOnly]
    exact row_weights hweight _
  | lineageAdjusted =>
    cases hadjusts : n.adjustsLineage .lineageAdjusted c with
    | false =>
      rw [rowsOf_plain (by decide) hadjusts]
      exact hwhole
    | true =>
      have hsize : c.humanSources.size ≠ 0 := by
        have hall := hadjusts
        unfold adjustsLineage at hall
        simpa using (Bool.and_eq_true_iff.mp hall).2
      rw [rowsOf_lineage (by decide) hadjusts]
      constructor
      · intro row hrow
        obtain ⟨s, hs, rfl⟩ := List.mem_map.mp hrow
        have hsource := humanSources_confidence hprovenance s (List.mem_of_mem_filter hs)
        exact div_nonneg (mul_nonneg hweight hsource.1) (Nat.cast_nonneg _)
      · rw [List.map_map]
        exact sum_sourceRow_le hweight hsize hprovenance _

theorem mem_activeContributions {c : NetworkContribution} (hc : c ∈ n.activeContributions) :
    c ∈ n.contributions.values :=
  List.mem_of_mem_filter hc

theorem virtualRows_nonneg (hn : Weighted n) :
    ∀ row ∈ (n.virtualRows decay now view).1, 0 ≤ row.weight := by
  intro row hrow
  obtain ⟨c, hc, hrow⟩ := List.mem_flatMap.mp hrow
  exact (rowsOf_weights hn (mem_activeContributions hc)).1 row hrow

/-- The rows of a view weigh no more than the observed ones. -/
theorem sum_virtualRows_le (hn : Weighted n) :
    ((n.virtualRows decay now view).1.map (·.weight)).sum ≤
      ((n.virtualRows decay now .observed).1.map (·.weight)).sum := by
  have hactive : ∀ c ∈ n.activeContributions, c ∈ n.contributions.values :=
    fun c hc => mem_activeContributions hc
  unfold virtualRows
  dsimp only
  generalize n.activeContributions = contributions at hactive ⊢
  induction contributions with
  | nil => exact le_refl _
  | cons c contributions ih =>
    have hrest := ih fun d hd => hactive d (List.mem_cons_of_mem c hd)
    have hhead : ((n.rowsOf decay now view c).1.map (·.weight)).sum ≤ c.weight decay now :=
      (rowsOf_weights hn (hactive c List.mem_cons_self)).2
    rw [List.flatMap_cons, List.flatMap_cons, List.map_append, List.map_append, List.sum_append,
      List.sum_append, rowsOf_observed]
    refine add_le_add ?_ hrest
    simpa [NetworkContribution.row] using hhead

end StreamingInteractionNetwork

/-! ## Edges -/

theorem PolarityChannels.sum_count (c : PolarityChannels) (weight : ℚ) (polarity : Polarity) :
    (c.count weight polarity).sum = c.sum + weight := by
  cases polarity with
  | positive => simp only [count, sum, add_right_comm]
  | challenge =>
    simp only [count, sum]
    rw [← add_assoc, add_right_comm]
  | uncertain => simp only [count, sum, add_assoc]

theorem EdgeRecord.sum_note (record : EdgeRecord) (row : NetworkRow) :
    (record.note row).channels.sum = record.channels.sum + row.weight :=
  record.channels.sum_count row.weight row.polarity

/-- The edges weigh what the rows weigh. -/
theorem sum_aggregateRows (h : Host) (rows : List NetworkRow) :
    ((aggregateRows h rows).map (·.weight)).sum = (rows.map (·.weight)).sum := by
  have hperm : ((aggregateRows h rows).map (·.weight)).Perm
      ((groupRows rows).values.map fun record => record.channels.sum) := by
    unfold aggregateRows Dict.values
    rw [List.map_map, List.map_map]
    exact (List.perm_insertionSort _ _).map _
  have htotal : (groupRows rows).total (fun record => record.channels.sum) =
      Dict.empty.total (fun record : EdgeRecord => record.channels.sum) +
        (rows.map (·.weight)).sum :=
    Dict.total_foldl_modify (by decide +kernel) EdgeRecord.sum_note
  rw [hperm.sum_eq]
  exact htotal.trans (zero_add _)

theorem aggregateRows_nonneg {h : Host} {rows : List NetworkRow}
    (hrows : ∀ row ∈ rows, 0 ≤ row.weight) : ∀ edge ∈ aggregateRows h rows, 0 ≤ edge.weight := by
  have hrecords : ∀ record ∈ (groupRows rows).values, 0 ≤ record.channels.sum := by
    refine Dict.forall_values_foldl_modify (fun _ hv => by cases hv) (by decide +kernel) ?_
    intro record row hrow hrecord
    rw [EdgeRecord.sum_note]
    exact add_nonneg hrecord (hrows row hrow)
  intro edge hedge
  obtain ⟨entry, hentry, rfl⟩ := List.mem_map.mp hedge
  exact hrecords entry.2 (List.mem_map_of_mem ((List.mem_insertionSort _).mp hentry))

/-! ## Reciprocity -/

theorem pairWeights_nonneg {edges : List NetworkEdge} (hedges : ∀ edge ∈ edges, 0 ≤ edge.weight) :
    ∀ weight ∈ (pairWeights edges).values, 0 ≤ weight := by
  refine Dict.forall_values_foldl_modify (fun _ hv => by cases hv) (le_refl 0) ?_
  intro weight edge hedge hweight
  exact add_nonneg hweight (hedges edge (List.mem_of_mem_filter hedge))

/-- What comes back over a pair is no more than what goes over it. -/
theorem reciprocal_bounds {pairs : Dict (String × String) ℚ}
    (hpairs : ∀ weight ∈ pairs.values, 0 ≤ weight) :
    0 ≤ (pairs.entries.map fun (pair, weight) =>
        min weight ((pairs.get? (pair.2, pair.1)).getD 0)).sum ∧
      (pairs.entries.map fun (pair, weight) =>
        min weight ((pairs.get? (pair.2, pair.1)).getD 0)).sum ≤ pairs.values.sum := by
  have hback : ∀ pair : String × String, 0 ≤ (pairs.get? (pair.2, pair.1)).getD 0 := by
    intro pair
    cases hget : pairs.get? (pair.2, pair.1) with
    | none => exact le_refl 0
    | some weight => exact hpairs weight (Dict.mem_values.mpr ⟨_, hget⟩)
  have hleast : ∀ entry ∈ pairs.entries,
      0 ≤ min entry.2 ((pairs.get? (entry.1.2, entry.1.1)).getD 0) := by
    intro entry hentry
    exact le_min (hpairs entry.2 (List.mem_map_of_mem hentry)) (hback entry.1)
  constructor
  · refine List.sum_nonneg fun x hx => ?_
    obtain ⟨entry, hentry, rfl⟩ := List.mem_map.mp hx
    exact hleast entry hentry
  · exact List.sum_le_sum fun entry _ => min_le_left ..

theorem reciprocity_bounds {pairs : Dict (String × String) ℚ}
    (hpairs : ∀ weight ∈ pairs.values, 0 ≤ weight) :
    0 ≤ reciprocity pairs ∧ reciprocity pairs ≤ 1 := by
  obtain ⟨hlow, hhigh⟩ := reciprocal_bounds hpairs
  unfold reciprocity
  dsimp only
  split
  · exact ⟨le_refl 0, zero_le_one⟩
  · exact ⟨div_nonneg hlow (hlow.trans hhigh), div_le_one_of_le₀ hhigh (hlow.trans hhigh)⟩

/-! ## Shares of the turns -/

theorem turnShare_bounds {part total : Nat} (h : part ≤ total) :
    0 ≤ turnShare part total ∧ turnShare part total ≤ 1 := by
  unfold turnShare
  split
  · exact ⟨le_refl 0, zero_le_one⟩
  · have hle : (part : ℚ) ≤ total := Nat.cast_le.mpr h
    exact ⟨div_nonneg (Nat.cast_nonneg _) (Nat.cast_nonneg _),
      div_le_one_of_le₀ hle (Nat.cast_nonneg _)⟩

theorem turnShare_add (part other total : Nat) :
    turnShare part total + turnShare other total = turnShare (part + other) total := by
  unfold turnShare
  split
  · exact add_zero 0
  · rw [Nat.cast_add, add_div]

/-- The counts of the actors add up to the turns. -/
theorem sum_turnCounts (turns : List ChatEvent) : (turnCounts turns).values.sum = turns.length := by
  have htotal : (turnCounts turns).total id =
      (Dict.empty : Dict String Nat).total id + (turns.map fun _ => 1).sum :=
    Dict.total_foldl_modify rfl fun _ _ => rfl
  simpa [Dict.total, Dict.empty, Dict.values] using htotal

namespace StreamingInteractionNetwork

variable {n : StreamingInteractionNetwork}

theorem kindTurns_add_le (counts : Dict String Nat) :
    n.kindTurns counts .agent + n.kindTurns counts .human ≤ counts.values.sum := by
  refine sum_filter_add_le (fun _ _ => Nat.zero_le _) fun entry _ hagent => ?_
  have hkind := of_decide_eq_true hagent
  simp [hkind]

/-- An event counts once, however many rows it has. -/
theorem covered_le (rows : List NetworkRow) (turns : List ChatEvent) :
    ((semanticEvents rows).filter fun id => id ∈ turns.map (·.eventId)).length ≤
      turns.length := by
  have hnodup : ((semanticEvents rows).filter fun id => id ∈ turns.map (·.eventId)).Nodup :=
    (List.nodup_dedup _).filter _
  have hsubset : ((semanticEvents rows).filter fun id => id ∈ turns.map (·.eventId)) ⊆
      turns.map (·.eventId) := by
    intro id hid
    exact of_decide_eq_true (List.mem_filter.mp hid).2
  calc _ ≤ (turns.map (·.eventId)).length := (List.subperm_of_subset hnodup hsubset).length_le
    _ = turns.length := List.length_map _

end StreamingInteractionNetwork

/-! ## The metrics -/

/-- The shares among the metrics. The balance, a quotient of logarithms, is not one of them. -/
structure NetworkMetrics.InRange (m : NetworkMetrics) : Prop where
  weightedReciprocity : 0 ≤ m.weightedReciprocity ∧ m.weightedReciprocity ≤ 1
  agentShare : 0 ≤ m.agentShare ∧ m.agentShare ≤ 1
  humanOnlyShare : 0 ≤ m.humanOnlyShare ∧ m.humanOnlyShare ≤ 1
  shares : m.agentShare + m.humanOnlyShare ≤ 1
  semanticCoverage : 0 ≤ m.semanticCoverage ∧ m.semanticCoverage ≤ 1

/-- The adapter takes the metrics as they are, or rejects the balance. -/
def NetworkMetrics.Taken (m : NetworkMetrics) : Prop :=
  adapterMetrics m.toDict =
    if 0 ≤ m.participationBalance ∧ m.participationBalance ≤ 1 then
      .ok ⟨m.participationBalance, m.weightedReciprocity, m.agentShare, m.semanticCoverage⟩
    else .error "INVALID_TRACE_METRICS"

theorem boundedMetric_of_mem {raw : Dict String Metric} {name : String} {names : List String}
    {value : ℚ} (hget : raw.get? name = some (.number value)) :
    boundedMetric raw (name :: names) =
      if 0 ≤ value ∧ value ≤ 1 then .ok value else .error "INVALID_TRACE_METRICS" := by
  have hfind : (name :: names).find? raw.contains = some name := by
    rw [List.find?_cons, Dict.contains, hget]
    rfl
  unfold boundedMetric
  rw [hfind, Option.bind_some, hget]

theorem NetworkMetrics.InRange.taken {m : NetworkMetrics} (hm : m.InRange) : m.Taken := by
  have hreciprocity : m.toDict.get? "weightedReciprocity" = some (.number m.weightedReciprocity) := by
    simp [NetworkMetrics.toDict, Dict.get?_set]
  have hbalance : m.toDict.get? "participationBalance" = some (.number m.participationBalance) := by
    simp [NetworkMetrics.toDict, Dict.get?_set]
  have hagent : m.toDict.get? "agentShare" = some (.number m.agentShare) := by
    simp [NetworkMetrics.toDict, Dict.get?_set]
  have hcoverage : m.toDict.get? "semanticCoverage" = some (.number m.semanticCoverage) := by
    simp [NetworkMetrics.toDict]
  have hother : m.toDict.contains "reciprocity" = false := by
    simp [Dict.contains, NetworkMetrics.toDict, Dict.get?_set]
  unfold Taken adapterMetrics
  rw [boundedMetric_of_mem hreciprocity, boundedMetric_of_mem hbalance,
    boundedMetric_of_mem hagent, boundedMetric_of_mem hcoverage, hother, Bool.and_false,
    if_pos hm.weightedReciprocity, if_pos hm.agentShare, if_pos hm.semanticCoverage]
  split
  · rfl
  · rfl

namespace StreamingInteractionNetwork

variable {n : StreamingInteractionNetwork}

theorem snapshot_metrics_inRange (hn : Weighted n) (h : Host) (decay : Decay)
    (evenness : List Nat → ℚ) (now : Option Int) (view : View) :
    (n.snapshot h decay evenness now view).metrics.InRange := by
  have hparts := n.kindTurns_add_le (turnCounts (n.activeTurns view))
  constructor
  · exact reciprocity_bounds (pairWeights_nonneg (aggregateRows_nonneg (virtualRows_nonneg hn)))
  · exact turnShare_bounds ((Nat.le_add_right ..).trans hparts)
  · exact turnShare_bounds ((Nat.le_add_left ..).trans hparts)
  · exact (turnShare_add ..).trans_le (turnShare_bounds hparts).2
  · refine turnShare_bounds ?_
    rw [sum_turnCounts]
    exact covered_le ..

/-- What the three views show of an active contribution. -/
structure Represented (n : StreamingInteractionNetwork) (decay : Decay) (now : Int)
    (c : NetworkContribution) : Prop where
  observed : (n.rowsOf decay now .observed c).1 = [c.row decay now]
  humanOnly : (n.rowsOf decay now .humanOnly c).1 =
    [c.row decay now].filter fun row => !n.touchesAgent row
  plain : n.adjustsLineage .lineageAdjusted c = false →
    (n.rowsOf decay now .lineageAdjusted c).1 = [c.row decay now]
  lineage : ∀ row ∈ (n.rowsOf decay now .lineageAdjusted c).1,
    row.contributionId = c.contributionId ∧ row.targetId = c.targetId ∧ row.layer = c.layer
  weights : ((n.rowsOf decay now .lineageAdjusted c).1.map (·.weight)).sum ≤ c.weight decay now

theorem represented (hn : Weighted n) (decay : Decay) (now : Int) {c : NetworkContribution}
    (hc : c ∈ n.activeContributions) : Represented n decay now c := by
  constructor
  · exact rowsOf_observed c
  · exact rowsOf_humanOnly c
  · exact rowsOf_plain (by decide)
  · intro row hrow
    cases hadjusts : n.adjustsLineage .lineageAdjusted c with
    | false =>
      rw [rowsOf_plain (by decide) hadjusts] at hrow
      rw [List.mem_singleton.mp hrow]
      exact ⟨rfl, rfl, rfl⟩
    | true =>
      rw [rowsOf_lineage (by decide) hadjusts] at hrow
      obtain ⟨s, -, rfl⟩ := List.mem_map.mp hrow
      exact ⟨rfl, rfl, rfl⟩
  · exact (rowsOf_weights hn (mem_activeContributions hc)).2

/-- The rows of a view are what its active contributions put into it, no view weighs more than
the observed one, and the adapter takes the metrics of each. -/
theorem view_bounds (h : Host) (extractor : Option RelationExtractor) (allowed : Lateness)
    (calls : List NetworkCall) (decay : Decay) (evenness : List Nat → ℚ) :
    (∀ now,
      (∀ c ∈ (reached h extractor allowed calls).activeContributions,
        Represented (reached h extractor allowed calls) decay now c) ∧
      (∀ view, ((reached h extractor allowed calls).virtualRows decay now view).1 =
        (reached h extractor allowed calls).activeContributions.flatMap fun c =>
          ((reached h extractor allowed calls).rowsOf decay now view c).1) ∧
      ((reached h extractor allowed calls).virtualRows decay now .humanOnly).1 =
        ((reached h extractor allowed calls).virtualRows decay now .observed).1.filter fun row =>
          !(reached h extractor allowed calls).touchesAgent row) ∧
    ∀ now view,
      (((reached h extractor allowed calls).snapshot h decay evenness now view).edges.map
          (·.weight)).sum ≤
        (((reached h extractor allowed calls).snapshot h decay evenness now .observed).edges.map
          (·.weight)).sum ∧
      ((reached h extractor allowed calls).snapshot h decay evenness now view).metrics.InRange ∧
      ((reached h extractor allowed calls).snapshot h decay evenness now view).metrics.Taken := by
  have hn := reached_weighted h extractor allowed calls
  generalize reached h extractor allowed calls = n at hn ⊢
  refine ⟨fun now => ⟨fun c hc => represented hn decay now hc, fun view => rfl,
    virtualRows_humanOnly⟩, fun now view => ⟨?_, ?_, ?_⟩⟩
  · unfold snapshot
    dsimp only
    rw [sum_aggregateRows, sum_aggregateRows]
    exact sum_virtualRows_le hn
  · exact snapshot_metrics_inRange hn h decay evenness now view
  · exact (snapshot_metrics_inRange hn h decay evenness now view).taken

end StreamingInteractionNetwork

end LearningOrbit.Reference
