import Mathlib.Data.String.Basic
import Mathlib.Order.Lattice
import LearningOrbit.Projection.EchoMap
import LearningOrbit.Reference.ConceptMap

/-!
# The snapshot of a concept map

`snapshot` decays the active contributions to one instant and keeps an edge in
view by hysteresis: an edge comes up at `theta_on` and, once visible, stays until
it falls below `theta_off`. What was visible is the memory of the object. Concept
types are left out; nothing reads them after the snapshot.
-/

namespace LearningOrbit.Projection

open LearningOrbit (Host Dict)
open LearningOrbit.Reference (StreamingConceptMap ConceptContribution Stance stableId)

/-- The float functions of a snapshot: `math.pow(2.0, x)`, and `round` to some digits. -/
structure Floats where
  pow2 : ℚ → ℚ
  round : Nat → ℚ → ℚ

def HALF_LIFE : ℚ := 30 * 60

def THETA_ON : ℚ := 6 / 10

def THETA_OFF : ℚ := 3 / 10

def Channels.zero : Channels := ⟨0, 0, 0, 0⟩

/-- Add to the channel a stance counts on. -/
def Channels.count (c : Channels) (value : ℚ) : Stance → Channels
  | .support => { c with support := c.support + value }
  | .oppose => { c with challenge := c.challenge + value }
  | .uncertain => { c with uncertain := c.uncertain + value }
  | .question => { c with question := c.question + value }

def Channels.activity (c : Channels) : ℚ := max (max c.support c.challenge) c.uncertain

def Channels.round (f : Floats) (c : Channels) : Channels :=
  ⟨f.round 12 c.support, f.round 12 c.challenge, f.round 12 c.uncertain, f.round 12 c.question⟩

/-- `_status`. -/
def Channels.status (c : Channels) : EvidenceStatus :=
  if THETA_OFF ≤ c.support ∧ THETA_OFF ≤ c.challenge then .disputed
  else if max c.support c.uncertain < c.challenge then .challenged
  else if c.support < c.uncertain then .uncertain
  else .supported

/-- What `_aggregate` records of one edge. -/
structure Aggregate where
  channels : Channels
  evidence : List String

def Aggregate.empty : Aggregate := ⟨.zero, []⟩

/-- The weight of a contribution at an instant; times are microseconds. -/
def decayed (f : Floats) (now : Int) (c : ConceptContribution) : ℚ :=
  let age : ℚ := (max 0 (now - c.eventTime) : Int) / 1000000
  c.quality * f.pow2 (-age / HALF_LIFE)

def Aggregate.note (f : Floats) (now : Int) (a : Aggregate) (c : ConceptContribution) :
    Aggregate :=
  ⟨a.channels.count (decayed f now c) c.stance, a.evidence ++ c.evidence.map (·.evidenceId)⟩

/-- `_aggregate`. -/
def aggregate (f : Floats) (m : StreamingConceptMap) (now : Int) :
    Dict (List String) Aggregate :=
  (m.contributions.values.filter (·.active)).foldl
    (fun records c => records.modify (m.edgeKey c) .empty (·.note f now c)) .empty

/-- `_visible_edge_ids` and `archived_edge_ids`. -/
structure Visibility where
  visible : List String
  archived : List String

/-- As `_reset_runtime` leaves it. -/
def Visibility.init : Visibility := ⟨[], []⟩

structure SnapshotEdge extends InternalEdge where
  edgeId : String

/-- The tuple an edge is aggregated under. -/
def SnapshotEdge.key (e : SnapshotEdge) : List String :=
  [e.head, e.predicate, e.tail, e.relationFamily]

structure EchoSnapshot where
  generatedAt : Int
  watermark : Option Int
  nodes : List InternalNode
  edges : List SnapshotEdge
  archivedEdgeIds : List String
  requiresReplay : List String

/-- What the loop of `snapshot` has gathered. -/
structure Draft where
  visible : List String
  archived : List String
  edges : List SnapshotEdge
  nodeIds : List String

section

variable (h : Host) (f : Floats)

/-- `_position`: two words of the digest of a concept, each between -1 and 1. -/
def position (concept : String) : ℚ × ℚ :=
  let digits := (h.sha256Hex concept).toList.map Digest.hexValue
  let word (w : List Nat) : ℚ := (w.foldl (fun n d => 16 * n + d) 0 : Nat) / (2 ^ 32 - 1)
  (f.round 6 (word (digits.take 8) * 2 - 1), f.round 6 (word ((digits.drop 8).take 8) * 2 - 1))

/-- The activity an edge needs to be shown. -/
def threshold (v : Visibility) (key : List String) : ℚ :=
  if stableId h "edge" key ∈ v.visible then THETA_OFF else THETA_ON

def snapshotEdge (key : List String) (record : Aggregate) : SnapshotEdge where
  edgeId := stableId h "edge" key
  head := key.getD 0 ""
  predicate := key.getD 1 ""
  tail := key.getD 2 ""
  relationFamily := key.getD 3 ""
  status := record.channels.status
  channels := record.channels.round f
  evidenceIds := Text.sortedSet record.evidence

/-- One round of the loop over the sorted keys. -/
def visit (v : Visibility) (records : Dict (List String) Aggregate) (d : Draft)
    (key : List String) : Draft :=
  let record := (records.get? key).getD .empty
  let edgeId := stableId h "edge" key
  if threshold h v key ≤ record.channels.activity then
    { visible := edgeId :: d.visible
      archived := d.archived.filter (· ≠ edgeId)
      edges := d.edges ++ [snapshotEdge h f key record]
      nodeIds := d.nodeIds ++ [key.getD 0 "", key.getD 2 ""] }
  else if edgeId ∈ v.visible then { d with archived := edgeId :: d.archived }
  else d

/-- `snapshot`: the view at an instant, and what the object remembers of it. -/
def snapshot (m : StreamingConceptMap) (v : Visibility) (now : Option Int) :
    EchoSnapshot × Visibility :=
  let instant := now.getD (m.watermark.getD 0)
  let records := aggregate f m instant
  let d := (records.keys.insertionSort (· ≤ ·)).foldl (visit h f v records)
    ⟨[], v.archived, [], []⟩
  let archived := d.archived ++ v.visible.filter (· ∉ d.visible)
  ({ generatedAt := instant
     watermark := m.watermark
     nodes := (Text.sortedSet d.nodeIds).map fun nodeId =>
       ⟨nodeId, nodeId, (position h f nodeId).1, (position h f nodeId).2⟩
     edges := d.edges
     archivedEdgeIds := Text.sortedSet archived
     requiresReplay := m.requiresReplay },
    ⟨d.visible, archived⟩)

end

/-! ## When an edge is shown -/

/-- The active contributions behind an edge. -/
def backing (m : StreamingConceptMap) (key : List String) : List ConceptContribution :=
  (m.contributions.values.filter (·.active)).filter fun c => m.edgeKey c = key

/-- The decayed activity of the contributions behind an edge. -/
def activityAt (f : Floats) (now : Int) (contributions : List ConceptContribution) : ℚ :=
  (contributions.foldl (Aggregate.note f now) .empty).channels.activity

theorem aggregate_get? (f : Floats) (m : StreamingConceptMap) (now : Int) (key : List String) :
    (aggregate f m now).get? key =
      if backing m key = [] then none
      else some ((backing m key).foldl (Aggregate.note f now) .empty) :=
  Dict.get?_foldl_modify m.edgeKey Aggregate.empty (Aggregate.note f now) .empty key

theorem activityAt_nil (f : Floats) (now : Int) : activityAt f now [] = 0 := by
  simp [activityAt, Aggregate.empty, Channels.zero, Channels.activity]

theorem threshold_pos (h : Host) (v : Visibility) (key : List String) : 0 < threshold h v key := by
  unfold threshold
  split
  · exact (by decide +kernel : (0 : ℚ) < 3 / 10)
  · exact (by decide +kernel : (0 : ℚ) < 6 / 10)

section

variable (h : Host) (f : Floats) (v : Visibility) (records : Dict (List String) Aggregate)

theorem visit_edges (keys : List (List String)) (d : Draft) :
    (keys.foldl (visit h f v records) d).edges =
      d.edges ++ (keys.filter fun key =>
        threshold h v key ≤ ((records.get? key).getD .empty).channels.activity).map fun key =>
          snapshotEdge h f key ((records.get? key).getD .empty) := by
  induction keys generalizing d with
  | nil => simp
  | cons key keys ih =>
    rw [List.foldl_cons, ih, List.filter_cons]
    unfold visit
    dsimp only
    split
    · simp_all
    · simp_all only [decide_false, Bool.false_eq_true, ↓reduceIte]
      split <;> rfl

theorem visit_visible (keys : List (List String)) (d : Draft) :
    (keys.foldl (visit h f v records) d).visible =
      ((keys.filter fun key =>
        threshold h v key ≤ ((records.get? key).getD .empty).channels.activity).map
          (stableId h "edge")).reverse ++ d.visible := by
  induction keys generalizing d with
  | nil => simp
  | cons key keys ih =>
    rw [List.foldl_cons, ih, List.filter_cons]
    unfold visit
    dsimp only
    split
    · simp_all
    · simp_all only [decide_false, Bool.false_eq_true, ↓reduceIte]
      split <;> rfl

end

/-- The keys of the edges a snapshot shows, in its order. -/
def shownKeys (h : Host) (f : Floats) (m : StreamingConceptMap) (v : Visibility) (instant : Int) :
    List (List String) :=
  ((aggregate f m instant).keys.insertionSort (· ≤ ·)).filter fun key =>
    threshold h v key ≤ activityAt f instant (backing m key)

theorem aggregate_activity (f : Floats) (m : StreamingConceptMap) (now : Int)
    (key : List String) :
    (((aggregate f m now).get? key).getD .empty).channels.activity =
      activityAt f now (backing m key) := by
  rw [aggregate_get?]
  split
  · rename_i hnil
    rw [hnil]
    rfl
  · rfl

section

variable (h : Host) (f : Floats) (m : StreamingConceptMap) (v : Visibility) (now : Option Int)

theorem snapshot_edges :
    (snapshot h f m v now).1.edges =
      (shownKeys h f m v (now.getD (m.watermark.getD 0))).map fun key =>
        snapshotEdge h f key
          (((aggregate f m (now.getD (m.watermark.getD 0))).get? key).getD .empty) := by
  unfold snapshot shownKeys
  dsimp only
  rw [visit_edges]
  simp only [aggregate_activity, List.nil_append]

theorem snapshot_visible :
    (snapshot h f m v now).2.visible =
      ((shownKeys h f m v (now.getD (m.watermark.getD 0))).map (stableId h "edge")).reverse := by
  unfold snapshot shownKeys
  dsimp only
  rw [visit_visible]
  simp only [aggregate_activity, List.append_nil]

end

theorem aggregate_key {f : Floats} {m : StreamingConceptMap} {now : Int} {key : List String}
    (hk : key ∈ (aggregate f m now).keys) :
    ∃ c ∈ m.contributions.values, c.active = true ∧ key = m.edgeKey c := by
  obtain ⟨r, hr⟩ := Dict.mem_keys.mp hk
  rw [aggregate_get?] at hr
  split at hr
  · cases hr
  · rename_i hne
    obtain ⟨c, hc⟩ := List.exists_mem_of_ne_nil _ hne
    obtain ⟨hactive, hkey⟩ := List.mem_filter.mp hc
    obtain ⟨hvalue, hactive⟩ := List.mem_filter.mp hactive
    exact ⟨c, hvalue, hactive, (of_decide_eq_true hkey).symm⟩

theorem mem_shownKeys {h : Host} {f : Floats} {m : StreamingConceptMap} {v : Visibility}
    {now : Int} {key : List String} :
    key ∈ shownKeys h f m v now ↔ threshold h v key ≤ activityAt f now (backing m key) := by
  unfold shownKeys
  rw [List.mem_filter, List.mem_insertionSort, decide_eq_true_eq]
  refine and_iff_right_of_imp fun hle => ?_
  -- an edge with nothing behind it has activity zero, below both thresholds
  have hne : backing m key ≠ [] := by
    intro hnil
    rw [hnil, activityAt_nil] at hle
    exact absurd hle (not_le.mpr (threshold_pos h v key))
  exact Dict.mem_keys.mpr ⟨_, by rw [aggregate_get?, if_neg hne]⟩

/-- An edge is in the snapshot when the activity behind it reaches its threshold. -/
theorem mem_snapshot (h : Host) (f : Floats) (m : StreamingConceptMap) (v : Visibility)
    (now : Option Int) (key : List String) :
    key ∈ (snapshot h f m v now).1.edges.map SnapshotEdge.key ↔
      threshold h v key ≤ activityAt f (now.getD (m.watermark.getD 0)) (backing m key) := by
  have hkey : ∀ k ∈ shownKeys h f m v (now.getD (m.watermark.getD 0)), ∀ record,
      (snapshotEdge h f k record).key = k := by
    intro k hk record
    obtain ⟨c, -, -, rfl⟩ := aggregate_key ((List.mem_insertionSort _).mp (List.mem_filter.mp hk).1)
    rfl
  rw [← mem_shownKeys, snapshot_edges, List.map_map, List.mem_map]
  constructor
  · rintro ⟨k, hk, rfl⟩
    rw [Function.comp_apply, hkey k hk]
    exact hk
  · intro hk
    exact ⟨key, hk, hkey key hk _⟩

/-- The hysteresis of the object itself: an edge it has shown needs only `theta_off` to be
shown in its next snapshot. -/
theorem snapshot_held (h : Host) (f : Floats) {m m' : StreamingConceptMap} {v : Visibility}
    {now now' : Option Int} {key : List String}
    (hshown : key ∈ (snapshot h f m v now).1.edges.map SnapshotEdge.key)
    (hle : THETA_OFF ≤ activityAt f (now'.getD (m'.watermark.getD 0)) (backing m' key)) :
    key ∈ (snapshot h f m' (snapshot h f m v now).2 now').1.edges.map SnapshotEdge.key := by
  have hvisible : stableId h "edge" key ∈ (snapshot h f m v now).2.visible := by
    rw [snapshot_visible, List.mem_reverse]
    rw [mem_snapshot, ← mem_shownKeys] at hshown
    exact List.mem_map_of_mem hshown
  rw [mem_snapshot, threshold, if_pos hvisible]
  exact hle

end LearningOrbit.Projection
