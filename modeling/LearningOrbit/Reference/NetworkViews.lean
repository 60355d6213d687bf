import Mathlib.Algebra.Order.Field.Basic
import LearningOrbit.Totals
import LearningOrbit.Reference.InteractionNetwork

/-!
# TRACE: the views of the network and their metrics

`snapshot` decays the active contributions to one instant, splits an uptake of an agent among
the learners the agent drew on, adds up the rows of an edge, and takes its metrics from the
edges, the rows and the active turns. Weights are exact; the rounding to twelve digits is left
out.
-/

namespace LearningOrbit.Reference

open LearningOrbit (Host Dict)

inductive View
  | observed | humanOnly | lineageAdjusted
  deriving DecidableEq

/-- `math.pow(2.0, -age / half_life)` on each layer: any factor between 0 and 1. -/
structure Decay where
  factor : Layer → Int → ℚ
  bounded : ∀ layer age, 0 ≤ age → 0 ≤ factor layer age ∧ factor layer age ≤ 1

/-- A row of `_virtual_rows`. -/
structure NetworkRow where
  sourceId : String
  targetId : String
  layer : Layer
  polarity : Polarity
  weight : ℚ
  eventId : String
  objectId : String
  contributionId : String
  deriving DecidableEq

/-- A `lineage_self_loop` audit record. -/
structure LineageAudit where
  eventId : String
  contributionId : String
  sourceId : String
  targetId : String
  layer : Layer
  deriving DecidableEq

def NetworkContribution.weight (decay : Decay) (now : Int) (c : NetworkContribution) : ℚ :=
  c.magnitude * c.confidence * decay.factor c.layer (max 0 (now - c.eventTime))

def NetworkContribution.row (decay : Decay) (now : Int) (c : NetworkContribution) : NetworkRow where
  sourceId := c.sourceId
  targetId := c.targetId
  layer := c.layer
  polarity := c.polarity
  weight := c.weight decay now
  eventId := c.eventId
  objectId := c.objectId
  contributionId := c.contributionId

/-- `human_sources`: the last human source of each actor. -/
def NetworkContribution.humanSources (c : NetworkContribution) : Dict String SourceRef :=
  (c.provenance.filter (·.actorKind = .human)).foldl (fun d s => d.set s.actorId s) .empty

/-- The human sources in the order of their actors. -/
def NetworkContribution.lineage (c : NetworkContribution) : List (String × SourceRef) :=
  c.humanSources.entries.insertionSort fun a b => a.1 ≤ b.1

/-- The share of one human source. -/
def NetworkContribution.sourceRow (decay : Decay) (now : Int) (c : NetworkContribution)
    (source : String × SourceRef) : NetworkRow :=
  { c.row decay now with
    sourceId := source.1
    weight := c.weight decay now * source.2.confidence / c.humanSources.size }

def NetworkContribution.lineageAudit (c : NetworkContribution) (source : String × SourceRef) :
    LineageAudit :=
  ⟨c.eventId, c.contributionId, source.1, c.targetId, c.layer⟩

/-- Append what is not there yet. -/
def appendNew {α : Type} [DecidableEq α] (l : List α) (a : α) : List α :=
  if a ∈ l then l else l ++ [a]

namespace StreamingInteractionNetwork

def isAgent (n : StreamingInteractionNetwork) (actorId : String) : Bool :=
  n.actorKinds.get? actorId = some .agent

/-- `adjusts_lineage`. -/
def adjustsLineage (n : StreamingInteractionNetwork) (view : View) (c : NetworkContribution) : Bool :=
  view = .lineageAdjusted && c.layer = .uptake && n.isAgent c.sourceId && c.humanSources.size ≠ 0

/-- What one active contribution puts into a view. -/
def rowsOf (n : StreamingInteractionNetwork) (decay : Decay) (now : Int) (view : View)
    (c : NetworkContribution) : List NetworkRow × List LineageAudit :=
  if view = .humanOnly && (n.isAgent c.sourceId || n.isAgent c.targetId) then ([], [])
  else if n.adjustsLineage view c then
    ((c.lineage.filter fun s => s.1 ≠ c.targetId).map (c.sourceRow decay now),
      (c.lineage.filter fun s => s.1 = c.targetId).map c.lineageAudit)
  else ([c.row decay now], [])

def activeContributions (n : StreamingInteractionNetwork) : List NetworkContribution :=
  n.contributions.values.filter (·.active)

/-- `_virtual_rows`. -/
def virtualRows (n : StreamingInteractionNetwork) (decay : Decay) (now : Int) (view : View) :
    List NetworkRow × List LineageAudit :=
  (n.activeContributions.flatMap fun c => (n.rowsOf decay now view c).1,
    (n.activeContributions.flatMap fun c => (n.rowsOf decay now view c).2).foldl appendNew [])

end StreamingInteractionNetwork

/-! ## Edges -/

structure PolarityChannels where
  positive : ℚ
  challenge : ℚ
  uncertain : ℚ
  deriving DecidableEq

def PolarityChannels.zero : PolarityChannels := ⟨0, 0, 0⟩

def PolarityChannels.count (c : PolarityChannels) (weight : ℚ) : Polarity → PolarityChannels
  | .positive => { c with positive := c.positive + weight }
  | .challenge => { c with challenge := c.challenge + weight }
  | .uncertain => { c with uncertain := c.uncertain + weight }

def PolarityChannels.sum (c : PolarityChannels) : ℚ := c.positive + c.challenge + c.uncertain

/-- What `_aggregate_rows` records of one edge. -/
structure EdgeRecord where
  channels : PolarityChannels
  evidence : List String

def EdgeRecord.empty : EdgeRecord := ⟨.zero, []⟩

def EdgeRecord.note (record : EdgeRecord) (row : NetworkRow) : EdgeRecord :=
  ⟨record.channels.count row.weight row.polarity, record.evidence ++ [row.objectId]⟩

abbrev EdgeKey := String × String × Layer

def NetworkRow.key (row : NetworkRow) : EdgeKey := (row.sourceId, row.targetId, row.layer)

/-- The order of the tuples. -/
def edgeKeyLe (a b : EdgeKey) : Prop :=
  a.1 < b.1 ∨ a.1 = b.1 ∧ (a.2.1 < b.2.1 ∨ a.2.1 = b.2.1 ∧ a.2.2.str ≤ b.2.2.str)

instance : DecidableRel edgeKeyLe := fun _ _ =>
  inferInstanceAs (Decidable (_ ∨ _ ∧ (_ ∨ _ ∧ _)))

structure NetworkEdge where
  edgeId : String
  sourceId : String
  targetId : String
  layer : Layer
  channels : PolarityChannels
  weight : ℚ
  evidenceIds : List String
  deriving DecidableEq

def networkEdge (h : Host) (entry : EdgeKey × EdgeRecord) : NetworkEdge where
  edgeId := stableId h "sna-edge" [entry.1.1, entry.1.2.1, entry.1.2.2.str]
  sourceId := entry.1.1
  targetId := entry.1.2.1
  layer := entry.1.2.2
  channels := entry.2.channels
  weight := entry.2.channels.sum
  evidenceIds := Text.sortedSet entry.2.evidence

def groupRows (rows : List NetworkRow) : Dict EdgeKey EdgeRecord :=
  rows.foldl (fun grouped row => grouped.modify row.key .empty (·.note row)) .empty

/-- `_aggregate_rows`. -/
def aggregateRows (h : Host) (rows : List NetworkRow) : List NetworkEdge :=
  ((groupRows rows).entries.insertionSort fun a b => edgeKeyLe a.1 b.1).map (networkEdge h)

/-! ## Metrics -/

/-- Weights added up under a key. -/
def strengths {κ : Type} [DecidableEq κ] (key : NetworkEdge → κ) (edges : List NetworkEdge) :
    Dict κ ℚ :=
  edges.foldl (fun d edge => d.modify (key edge) 0 (· + edge.weight)) .empty

def pairWeights (edges : List NetworkEdge) : Dict (String × String) ℚ :=
  strengths (fun edge => (edge.sourceId, edge.targetId))
    (edges.filter fun edge => edge.targetId ≠ "ROOM" && edge.sourceId ≠ edge.targetId)

def reciprocity (pairs : Dict (String × String) ℚ) : ℚ :=
  let denominator := pairs.values.sum
  let reciprocal := (pairs.entries.map fun (pair, weight) =>
    min weight ((pairs.get? (pair.2, pair.1)).getD 0)).sum
  if denominator = 0 then 0 else reciprocal / denominator

structure NetworkMetrics where
  weightedInStrength : List (String × ℚ)
  weightedOutStrength : List (String × ℚ)
  participationBalance : ℚ
  weightedReciprocity : ℚ
  agentShare : ℚ
  humanOnlyShare : ℚ
  semanticCoverage : ℚ

/-- `Counter(item.actor_id for item in turns)`. -/
def turnCounts (turns : List ChatEvent) : Dict String Nat :=
  turns.foldl (fun d turn => d.modify turn.actorId 0 (· + 1)) .empty

/-- A part of the turns, if there are any. -/
def turnShare (part total : Nat) : ℚ := if total = 0 then 0 else part / total

/-- The events with a row on another layer than communication. -/
def semanticEvents (rows : List NetworkRow) : List String :=
  ((rows.filter (·.layer ≠ .communication)).map (·.eventId)).dedup

def sortedStrengths (d : Dict String ℚ) : List (String × ℚ) :=
  d.entries.insertionSort fun a b => a.1 ≤ b.1

namespace StreamingInteractionNetwork

/-- `_active_turns`. -/
def activeTurns (n : StreamingInteractionNetwork) (view : View) : List ChatEvent :=
  let turns := (n.eventLedger.values.flatten.filter (·.active)).map (·.event)
  if view = .humanOnly then turns.filter (·.actorKind = .human) else turns

/-- The turns of the actors of a kind. -/
def kindTurns (n : StreamingInteractionNetwork) (counts : Dict String Nat) (kind : ActorKind) : Nat :=
  ((counts.entries.filter fun (actorId, _) => n.actorKinds.get? actorId = some kind).map
    (·.2)).sum

/-- `_metrics`; `evenness` is the entropy of the counts over the logarithm of their number. -/
def metrics (n : StreamingInteractionNetwork) (evenness : List Nat → ℚ) (edges : List NetworkEdge)
    (rows : List NetworkRow) (view : View) : NetworkMetrics :=
  let turns := n.activeTurns view
  let counts := turnCounts turns
  let totalTurns := counts.values.sum
  let covered := (semanticEvents rows).filter fun id => id ∈ turns.map (·.eventId)
  { weightedInStrength := sortedStrengths (strengths (·.targetId) edges)
    weightedOutStrength := sortedStrengths (strengths (·.sourceId) edges)
    participationBalance := if counts.size ≤ 1 then 1 else evenness counts.values
    weightedReciprocity := reciprocity (pairWeights edges)
    agentShare := turnShare (n.kindTurns counts .agent) totalTurns
    humanOnlyShare := turnShare (n.kindTurns counts .human) totalTurns
    semanticCoverage := turnShare covered.length totalTurns }

/-- What `snapshot` returns of a view. -/
structure SnaSnapshot where
  generatedAt : Int
  view : View
  edges : List NetworkEdge
  metrics : NetworkMetrics
  watermark : Option Int
  requiresReplay : List String
  audit : List SelfLoopAudit
  lineageAudit : List LineageAudit

/-- `snapshot`, its nodes left out. -/
def snapshot (h : Host) (n : StreamingInteractionNetwork) (decay : Decay)
    (evenness : List Nat → ℚ) (now : Option Int) (view : View) : SnaSnapshot :=
  let time := now.getD (n.watermark.getD 0)
  let rows := n.virtualRows decay time view
  let edges := aggregateRows h rows.1
  { generatedAt := time
    view
    edges
    metrics := n.metrics evenness edges rows.1 view
    watermark := n.watermark
    requiresReplay := n.requiresReplay
    audit := n.audit
    lineageAudit := rows.2 }

end StreamingInteractionNetwork

/-! ## The adapter -/

/-- A value of the metrics dictionary. -/
inductive Metric
  | number (value : ℚ)
  | strengths (values : List (String × ℚ))
  deriving DecidableEq

/-- The metrics of `to_dict`. -/
def NetworkMetrics.toDict (m : NetworkMetrics) : Dict String Metric :=
  ((((((Dict.empty.set "weightedInStrength" (.strengths m.weightedInStrength)).set
    "weightedOutStrength" (.strengths m.weightedOutStrength)).set
    "participationBalance" (.number m.participationBalance)).set
    "weightedReciprocity" (.number m.weightedReciprocity)).set
    "agentShare" (.number m.agentShare)).set
    "humanOnlyShare" (.number m.humanOnlyShare)).set
    "semanticCoverage" (.number m.semanticCoverage)

/-- `bounded` of the adapter: the first of the names that is there. -/
def boundedMetric (raw : Dict String Metric) (names : List String) : Except String ℚ :=
  match (names.find? raw.contains).bind raw.get? with
  | some (.number value) =>
    if 0 ≤ value ∧ value ≤ 1 then .ok value else .error "INVALID_TRACE_METRICS"
  | _ => .error "INVALID_TRACE_METRICS"

structure AdapterMetrics where
  participationBalance : ℚ
  reciprocity : ℚ
  agentShare : ℚ
  semanticCoverage : ℚ
  deriving DecidableEq

/-- `_metrics` of `trace_adapter`. -/
def adapterMetrics (raw : Dict String Metric) : Except String AdapterMetrics := do
  let reciprocity ← boundedMetric raw ["weightedReciprocity", "reciprocity"]
  if raw.contains "weightedReciprocity" && raw.contains "reciprocity" then
    let other ← boundedMetric raw ["reciprocity"]
    if reciprocity ≠ other then throw "INVALID_TRACE_METRICS"
  let participationBalance ← boundedMetric raw ["participationBalance"]
  let agentShare ← boundedMetric raw ["agentShare"]
  let semanticCoverage ← boundedMetric raw ["semanticCoverage"]
  return { participationBalance, reciprocity, agentShare, semanticCoverage }

end LearningOrbit.Reference
