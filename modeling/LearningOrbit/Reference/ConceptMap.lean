import LearningOrbit.Dict
import LearningOrbit.Reference.Extractor

/-!
# ECHO: the streaming concept map

`StreamingConceptMap` stores extraction deltas rather than a snapshot. A call
returns the object after the call together with its result, so that what a
raise leaves behind can be stated.
-/

namespace LearningOrbit.Reference

open LearningOrbit (Host Dict)

structure ConceptContribution where
  contributionId : String
  eventId : String
  revision : Nat
  eventTime : Int
  head : String
  predicate : String
  tail : String
  relationFamily : String
  stance : Stance
  quality : ℚ
  evidence : List EvidenceRef
  active : Bool
  deriving DecidableEq

structure ConceptInput where
  event : ChatEvent
  context : List ChatEvent
  deriving DecidableEq

structure StreamingConceptMap where
  allowedLateness : Lateness
  aliases : Dict String String
  history : List ConceptInput
  eventLedger : Dict String (List EventLedgerEntry)
  perEventDeltas : Dict String (List String)
  contributions : Dict String ConceptContribution
  seen : List (String × Nat × Operation)
  retractedEventIds : List String
  requiresReplay : List String
  watermark : Option Int
  deriving DecidableEq

namespace StreamingConceptMap

def init : StreamingConceptMap where
  allowedLateness := .within (seconds 5)
  aliases := .empty
  history := []
  eventLedger := .empty
  perEventDeltas := .empty
  contributions := .empty
  seen := []
  retractedEventIds := []
  requiresReplay := []
  watermark := none

/-- Assign `allowed_lateness`. -/
def withLateness (m : StreamingConceptMap) (allowed : Lateness) : StreamingConceptMap :=
  { m with allowedLateness := allowed }

@[simp] theorem withLateness_withLateness (m : StreamingConceptMap) (a b : Lateness) :
    (m.withLateness a).withLateness b = m.withLateness b := rfl

theorem withLateness_eq {m : StreamingConceptMap} {allowed : Lateness}
    (h : m.allowedLateness = allowed) : m.withLateness allowed = m := by
  cases m
  cases h
  rfl

/-- `_canonical`: follow aliases until a name is unaliased or repeats. -/
def canonicalFrom (aliases : Dict String String) : Nat → List String → String → String
  | 0, _, current => current
  | fuel + 1, seen, current =>
    if current ∈ seen then current
    else match aliases.get? current with
      | some next => canonicalFrom aliases fuel (current :: seen) next
      | none => current

/-- Each round visits a fresh alias, so one round per alias suffices. -/
def canonical (m : StreamingConceptMap) (concept : String) : String :=
  canonicalFrom m.aliases m.aliases.size [] concept

def edgeKey (m : StreamingConceptMap) (c : ConceptContribution) : List String :=
  [m.canonical c.head, c.predicate, m.canonical c.tail, c.relationFamily]

def edgeIdForContribution (h : Host) (m : StreamingConceptMap) (c : ConceptContribution) : String :=
  stableId h "edge" (m.edgeKey c)

/-- `_patch`, given the sets it sorts. -/
def patch (h : Host) (event : ChatEvent) (nodes added updated removed : List String)
    (requiresReplay duplicate accepted : Bool) (reason : String) : MapPatch :=
  let nodeIds := Text.sortedSet nodes
  let added := Text.sortedSet added
  let updated := Text.sortedSet updated
  let removed := Text.sortedSet removed
  { patchId := stableId h "cmp"
      [event.eventId, toString event.revision, event.operation.str, Text.strTuple h nodeIds,
       Text.strTuple h added, Text.strTuple h updated, Text.strTuple h removed,
       Text.strBool requiresReplay, Text.strBool duplicate, Text.strBool accepted, reason]
    eventId := event.eventId
    operation := event.operation
    addedNodes := nodeIds
    addedEdges := added
    updatedEdges := updated
    removedEdges := removed
    requiresReplay, duplicate, accepted, reason }

def commitIdentity (m : StreamingConceptMap) (event : ChatEvent) (context : List ChatEvent)
    (recordHistory : Bool) : StreamingConceptMap :=
  { m with
    seen := m.seen ++ [event.key]
    history := if recordHistory then m.history ++ [⟨event, context⟩] else m.history }

def ledger (m : StreamingConceptMap) (event : ChatEvent) (active requiresReplay : Bool) :
    StreamingConceptMap :=
  { m with eventLedger := m.eventLedger.modify event.eventId [] (· ++ [⟨event, active, requiresReplay⟩]) }

def advance (m : StreamingConceptMap) (eventTime : Int) : StreamingConceptMap :=
  { m with watermark := raiseWatermark m.watermark eventTime }

/-- The state half of `_deactivate`. -/
def deactivate (m : StreamingConceptMap) (target : String) : StreamingConceptMap :=
  { m with
    eventLedger := m.eventLedger.mapValues fun id entries =>
      if id = target then entries.map ({ · with active := false }) else entries
    contributions := m.contributions.mapValues fun _ c =>
      if c.eventId = target then { c with active := false } else c }

/-- The edges `_deactivate` reports. -/
def deactivated (h : Host) (m : StreamingConceptMap) (target : String) : List String :=
  (m.contributions.values.filter fun c => c.eventId = target && c.active).map
    (m.edgeIdForContribution h)

def activeEntries (m : StreamingConceptMap) (id : String) : List EventLedgerEntry :=
  ((m.eventLedger.get? id).getD []).filter (·.active)

/-- The highest revision among the active ledger entries of an event id. -/
def highestActive (m : StreamingConceptMap) (id : String) : Option Nat :=
  ((m.activeEntries id).map (·.event.revision)).max?

/-- One candidate becomes a contribution unless its predicate is blank or it has no evidence. -/
def stage (h : Host) (event : ChatEvent) (index : Nat) (candidate : CandidateProposition) :
    Except String (Option ConceptContribution) := do
  let refs ← validateCandidateProposition candidate
  let predicate := Text.strip candidate.linkPhrase
  if predicate = "" ∨ refs = [] then return none
  return some
    { contributionId := stableId h "cc"
        [event.eventId, toString event.revision, toString index, candidate.head, predicate,
         candidate.tail, Text.strTuple h (refs.map (·.evidenceId))]
      eventId := event.eventId
      revision := event.revision
      eventTime := event.eventTime
      head := Text.strip candidate.head
      predicate
      tail := Text.strip candidate.tail
      relationFamily := candidate.relationFamily
      stance := candidate.stance
      quality := event.sourceConfidence * candidate.confidence
      evidence := refs
      active := true }

def stageAll (h : Host) (event : ChatEvent) (propositions : List CandidateProposition) :
    Except String (List ConceptContribution) := do
  let staged ← propositions.zipIdx.mapM fun (candidate, index) => stage h event index candidate
  return staged.filterMap id

/-- A severely late operation is ledgered but does not touch the evidence graph. -/
def applyLate (m : StreamingConceptMap) (event : ChatEvent) (context : List ChatEvent)
    (recordHistory : Bool) : StreamingConceptMap :=
  let m := (m.commitIdentity event context recordHistory).ledger event false true
  { m with
    requiresReplay :=
      if event.eventId ∈ m.requiresReplay then m.requiresReplay
      else m.requiresReplay ++ [event.eventId] }

def applyRetraction (m : StreamingConceptMap) (event : ChatEvent) (context : List ChatEvent)
    (recordHistory : Bool) : StreamingConceptMap :=
  let m := ((m.commitIdentity event context recordHistory).advance event.eventTime).deactivate
    event.target
  let m := { m with retractedEventIds := event.target :: m.retractedEventIds }
  m.ledger event false false

/-- Commit staged contributions, deactivating the superseded event first. -/
def applyStaged (m : StreamingConceptMap) (event : ChatEvent) (context : List ChatEvent)
    (recordHistory deactivateTarget : Bool) (staged : List ConceptContribution) :
    StreamingConceptMap :=
  let m := (m.commitIdentity event context recordHistory).advance event.eventTime
  let m := if deactivateTarget then m.deactivate event.target else m
  let m : StreamingConceptMap := { m with
    contributions := staged.foldl (fun d c => d.set c.contributionId c) m.contributions
    perEventDeltas := m.perEventDeltas.set (event.eventId ++ ":" ++ toString event.revision)
      ((staged.map (·.contributionId)).insertionSort (· ≤ ·)) }
  m.ledger event true false

/-- The part of `apply` after the lateness and staleness checks. -/
def applyAccepted (h : Host) (extract : PropositionExtractor) (m : StreamingConceptMap)
    (event : ChatEvent) (context : List ChatEvent) (recordHistory deactivateTarget : Bool) :
    StreamingConceptMap × Except String MapPatch :=
  if event.operation = .delete ∨ event.operation = .retract then
    (m.applyRetraction event context recordHistory,
      .ok (patch h event [] [] [] (m.deactivated h event.target) false false true "retracted"))
  else if event.eventId ∈ m.retractedEventIds then
    -- out-of-order delivery: the tombstone keeps the retraction meaningful
    ((((m.commitIdentity event context recordHistory).advance event.eventTime).deactivate
        event.eventId).ledger event false false,
      .ok (patch h event [] [] [] (m.deactivated h event.eventId) false false true
        "retracted_before_arrival"))
  else
    match extract event context >>= stageAll h event with
    | .error e => (m, .error e)
    | .ok staged =>
      let edges := staged.map (m.edgeIdForContribution h)
      let removed := if deactivateTarget then m.deactivated h event.target else []
      (m.applyStaged event context recordHistory deactivateTarget staged,
        .ok (patch h event (staged.flatMap fun c => [c.head, c.tail]) edges
          (if removed = [] then [] else edges) removed false false true "applied"))

/-- Apply one ledger operation. -/
def apply (h : Host) (extract : PropositionExtractor) (m : StreamingConceptMap)
    (event : ChatEvent) (context : List ChatEvent) (recordHistory : Bool) :
    StreamingConceptMap × Except String MapPatch :=
  if event.key ∈ m.seen then
    (m, .ok (patch h event [] [] [] [] false true true "duplicate"))
  else if tooLate m.watermark m.allowedLateness event.eventTime then
    (m.applyLate event context recordHistory,
      .ok (patch h event [] [] [] [] true false false "beyond_allowed_lateness"))
  else if event.operation = .add then
    match m.highestActive event.eventId with
    | some highest =>
      if event.revision ≤ highest then
        ((m.commitIdentity event context recordHistory).advance event.eventTime,
          .ok (patch h event [] [] [] [] false true true "stale_revision"))
      else m.applyAccepted h extract event context recordHistory true
    | none => m.applyAccepted h extract event context recordHistory false
  else m.applyAccepted h extract event context recordHistory true

end StreamingConceptMap

end LearningOrbit.Reference
