import Mathlib.Data.Rat.Defs
import Mathlib.Algebra.Order.Ring.Rat
import LearningOrbit.Text

/-!
# The values of the reference algorithms

`ChatEvent` is what both reducers consume; its structure carries what
`__post_init__` checks. Instants are microseconds and confidences are rationals.
-/

namespace LearningOrbit.Reference

open LearningOrbit (Host)

inductive Operation
  | add | revise | retract | delete
  deriving DecidableEq, Repr

def Operation.str : Operation → String
  | .add => "add"
  | .revise => "revise"
  | .retract => "retract"
  | .delete => "delete"

inductive ActorKind
  | human | agent | system
  deriving DecidableEq, Repr

inductive ActorRole
  | teacher | student | learner | summary | socraticFacilitator | roomClock | systemWorker
  deriving DecidableEq, Repr

inductive Modality
  | text | audioAsr | imageOcr
  deriving DecidableEq, Repr

inductive Stance
  | support | oppose | uncertain | question
  deriving DecidableEq, Repr

inductive Layer
  | communication | uptake | stance | coordination | facilitation
  deriving DecidableEq, Repr

def Layer.str : Layer → String
  | .communication => "communication"
  | .uptake => "uptake"
  | .stance => "stance"
  | .coordination => "coordination"
  | .facilitation => "facilitation"

inductive Polarity
  | positive | challenge | uncertain
  deriving DecidableEq, Repr

def Polarity.str : Polarity → String
  | .positive => "positive"
  | .challenge => "challenge"
  | .uncertain => "uncertain"

/-- The arguments of the `ChatEvent` constructor, before its checks. -/
structure ChatEventFields where
  eventId : String
  sessionId : String
  eventTime : Int
  ingestTime : Int
  actorId : String
  actorKind : ActorKind
  modality : Modality
  text : String
  sourceConfidence : ℚ
  revision : Nat
  operation : Operation
  replyTo : Option String
  mentions : List String
  supersedes : Option String
  retracts : Option String
  agentRole : Option ActorRole
  deriving DecidableEq

/-- One immutable chat-ledger operation. -/
structure ChatEvent extends ChatEventFields where
  speaker : actorKind ≠ .system
  required : eventId ≠ "" ∧ sessionId ≠ "" ∧ actorId ≠ ""
  probability : 0 ≤ sourceConfidence ∧ sourceConfidence ≤ 1
  revision_pos : 1 ≤ revision
  deriving DecidableEq

def ChatEvent.create (f : ChatEventFields) : Except String ChatEvent :=
  if hk : f.actorKind = .system then .error "actor_kind must be one of: agent, human"
  else if hr : f.eventId ≠ "" ∧ f.sessionId ≠ "" ∧ f.actorId ≠ "" then
    if hp : 0 ≤ f.sourceConfidence ∧ f.sourceConfidence ≤ 1 then
      if hv : 1 ≤ f.revision then .ok ⟨f, hk, hr, hp, hv⟩
      else .error "revision must be positive"
    else .error "source_confidence must be in [0, 1]"
  else .error "event_id, session_id, and actor_id are required"

theorem ChatEvent.create_ok {f : ChatEventFields} {c : ChatEvent} (h : ChatEvent.create f = .ok c) :
    c.toChatEventFields = f := by
  unfold ChatEvent.create at h
  split at h
  · cases h
  · split at h
    · split at h
      · split at h
        · cases h; rfl
        · cases h
      · cases h
    · cases h

/-- `event.retracts or event.supersedes or event.event_id`. -/
def ChatEvent.target (event : ChatEvent) : String :=
  match event.retracts.filter (· ≠ ""), event.supersedes.filter (· ≠ "") with
  | some t, _ => t
  | none, some t => t
  | none, none => event.eventId

/-- The identity a reducer remembers: `(event_id, revision, operation)`. -/
def ChatEvent.key (event : ChatEvent) : String × Nat × Operation :=
  (event.eventId, event.revision, event.operation)

instance lawfulKey : LawfulBEq (String × Nat × Operation) := inferInstance

structure EvidenceRef where
  evidenceId : String
  eventId : String
  text : String
  start : Option Nat
  stop : Option Nat
  extractor : String
  sourceConfidence : ℚ
  deriving DecidableEq

/-- A source-linked proposition candidate. -/
structure CandidateProposition where
  head : String
  linkPhrase : String
  tail : String
  relationFamily : String
  stance : Stance
  confidence : ℚ
  evidence : List EvidenceRef
  inferred : Bool
  deriving DecidableEq

def requireNonemptyString (name value : String) : Except String Unit :=
  if value = "" then .error (name ++ " must not be empty") else .ok ()

def requireProbability (name : String) (value : ℚ) : Except String Unit :=
  if 0 ≤ value ∧ value ≤ 1 then .ok () else .error (name ++ " must be finite and in [0, 1]")

def requireNonnegativeNumber (name : String) (value : ℚ) : Except String Unit :=
  if 0 ≤ value then .ok () else .error (name ++ " must be finite and non-negative")

def validateEvidenceRef (item : EvidenceRef) : Except String Unit := do
  requireNonemptyString "EvidenceRef.evidence_id" item.evidenceId
  requireNonemptyString "EvidenceRef.event_id" item.eventId

def validateCandidateProposition (item : CandidateProposition) :
    Except String (List EvidenceRef) := do
  requireProbability "CandidateProposition.confidence" item.confidence
  item.evidence.forM validateEvidenceRef
  return item.evidence

structure SourceRef where
  sourceId : String
  eventId : String
  actorId : String
  actorKind : ActorKind
  confidence : ℚ
  deriving DecidableEq

/-- Typed directed interaction evidence before time decay. -/
structure EdgeEvidence where
  sourceId : String
  targetId : String
  layer : Layer
  polarity : Polarity
  magnitude : ℚ
  confidence : ℚ
  basis : String
  objectId : String
  provenance : List SourceRef
  deriving DecidableEq

def validateSourceRef (item : SourceRef) : Except String Unit := do
  requireNonemptyString "SourceRef.source_id" item.sourceId
  requireNonemptyString "SourceRef.event_id" item.eventId
  requireNonemptyString "SourceRef.actor_id" item.actorId
  if item.actorKind = .system then throw "actor_kind must be one of: agent, human"
  requireProbability "SourceRef.confidence" item.confidence

def validateEdgeEvidence (item : EdgeEvidence) : Except String Unit := do
  requireNonemptyString "EdgeEvidence.source_id" item.sourceId
  requireNonemptyString "EdgeEvidence.target_id" item.targetId
  requireNonemptyString "EdgeEvidence.object_id" item.objectId
  requireNonemptyString "EdgeEvidence.basis" item.basis
  requireNonnegativeNumber "EdgeEvidence.magnitude" item.magnitude
  requireProbability "EdgeEvidence.confidence" item.confidence
  item.provenance.forM validateSourceRef

/-- The constructor with its `__post_init__` check. -/
def EdgeEvidence.create (item : EdgeEvidence) : Except String EdgeEvidence := do
  validateEdgeEvidence item
  return item

/-- `_stable_id`: a tag and sixteen hexadecimal digits of the joined parts. -/
def stableId (h : Host) (tag : String) (parts : List String) : String :=
  tag ++ "-" ++ String.ofList ((h.sha256Hex (Text.join "\x1f" parts)).toList.take 16)

/-- Deterministic delta metadata shared by both streaming references. -/
structure MapPatch where
  patchId : String
  eventId : String
  operation : Operation
  addedNodes : List String
  addedEdges : List String
  updatedEdges : List String
  removedEdges : List String
  requiresReplay : Bool
  duplicate : Bool
  accepted : Bool
  reason : String
  deriving DecidableEq

structure EventLedgerEntry where
  event : ChatEvent
  active : Bool
  requiresReplay : Bool
  deriving DecidableEq

/-- The lateness a reducer tolerates; replay lifts it to infinity. -/
inductive Lateness
  | within (micros : Int)
  | inf
  deriving DecidableEq

/-- `event_time < watermark - allowed_lateness`, where no watermark excludes nothing. -/
def tooLate (watermark : Option Int) (allowed : Lateness) (eventTime : Int) : Bool :=
  match watermark, allowed with
  | some w, .within l => eventTime < w - l
  | _, _ => false

/-- The watermark after an accepted event. -/
def raiseWatermark (watermark : Option Int) (eventTime : Int) : Option Int :=
  match watermark with
  | none => some eventTime
  | some w => if w < eventTime then some eventTime else some w

def seconds (n : Int) : Int := n * 1000000

end LearningOrbit.Reference
