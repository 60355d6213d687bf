import LearningOrbit.Raise
import LearningOrbit.Uuid
import LearningOrbit.Projection.EchoMap

/-!
# Review commands

The closed union a teacher's reviews and corrections are sent in, the parser the worker
reads it back with, and the rows of the review ledger.
-/

namespace LearningOrbit.Projection

inductive TargetType
  | derivedText | evidence | projection
  deriving DecidableEq

inductive Decision
  | reviewPass | reviewConcerns | reviewFail | approve | reject | revoke
  deriving DecidableEq

/-- Head, predicate, tail and family: what an edge is identified by. -/
structure Relation where
  head : String
  predicate : String
  tail : String
  relationFamily : String
  deriving DecidableEq

inductive ReviewCommand
  | review (targetType : TargetType) (targetId : String) (decision : Decision)
  | replaceText (targetArtifactId text languageTag : String)
  | replaceEvidenceSpan (targetProjectionEdgeId : String) (target replacement : EvidenceRef)
  | replaceRelation (targetProjectionEdgeId : String) (replacement : Relation)
  | mergeAlias (targetCanonicalNodeId aliasNodeId : String)
  | splitAlias (targetCanonicalNodeId aliasNodeId newCanonicalNodeId newLabel : String)
  | undoMerge (targetCorrectionEventId : String)
  | retract (targetType : TargetType) (targetId : String)
  deriving DecidableEq

/-- `reason` is the `rationale` of a plain review. -/
structure ReviewRequest where
  command : ReviewCommand
  reason : String
  expectedAnalysisEpoch : String
  expectedProjectionVersion : Int
  deriving DecidableEq

/-! ## The parser -/

/-- `_text`; Python counts code points. -/
def textWithin (value : String) (minimum maximum : Nat) : Bool :=
  minimum ≤ value.length && value.length ≤ maximum

def uuidText (value : String) : Bool := (Uuid.canonical value).isSome

/-- `_evidence`. -/
def EvidenceRef.accepted (ref : EvidenceRef) : Bool :=
  uuidText ref.eventId && 0 ≤ ref.start && 1 ≤ ref.stop && ref.start < ref.stop

/-- `_relation`. -/
def Relation.accepted (r : Relation) : Bool :=
  textWithin r.head 1 160 && textWithin r.predicate 1 160 && textWithin r.tail 1 160
    && textWithin r.relationFamily 1 80

def ReviewCommand.accepted : ReviewCommand → Bool
  | .review _ targetId _ => uuidText targetId
  | .replaceText artifact text languageTag =>
    uuidText artifact && textWithin text 1 20000 && textWithin languageTag 2 35
  | .replaceEvidenceSpan edge target replacement =>
    uuidText edge && target.accepted && replacement.accepted
  | .replaceRelation edge replacement => uuidText edge && replacement.accepted
  | .mergeAlias canonical aliasId =>
    textWithin canonical 1 160 && textWithin aliasId 1 160 && canonical ≠ aliasId
  | .splitAlias canonical aliasId newId newLabel =>
    textWithin canonical 1 160 && textWithin aliasId 1 160 && textWithin newId 1 160
      && textWithin newLabel 1 160 && canonical ≠ aliasId && canonical ≠ newId && aliasId ≠ newId
  | .undoMerge target => uuidText target
  | .retract _ targetId => uuidText targetId

def ReviewRequest.accepted (r : ReviewRequest) : Bool :=
  textWithin r.reason 1 2000 && uuidText r.expectedAnalysisEpoch
    && 1 ≤ r.expectedProjectionVersion && r.command.accepted

/-- `Request.from_dict`: a command of the union is returned as it came. -/
def ReviewRequest.fromDict (r : ReviewRequest) : Except String ReviewRequest :=
  if r.accepted then .ok r else .error "INVALID_ANALYTICS_REVIEW_COMMAND"

theorem ReviewRequest.fromDict_ok {r : ReviewRequest} (h : r.accepted) : r.fromDict = .ok r :=
  if_pos h

/-! ## The review ledger -/

/-- A row of `_review_details`. Only a retracted text has a `targetEventId`. -/
structure ReviewDetail where
  reviewEventId : String
  payload : ReviewRequest
  roomSeq : Int
  createdAt : String
  targetEventId : Option String
  deriving DecidableEq

def ReviewDetail.parsed (d : ReviewDetail) : Except String ReviewDetail := do
  let payload ← d.payload.fromDict
  return { d with payload }

theorem ReviewDetail.parsed_ok {d : ReviewDetail} (h : d.payload.accepted) : d.parsed = .ok d := by
  unfold ReviewDetail.parsed
  rw [ReviewRequest.fromDict_ok h]
  rfl

theorem parsed_details {details : List ReviewDetail} (h : ∀ d ∈ details, d.payload.accepted) :
    details.mapM ReviewDetail.parsed = .ok details := by
  have hmap := mapM_eq_ok (f := ReviewDetail.parsed) (g := id)
    fun d hd => ReviewDetail.parsed_ok (h d hd)
  rwa [List.map_id] at hmap

end LearningOrbit.Projection
