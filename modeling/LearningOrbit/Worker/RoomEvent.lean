import LearningOrbit.Dict
import LearningOrbit.Reference.Events

/-!
# Room events as the worker reads them

The canonical envelope with its message payload, and the deterministic text
artifacts derived from it. A timestamp is the instant it parses to, or `none`.
-/

namespace LearningOrbit.Worker

open LearningOrbit (Host Dict)
open LearningOrbit.Reference

inductive EventType
  | messageAdded | messageRevised | messageRetracted | messageDeleted
  | other (name : String)
  deriving DecidableEq, Repr

def EventType.str : EventType → String
  | .messageAdded => "message.added"
  | .messageRevised => "message.revised"
  | .messageRetracted => "message.retracted"
  | .messageDeleted => "message.deleted"
  | .other name => name

/-- The types that carry message semantics; everything else is a semantic no-op. -/
def EventType.semantic : EventType → Bool
  | .other _ => false
  | _ => true

structure Payload where
  messageId : Option String
  text : String
  replyTo : Option String
  mentions : List String
  mediaIds : List String
  deriving DecidableEq, Repr

structure RoomEvent where
  eventId : String
  roomId : String
  roomSeq : Nat
  type : EventType
  operation : Operation
  actorId : String
  actorKind : ActorKind
  actorRole : Option ActorRole
  revision : Nat
  eventTime : Option Int
  ingestTime : Option Int
  correlationId : String
  payload : Payload
  deriving DecidableEq, Repr

def EventType.operation? : EventType → Option Operation
  | .messageAdded => some .add
  | .messageRevised => some .revise
  | .messageRetracted => some .retract
  | .messageDeleted => some .delete
  | .other _ => none

/-- What the envelope and payload schemas promise of a stored event: its counters are
positive and its identifiers are UUIDs, hence nonempty. -/
structure RoomEvent.WellFormed (event : RoomEvent) : Prop where
  eventId : event.eventId ≠ ""
  roomId : event.roomId ≠ ""
  actorId : event.actorId ≠ ""
  roomSeq : 1 ≤ event.roomSeq
  revision : 1 ≤ event.revision
  mentions : "" ∉ event.payload.mentions

/-- What the server's writers promise beyond the schemas: a message event names its message,
and its operation is the one of its type. -/
structure RoomEvent.Canonical (event : RoomEvent) : Prop extends event.WellFormed where
  message : event.type.semantic = true → ∃ id, event.payload.messageId = some id ∧ id ≠ ""
  operation : ∀ op, event.type.operation? = some op → event.operation = op

/-! ## Derived text -/

inductive Derivation
  | direct | asr | ocr | imageDescription | humanCorrection
  deriving DecidableEq, Repr

inductive SourceModality
  | text | audio | image
  deriving DecidableEq, Repr

structure DerivedTextArtifact where
  artifactId : String
  lineageId : String
  roomId : String
  eventId : String
  roomSeq : Nat
  sourceMediaId : Option String
  sourceModality : SourceModality
  derivation : Derivation
  text : String
  normalizedTextSha256 : String
  sourceConfidenceRaw : ℚ
  provider : String
  modelVersion : String
  supersedesArtifactId : Option String
  active : Bool
  deriving DecidableEq

def artifactNamespace : String := "2af27c6d-61c8-4a40-997d-80c7d696f871"

def lineageNamespace : String := "b72003a9-c4aa-5d22-91df-9a4bb77d61ac"

/-- `payload.get("messageId", event.get("eventId", ""))`. -/
def RoomEvent.messageId (event : RoomEvent) : String :=
  event.payload.messageId.getD event.eventId

def directLineageId (h : Host) (messageId : String) : String :=
  h.uuid5 lineageNamespace (messageId ++ ":direct")

def deriveDirectText (h : Host) (event : RoomEvent) : Except String DerivedTextArtifact :=
  let text := Text.strip (h.nfc event.payload.text)
  if text = "" then .error "direct text requires learner-authored text"
  else if event.actorKind ≠ .human ∨
      event.actorRole ∉ [some .student, some .learner, none] then
    .error "direct text requires learner-authored text"
  else
    let digest := h.sha256Hex text
    .ok
      { artifactId := h.uuid5 artifactNamespace
          (event.eventId ++ ":direct:direct-text-v1:" ++ digest)
        lineageId := directLineageId h event.messageId
        roomId := event.roomId
        eventId := event.eventId
        roomSeq := event.roomSeq
        sourceMediaId := none
        sourceModality := .text
        derivation := .direct
        text
        normalizedTextSha256 := digest
        sourceConfidenceRaw := 1
        provider := "learner-authored"
        modelVersion := "direct-text-v1"
        supersedesArtifactId := none
        active := true }

def maybeDeriveDirectText (h : Host) (event : RoomEvent) :
    Except String (Option DerivedTextArtifact) :=
  if (event.type ≠ .messageAdded ∧ event.type ≠ .messageRevised) ∨ event.actorKind ≠ .human ∨
      Text.strip event.payload.text = "" then .ok none
  else (deriveDirectText h event).map some

structure Offset where
  eventId : String
  start : Nat
  stop : Nat
  modality : SourceModality
  deriving DecidableEq

structure Composite where
  text : String
  modality : Modality
  sourceConfidence : ℚ
  offsets : List Offset
  deriving DecidableEq

/-- One item of a composite: its text, source event and modality. -/
structure CompositeItem where
  text : String
  eventId : String
  modality : SourceModality
  deriving DecidableEq

def offsetsFrom (cursor : Nat) : List CompositeItem → List Offset
  | [] => []
  | item :: rest =>
    ⟨item.eventId, cursor, cursor + item.text.length, item.modality⟩ ::
      offsetsFrom (cursor + item.text.length + 1) rest

/-- The confidence one item contributes: an artifact filed under its event id, else one. -/
def itemConfidence (active : Dict String DerivedTextArtifact) (item : CompositeItem) : ℚ :=
  match active.get? item.eventId with
  | some artifact => artifact.sourceConfidenceRaw
  | none => 1

def compositeOf (active : Dict String DerivedTextArtifact) (items : List CompositeItem) :
    Option Composite :=
  if items = [] then none
  else some
    { text := Text.join "\n" (items.map (·.text))
      modality :=
        if items.map (·.modality) = [.text] then .text
        else if items.any (·.modality = .audio) then .audioAsr else .imageOcr
      sourceConfidence := (items.map (itemConfidence active)).foldl min 1
      offsets := offsetsFrom 0 items }

/-- One semantic text view of an event, preserving source offsets for evidence. -/
def buildCompositeArtifact (h : Host) (event : RoomEvent)
    (active : Dict String DerivedTextArtifact) : Except String (Option Composite) := do
  let direct ← maybeDeriveDirectText h event
  let own := direct.toList.map fun d => CompositeItem.mk d.text d.eventId .text
  let media := event.payload.mediaIds.filterMap fun mediaId =>
    (active.get? mediaId).bind fun artifact =>
      if artifact.active then some ⟨artifact.text, artifact.eventId, artifact.sourceModality⟩
      else none
  return compositeOf active (own ++ media)

end LearningOrbit.Worker
