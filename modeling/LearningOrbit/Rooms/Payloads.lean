import LearningOrbit.Rooms.Ledger

/-!
# The payloads of the core events

The catalog of `core-room-event-payloads`. A member in `date-time` format is
written as its instant. The optional members of a message of an agent are left
out: only students and teachers write here.
-/

namespace LearningOrbit.Rooms

inductive Payload
  | opened (startsAt closesAt : Int)
  | paused (pausedAt : Int)
  | resumed (resumedAt : Int)
  | closed (closedAt : Int)
  | message (messageId text : String) (replyTo : Option String) (mentions mediaIds : List String)
  | retracted (messageId : String)
  deriving DecidableEq

/-- `payload->>'messageId'`. -/
def Payload.messageId? : Payload → Option String
  | .message messageId .. | .retracted messageId => some messageId
  | _ => none

/-- `payload.replyTo`. -/
def Payload.replyTo? : Payload → Option String
  | .message _ _ replyTo .. => replyTo
  | _ => none

/-- `payload.closesAt`. -/
def Payload.closesAt? : Payload → Option Int
  | .opened _ closesAt => some closesAt
  | _ => none

/-- An array of at most `max` different UUIDs. -/
def uuidSet (max : Nat) (ids : List String) : Bool :=
  ids.length ≤ max && decide ids.Nodup && ids.all uuidFormat

def validMessage : Payload → Bool
  | .message messageId text replyTo mentions mediaIds =>
    uuidFormat messageId && text.length ≤ 4000 && replyTo.all uuidFormat && uuidSet 5 mentions
      && uuidSet 4 mediaIds
  | _ => false

/-- `createCoreEventPayloadRegistry`. -/
def corePayloads : EventPayloadRegistry Payload where
  validators
    | "room.opened" => some fun
      | .opened startsAt closesAt => dateTime startsAt && dateTime closesAt
      | _ => false
    | "room.paused" => some fun
      | .paused pausedAt => dateTime pausedAt
      | _ => false
    | "room.resumed" => some fun
      | .resumed resumedAt => dateTime resumedAt
      | _ => false
    | "room.closed" => some fun
      | .closed closedAt => dateTime closedAt
      | _ => false
    | "message.added" | "message.revised" => some validMessage
    | "message.retracted" => some fun
      | .retracted messageId => uuidFormat messageId
      | _ => false
    | _ => none

end LearningOrbit.Rooms
