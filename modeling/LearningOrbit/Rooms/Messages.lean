import LearningOrbit.Rooms.Lifecycle

/-!
# Messages

`MessageService`: adding, revising and retracting. What the attachments need is
decided outside and may refuse a message.
-/

namespace LearningOrbit.Rooms

/-- `AuthSession`. -/
inductive Principal
  | student (roomId roomMemberId actorId : String)
  | teacher (teacherId actorId : String)
  deriving DecidableEq

def Principal.actorId : Principal → String
  | .student _ _ actorId | .teacher _ actorId => actorId

/-- A member of a command's payload. `malformed` is a value of another type. -/
inductive Field (γ : Type)
  | absent
  | malformed
  | value (v : γ)
  deriving DecidableEq

/-- `RoomCommand` of a message. `clientTime` is the instant of a valid date. -/
structure MessageCommand where
  commandId : String
  roomId : String
  type : String
  clientTime : Option Int
  baseRevision : Option Nat
  messageId : Field String
  text : Field String
  replyTo : Field (Option String)
  mentions : Field (List String)
  mediaIds : Field (List String)

/-- What `AttachmentValidator` does with the media of a message. -/
structure AttachmentValidator where
  assertAttachable : Principal → String → List String → Except String Unit
  bind : String → String → String → List String → Except String Unit

def noAttachments : AttachmentValidator where
  assertAttachable _ _ ids := if ids.isEmpty then .ok () else .error "INVALID_COMMAND"
  bind _ _ _ ids := if ids.isEmpty then .ok () else .error "INVALID_COMMAND"

/-- The white space of `String.prototype.trim`. -/
def trimmed (c : Char) : Bool :=
  let n := c.toNat
  (9 ≤ n && n ≤ 13) || n == 32 || n == 0xa0 || n == 0x1680 || (0x2000 ≤ n && n ≤ 0x200a)
    || n == 0x2028 || n == 0x2029 || n == 0x202f || n == 0x205f || n == 0x3000 || n == 0xfeff

def trim (s : String) : String :=
  String.ofList ((s.toList.dropWhile trimmed).reverse.dropWhile trimmed).reverse

def arrayOfStrings (ids : List String) : Bool := ids.all uuidPattern

def readUuidArray (field : Field (List String)) (max : Nat) : Except String (List String) :=
  match field with
  | .absent => .ok []
  | .malformed => .error "INVALID_COMMAND"
  | .value ids =>
    if arrayOfStrings ids && ids.length ≤ max then .ok ids else .error "INVALID_COMMAND"

def readText : Field String → String
  | .value text => trim text
  | .absent | .malformed => ""

def readMessageId : Field String → String
  | .value messageId => messageId
  | .absent | .malformed => ""

def readReplyTo : Field (Option String) → Except String (Option String)
  | .absent => .ok none
  | .malformed => .error "INVALID_COMMAND"
  | .value replyTo => .ok replyTo

def commandType (command : MessageCommand) (expected : String) : Except String Unit :=
  if command.type ≠ expected || !uuidPattern command.commandId || !uuidPattern command.roomId then
    .error "INVALID_COMMAND"
  else .ok ()

/-- `#authorizeStudent`; `session` says whether the session, when one is given, is the member's
and still good. -/
def authorizeStudent (principal : Principal) (session : Bool) (t : Tx Payload) :
    Except String Unit :=
  match principal with
  | .teacher .. => .error "FORBIDDEN"
  | .student roomId roomMemberId actorId =>
    if roomId ≠ t.room.roomId then .error "FORBIDDEN"
    else if session && t.db.members.any (fun m =>
        m.roomMemberId = column roomMemberId && m.actorId = column actorId) then .ok ()
    else .error "FORBIDDEN"

/-- `#assertTeacherSession`. -/
def assertTeacherSession (principal : Principal) (session : Bool) (t : Tx Payload) :
    Except String Unit :=
  match principal with
  | .student .. => .error "FORBIDDEN"
  | .teacher teacherId actorId =>
    if teacherId ≠ t.room.teacherId || actorId ≠ t.room.teacherId then .error "FORBIDDEN"
    else if !session then .error "FORBIDDEN"
    else .ok ()

def authorize (principal : Principal) (session : Bool) (t : Tx Payload) : Except String Unit :=
  match principal with
  | .student .. => authorizeStudent principal session t
  | .teacher .. => assertTeacherSession principal session t

/-- The events whose payload names the message. -/
def messageEvents (events : List (Envelope Payload)) (messageId : String) :
    List (Envelope Payload) :=
  events.filter fun e => e.payload.messageId? = some messageId

/-- `ORDER BY revision DESC, room_seq DESC`. -/
def laterRevision (a b : Envelope Payload) : Bool :=
  b.revision < a.revision || (a.revision = b.revision && b.roomSeq < a.roomSeq)

def latest : List (Envelope Payload) → Option (Envelope Payload)
  | [] => none
  | a :: rest =>
    match latest rest with
    | none => some a
    | some b => if laterRevision b a then some b else some a

def latestMessage (db : Database Payload) (messageId : String) :
    Except String (Option (Envelope Payload)) :=
  if !uuidPattern messageId then .error "MESSAGE_NOT_FOUND"
  else .ok (latest (messageEvents db.events messageId))

/-- `#retry` after `findByCausation`. -/
def messageRetry (t : Tx Payload) (commandId expectedType actorId : String) :
    Except String (Option (Envelope Payload)) := do
  let existing ← findOneByCausation corePayloads t.db commandId
  match existing with
  | none => .ok none
  | some event =>
    if event.type ≠ expectedType || event.actorId ≠ actorId || event.actorKind ≠ .human
        || !(event.actorRole = .student || event.actorRole = .teacher) then
      .error "INVALID_COMMAND"
    else .ok (some event)

/-- `#assertWritable`. -/
def assertWritable (ambient : Ambient) (t : Tx Payload) : Except String Unit := do
  let now ← validNow ambient
  if t.room.status ≠ .open || t.room.closesAt.any (· ≤ now) then .error "ROOM_NOT_OPEN"
  else .ok ()

/-- The message that is answered exists and stands. -/
def assertReply (t : Tx Payload) : Option String → Except String Unit
  | none => .ok ()
  | some replyTo =>
    if !uuidPattern replyTo then .error "INVALID_COMMAND"
    else do
      let target ← latestMessage t.db replyTo
      match target with
      | none => .error "INVALID_COMMAND"
      | some event => if event.operation = .retract then .error "INVALID_COMMAND" else .ok ()

/-- `#assertMentionsAndReply`. -/
def assertMentionsAndReply (t : Tx Payload) (mentions : List String) (replyTo : Option String) :
    Except String Unit :=
  if !arrayOfStrings mentions || 5 < mentions.length then .error "INVALID_COMMAND"
  else if mentions.any fun id =>
      id ∉ t.db.members.map (·.actorId) ++ [t.room.novaActorId] then .error "INVALID_COMMAND"
  else assertReply t replyTo

/-- `ctx.append` of a message; a draft with an invalid date is no draft. -/
def appendMessage (ambient : Ambient) (clientTime : Option Int) (draft : Int → Draft Payload)
    (t : Tx Payload) : Except String (Envelope Payload × Tx Payload) :=
  appendOne corePayloads ambient.now ambient.drawn none (clientTime.map draft) t

def addDraft (actorId commandId correlationId : String) (payload : Payload) (eventTime : Int) :
    Draft Payload where
  type := "message.added"
  actorId
  actorKind := .human
  actorRole := .student
  revision := 1
  operation := .add
  eventTime
  causationId := commandId
  correlationId
  payload

/-- `add`; `messageId` is the value of `randomUUID()`. -/
def add (attachments : AttachmentValidator) (db : Database Payload) (principal : Principal)
    (command : MessageCommand) (session : Bool) (messageId : String) (ambient : Ambient) :
    Except String (Envelope Payload × Database Payload) := do
  commandType command "message.add"
  match principal with
  | .teacher .. => .error "FORBIDDEN"
  | .student roomId _ actorId =>
    if roomId ≠ command.roomId then .error "FORBIDDEN"
    else transact db command.roomId fun t => do
      authorizeStudent principal session t
      let retry ← messageRetry t command.commandId "message.added" actorId
      match retry with
      | some event => return (event, t)
      | none => do
        assertWritable ambient t
        let text := readText command.text
        let mediaIds ← readUuidArray command.mediaIds 4
        let mentions ← readUuidArray command.mentions 5
        if text = "" && mediaIds.isEmpty then .error "INVALID_COMMAND"
        else do
          let replyTo ← readReplyTo command.replyTo
          assertMentionsAndReply t mentions replyTo
          attachments.assertAttachable principal command.roomId mediaIds
          let (event, t) ← appendMessage ambient command.clientTime
            (addDraft actorId command.commandId ambient.correlationId
              (.message messageId text replyTo mentions mediaIds)) t
          attachments.bind command.roomId messageId event.eventId mediaIds
          return (event, t)

def reviseDraft (actorId commandId correlationId : String) (revision : Nat) (payload : Payload)
    (eventTime : Int) : Draft Payload where
  type := "message.revised"
  actorId
  actorKind := .human
  actorRole := .student
  revision
  operation := .revise
  eventTime
  causationId := commandId
  correlationId
  payload

/-- The latest event of a message that stands. -/
def standing (t : Tx Payload) (messageId : String) : Except String (Envelope Payload) := do
  let prior ← latestMessage t.db messageId
  match prior with
  | none => .error "MESSAGE_NOT_FOUND"
  | some prior => if prior.operation = .retract then .error "MESSAGE_NOT_FOUND" else .ok prior

/-- A command names a revision from one on. -/
def readBaseRevision (command : MessageCommand) : Except String Nat :=
  match command.baseRevision with
  | some revision => if 1 ≤ revision then .ok revision else .error "INVALID_COMMAND"
  | none => .error "INVALID_COMMAND"

/-- The media of the revision before, when its payload has them. -/
def priorMediaIds : Payload → List String
  | .message _ _ _ _ mediaIds => if arrayOfStrings mediaIds then mediaIds else []
  | _ => []

def revise (db : Database Payload) (principal : Principal) (command : MessageCommand)
    (session : Bool) (ambient : Ambient) :
    Except String (Envelope Payload × Database Payload) := do
  commandType command "message.revise"
  transact db command.roomId fun t => do
    authorize principal session t
    let retry ← messageRetry t command.commandId "message.revised" principal.actorId
    match retry with
    | some event => return (event, t)
    | none => do
      assertWritable ambient t
      let baseRevision ← readBaseRevision command
      let messageId := readMessageId command.messageId
      let prior ← standing t messageId
      match principal with
      | .teacher .. => .error "FORBIDDEN"
      | .student _ _ actorId =>
        if prior.actorId ≠ actorId then .error "FORBIDDEN"
        else if prior.revision ≠ baseRevision then .error "REVISION_CONFLICT"
        else do
          let text := readText command.text
          let mentions ← readUuidArray command.mentions 5
          if text = "" then .error "INVALID_COMMAND"
          else do
            let replyTo ← readReplyTo command.replyTo
            assertMentionsAndReply t mentions replyTo
            appendMessage ambient command.clientTime
              (reviseDraft actorId command.commandId ambient.correlationId (prior.revision + 1)
                (.message messageId text replyTo mentions (priorMediaIds prior.payload))) t

def retractDraft (principal : Principal) (commandId correlationId : String) (revision : Nat)
    (payload : Payload) (eventTime : Int) : Draft Payload where
  type := "message.retracted"
  actorId := principal.actorId
  actorKind := .human
  actorRole := match principal with
    | .teacher .. => .teacher
    | .student .. => .student
  revision
  operation := .retract
  eventTime
  causationId := commandId
  correlationId
  payload

/-- A student retracts only messages of their own. -/
def mayRetract (principal : Principal) (prior : Envelope Payload) : Bool :=
  match principal with
  | .teacher .. => true
  | .student _ _ actorId => prior.actorId = actorId

def retract (db : Database Payload) (principal : Principal) (command : MessageCommand)
    (session : Bool) (ambient : Ambient) :
    Except String (Envelope Payload × Database Payload) := do
  commandType command "message.retract"
  transact db command.roomId fun t => do
    authorize principal session t
    let retry ← messageRetry t command.commandId "message.retracted" principal.actorId
    match retry with
    | some event => return (event, t)
    | none => do
      assertWritable ambient t
      let baseRevision ← readBaseRevision command
      let messageId := readMessageId command.messageId
      let prior ← standing t messageId
      if !mayRetract principal prior then .error "FORBIDDEN"
      else if prior.revision ≠ baseRevision then .error "REVISION_CONFLICT"
      else
        appendMessage ambient command.clientTime
          (retractDraft principal command.commandId ambient.correlationId (prior.revision + 1)
            (.retracted messageId)) t

end LearningOrbit.Rooms
