import LearningOrbit.Access.Seats

/-!
# Who may act in a room

`authorizeRoomAction` and `RealtimeDeliveryAuthorizer`. Each of their queries is one read of
the tables; between two of them anything may be committed.
-/

namespace LearningOrbit.Access

inductive RoomAction
  | roomRead
  | roomCommand
  | analyticsRead
  | mediaRead
  | mediaWrite
  | agentTrigger
  | exportRequest
  | deletionRequest
  deriving DecidableEq

inductive Role
  | teacher
  | student
  deriving DecidableEq

/-- `ROLE_ACTIONS`. -/
def roleActions : Role → List RoomAction
  | .teacher =>
    [.roomRead, .roomCommand, .analyticsRead, .mediaRead, .exportRequest, .deletionRequest]
  | .student => [.roomRead, .roomCommand, .analyticsRead, .mediaRead, .mediaWrite, .agentTrigger]

/-- `RoomAuthorizationError`. -/
structure Refusal where
  statusCode : Nat
  code : String
  deriving DecidableEq

structure RoomActorGrant where
  roomId : String
  actorId : Id
  role : Role
  action : RoomAction
  deriving DecidableEq

/-- A uuid column equals a parameter of this spelling. -/
def Id.spelled (id : Id) (text : String) : Bool := Uuid.canonical text = some id.text

/-- `EXISTS (SELECT 1 FROM auth_session ...)`. -/
def Database.holds (db : Database) (sessionId : String) (holder : Holder) (now : Int) : Bool :=
  db.sessions.any fun s =>
    s.sessionId.spelled sessionId && s.holder = holder && s.revokedAt.isNone && now < s.expiresAt

/-- `authorizeRoomAction`; `db` is what the query for deletions sees and `db'` what the other
sees. -/
def authorizeRoomAction (db db' : Database) (principal : Option AuthSession)
    (sessionId : Option String) (roomId : String) (action : RoomAction) (now : Int) :
    Except Refusal RoomActorGrant :=
  match principal, sessionId with
  | none, _ => .error ⟨401, "AUTH_REQUIRED"⟩
  | some _, none => .error ⟨401, "AUTH_REQUIRED"⟩
  | some principal, some sessionId =>
    if !Rooms.uuidPattern sessionId then .error ⟨401, "AUTH_REQUIRED"⟩
    else if !Rooms.uuidPattern roomId then .error ⟨404, "ROOM_NOT_FOUND"⟩
    else if db.deletions.any fun d => d.roomId.any (·.spelled roomId) && d.active then
      .error ⟨410, "ROOM_DELETION_IN_PROGRESS"⟩
    else
      match principal with
      | .teacher teacherId =>
        if action ∉ roleActions .teacher then .error ⟨404, "ROOM_NOT_FOUND"⟩
        else if db'.rooms.any fun r =>
            r.roomId.spelled roomId && r.teacherId = teacherId &&
              db'.holds sessionId (.teacher r.teacherId) now then
          .ok ⟨roomId, teacherId, .teacher, action⟩
        else .error ⟨404, "ROOM_NOT_FOUND"⟩
      | .student _ roomMemberId actorId _ _ =>
        if action ∉ roleActions .student then .error ⟨404, "ROOM_NOT_FOUND"⟩
        else
          match db'.members.find? fun m =>
            m.roomId.spelled roomId && m.roomMemberId = roomMemberId && m.actorId = actorId &&
              db'.holds sessionId (.student m.roomMemberId) now with
          | some m => .ok ⟨roomId, m.actorId, .student, action⟩
          | none => .error ⟨404, "ROOM_NOT_FOUND"⟩

/-- `TokenAuthorization`; a refusal names the code the socket is closed with. -/
inductive TokenAuthorization
  | ok (sessionId : Id) (principal : AuthSession) (actorId : Id)
  | refused (closeCode : Nat)
  deriving DecidableEq

/-- A row of the joined query: the session, its seat if it has one, and the room. -/
structure AccessRow where
  session : SessionRow
  member : Option MemberRow
  room : RoomRow

def joinsRoom (s : SessionRow) (member : Option MemberRow) (r : RoomRow) : Bool :=
  member.any (fun m => r.roomId = m.roomId) || s.holder = .teacher r.teacherId

def Database.seat? (db : Database) (s : SessionRow) : Option MemberRow :=
  match s.holder with
  | .teacher _ => none
  | .student roomMemberId => db.member? roomMemberId

/-- The rows of the query for the sessions selected. -/
def accessRows (db : Database) (select : SessionRow → Bool) (roomId : String) : List AccessRow :=
  (db.sessions.filter select).flatMap fun s =>
    (db.rooms.filter fun r => joinsRoom s (db.seat? s) r && r.roomId.spelled roomId).map
      fun r => ⟨s, db.seat? s, r⟩

/-- What is made of the first row. -/
def AccessRow.decide (db : Database) (rejectClosedRoom : Bool) (roomId : String)
    (row : AccessRow) : TokenAuthorization :=
  if db.deleting row.room.roomId then .refused 4410
  else if rejectClosedRoom && row.room.status = .closed then .refused 4410
  else
    match row.session.holder, row.member with
    | .teacher teacherId, _ => .ok row.session.sessionId (.teacher teacherId) teacherId
    | .student _, none => .refused 4403
    | .student _, some m =>
      if m.roomId.text ≠ roomId then .refused 4403
      else
        .ok row.session.sessionId
          (.student m.roomId m.roomMemberId m.actorId m.pseudonym row.room.novaActorId) m.actorId

/-- `#authenticateToken`. A room id that is no uuid makes the query fail. -/
def authenticate (rejectClosedRoom : Bool) (db : Database) (rawToken : Option String)
    (roomId : String) (now : Int) : Except String TokenAuthorization :=
  match rawToken with
  | none => .ok (.refused 4401)
  | some raw =>
    if unusable raw then .ok (.refused 4401)
    else if (Uuid.canonical roomId).isNone then .error "invalid_text_representation"
    else
      match (accessRows db (SessionRow.good (tokenHash raw) now) roomId).head? with
      | none => .ok (.refused 4401)
      | some row => .ok (row.decide db rejectClosedRoom roomId)

def authenticateToken (db : Database) (rawToken : Option String) (roomId : String) (now : Int) :
    Except String TokenAuthorization :=
  authenticate false db rawToken roomId now

/-- A socket is not opened on a closed room. -/
def authenticateWebSocketToken (db : Database) (rawToken : Option String) (roomId : String)
    (now : Int) : Except String TokenAuthorization :=
  authenticate true db rawToken roomId now

/-- `reauthorize`, whose two queries may see different tables. -/
def reauthorize (db db' : Database) (sessionId : Id) (roomId : String) (now : Int) :
    Except String TokenAuthorization :=
  let live (s : SessionRow) : Bool :=
    s.sessionId = sessionId && s.revokedAt.isNone && now < s.expiresAt
  if !db.sessions.any live then .ok (.refused 4401)
  else if (Uuid.canonical roomId).isNone then .error "invalid_text_representation"
  else
    match (accessRows db' live roomId).head? with
    | none => .ok (.refused 4403)
    | some row => .ok (row.decide db' false roomId)

end LearningOrbit.Access
