import LearningOrbit.Access.Sessions

/-!
# Rooms and their seats

`RoomService` as far as it gives out codes and takes them back, and what deletion and
retention do to the tables of access. A function here is one transaction; the writers of one
room hold its lock, and the look-up of a room by its code comes before that lock.
-/

namespace LearningOrbit.Access

open Rooms (RoomStatus)

/-- `uniqueUuid` and `uniqueSeatCode`: the first draw that is not used, and the draws after it.
A source that only repeats itself never answers. -/
def uniqueDraw {α : Type} [DecidableEq α] (used : List α) : List α → Option (α × List α)
  | [] => none
  | draw :: rest => if draw ∈ used then uniqueDraw used rest else some (draw, rest)

/-- What `createRoom` draws. -/
structure Draws where
  roomId : Id
  actorIds : List Id
  roomMemberIds : List Id
  roomCodes : List String
  seatCodes : List String

structure SeatInvite where
  roomMemberId : Id
  actorId : Id
  pseudonym : Pseudonym
  code : String

structure CreateRoomResponse where
  roomId : Id
  roomCode : String
  novaActorId : Id
  seatInvites : List SeatInvite

/-- `ROOM_CODE_ATTEMPTS`. -/
def roomCodeAttempts : Nat := 8

def currentPolicies (db : Database) (now : Int) : List Policy :=
  (db.policies.filter fun p => p.approvedAt ≤ now && now < p.expiresAt).take 2

/-- The loop of `#insertRoom`; `room` is the row but for its code. -/
def insertRoom (h : CodeHasher) (db : Database) (room : List Nat → RoomRow) :
    Nat → List String → Except String (String × Database)
  | 0, _ => .error "ROOM_CODE_UNAVAILABLE"
  | _ + 1, [] => .error "ROOM_CODE_SOURCE_ENDED"
  | n + 1, code :: codes =>
    if db.rooms.any fun r => h.answers code r.roomCodeHash then
      insertRoom h db room n codes
    else
      let row := room (h.hash code)
      if db.rooms.any fun r => r.roomId = row.roomId || r.novaActorId = row.novaActorId then
        .error "unique_violation"
      else .ok (code, { db with rooms := db.rooms ++ [row] })

/-- What the loop over the pseudonyms carries from seat to seat. -/
structure Seating where
  db : Database
  usedActors : List Id
  actorIds : List Id
  roomMemberIds : List Id
  usedSeatCodes : List String
  seatCodes : List String
  invites : List SeatInvite

def MemberRow.clashes (row m : MemberRow) : Bool :=
  m.roomMemberId = row.roomMemberId || m.actorId = row.actorId ||
    (m.roomId = row.roomId &&
      (m.seatIndex = row.seatIndex || m.pseudonym = row.pseudonym || m.codeHash = row.codeHash))

def insertSeat (h : CodeHasher) (roomId : Id) (s : Seating) (seat : Nat × Pseudonym) :
    Except String Seating :=
  match s.roomMemberIds, uniqueDraw s.usedActors s.actorIds,
    uniqueDraw s.usedSeatCodes s.seatCodes with
  | roomMemberId :: roomMemberIds, some (actorId, actorIds), some (code, seatCodes) =>
    let row : MemberRow := {
      roomMemberId
      actorId
      roomId
      seatIndex := seat.1
      pseudonym := seat.2
      codeHash := h.hash code }
    if s.db.members.any row.clashes then .error "unique_violation"
    else
      let db := { s.db with members := s.db.members ++ [row] }
      .ok {
        db
        usedActors := actorId :: s.usedActors
        actorIds
        roomMemberIds
        usedSeatCodes := code :: s.usedSeatCodes
        seatCodes
        invites := s.invites ++ [⟨roomMemberId, actorId, seat.2, code⟩] }
  | _, _, _ => .error "SEAT_SOURCE_ENDED"

/-- `STUDENT_PSEUDONYMS.entries()`, with the index of the seat. -/
def seats : List (Nat × Pseudonym) := [(1, .a), (2, .b), (3, .c), (4, .d)]

/-- `parseCreateRoomResponse`, where ids and pseudonyms are well formed already. -/
def CreateRoomResponse.valid (r : CreateRoomResponse) : Bool :=
  isRoomCode r.roomCode && r.seatInvites.length = 4 && r.seatInvites.all fun i => isSeatCode i.code

/-- `createRoom`. -/
def createRoom (h : CodeHasher) (db : Database) (identity : AuthSession) (draws : Draws)
    (now : Int) : Except String (Database × CreateRoomResponse) :=
  match identity with
  | .student .. => .error "ROOM_FORBIDDEN"
  | .teacher teacherId => do
    match uniqueDraw [] draws.actorIds, currentPolicies db now with
    | none, _ => .error "SEAT_SOURCE_ENDED"
    | some (novaActorId, actorIds), [policy] =>
      let room (roomCodeHash : List Nat) : RoomRow := {
        roomId := draws.roomId
        roomCodeHash
        novaActorId
        teacherId
        status := .scheduled
        closedAt := none
        retentionPolicyId := policy.policyId }
      let (roomCode, db) ← insertRoom h db room roomCodeAttempts draws.roomCodes
      let seated ← seats.foldlM (insertSeat h draws.roomId) {
        db
        usedActors := [novaActorId]
        actorIds
        roomMemberIds := draws.roomMemberIds
        usedSeatCodes := []
        seatCodes := draws.seatCodes
        invites := [] }
      let response : CreateRoomResponse := {
        roomId := draws.roomId
        roomCode
        novaActorId
        seatInvites := seated.invites }
      if response.valid then return (seated.db, response)
      else .error "INVALID_CREATE_ROOM_RESPONSE"
    | some _, _ => .error "RETENTION_POLICY_NOT_CONFIGURED"

/-- The first query of `joinRoom`. Its order only tells which two rooms of many come back. -/
def locate (h : CodeHasher) (db : Database) (roomCode : String) : List Id :=
  ((db.rooms.filter fun r => h.answers roomCode r.roomCodeHash).map RoomRow.roomId).take 2

/-- A join that has its answer to the first query and waits for the lock. -/
structure PendingJoin where
  hasher : CodeHasher
  roomCode : String
  seatCode : String
  located : List Id

def startJoin (h : CodeHasher) (db : Database) (roomCode seatCode : String) :
    Except String PendingJoin :=
  if isRoomCode roomCode && isSeatCode seatCode then
    .ok ⟨h, roomCode, seatCode, locate h db roomCode⟩
  else .error "INVALID_JOIN_ROOM_REQUEST"

structure JoinedRoom where
  roomMemberId : Id
  actorId : Id
  pseudonym : Pseudonym
  sessionToken : String

/-- The members whose code was given, of the first four. A seat that is not there is compared
too, with a hash of its own, and never matches. -/
def PendingJoin.matches_ (p : PendingJoin) (members : List MemberRow) : List MemberRow :=
  (members.take 4).filter fun m => p.hasher.verify p.seatCode m.codeHash

def heldBy (roomMemberId : Id) (s : SessionRow) : Bool := s.holder = .student roomMemberId

/-- The rest of `joinRoom`; `otherId` is the room that is locked when there is none. -/
def finishJoin (db : Database) (p : PendingJoin) (otherId sessionId : Id) (token : OpaqueToken)
    (clock : Int) : Except String (Database × JoinedRoom) :=
  let hasUniqueRoom := p.located.length = 1
  let roomId := if hasUniqueRoom then p.located.headD otherId else otherId
  let lockedRoom := db.rooms.find? fun r =>
    r.roomId = roomId && p.hasher.answers p.roomCode r.roomCodeHash
  let members := db.members.filter fun m => m.roomId = roomId
  match decide hasUniqueRoom, lockedRoom, p.matches_ members with
  | true, some room, [member] =>
    if members.length ≠ 4 || !(room.status = .scheduled || room.status = .open) then
      .error "JOIN_FORBIDDEN"
    else do
      let revoked := revokeWhere (heldBy member.roomMemberId) (micros clock) db
      let db ← insertSession revoked sessionId token (.student member.roomMemberId) clock
      return (db, ⟨member.roomMemberId, member.actorId, member.pseudonym, token.text⟩)
  | _, _, _ => .error "JOIN_FORBIDDEN"

/-! ## The end of a room -/

/-- `status IN ('queued','running','retryable','dead')`. -/
def DeletionRow.active (d : DeletionRow) : Bool := d.status ≠ .completed

def Database.deleting (db : Database) (roomId : Id) : Bool :=
  db.deletions.any fun d => d.roomId = some roomId && d.active

/-- `INSERT INTO deletion_job`, with its keys and the index of the unfinished. -/
def insertDeletion (db : Database) (row : DeletionRow) : Except String Database :=
  if db.deletions.any fun d => d.deletionJobId = row.deletionJobId then .error "unique_violation"
  else if row.roomId.any db.deleting then .error "unique_violation"
  else if !row.roomId.all fun id => db.rooms.any fun r => r.roomId = id then
    .error "foreign_key_violation"
  else .ok { db with deletions := db.deletions ++ [row] }

def Database.seatOf (db : Database) (roomId : Id) (s : SessionRow) : Bool :=
  db.members.any fun m => m.roomId = roomId && heldBy m.roomMemberId s

/-- `requestDeletion`; `confirmation` is `none` for a body the contract refuses. -/
def requestDeletion (db : Database) (principal : Option AuthSession) (roomId : String)
    (confirmation : Option String) (deletionJobId : Id) (clock : Int) : Except String Database :=
  match principal with
  | none => .error "AUTH_REQUIRED"
  | some (.student ..) => .error "ROOM_NOT_FOUND"
  | some (.teacher teacherId) =>
    if !(Rooms.uuidPattern roomId && Rooms.column roomId = roomId) then .error "ROOM_NOT_FOUND"
    else
      match db.rooms.find? fun r => r.roomId.text = roomId with
      | none => .error "ROOM_NOT_FOUND"
      | some room =>
        if room.teacherId ≠ teacherId then .error "ROOM_NOT_FOUND"
        else if confirmation ≠ some ("DELETE " ++ roomId) then .error "INVALID_DELETE_REQUEST"
        else if db.deletions.any fun d =>
            d.roomId = some room.roomId && d.ownerTeacherId = teacherId && d.active then
          .error "DELETION_IN_PROGRESS"
        else do
          let db ← insertDeletion db
            ⟨deletionJobId, some room.roomId, .teacher, .queued, teacherId⟩
          let closed := { db with
            rooms := db.rooms.map fun r =>
              if r.roomId = room.roomId then
                { r with status := .closed, closedAt := some (micros clock) }
              else r }
          return revokeWhere (closed.seatOf room.roomId) (micros clock) closed

/-- A row of `#expired`. -/
structure ExpiredRoom where
  roomId : Id
  policyVersion : String
  teacherId : Id

def day : Int := 24 * 60 * 60 * 1000000

def RoomRow.expiry (policies : List Policy) (clock : Int) (r : RoomRow) : Option ExpiredRoom :=
  match policies.find? fun p => p.policyId = r.retentionPolicyId, r.closedAt with
  | some p, some closedAt =>
    if r.status = .closed && closedAt + p.roomEventsDays * day ≤ micros clock then
      some ⟨r.roomId, p.policyVersion, r.teacherId⟩
    else none
  | _, _ => none

/-- `#expired`: the rooms closed longest ago come first. -/
def expired (db : Database) (clock : Int) (batchSize : Nat) : List ExpiredRoom :=
  let due := db.rooms.filter fun r =>
    (r.expiry db.policies clock).isSome && !db.deleting r.roomId
  ((due.mergeSort fun r r' => r.closedAt.getD 0 ≤ r'.closedAt.getD 0).take batchSize).filterMap
    (RoomRow.expiry db.policies clock)

/-- The transaction of `sweep` for one room; `none` where a deletion is under way already. -/
def expireRoom (db : Database) (room : ExpiredRoom) (deletionJobId : Id) (clock : Int) :
    Except String (Database × Option Id) :=
  if db.deleting room.roomId then .ok (db, none)
  else do
    let db ← insertDeletion db
      ⟨deletionJobId, some room.roomId, .retention room.policyVersion, .queued, room.teacherId⟩
    return (revokeWhere (db.seatOf room.roomId) (micros clock) db, some deletionJobId)

/-- The last surface of a deletion: the room goes, with all that hangs off it, and the job is
completed. -/
def finishDeletion (db : Database) (deletionJobId : Id) : Database :=
  match db.deletions.find? fun d => d.deletionJobId = deletionJobId && d.active with
  | none => db
  | some job =>
    match job.roomId with
    | none => db
    | some roomId => {
        db with
        rooms := db.rooms.filter fun r => r.roomId ≠ roomId
        members := db.members.filter fun m => m.roomId ≠ roomId
        sessions := db.sessions.filter fun s => !db.seatOf roomId s
        deletions := db.deletions.map fun d =>
          if d.deletionJobId = deletionJobId then { d with status := .completed, roomId := none }
          else if d.roomId = some roomId then { d with roomId := none }
          else d }

/-- What failures of its jobs do to the status of a deletion. -/
def projectStatus (db : Database) (deletionJobId : Id) (status : Deletion.SagaStatus) : Database :=
  if status = .completed then db
  else
    { db with
      deletions := db.deletions.map fun d =>
        if d.deletionJobId = deletionJobId && d.active then { d with status } else d }

/-- A lifecycle event of the room, where the machine has a move for it. -/
def applyEvent (db : Database) (roomId : Id) (e : Rooms.Envelope Rooms.Payload) : Database :=
  { db with
    rooms := db.rooms.map fun r =>
      if r.roomId = roomId then
        match Rooms.move r.status e with
        | none => r
        | some .closed => { r with status := .closed, closedAt := some (micros e.eventTime) }
        | some status => { r with status }
      else r }

end LearningOrbit.Access
