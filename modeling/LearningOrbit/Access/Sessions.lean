import LearningOrbit.Rooms.LifecycleRuns
import LearningOrbit.Deletion.Saga
import LearningOrbit.Utf16
import LearningOrbit.Access.Codes

/-!
# Links and sessions

The tables that say who may enter what, and `MagicLinkService` and `SessionService` over
them. A token is known to the database by its digest only. Times of the server's clock are
milliseconds, times the database keeps and its own are microseconds.
-/

namespace LearningOrbit.Access

open Rooms (RoomStatus)

/-- What `randomUUID()` and `gen_random_uuid()` make. -/
structure Id where
  text : String
  random : Rooms.uuidPattern text = true
  stored : Uuid.Stored text

instance : DecidableEq Id := fun a b =>
  decidable_of_iff (a.text = b.text) ⟨fun h => by cases a; cases b; cases h; rfl, congrArg Id.text⟩

/-- What `opaqueToken` makes: 43 characters for 32 bytes. -/
structure OpaqueToken where
  text : String
  length : text.toList.length = 43

/-- `STUDENT_PSEUDONYMS`. -/
inductive Pseudonym
  | a | b | c | d
  deriving DecidableEq

def Pseudonym.text : Pseudonym → String
  | .a => "探索者 A"
  | .b => "探索者 B"
  | .c => "探索者 C"
  | .d => "探索者 D"

structure TeacherAccount where
  teacherId : Id
  email : String

structure MagicLink where
  magicLinkId : Id
  teacherId : Id
  tokenHash : List Nat
  expiresAt : Int
  consumedAt : Option Int
  createdAt : Int

/-- `principal_kind` and the one column of the two that the check lets it have. -/
inductive Holder
  | teacher (teacherId : Id)
  | student (roomMemberId : Id)
  deriving DecidableEq

/-- A row of `auth_session`. -/
structure SessionRow where
  sessionId : Id
  tokenHash : List Nat
  holder : Holder
  expiresAt : Int
  revokedAt : Option Int
  createdAt : Int
  deriving DecidableEq

structure RoomRow where
  roomId : Id
  roomCodeHash : List Nat
  novaActorId : Id
  teacherId : Id
  status : RoomStatus
  closedAt : Option Int
  retentionPolicyId : Id

structure MemberRow where
  roomMemberId : Id
  actorId : Id
  roomId : Id
  seatIndex : Nat
  pseudonym : Pseudonym
  codeHash : List Nat

inductive RequestKind
  | teacher
  | retention (policyVersion : String)

structure DeletionRow where
  deletionJobId : Id
  roomId : Option Id
  requestKind : RequestKind
  status : Deletion.SagaStatus
  ownerTeacherId : Id

/-- A row of `pilot_retention_policy`; nothing writes it here. -/
structure Policy where
  policyId : Id
  policyVersion : String
  roomEventsDays : Nat
  approvedAt : Int
  expiresAt : Int

structure Database where
  accounts : List TeacherAccount
  policies : List Policy
  links : List MagicLink
  sessions : List SessionRow
  rooms : List RoomRow
  members : List MemberRow
  deletions : List DeletionRow

/-- `tokenHash`. -/
@[irreducible] def tokenHash (value : String) : List Nat := Digest.Sha256.digest (Digest.bytes value)

/-- `!rawToken || rawToken.length > 512`, with the length in code units. -/
def unusable (rawToken : String) : Bool :=
  rawToken = "" || 512 < (rawToken.toList.flatMap Utf16.unitsOf).length

def micros (clock : Int) : Int := clock * 1000

/-- Eight hours. -/
def sessionDuration : Int := 8 * 60 * 60 * 1000000

/-- Fifteen minutes. -/
def linkDuration : Int := 15 * 60 * 1000000

def newLink (magicLinkId : Id) (token : OpaqueToken) (teacherId : Id) (clock : Int) :
    MagicLink where
  magicLinkId
  teacherId
  tokenHash := tokenHash token.text
  expiresAt := micros clock + linkDuration
  consumedAt := none
  createdAt := micros clock

/-- `request`: the mail that goes out, if the address has an account. Whether it arrives is not
looked at. -/
def requestLink (db : Database) (email : String) (token : OpaqueToken) (magicLinkId : Id)
    (clock : Int) : Except String (Database × Option (String × String)) :=
  match db.accounts.find? fun account => account.email = email with
  | none => .ok (db, none)
  | some account =>
    if db.links.any fun link =>
        link.magicLinkId = magicLinkId || link.tokenHash = tokenHash token.text then
      .error "unique_violation"
    else
      let link := newLink magicLinkId token account.teacherId clock
      .ok ({ db with links := db.links ++ [link] }, some (email, token.text))

/-- The row of a session that begins. -/
def newSession (sessionId : Id) (token : OpaqueToken) (holder : Holder) (clock : Int) :
    SessionRow where
  sessionId
  tokenHash := tokenHash token.text
  holder
  expiresAt := micros clock + sessionDuration
  revokedAt := none
  createdAt := micros clock

def insertSession (db : Database) (sessionId : Id) (token : OpaqueToken) (holder : Holder)
    (clock : Int) : Except String Database :=
  if db.sessions.any fun s => s.sessionId = sessionId || s.tokenHash = tokenHash token.text then
    .error "unique_violation"
  else .ok { db with sessions := db.sessions ++ [newSession sessionId token holder clock] }

def MagicLink.open (hash : List Nat) (clock : Int) (link : MagicLink) : Bool :=
  link.tokenHash = hash && link.consumedAt.isNone && micros clock < link.expiresAt

/-- `SET consumed_at` on the rows that match. -/
def spend (hash : List Nat) (clock : Int) (links : List MagicLink) : List MagicLink :=
  links.map fun l => if l.open hash clock then { l with consumedAt := some (micros clock) } else l

/-- `consume`: the token of the new session. -/
def consume (db : Database) (rawToken : String) (token : OpaqueToken) (sessionId : Id)
    (clock : Int) : Except String (Database × Option String) :=
  if unusable rawToken then .ok (db, none)
  else
    match db.links.find? (MagicLink.open (tokenHash rawToken) clock) with
    | none => .ok (db, none)
    | some link => do
      let db ← insertSession { db with links := spend (tokenHash rawToken) clock db.links }
        sessionId token (.teacher link.teacherId) clock
      return (db, some token.text)

def SessionRow.good (hash : List Nat) (now : Int) (s : SessionRow) : Bool :=
  s.tokenHash = hash && s.revokedAt.isNone && now < s.expiresAt

/-- The row that `getSessionId` and `get` select. -/
def sessionOf (db : Database) (rawToken : Option String) (now : Int) : Option SessionRow :=
  match rawToken with
  | none => none
  | some raw =>
    if unusable raw then none else db.sessions.find? (SessionRow.good (tokenHash raw) now)

def getSessionId (db : Database) (rawToken : Option String) (now : Int) : Option Id :=
  (sessionOf db rawToken now).map SessionRow.sessionId

/-- `AuthSession`; what Nova is called is the same for everybody. -/
inductive AuthSession
  | teacher (teacherId : Id)
  | student (roomId roomMemberId actorId : Id) (pseudonym : Pseudonym) (novaActorId : Id)
  deriving DecidableEq

def Database.member? (db : Database) (roomMemberId : Id) : Option MemberRow :=
  db.members.find? fun m => m.roomMemberId = roomMemberId

def Database.room? (db : Database) (roomId : Id) : Option RoomRow :=
  db.rooms.find? fun r => r.roomId = roomId

/-- `get`. -/
def getSession (db : Database) (rawToken : Option String) (now : Int) : Option AuthSession := do
  let s ← sessionOf db rawToken now
  match s.holder with
  | .teacher teacherId => some (.teacher teacherId)
  | .student roomMemberId =>
    let m ← db.member? roomMemberId
    let r ← db.room? m.roomId
    some (.student r.roomId m.roomMemberId m.actorId m.pseudonym r.novaActorId)

/-- `SET revoked_at` on the rows that match and are not revoked yet. -/
def revokeWhere (p : SessionRow → Bool) (at_ : Int) (db : Database) : Database :=
  { db with
    sessions := db.sessions.map fun s =>
      if p s && s.revokedAt.isNone then { s with revokedAt := some at_ } else s }

/-- `revoke`. -/
def revoke (db : Database) (rawToken : Option String) (now : Int) : Database :=
  match rawToken with
  | none => db
  | some raw =>
    if unusable raw then db else revokeWhere (fun s => s.tokenHash = tokenHash raw) now db

end LearningOrbit.Access
