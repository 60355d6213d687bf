import LearningOrbit.Access.Effects

/-!
# Runs of the access tables

Requests of all kinds in any order. A request that reads first and writes later keeps what it
read for as long as it likes: who the cookie stood for, which room a code located, which rooms
were due.
-/

namespace LearningOrbit.Access

structure State where
  db : Database
  /-- Who the cookies of requests stood for. -/
  entered : List AuthSession
  joining : List PendingJoin
  /-- Rooms that a sweep has still to come to. -/
  sweeping : List ExpiredRoom

inductive Call
  | requestLink (email : String) (token : OpaqueToken) (magicLinkId : Id) (clock : Int)
  | consume (rawToken : String) (token : OpaqueToken) (sessionId : Id) (clock : Int)
  | revoke (rawToken : Option String) (now : Int)
  | enter (rawToken : Option String) (now : Int)
  | createRoom (hasher : CodeHasher) (who : Nat) (draws : Draws) (now : Int)
  | startJoin (hasher : CodeHasher) (roomCode seatCode : String)
  | finishJoin (which : Nat) (otherId sessionId : Id) (token : OpaqueToken) (clock : Int)
  | requestDeletion (who : Nat) (roomId : String) (confirmation : Option String)
      (deletionJobId : Id) (clock : Int)
  | startSweep (batchSize : Nat) (clock : Int)
  | expireRoom (which : Nat) (deletionJobId : Id) (clock : Int)
  | projectStatus (deletionJobId : Id) (status : Deletion.SagaStatus)
  | finishDeletion (deletionJobId : Id)
  | applyEvent (roomId : Id) (e : Rooms.Envelope Rooms.Payload)

def State.write (s : State) {α : Type} (result : Except String (Database × α)) :
    Except String State :=
  result.map fun r => { s with db := r.1 }

/-- A request that read before goes on with what it read. -/
def resume {α : Type} (read : List α) (which : Nat) (f : α → Except String State) :
    Except String State :=
  match read[which]? with
  | none => .error "NO_SUCH_REQUEST"
  | some a => f a

def step (s : State) : Call → Except String State
  | .requestLink email token magicLinkId clock =>
    s.write (requestLink s.db email token magicLinkId clock)
  | .consume rawToken token sessionId clock =>
    s.write (consume s.db rawToken token sessionId clock)
  | .revoke rawToken now => .ok { s with db := revoke s.db rawToken now }
  | .enter rawToken now =>
    .ok { s with entered := s.entered ++ (getSession s.db rawToken now).toList }
  | .createRoom hasher who draws now =>
    resume s.entered who fun identity => s.write (createRoom hasher s.db identity draws now)
  | .startJoin hasher roomCode seatCode =>
    (startJoin hasher s.db roomCode seatCode).map fun p => { s with joining := s.joining ++ [p] }
  | .finishJoin which otherId sessionId token clock =>
    resume s.joining which fun p => s.write (finishJoin s.db p otherId sessionId token clock)
  | .requestDeletion who roomId confirmation deletionJobId clock =>
    resume s.entered who fun principal =>
      (requestDeletion s.db (some principal) roomId confirmation deletionJobId clock).map
        fun db => { s with db }
  | .startSweep batchSize clock =>
    .ok { s with sweeping := s.sweeping ++ expired s.db clock batchSize }
  | .expireRoom which deletionJobId clock =>
    resume s.sweeping which fun room => s.write (expireRoom s.db room deletionJobId clock)
  | .projectStatus deletionJobId status =>
    .ok { s with db := projectStatus s.db deletionJobId status }
  | .finishDeletion deletionJobId => .ok { s with db := finishDeletion s.db deletionJobId }
  | .applyEvent roomId e => .ok { s with db := applyEvent s.db roomId e }

/-- Accounts and policies are there before anybody asks for anything. -/
def State.initial (accounts : List TeacherAccount) (policies : List Policy) : State where
  db := ⟨accounts, policies, [], [], [], [], []⟩
  entered := []
  joining := []
  sweeping := []

/-- Requests that only read. -/
def Call.reads : Call → Bool
  | .enter .. | .startJoin .. | .startSweep .. => true
  | _ => false

/-- All that an accepted request can do to the tables. -/
inductive Effect (s : State) : Call → Database → Prop
  | read {c : Call} (hc : c.reads = true) : Effect s c s.db
  | unmailed {email : String} {token : OpaqueToken} {magicLinkId : Id} {clock : Int}
      (h : ∀ teacherId, ¬Mails s.db email token magicLinkId teacherId) :
      Effect s (.requestLink email token magicLinkId clock) s.db
  | mailed {email : String} {token : OpaqueToken} {magicLinkId teacherId : Id} {clock : Int}
      (h : Mails s.db email token magicLinkId teacherId) :
      Effect s (.requestLink email token magicLinkId clock)
        { s.db with links := s.db.links ++ [newLink magicLinkId token teacherId clock] }
  | refused {rawToken : String} {token : OpaqueToken} {sessionId : Id} {clock : Int}
      (h : ∀ teacherId, ¬SignsIn s.db rawToken token sessionId clock teacherId) :
      Effect s (.consume rawToken token sessionId clock) s.db
  | signedIn {rawToken : String} {token : OpaqueToken} {sessionId teacherId : Id} {clock : Int}
      (h : SignsIn s.db rawToken token sessionId clock teacherId) :
      Effect s (.consume rawToken token sessionId clock)
        (signedIn s.db rawToken token sessionId clock teacherId)
  | revoked (rawToken : Option String) (now : Int) :
      Effect s (.revoke rawToken now) (revoke s.db rawToken now)
  | created {hasher : CodeHasher} {who : Nat} {draws : Draws} {now : Int} {teacherId : Id}
      {room : RoomRow} {rows : List MemberRow} {response : CreateRoomResponse}
      (hwho : s.entered[who]? = some (.teacher teacherId))
      (hreq : createRoom hasher s.db (.teacher teacherId) draws now =
        .ok (furnished s.db room rows, response))
      (h : Created hasher s.db teacherId room rows response) :
      Effect s (.createRoom hasher who draws now) (furnished s.db room rows)
  | seated {which : Nat} {otherId sessionId : Id} {token : OpaqueToken} {clock : Int}
      {p : PendingJoin} {room : RoomRow} {member : MemberRow}
      (hp : s.joining[which]? = some p) (h : Seats s.db p sessionId token room member) :
      Effect s (.finishJoin which otherId sessionId token clock)
        (seated s.db sessionId token clock member)
  | closed {who : Nat} {roomId : String} {confirmation : Option String} {deletionJobId : Id}
      {clock : Int} {room : RoomRow}
      (h : Deletes s.db s.entered[who]? roomId confirmation deletionJobId room) :
      Effect s (.requestDeletion who roomId confirmation deletionJobId clock)
        (closedFor s.db room deletionJobId clock)
  | busy {which : Nat} {deletionJobId : Id} {clock : Int} {room : ExpiredRoom}
      (hroom : s.sweeping[which]? = some room) (h : s.db.deleting room.roomId = true) :
      Effect s (.expireRoom which deletionJobId clock) s.db
  | expired {which : Nat} {deletionJobId : Id} {clock : Int} {room : ExpiredRoom}
      (hroom : s.sweeping[which]? = some room) (h : s.db.deleting room.roomId = false)
      (hthere : ∃ r ∈ s.db.rooms, r.roomId = room.roomId)
      (hfresh : ∀ d ∈ s.db.deletions, d.deletionJobId ≠ deletionJobId) :
      Effect s (.expireRoom which deletionJobId clock) (expiredFor s.db room deletionJobId clock)
  | projected (deletionJobId : Id) (status : Deletion.SagaStatus) :
      Effect s (.projectStatus deletionJobId status) (projectStatus s.db deletionJobId status)
  | finished (deletionJobId : Id) :
      Effect s (.finishDeletion deletionJobId) (finishDeletion s.db deletionJobId)
  | applied (roomId : Id) (e : Rooms.Envelope Rooms.Payload) :
      Effect s (.applyEvent roomId e) (applyEvent s.db roomId e)

/-! ## What the keys of the tables give -/

/-- The unique and foreign keys the results rest on. -/
structure Coherent (db : Database) : Prop where
  links : (db.links.map MagicLink.tokenHash).Nodup
  sessions : (db.sessions.map SessionRow.tokenHash).Nodup
  rooms : (db.rooms.map RoomRow.roomId).Nodup
  members : (db.members.map MemberRow.roomMemberId).Nodup
  memberRooms : ∀ m ∈ db.members, ∃ r ∈ db.rooms, r.roomId = m.roomId
  seats : ∀ s ∈ db.sessions, ∀ id, s.holder = .student id → ∃ m ∈ db.members, m.roomMemberId = id
  deletions : ∀ id, db.deleting id = true → ∃ r ∈ db.rooms, r.roomId = id
  jobs : (db.deletions.map DeletionRow.deletionJobId).Nodup

variable {db : Database}

theorem deleting_iff {roomId : Id} :
    db.deleting roomId = true ↔ ∃ d ∈ db.deletions, d.roomId = some roomId ∧ d.active = true := by
  simp [Database.deleting]

theorem deleting_concat {row : DeletionRow} {roomId : Id} :
    ({ db with deletions := db.deletions ++ [row] } : Database).deleting roomId =
      (db.deleting roomId || (row.roomId = some roomId && row.active)) := by
  simp [Database.deleting]

theorem Coherent.revokeWhere (h : Coherent db) (p : SessionRow → Bool) (at_ : Int) :
    Coherent (revokeWhere p at_ db) where
  links := h.links
  sessions := by
    have hsame : (Access.revokeWhere p at_ db).sessions.map SessionRow.tokenHash =
        db.sessions.map SessionRow.tokenHash := by
      unfold Access.revokeWhere
      rw [List.map_map]
      refine List.map_congr_left fun s _ => ?_
      rw [Function.comp_apply]
      split <;> rfl
    rw [hsame]
    exact h.sessions
  rooms := h.rooms
  members := h.members
  memberRooms := h.memberRooms
  seats := by
    intro s hs id hid
    obtain ⟨s₀, hs₀, rfl⟩ := List.mem_map.mp hs
    refine h.seats s₀ hs₀ id ?_
    split at hid <;> exact hid
  deletions := h.deletions
  jobs := h.jobs

theorem Coherent.addSession (h : Coherent db) (row : SessionRow)
    (hfresh : ∀ s ∈ db.sessions, s.tokenHash ≠ row.tokenHash)
    (hseat : ∀ id, row.holder = .student id → ∃ m ∈ db.members, m.roomMemberId = id) :
    Coherent { db with sessions := db.sessions ++ [row] } where
  links := h.links
  sessions := by
    refine Rows.nodup_concat h.sessions fun hmem => ?_
    obtain ⟨s, hs, heq⟩ := List.mem_map.mp hmem
    exact hfresh s hs heq
  rooms := h.rooms
  members := h.members
  memberRooms := h.memberRooms
  seats := by
    intro s hs id hid
    rcases List.mem_append.mp hs with hs | hs
    · exact h.seats s hs id hid
    · rw [List.mem_singleton.mp hs] at hid
      exact hseat id hid
  deletions := h.deletions
  jobs := h.jobs

theorem Coherent.mapRooms (h : Coherent db) {f : RoomRow → RoomRow}
    (hf : ∀ r, (f r).roomId = r.roomId) : Coherent { db with rooms := db.rooms.map f } where
  links := h.links
  sessions := h.sessions
  rooms := by
    have hsame : (db.rooms.map f).map RoomRow.roomId = db.rooms.map RoomRow.roomId := by
      rw [List.map_map]
      exact List.map_congr_left fun r _ => hf r
    exact hsame ▸ h.rooms
  members := h.members
  memberRooms := by
    intro m hm
    obtain ⟨r, hr, hid⟩ := h.memberRooms m hm
    exact ⟨f r, List.mem_map.mpr ⟨r, hr, rfl⟩, (hf r).trans hid⟩
  seats := h.seats
  deletions := by
    intro id hid
    obtain ⟨r, hr, hroom⟩ := h.deletions id hid
    exact ⟨f r, List.mem_map.mpr ⟨r, hr, rfl⟩, (hf r).trans hroom⟩
  jobs := h.jobs

theorem Coherent.addDeletion (h : Coherent db) {row : DeletionRow}
    (hfresh : ∀ d ∈ db.deletions, d.deletionJobId ≠ row.deletionJobId)
    (hrow : ∀ id, row.roomId = some id → ∃ r ∈ db.rooms, r.roomId = id) :
    Coherent { db with deletions := db.deletions ++ [row] } where
  links := h.links
  sessions := h.sessions
  rooms := h.rooms
  members := h.members
  memberRooms := h.memberRooms
  seats := h.seats
  deletions := by
    intro id hid
    rw [deleting_concat, Bool.or_eq_true, Bool.and_eq_true, decide_eq_true_eq] at hid
    exact hid.elim (h.deletions id) fun hnew => hrow id hnew.1
  jobs := by
    refine Rows.nodup_concat h.jobs fun hmem => ?_
    obtain ⟨d, hd, heq⟩ := List.mem_map.mp hmem
    exact hfresh d hd heq

theorem Coherent.addRoom (h : Coherent db) {hasher : CodeHasher} {teacherId : Id} {room : RoomRow}
    {rows : List MemberRow} {response : CreateRoomResponse}
    (hc : Created hasher db teacherId room rows response) :
    Coherent (furnished db room rows) where
  links := h.links
  sessions := h.sessions
  rooms := by
    refine Rows.nodup_concat h.rooms fun hmem => ?_
    obtain ⟨r, hr, heq⟩ := List.mem_map.mp hmem
    exact hc.fresh r hr heq
  members := hc.ids
  memberRooms := by
    intro m hm
    rcases List.mem_append.mp hm with hm | hm
    · obtain ⟨r, hr, hid⟩ := h.memberRooms m hm
      exact ⟨r, List.mem_append_left _ hr, hid⟩
    · exact ⟨room, List.mem_append_right _ (List.mem_singleton_self _), (hc.room_eq m hm).symm⟩
  seats := by
    intro s hs id hid
    obtain ⟨m, hm, hmid⟩ := h.seats s hs id hid
    exact ⟨m, List.mem_append_left _ hm, hmid⟩
  deletions := by
    intro id hid
    obtain ⟨r, hr, hroom⟩ := h.deletions id hid
    exact ⟨r, List.mem_append_left _ hr, hroom⟩
  jobs := h.jobs

theorem spend_hashes (hash : List Nat) (clock : Int) (links : List MagicLink) :
    (spend hash clock links).map MagicLink.tokenHash = links.map MagicLink.tokenHash := by
  unfold spend
  rw [List.map_map]
  refine List.map_congr_left fun l _ => ?_
  rw [Function.comp_apply]
  split <;> rfl

theorem Coherent.setLinks (h : Coherent db) {links : List MagicLink}
    (hl : (links.map MagicLink.tokenHash).Nodup) : Coherent { db with links } :=
  ⟨hl, h.sessions, h.rooms, h.members, h.memberRooms, h.seats, h.deletions, h.jobs⟩

theorem seatOf_student {roomId id : Id} {s : SessionRow} (hs : s.holder = .student id) :
    db.seatOf roomId s = true ↔ ∃ m ∈ db.members, m.roomId = roomId ∧ m.roomMemberId = id := by
  simp [Database.seatOf, heldBy, hs, eq_comm (a := id)]

theorem seatOf_teacher {roomId id : Id} {s : SessionRow} (hs : s.holder = .teacher id) :
    db.seatOf roomId s = false := by
  simp [Database.seatOf, heldBy, hs]

/-- What is left of the deletions when one of them is finished. -/
theorem deleting_finish {deletionJobId room roomId : Id} :
    ({ db with deletions := db.deletions.map fun d =>
        if d.deletionJobId = deletionJobId then { d with status := .completed, roomId := none }
        else if d.roomId = some room then { d with roomId := none }
        else d } : Database).deleting roomId = true →
      roomId ≠ room ∧ db.deleting roomId = true := by
  simp only [deleting_iff, List.mem_map]
  rintro ⟨_, ⟨d, hd, rfl⟩, hid, hactive⟩
  by_cases hjob : d.deletionJobId = deletionJobId
  · rw [if_pos hjob] at hid
    cases hid
  · by_cases hroom : d.roomId = some room
    · rw [if_neg hjob, if_pos hroom] at hid
      cases hid
    · rw [if_neg hjob, if_neg hroom] at hid hactive
      exact ⟨fun h => hroom (h ▸ hid), d, hd, hid, hactive⟩

theorem Coherent.finishDeletion (h : Coherent db) (deletionJobId : Id) :
    Coherent (finishDeletion db deletionJobId) := by
  unfold Access.finishDeletion
  split
  · exact h
  · split
    · exact h
    · rename_i job hjob roomId hroom
      refine ⟨h.links, ?_, ?_, ?_, ?_, ?_, ?_, ?_⟩
      · exact h.sessions.sublist (List.filter_sublist.map _)
      · exact h.rooms.sublist (List.filter_sublist.map _)
      · exact h.members.sublist (List.filter_sublist.map _)
      · intro m hm
        obtain ⟨hm, hne⟩ := List.mem_filter.mp hm
        obtain ⟨r, hr, hid⟩ := h.memberRooms m hm
        exact ⟨r, List.mem_filter.mpr ⟨hr, by rwa [hid]⟩, hid⟩
      · intro s hs id hid
        obtain ⟨hs, hkept⟩ := List.mem_filter.mp hs
        obtain ⟨m, hm, hmid⟩ := h.seats s hs id hid
        refine ⟨m, List.mem_filter.mpr ⟨hm, ?_⟩, hmid⟩
        rw [decide_eq_true_eq]
        intro hin
        rw [(seatOf_student hid).mpr ⟨m, hm, hin, hmid⟩] at hkept
        cases hkept
      · intro id hid
        obtain ⟨hne, hdel⟩ := deleting_finish hid
        obtain ⟨r, hr, hrid⟩ := h.deletions id hdel
        exact ⟨r, List.mem_filter.mpr ⟨hr, by simpa [hrid] using hne⟩, hrid⟩
      · have hsame : (db.deletions.map fun d =>
            if d.deletionJobId = deletionJobId then { d with status := .completed, roomId := none }
            else if d.roomId = some roomId then { d with roomId := none }
            else d).map DeletionRow.deletionJobId = db.deletions.map DeletionRow.deletionJobId := by
          rw [List.map_map]
          refine List.map_congr_left fun d _ => ?_
          rw [Function.comp_apply]
          split
          · rfl
          · split <;> rfl
        exact hsame ▸ h.jobs

theorem deleting_projectStatus {deletionJobId roomId : Id} {status : Deletion.SagaStatus} :
    (projectStatus db deletionJobId status).deleting roomId = db.deleting roomId := by
  unfold projectStatus
  split
  · rfl
  · rename_i hstatus
    simp only [Database.deleting, List.any_map]
    congr 1
    funext d
    rw [Function.comp_apply]
    split
    · rename_i hd
      simp only [Bool.and_eq_true] at hd
      have hactive : DeletionRow.active { d with status } = true := by simpa [DeletionRow.active] using hstatus
      rw [hactive, hd.2]
    · rfl

theorem Coherent.projectStatus (h : Coherent db) (deletionJobId : Id)
    (status : Deletion.SagaStatus) : Coherent (projectStatus db deletionJobId status) := by
  have hdel (id : Id) : (Access.projectStatus db deletionJobId status).deleting id =
      db.deleting id := deleting_projectStatus
  unfold Access.projectStatus at hdel ⊢
  split at hdel
  · rename_i hstatus
    rw [if_pos hstatus]
    exact h
  · rename_i hstatus
    rw [if_neg hstatus]
    refine ⟨h.links, h.sessions, h.rooms, h.members, h.memberRooms, h.seats, ?_, ?_⟩
    · intro id hid
      rw [hdel] at hid
      exact h.deletions id hid
    · have hsame : (db.deletions.map fun d =>
          if d.deletionJobId = deletionJobId && d.active then { d with status } else d).map
            DeletionRow.deletionJobId = db.deletions.map DeletionRow.deletionJobId := by
        rw [List.map_map]
        refine List.map_congr_left fun d _ => ?_
        rw [Function.comp_apply]
        split <;> rfl
      exact hsame ▸ h.jobs

theorem Effect.coherent {s : State} {c : Call} {db' : Database} (hs : Coherent s.db)
    (h : Effect s c db') : Coherent db' := by
  cases h with
  | read hc => exact hs
  | unmailed h => exact hs
  | mailed h =>
    refine hs.setLinks (Rows.nodup_concat hs.links fun hmem => ?_)
    obtain ⟨l, hl, heq⟩ := List.mem_map.mp hmem
    exact (h.fresh l hl).2 heq
  | refused h => exact hs
  | @signedIn rawToken token sessionId teacherId clock h =>
    have hlinks : ((spend (tokenHash rawToken) clock s.db.links).map MagicLink.tokenHash).Nodup := by
      rw [spend_hashes]
      exact hs.links
    exact (hs.setLinks hlinks).addSession
      (newSession sessionId token (.teacher teacherId) clock) (fun s hmem => (h.fresh s hmem).2)
      fun id hid => by cases hid
  | revoked rawToken now =>
    unfold revoke
    split
    · exact hs
    · split
      · exact hs
      · exact hs.revokeWhere _ _
  | created hwho hreq h => exact hs.addRoom h
  | @seated which otherId sessionId token clock p room member hp h =>
    refine Coherent.addSession (hs.revokeWhere _ _)
      (newSession sessionId token (.student member.roomMemberId) clock)
      (fun s hmem => (revokeWhere_fresh.mpr h.fresh s hmem).2) ?_
    intro id hid
    cases hid
    exact ⟨member, h.member_mem.1, rfl⟩
  | closed h =>
    refine Coherent.revokeWhere (Coherent.mapRooms (Coherent.addDeletion hs h.fresh ?_) ?_) _ _
    · rintro id ⟨⟩
      exact ⟨_, h.room_mem, rfl⟩
    · intro r
      split <;> rfl
  | busy hroom h => exact hs
  | expired hroom h hthere hfresh =>
    refine Coherent.revokeWhere (Coherent.addDeletion hs hfresh ?_) _ _
    rintro id ⟨⟩
    exact hthere
  | projected deletionJobId status =>
    exact hs.projectStatus deletionJobId status
  | finished deletionJobId => exact hs.finishDeletion deletionJobId
  | applied roomId e =>
    refine hs.mapRooms fun r => ?_
    split
    · split <;> rfl
    · rfl

theorem resume_ok {α : Type} {read : List α} {which : Nat} {f : α → Except String State}
    {s' : State} (h : resume read which f = .ok s') : ∃ a, read[which]? = some a ∧ f a = .ok s' := by
  unfold resume at h
  split at h
  · cases h
  · rename_i a ha
    exact ⟨a, ha, h⟩

theorem resume_of_some {α : Type} {read : List α} {which : Nat} {a : α}
    {f : α → Except String State} (h : read[which]? = some a) : resume read which f = f a := by
  unfold resume
  rw [h]

theorem State.write_ok {s s' : State} {α : Type} {result : Except String (Database × α)}
    (h : s.write result = .ok s') : ∃ db' a, result = .ok (db', a) ∧ s'.db = db' := by
  obtain ⟨⟨db', a⟩, hr, rfl⟩ := map_eq_ok.mp h
  exact ⟨db', a, hr, rfl⟩

/-- The step lemma. -/
theorem step_effect {s s' : State} {c : Call} (hs : Coherent s.db) (h : step s c = .ok s') :
    Effect s c s'.db := by
  cases c with
  | requestLink email token magicLinkId clock =>
    obtain ⟨db', mail, hreq, rfl⟩ := State.write_ok h
    cases mail with
    | none =>
      rw [requestLink_none hreq]
      refine .unmailed fun teacherId hmail => ?_
      have hsome := hreq.symm.trans (requestLink_ok.mpr ⟨teacherId, hmail, rfl, rfl⟩)
      simp at hsome
    | some mail =>
      obtain ⟨teacherId, hmail, -, heq⟩ := requestLink_ok.mp hreq
      rw [heq]
      exact .mailed hmail
  | consume rawToken token sessionId clock =>
    obtain ⟨db', text, hreq, rfl⟩ := State.write_ok h
    cases text with
    | none =>
      rw [consume_none hreq]
      refine .refused fun teacherId hsign => ?_
      have hsome := hreq.symm.trans ((consume_ok hs.links).mpr ⟨teacherId, hsign, rfl, rfl⟩)
      simp at hsome
    | some text =>
      obtain ⟨teacherId, hsign, -, heq⟩ := (consume_ok hs.links).mp hreq
      rw [heq]
      exact .signedIn hsign
  | revoke rawToken now =>
    cases h
    exact .revoked rawToken now
  | enter rawToken now =>
    cases h
    exact .read rfl
  | createRoom hasher who draws now =>
    obtain ⟨identity, hwho, h⟩ := resume_ok h
    obtain ⟨db', response, hreq, rfl⟩ := State.write_ok h
    obtain ⟨teacherId, room, rows, rfl, hcreated, heq⟩ := createRoom_ok hs.members hreq
    rw [heq] at hreq ⊢
    exact .created hwho hreq hcreated
  | startJoin hasher roomCode seatCode =>
    obtain ⟨p, -, rfl⟩ := map_eq_ok.mp h
    exact .read rfl
  | finishJoin which otherId sessionId token clock =>
    obtain ⟨p, hp, h⟩ := resume_ok h
    obtain ⟨db', joined, hreq, rfl⟩ := State.write_ok h
    obtain ⟨room, member, hseats, -, heq⟩ := (finishJoin_ok hs.rooms).mp hreq
    rw [heq]
    exact .seated hp hseats
  | requestDeletion who roomId confirmation deletionJobId clock =>
    obtain ⟨principal, hwho, h⟩ := resume_ok h
    obtain ⟨db', hreq, rfl⟩ := map_eq_ok.mp h
    obtain ⟨room, hdeletes, heq⟩ := requestDeletion_ok hreq
    rw [← hwho] at hdeletes
    rw [heq]
    exact .closed hdeletes
  | startSweep batchSize clock =>
    cases h
    exact .read rfl
  | expireRoom which deletionJobId clock =>
    obtain ⟨room, hroom, h⟩ := resume_ok h
    obtain ⟨db', job, hreq, rfl⟩ := State.write_ok h
    rcases expireRoom_ok hreq with ⟨hbusy, heq⟩ | ⟨hidle, hthere, hfresh, heq⟩
    · rw [heq]
      exact .busy hroom hbusy
    · rw [heq]
      exact .expired hroom hidle hthere hfresh
  | projectStatus deletionJobId status =>
    cases h
    exact .projected deletionJobId status
  | finishDeletion deletionJobId =>
    cases h
    exact .finished deletionJobId
  | applyEvent roomId e =>
    cases h
    exact .applied roomId e

end LearningOrbit.Access
