import LearningOrbit.Raise
import LearningOrbit.Rows
import LearningOrbit.Access.Authorize

/-!
# What the requests do to the tables

One lemma for each transaction says when it is accepted and which rows it then writes.
-/

namespace LearningOrbit.Access

variable {db db' : Database}

/-! ## Signing in -/

theorem insertSession_ok {sessionId : Id} {token : OpaqueToken} {holder : Holder} {clock : Int} :
    insertSession db sessionId token holder clock = .ok db' ↔
      (∀ s ∈ db.sessions, s.sessionId ≠ sessionId ∧ s.tokenHash ≠ tokenHash token.text) ∧
        db' = { db with sessions := db.sessions ++ [newSession sessionId token holder clock] } := by
  unfold insertSession
  split
  · rename_i h
    refine iff_of_false (fun hok => by cases hok) ?_
    rintro ⟨hfresh, -⟩
    obtain ⟨s, hs, hclash⟩ := List.any_eq_true.mp h
    simp only [Bool.or_eq_true, decide_eq_true_eq] at hclash
    exact hclash.elim (hfresh s hs).1 (hfresh s hs).2
  · rename_i h
    simp only [List.any_eq_true, Bool.or_eq_true, decide_eq_true_eq, not_exists, not_and,
      not_or] at h
    rw [Except.ok.injEq, eq_comm (a := _) (b := db'), and_iff_right h]

theorem MagicLink.open_iff {hash : List Nat} {clock : Int} {link : MagicLink} :
    link.open hash clock = true ↔
      link.tokenHash = hash ∧ link.consumedAt = none ∧ micros clock < link.expiresAt := by
  simp [MagicLink.open, Option.isNone_iff_eq_none, and_assoc]

/-- A link that can still be used was given, and nothing of the new session is taken. -/
structure SignsIn (db : Database) (rawToken : String) (token : OpaqueToken) (sessionId : Id)
    (clock : Int) (teacherId : Id) : Prop where
  usable : unusable rawToken = false
  link : ∃ link ∈ db.links, link.open (tokenHash rawToken) clock = true ∧
    link.teacherId = teacherId
  fresh : ∀ s ∈ db.sessions, s.sessionId ≠ sessionId ∧ s.tokenHash ≠ tokenHash token.text

theorem SignsIn.unique {rawToken : String} {token : OpaqueToken} {sessionId teacherId teacherId' : Id}
    {clock : Int} (hlinks : (db.links.map MagicLink.tokenHash).Nodup)
    (h : SignsIn db rawToken token sessionId clock teacherId)
    (h' : SignsIn db rawToken token sessionId clock teacherId') : teacherId = teacherId' := by
  obtain ⟨link, hmem, hopen, rfl⟩ := h.link
  obtain ⟨link', hmem', hopen', rfl⟩ := h'.link
  have hsame := List.inj_on_of_nodup_map hlinks hmem hmem'
    ((MagicLink.open_iff.mp hopen).1.trans (MagicLink.open_iff.mp hopen').1.symm)
  rw [hsame]

/-- The tables after a sign-in. -/
def signedIn (db : Database) (rawToken : String) (token : OpaqueToken) (sessionId : Id)
    (clock : Int) (teacherId : Id) : Database :=
  { db with
    links := spend (tokenHash rawToken) clock db.links
    sessions := db.sessions ++ [newSession sessionId token (.teacher teacherId) clock] }

theorem consume_ok {rawToken : String} {token : OpaqueToken} {sessionId : Id} {clock : Int}
    {text : String} (hlinks : (db.links.map MagicLink.tokenHash).Nodup) :
    consume db rawToken token sessionId clock = .ok (db', some text) ↔
      ∃ teacherId, SignsIn db rawToken token sessionId clock teacherId ∧ text = token.text ∧
        db' = signedIn db rawToken token sessionId clock teacherId := by
  unfold consume
  constructor
  · intro h
    split at h
    · cases h
    · rename_i husable
      split at h
      · cases h
      · rename_i link hfind
        obtain ⟨next, hinsert, hret⟩ := bind_eq_ok.mp h
        obtain ⟨hfresh, rfl⟩ := insertSession_ok.mp hinsert
        cases hret
        refine ⟨link.teacherId, ⟨by simpa using husable, ?_, hfresh⟩, rfl, rfl⟩
        exact ⟨link, List.mem_of_find?_eq_some hfind, List.find?_some hfind, rfl⟩
  · rintro ⟨_, ⟨husable, ⟨link, hmem, hopen, rfl⟩, hfresh⟩, rfl, rfl⟩
    have hfind : db.links.find? (MagicLink.open (tokenHash rawToken) clock) = some link := by
      refine Rows.find?_eq_some_of_nodup hlinks hmem hopen fun l _ hl => ?_
      exact (MagicLink.open_iff.mp hl).1.trans (MagicLink.open_iff.mp hopen).1.symm
    rw [if_neg (by simp [husable]), hfind]
    exact bind_eq_ok.mpr ⟨_, insertSession_ok.mpr ⟨hfresh, rfl⟩, rfl⟩

/-- A link that is refused changes nothing. -/
theorem consume_none {rawToken : String} {token : OpaqueToken} {sessionId : Id} {clock : Int}
    (h : consume db rawToken token sessionId clock = .ok (db', none)) : db' = db := by
  unfold consume at h
  split at h
  · cases h
    rfl
  · split at h
    · cases h
      rfl
    · obtain ⟨next, -, hret⟩ := bind_eq_ok.mp h
      cases hret

/-- The account the mail went to, and that nothing of the new link is taken. -/
structure Mails (db : Database) (email : String) (token : OpaqueToken) (magicLinkId teacherId : Id) :
    Prop where
  account : ∃ account, (db.accounts.find? fun a => a.email = email) = some account ∧
    account.teacherId = teacherId
  fresh : ∀ link ∈ db.links, link.magicLinkId ≠ magicLinkId ∧
    link.tokenHash ≠ tokenHash token.text

theorem requestLink_ok {email : String} {token : OpaqueToken} {magicLinkId : Id} {clock : Int}
    {mail : String × String} :
    requestLink db email token magicLinkId clock = .ok (db', some mail) ↔
      ∃ teacherId, Mails db email token magicLinkId teacherId ∧ mail = (email, token.text) ∧
        db' = { db with links := db.links ++ [newLink magicLinkId token teacherId clock] } := by
  unfold requestLink
  constructor
  · intro h
    split at h
    · cases h
    · rename_i account hfind
      split at h
      · cases h
      · rename_i hfresh
        cases h
        simp only [List.any_eq_true, Bool.or_eq_true, decide_eq_true_eq, not_exists, not_and,
          not_or] at hfresh
        exact ⟨account.teacherId, ⟨⟨account, hfind, rfl⟩, hfresh⟩, rfl, rfl⟩
  · rintro ⟨_, ⟨⟨account, hfind, rfl⟩, hfresh⟩, rfl, rfl⟩
    rw [hfind]
    dsimp only
    rw [if_neg]
    simpa using hfresh

theorem requestLink_none {email : String} {token : OpaqueToken} {magicLinkId : Id} {clock : Int}
    (h : requestLink db email token magicLinkId clock = .ok (db', none)) : db' = db := by
  unfold requestLink at h
  split at h
  · cases h
    rfl
  · split at h <;> cases h

/-! ## Taking a seat -/

/-- The codes given are those of one room and of one of its four seats, the room may still be
joined, and nothing of the new session is taken. -/
structure Seats (db : Database) (p : PendingJoin) (sessionId : Id) (token : OpaqueToken)
    (room : RoomRow) (member : MemberRow) : Prop where
  room_mem : room ∈ db.rooms
  located : p.located = [room.roomId]
  roomCode : room.roomCodeHash ∈ p.hasher.candidateHashes p.roomCode
  joinable : room.status = .scheduled ∨ room.status = .open
  four : (db.members.filter fun m => m.roomId = room.roomId).length = 4
  seatCode : p.matches_ (db.members.filter fun m => m.roomId = room.roomId) = [member]
  fresh : ∀ s ∈ db.sessions, s.sessionId ≠ sessionId ∧ s.tokenHash ≠ tokenHash token.text

/-- The tables after a join. -/
def seated (db : Database) (sessionId : Id) (token : OpaqueToken) (clock : Int)
    (member : MemberRow) : Database :=
  let revoked := revokeWhere (heldBy member.roomMemberId) (micros clock) db
  { revoked with
    sessions := revoked.sessions ++
      [newSession sessionId token (.student member.roomMemberId) clock] }

theorem Seats.member_mem {p : PendingJoin} {sessionId : Id} {token : OpaqueToken} {room : RoomRow}
    {member : MemberRow} (h : Seats db p sessionId token room member) :
    member ∈ db.members ∧ member.roomId = room.roomId ∧
      p.hasher.verify p.seatCode member.codeHash = true := by
  have hmem : member ∈ p.matches_ (db.members.filter fun m => m.roomId = room.roomId) := by
    rw [h.seatCode]
    exact List.mem_singleton_self _
  obtain ⟨htake, hverify⟩ := List.mem_filter.mp hmem
  obtain ⟨hm, hroom⟩ := List.mem_filter.mp (List.mem_of_mem_take htake)
  exact ⟨hm, of_decide_eq_true hroom, hverify⟩

theorem Seats.unique {p : PendingJoin} {sessionId : Id} {token : OpaqueToken}
    {room room' : RoomRow} {member member' : MemberRow}
    (hrooms : (db.rooms.map RoomRow.roomId).Nodup) (h : Seats db p sessionId token room member)
    (h' : Seats db p sessionId token room' member') : room = room' ∧ member = member' := by
  have hid : room.roomId = room'.roomId := by
    have := h.located.symm.trans h'.located
    simpa using this
  obtain rfl := List.inj_on_of_nodup_map hrooms h.room_mem h'.room_mem hid
  have hone := h.seatCode.symm.trans h'.seatCode
  simpa using hone

theorem revokeWhere_fresh {q : SessionRow → Bool} {at_ : Int} {sessionId : Id} {hash : List Nat} :
    (∀ s ∈ (revokeWhere q at_ db).sessions, s.sessionId ≠ sessionId ∧ s.tokenHash ≠ hash) ↔
      ∀ s ∈ db.sessions, s.sessionId ≠ sessionId ∧ s.tokenHash ≠ hash := by
  unfold revokeWhere
  simp only [List.forall_mem_map]
  refine forall₂_congr fun s _ => ?_
  split <;> rfl

theorem finishJoin_ok {p : PendingJoin} {otherId sessionId : Id} {token : OpaqueToken}
    {clock : Int} {joined : JoinedRoom} (hrooms : (db.rooms.map RoomRow.roomId).Nodup) :
    finishJoin db p otherId sessionId token clock = .ok (db', joined) ↔
      ∃ room member, Seats db p sessionId token room member ∧
        joined = ⟨member.roomMemberId, member.actorId, member.pseudonym, token.text⟩ ∧
        db' = seated db sessionId token clock member := by
  unfold finishJoin
  dsimp only
  constructor
  · intro h
    split at h
    · rename_i room member hunique hroom hmember
      have hone : p.located.length = 1 := of_decide_eq_true hunique
      obtain ⟨id, hid⟩ := List.length_eq_one_iff.mp hone
      rw [hid] at hroom hmember h
      simp only [List.length_singleton, if_true, List.headD_cons] at hroom hmember h
      have hfound := List.find?_some hroom
      simp only [Bool.and_eq_true, decide_eq_true_eq, CodeHasher.answers_iff] at hfound
      obtain ⟨rfl, hcode⟩ := hfound
      split at h
      · cases h
      · rename_i hopen
        simp only [Bool.or_eq_true, Bool.not_eq_true', decide_eq_true_eq, not_or,
          Bool.not_eq_false, not_not, ne_eq] at hopen
        obtain ⟨next, hinsert, hret⟩ := bind_eq_ok.mp h
        obtain ⟨hfresh, rfl⟩ := insertSession_ok.mp hinsert
        cases hret
        refine ⟨room, member, ⟨List.mem_of_find?_eq_some hroom, hid, hcode, ?_, ?_, hmember,
          revokeWhere_fresh.mp hfresh⟩, rfl, rfl⟩
        · exact hopen.2
        · simpa using hopen.1
    · cases h
  · rintro ⟨room, member, hs, rfl, rfl⟩
    have hroom : (db.rooms.find? fun r => decide (r.roomId = room.roomId) &&
        p.hasher.answers p.roomCode r.roomCodeHash) = some room := by
      refine Rows.find?_eq_some_of_nodup hrooms hs.room_mem (by simp [hs.roomCode]) fun r _ hr => ?_
      simp only [Bool.and_eq_true, decide_eq_true_eq] at hr
      exact hr.1
    simp only [hs.located, List.length_singleton, if_true, List.headD_cons, decide_true, hroom,
      hs.seatCode]
    rw [if_neg]
    · exact bind_eq_ok.mpr ⟨_, insertSession_ok.mpr ⟨revokeWhere_fresh.mpr hs.fresh, rfl⟩, rfl⟩
    · have hopen : room.status ≠ .scheduled → room.status = .open := hs.joinable.resolve_left
      simpa [hs.four] using hopen

/-! ## A new room -/

theorem insertRoom_ok {h : CodeHasher} {room : List Nat → RoomRow} {attempts : Nat}
    {codes : List String} {code : String}
    (hok : insertRoom h db room attempts codes = .ok (code, db')) :
    db' = { db with rooms := db.rooms ++ [room (h.hash code)] } ∧
      (∀ r ∈ db.rooms, r.roomId ≠ (room (h.hash code)).roomId) ∧
      ∀ r ∈ db.rooms, r.roomCodeHash ∉ h.candidateHashes code := by
  induction attempts generalizing codes with
  | zero => cases hok
  | succ n ih =>
    cases codes with
    | nil => cases hok
    | cons c codes =>
      unfold insertRoom at hok
      split at hok
      · exact ih hok
      · rename_i hfree
        dsimp only at hok
        split at hok
        · cases hok
        · rename_i hids
          cases hok
          simp only [List.any_eq_true, CodeHasher.answers_iff, not_exists, not_and] at hfree
          simp only [List.any_eq_true, Bool.or_eq_true, decide_eq_true_eq, not_exists, not_and,
            not_or] at hids
          exact ⟨rfl, fun r hr => (hids r hr).1, hfree⟩

/-- A seat of the tables and the invitation to it. -/
def Invited (h : CodeHasher) (m : MemberRow) (invite : SeatInvite) : Prop :=
  m.roomMemberId = invite.roomMemberId ∧ m.actorId = invite.actorId ∧
    m.pseudonym = invite.pseudonym ∧ m.codeHash = h.hash invite.code

/-- What the loop has done so far: one new seat for each invitation, with an id and a code hash
of its own. -/
structure Seated (h : CodeHasher) (db : Database) (roomId : Id) (rows : List MemberRow)
    (s : Seating) : Prop where
  tables : s.db = { db with members := db.members ++ rows }
  room : ∀ m ∈ rows, m.roomId = roomId
  invited : List.Forall₂ (Invited h) rows s.invites
  ids : (s.db.members.map MemberRow.roomMemberId).Nodup
  codes : (rows.map MemberRow.codeHash).Nodup

theorem MemberRow.clashes_eq_false {row m : MemberRow} (h : row.clashes m = false) :
    m.roomMemberId ≠ row.roomMemberId ∧ (m.roomId = row.roomId → m.codeHash ≠ row.codeHash) := by
  simp only [MemberRow.clashes, Bool.or_eq_false_iff, Bool.and_eq_false_iff,
    decide_eq_false_iff_not] at h
  exact ⟨h.1.1, fun hroom => (h.2.resolve_left (not_not_intro hroom)).2⟩

theorem insertSeat_seated {h : CodeHasher} {roomId : Id} {rows : List MemberRow} {s s' : Seating}
    {seat : Nat × Pseudonym} (hs : Seated h db roomId rows s)
    (hok : insertSeat h roomId s seat = .ok s') :
    ∃ row, Seated h db roomId (rows ++ [row]) s' := by
  unfold insertSeat at hok
  split at hok
  · rename_i roomMemberId roomMemberIds actorId actorIds code seatCodes hid hactor hcode
    dsimp only at hok
    split at hok
    · cases hok
    · rename_i hclash
      cases hok
      let row : MemberRow := {
        roomMemberId, actorId, roomId
        seatIndex := seat.1
        pseudonym := seat.2
        codeHash := h.hash code }
      have hfree : ∀ m ∈ s.db.members, row.clashes m = false := by
        intro m hm
        simp only [List.any_eq_true, not_exists, not_and, Bool.not_eq_true] at hclash
        exact hclash m hm
      refine ⟨row, ?_, ?_, ?_, ?_, ?_⟩
      · simp only [hs.tables, List.append_assoc]
        rfl
      · intro m hm
        rcases List.mem_append.mp hm with hm | hm
        · exact hs.room m hm
        · rw [List.mem_singleton.mp hm]
      · exact List.rel_append hs.invited (.cons ⟨rfl, rfl, rfl, rfl⟩ .nil)
      · refine Rows.nodup_concat hs.ids fun hmem => ?_
        obtain ⟨m, hm, heq⟩ := List.mem_map.mp hmem
        exact (MemberRow.clashes_eq_false (hfree m hm)).1 heq
      · refine Rows.nodup_concat hs.codes fun hmem => ?_
        obtain ⟨m, hm, heq⟩ := List.mem_map.mp hmem
        have hmem : m ∈ s.db.members := by
          rw [hs.tables]
          exact List.mem_append_right _ hm
        exact (MemberRow.clashes_eq_false (hfree m hmem)).2 (hs.room m hm) heq
  · cases hok

theorem insertSeats_seated {h : CodeHasher} {roomId : Id} {rows : List MemberRow} {s s' : Seating}
    {todo : List (Nat × Pseudonym)} (hs : Seated h db roomId rows s)
    (hok : todo.foldlM (insertSeat h roomId) s = .ok s') :
    ∃ more, more.length = todo.length ∧ Seated h db roomId (rows ++ more) s' := by
  induction todo generalizing s rows with
  | nil =>
    cases hok
    exact ⟨[], rfl, by rwa [List.append_nil]⟩
  | cons seat todo ih =>
    rw [List.foldlM_cons] at hok
    obtain ⟨next, hone, hrest⟩ := bind_eq_ok.mp hok
    obtain ⟨row, hrow⟩ := insertSeat_seated hs hone
    obtain ⟨more, hlen, hmore⟩ := ih hrow hrest
    rw [List.append_assoc, List.singleton_append] at hmore
    exact ⟨row :: more, by rw [List.length_cons, hlen, List.length_cons], hmore⟩

theorem insertSeats_ok {h : CodeHasher} {roomId : Id} {s s' : Seating}
    {todo : List (Nat × Pseudonym)} (hids : (s.db.members.map MemberRow.roomMemberId).Nodup)
    (hnone : s.invites = []) (hok : todo.foldlM (insertSeat h roomId) s = .ok s') :
    ∃ rows, rows.length = todo.length ∧ Seated h s.db roomId rows s' := by
  have hstart : Seated h s.db roomId [] s :=
    ⟨by rw [List.append_nil], by simp, by rw [hnone]; exact .nil, hids, List.nodup_nil⟩
  exact insertSeats_seated hstart hok

/-- A room was made for a teacher, under a code no other room answers to, with four seats whose
codes went out with the answer. -/
structure Created (h : CodeHasher) (db : Database) (teacherId : Id) (room : RoomRow)
    (rows : List MemberRow) (response : CreateRoomResponse) : Prop where
  owner : room.teacherId = teacherId
  scheduled : room.status = .scheduled
  fresh : ∀ r ∈ db.rooms, r.roomId ≠ room.roomId
  code : room.roomCodeHash = h.hash response.roomCode
  unread : ∀ r ∈ db.rooms, r.roomCodeHash ∉ h.candidateHashes response.roomCode
  four : rows.length = 4
  room_eq : ∀ m ∈ rows, m.roomId = room.roomId
  ids : ((db.members ++ rows).map MemberRow.roomMemberId).Nodup
  codes : (rows.map MemberRow.codeHash).Nodup
  invited : List.Forall₂ (Invited h) rows response.seatInvites
  answer : response.roomId = room.roomId ∧ response.novaActorId = room.novaActorId ∧
    response.valid = true

/-- The tables after a room was made. -/
def furnished (db : Database) (room : RoomRow) (rows : List MemberRow) : Database :=
  { db with rooms := db.rooms ++ [room], members := db.members ++ rows }

theorem createRoom_ok {h : CodeHasher} {identity : AuthSession} {draws : Draws} {now : Int}
    {response : CreateRoomResponse} (hids : (db.members.map MemberRow.roomMemberId).Nodup)
    (hok : createRoom h db identity draws now = .ok (db', response)) :
    ∃ teacherId room rows, identity = .teacher teacherId ∧
      Created h db teacherId room rows response ∧ db' = furnished db room rows := by
  unfold createRoom at hok
  cases identity with
  | student roomId roomMemberId actorId pseudonym novaActorId => cases hok
  | teacher teacherId =>
    dsimp only at hok
    split at hok
    · cases hok
    · rename_i novaActorId actorIds policy hnova hpolicy
      obtain ⟨⟨roomCode, made⟩, hroom, hok⟩ := bind_eq_ok.mp hok
      obtain ⟨seated, hseats, hok⟩ := bind_eq_ok.mp hok
      obtain ⟨rfl, hfresh, hunread⟩ := insertRoom_ok hroom
      split at hok
      · rename_i hvalid
        cases hok
        obtain ⟨rows, hlen, hseated⟩ := insertSeats_ok hids rfl hseats
        refine ⟨teacherId, _, rows, rfl, ⟨rfl, rfl, hfresh, rfl, hunread, hlen, hseated.room,
          ?_, hseated.codes, hseated.invited, rfl, rfl, hvalid⟩, hseated.tables⟩
        have := hseated.ids
        rwa [hseated.tables] at this
      · cases hok
    · cases hok

/-! ## The end of a room -/

theorem insertDeletion_ok {row : DeletionRow} {roomId : Id} (hroom : row.roomId = some roomId)
    (hok : insertDeletion db row = .ok db') :
    db' = { db with deletions := db.deletions ++ [row] } ∧
      (∀ d ∈ db.deletions, d.deletionJobId ≠ row.deletionJobId) ∧ db.deleting roomId = false ∧
        ∃ r ∈ db.rooms, r.roomId = roomId := by
  unfold insertDeletion at hok
  rw [hroom] at hok
  split at hok
  · cases hok
  · rename_i hfresh
    split at hok
    · cases hok
    · rename_i hbusy
      split at hok
      · cases hok
      · rename_i hthere
        cases hok
        refine ⟨rfl, ?_, by simpa using hbusy, by simpa using hthere⟩
        simpa using hfresh

/-- The owner confirmed the deletion of a room that is not being deleted yet. -/
structure Deletes (db : Database) (principal : Option AuthSession) (roomId : String)
    (confirmation : Option String) (deletionJobId : Id) (room : RoomRow) : Prop where
  owner : principal = some (.teacher room.teacherId)
  room_mem : room ∈ db.rooms
  spelled : room.roomId.text = roomId
  confirmed : confirmation = some ("DELETE " ++ roomId)
  idle : db.deleting room.roomId = false
  fresh : ∀ d ∈ db.deletions, d.deletionJobId ≠ deletionJobId

/-- The tables after a deletion was accepted: the room is closed and its seats are signed out. -/
def closedFor (db : Database) (room : RoomRow) (deletionJobId : Id) (clock : Int) : Database :=
  let closed := { db with
    deletions := db.deletions ++
      [⟨deletionJobId, some room.roomId, .teacher, .queued, room.teacherId⟩]
    rooms := db.rooms.map fun r =>
      if r.roomId = room.roomId then
        { r with status := .closed, closedAt := some (micros clock) }
      else r }
  revokeWhere (closed.seatOf room.roomId) (micros clock) closed

theorem requestDeletion_ok {principal : Option AuthSession} {roomId : String}
    {confirmation : Option String} {deletionJobId : Id} {clock : Int}
    (hok : requestDeletion db principal roomId confirmation deletionJobId clock = .ok db') :
    ∃ room, Deletes db principal roomId confirmation deletionJobId room ∧
      db' = closedFor db room deletionJobId clock := by
  unfold requestDeletion at hok
  split at hok
  · cases hok
  · cases hok
  · rename_i teacherId
    split at hok
    · cases hok
    · split at hok
      · cases hok
      · rename_i room hfind
        split at hok
        · cases hok
        · rename_i howner
          split at hok
          · cases hok
          · rename_i hconfirm
            split at hok
            · cases hok
            · obtain ⟨next, hinsert, hret⟩ := bind_eq_ok.mp hok
              obtain ⟨rfl, hfresh, hidle, -⟩ := insertDeletion_ok rfl hinsert
              cases hret
              rw [ne_eq, not_not] at howner hconfirm
              subst howner
              refine ⟨room, ⟨rfl, List.mem_of_find?_eq_some hfind, ?_, hconfirm, hidle, hfresh⟩, rfl⟩
              simpa using List.find?_some hfind

/-- The tables after retention began to delete a room. -/
def expiredFor (db : Database) (room : ExpiredRoom) (deletionJobId : Id) (clock : Int) :
    Database :=
  let queued := { db with
    deletions := db.deletions ++
      [⟨deletionJobId, some room.roomId, .retention room.policyVersion, .queued, room.teacherId⟩] }
  revokeWhere (queued.seatOf room.roomId) (micros clock) queued

theorem expireRoom_ok {room : ExpiredRoom} {deletionJobId : Id} {clock : Int} {job : Option Id}
    (hok : expireRoom db room deletionJobId clock = .ok (db', job)) :
    db.deleting room.roomId = true ∧ db' = db ∨ db.deleting room.roomId = false ∧
      (∃ r ∈ db.rooms, r.roomId = room.roomId) ∧
      (∀ d ∈ db.deletions, d.deletionJobId ≠ deletionJobId) ∧
      db' = expiredFor db room deletionJobId clock := by
  unfold expireRoom at hok
  split at hok
  · rename_i hbusy
    cases hok
    exact .inl ⟨hbusy, rfl⟩
  · obtain ⟨next, hinsert, hret⟩ := bind_eq_ok.mp hok
    obtain ⟨rfl, hfresh, hidle, hroom⟩ := insertDeletion_ok rfl hinsert
    cases hret
    exact .inr ⟨hidle, hroom, hfresh, rfl⟩

end LearningOrbit.Access
