import LearningOrbit.Since
import LearningOrbit.Access.Runs

/-!
# Where an authorization comes from

A session, a seat and a room are there because some request made them and no request since has
ended them. Each of these is an invariant of the tables, one lemma about a step and one about
runs.
-/

namespace LearningOrbit.Access

variable {db db' : Database} {s s' : State} {c : Call}

/-! ## What the tables say -/

def Live (sessions : List SessionRow) (hash : List Nat) (holder : Holder) (expiresAt : Int) : Prop :=
  ∃ s ∈ sessions, s.tokenHash = hash ∧ s.holder = holder ∧ s.expiresAt = expiresAt ∧
    s.revokedAt = none

/-- The room is there and not being deleted; `p` is about its owner and its Nova. -/
def Open (db : Database) (roomId : Id) (p : Id → Id → Prop) : Prop :=
  db.deleting roomId = false ∧ ∃ r ∈ db.rooms, r.roomId = roomId ∧ p r.teacherId r.novaActorId

def Sits (db : Database) (roomId roomMemberId actorId : Id) (pseudonym : Pseudonym) : Prop :=
  ∃ m ∈ db.members, m.roomMemberId = roomMemberId ∧ m.roomId = roomId ∧ m.actorId = actorId ∧
    m.pseudonym = pseudonym

section Tables

variable {sessions : List SessionRow} {hash : List Nat} {holder : Holder} {e : Int}
  {roomId : Id} {p : Id → Id → Prop}

theorem live_concat {row : SessionRow} : Live (sessions ++ [row]) hash holder e ↔
    Live sessions hash holder e ∨
      row.tokenHash = hash ∧ row.holder = holder ∧ row.expiresAt = e ∧ row.revokedAt = none := by
  simp only [Live, List.mem_append, List.mem_singleton, or_and_right, exists_or, exists_eq_left]

/-- A sweep over the sessions that treats all sessions of this token and holder alike. -/
theorem live_revokeWhere {q : SessionRow → Bool} {at_ : Int} {b : Bool}
    (hq : ∀ s, s.tokenHash = hash → s.holder = holder → q s = b) :
    Live (revokeWhere q at_ db).sessions hash holder e ↔
      Live db.sessions hash holder e ∧ b = false := by
  unfold revokeWhere Live
  simp only [List.mem_map, exists_exists_and_eq_and]
  constructor
  · rintro ⟨s, hs, hhash, hholder, he, hrevoked⟩
    split at hrevoked
    · cases hrevoked
    · rename_i hkept
      rw [if_neg hkept] at hhash hholder he
      rw [hq s hhash hholder, hrevoked] at hkept
      exact ⟨⟨s, hs, hhash, hholder, he, hrevoked⟩, by simpa using hkept⟩
  · rintro ⟨⟨s, hs, hhash, hholder, he, hrevoked⟩, hb⟩
    refine ⟨s, hs, ?_⟩
    rw [hq s hhash hholder, hb, Bool.false_and, if_neg Bool.false_ne_true]
    exact ⟨hhash, hholder, he, hrevoked⟩

theorem live_filter {keep : SessionRow → Bool} {b : Bool}
    (hq : ∀ s, s.tokenHash = hash → s.holder = holder → keep s = b) :
    Live (sessions.filter keep) hash holder e ↔ Live sessions hash holder e ∧ b = true := by
  unfold Live
  simp only [List.mem_filter]
  constructor
  · rintro ⟨s, ⟨hs, hkeep⟩, hhash, hrest⟩
    rw [hq s hhash hrest.1] at hkeep
    exact ⟨⟨s, hs, hhash, hrest⟩, hkeep⟩
  · rintro ⟨⟨s, hs, hhash, hrest⟩, hb⟩
    exact ⟨s, ⟨hs, by rw [hq s hhash hrest.1, hb]⟩, hhash, hrest⟩

theorem open_mapRooms {f : RoomRow → RoomRow} (hf : ∀ r, (f r).roomId = r.roomId ∧
    (f r).teacherId = r.teacherId ∧ (f r).novaActorId = r.novaActorId) :
    Open { db with rooms := db.rooms.map f } roomId p ↔ Open db roomId p := by
  refine and_congr_right fun _ => ?_
  simp only [List.mem_map, exists_exists_and_eq_and]
  refine exists_congr fun r => and_congr_right fun _ => ?_
  obtain ⟨hid, hteacher, hnova⟩ := hf r
  rw [hid, hteacher, hnova]

theorem open_addDeletion {row : DeletionRow} {room : Id} (hroom : row.roomId = some room)
    (hactive : row.active = true) :
    Open { db with deletions := db.deletions ++ [row] } roomId p ↔
      Open db roomId p ∧ room ≠ roomId := by
  unfold Open
  rw [deleting_concat, hroom, hactive, Bool.and_true, Bool.or_eq_false_iff,
    decide_eq_false_iff_not, Option.some.injEq]
  tauto

end Tables

/-! ## Finishing a deletion -/

theorem finishDeletion_eq (hs : Coherent db) (deletionJobId : Id) :
    finishDeletion db deletionJobId = db ∨
      ∃ room, db.deleting room = true ∧
        (finishDeletion db deletionJobId).links = db.links ∧
        (finishDeletion db deletionJobId).sessions =
          db.sessions.filter (fun s => !db.seatOf room s) ∧
        (finishDeletion db deletionJobId).members = db.members.filter (fun m => m.roomId ≠ room) ∧
        (finishDeletion db deletionJobId).rooms = db.rooms.filter (fun r => r.roomId ≠ room) ∧
        ∀ id, id ≠ room → (finishDeletion db deletionJobId).deleting id = db.deleting id := by
  unfold finishDeletion
  split
  · exact .inl rfl
  · rename_i job hjob
    have hmem := List.mem_of_find?_eq_some hjob
    have hfound := List.find?_some hjob
    simp only [Bool.and_eq_true, decide_eq_true_eq] at hfound
    split
    · exact .inl rfl
    · rename_i room hroom
      refine .inr ⟨room, deleting_iff.mpr ⟨job, hmem, hroom, hfound.2⟩, rfl, rfl, rfl, rfl,
        fun id hid => ?_⟩
      rw [Bool.eq_iff_iff]
      constructor
      · exact fun h => (deleting_finish h).2
      · intro h
        obtain ⟨d, hd, hdroom, hactive⟩ := deleting_iff.mp h
        have hother : d.deletionJobId ≠ deletionJobId := by
          intro heq
          have hsame := List.inj_on_of_nodup_map hs.jobs hd hmem (heq.trans hfound.1.symm)
          rw [hsame, hroom, Option.some.injEq] at hdroom
          exact hid hdroom.symm
        have hroom' : d.roomId ≠ some room := by
          rw [hdroom, ne_eq, Option.some.injEq]
          exact hid
        refine deleting_iff.mpr ⟨d, List.mem_map.mpr ⟨d, hd, ?_⟩, hdroom, hactive⟩
        rw [if_neg hother, if_neg hroom']

theorem open_finishDeletion (hs : Coherent db) {deletionJobId roomId : Id} {p : Id → Id → Prop} :
    Open (finishDeletion db deletionJobId) roomId p ↔ Open db roomId p := by
  rcases finishDeletion_eq hs deletionJobId with heq | ⟨room, hdel, -, -, -, hrooms, hsame⟩
  · rw [heq]
  · by_cases hid : roomId = room
    · subst hid
      refine iff_of_false ?_ ?_
      · rintro ⟨-, r, hr, hrid, -⟩
        rw [hrooms, List.mem_filter, decide_eq_true_eq] at hr
        exact hr.2 hrid
      · rintro ⟨hidle, -⟩
        rw [hdel] at hidle
        cases hidle
    · unfold Open
      rw [hsame roomId hid, hrooms]
      refine and_congr_right fun _ => exists_congr fun r => ?_
      rw [List.mem_filter, decide_eq_true_eq]
      refine ⟨fun ⟨hr, hrest⟩ => ⟨hr.1, hrest⟩, fun ⟨hr, hrest⟩ => ⟨⟨hr, ?_⟩, hrest⟩⟩
      rw [hrest.1]
      exact hid

theorem open_projectStatus {deletionJobId roomId : Id} {status : Deletion.SagaStatus}
    {p : Id → Id → Prop} :
    Open (projectStatus db deletionJobId status) roomId p ↔ Open db roomId p := by
  have hrooms : (projectStatus db deletionJobId status).rooms = db.rooms := by
    unfold projectStatus
    split <;> rfl
  unfold Open
  rw [deleting_projectStatus, hrooms]

theorem open_applyEvent {id roomId : Id} {e : Rooms.Envelope Rooms.Payload}
    {p : Id → Id → Prop} : Open (applyEvent db id e) roomId p ↔ Open db roomId p := by
  refine open_mapRooms fun r => ?_
  split
  · split <;> exact ⟨rfl, rfl, rfl⟩
  · exact ⟨rfl, rfl, rfl⟩

theorem open_closedFor {room : RoomRow} {deletionJobId roomId : Id} {clock : Int}
    {p : Id → Id → Prop} :
    Open (closedFor db room deletionJobId clock) roomId p ↔
      Open db roomId p ∧ room.roomId ≠ roomId := by
  refine (open_mapRooms fun r => ?_).trans (open_addDeletion rfl rfl)
  split <;> exact ⟨rfl, rfl, rfl⟩

theorem open_expiredFor {room : ExpiredRoom} {deletionJobId roomId : Id} {clock : Int}
    {p : Id → Id → Prop} :
    Open (expiredFor db room deletionJobId clock) roomId p ↔
      Open db roomId p ∧ room.roomId ≠ roomId :=
  open_addDeletion rfl rfl

/-! ## What the requests start and end -/

/-- A link of the teacher's is used, and the session that comes of it has this token. -/
def SignIn (hash : List Nat) (teacherId : Id) (expiresAt : Int) (s : State) : Call → Prop
  | .consume rawToken token sessionId clock =>
    SignsIn s.db rawToken token sessionId clock teacherId ∧ tokenHash token.text = hash ∧
      micros clock + sessionDuration = expiresAt
  | _ => False

/-- Somebody who has the token signs out. -/
def SignOut (hash : List Nat) : Call → Prop
  | .revoke (some rawToken) _ => unusable rawToken = false ∧ tokenHash rawToken = hash
  | _ => False

/-- The codes of a room and of a seat in it are given for a session with this token. -/
def SitDown (hash : List Nat) (expiresAt : Int) (roomId roomMemberId actorId : Id)
    (pseudonym : Pseudonym) (novaActorId : Id) (s : State) : Call → Prop
  | .finishJoin which _ sessionId token clock =>
    ∃ p room member, s.joining[which]? = some p ∧ Seats s.db p sessionId token room member ∧
      tokenHash token.text = hash ∧ micros clock + sessionDuration = expiresAt ∧
      room.roomId = roomId ∧ room.novaActorId = novaActorId ∧ s.db.deleting roomId = false ∧
      member.roomMemberId = roomMemberId ∧ member.actorId = actorId ∧ member.pseudonym = pseudonym
  | _ => False

/-- The codes of the seat are given, by whomever. -/
def Retake (roomMemberId : Id) (s : State) : Call → Prop
  | .finishJoin which _ sessionId token _ =>
    ∃ p room member, s.joining[which]? = some p ∧ Seats s.db p sessionId token room member ∧
      member.roomMemberId = roomMemberId
  | _ => False

/-- A teacher has the room made. -/
def Make (roomId teacherId novaActorId : Id) (s : State) : Call → Prop
  | .createRoom hasher who draws now =>
    s.entered[who]? = some (.teacher teacherId) ∧ ∃ db' response,
      createRoom hasher s.db (.teacher teacherId) draws now = .ok (db', response) ∧
        response.roomId = roomId ∧ response.novaActorId = novaActorId
  | _ => False

/-- A deletion of the room is accepted, on the owner's request or because it expired. -/
def Delete (roomId : Id) (s : State) (c : Call) : Prop :=
  (∃ s', step s c = .ok s') ∧
    match c with
    | .requestDeletion _ text _ _ _ => roomId.text = text
    | .expireRoom which _ _ => ∃ room, s.sweeping[which]? = some room ∧ room.roomId = roomId
    | _ => False

/-- What ends the session of a student. -/
def SeatEnds (hash : List Nat) (roomId roomMemberId : Id) (s : State) (c : Call) : Prop :=
  SignOut hash c ∨ Retake roomMemberId s c ∨ Delete roomId s c

theorem commit_cases (hs : Coherent s.db) (c : Call) :
    (∃ s' db', step s c = .ok s' ∧ (commit step s c).db = db' ∧ Effect s c db') ∨
      (∃ e, step s c = .error e) ∧ commit step s c = s := by
  cases h : step s c with
  | ok s' => exact .inl ⟨s', s'.db, rfl, by rw [commit_of_ok h], step_effect hs h⟩
  | error e => exact .inr ⟨⟨e, rfl⟩, commit_of_error h⟩

/-- What only happens when a request is accepted does not happen when it is refused. -/
theorem not_refused {message : String} (h : step s c = .error message) {p : Prop}
    (hp : p → ∃ s', step s c = .ok s') : ¬p := by
  intro hp'
  obtain ⟨s', hok⟩ := hp hp'
  rw [h] at hok
  cases hok

/-- Every state of a run has its keys. -/
theorem commit_coherent (hs : Coherent s.db) (c : Call) : Coherent (commit step s c).db := by
  rcases commit_cases hs c with ⟨-, db', -, heq, heffect⟩ | ⟨-, heq⟩
  · rw [heq]
    exact heffect.coherent hs
  · rw [heq]
    exact hs

theorem coherent_initial (accounts : List TeacherAccount) (policies : List Policy) :
    Coherent (State.initial accounts policies).db :=
  ⟨List.nodup_nil, List.nodup_nil, List.nodup_nil, List.nodup_nil, by simp [State.initial],
    by simp [State.initial], by simp [State.initial, Database.deleting], List.nodup_nil⟩

section Teacher

variable {hash : List Nat} {teacherId : Id} {e : Int}

theorem live_revoke {rawToken : Option String} {now : Int} {holder : Holder} :
    Live (revoke db rawToken now).sessions hash holder e ↔
      Live db.sessions hash holder e ∧ ¬SignOut hash (.revoke rawToken now) := by
  cases rawToken with
  | none => exact (and_iff_left id).symm
  | some raw =>
    change Live (if unusable raw then db else _).sessions hash holder e ↔
      _ ∧ ¬(unusable raw = false ∧ tokenHash raw = hash)
    by_cases hun : unusable raw = true
    · rw [if_pos hun, hun]
      simp
    · have hmatch (row : SessionRow) (hhash : row.tokenHash = hash) (_ : row.holder = holder) :
          decide (row.tokenHash = tokenHash raw) = decide (hash = tokenHash raw) := by rw [hhash]
      rw [if_neg hun, live_revokeWhere hmatch, decide_eq_false_iff_not]
      simp only [Bool.not_eq_true] at hun
      simp only [hun, true_and, eq_comm]

theorem SignIn.accepted (hs : Coherent s.db) (h : SignIn hash teacherId e s c) :
    ∃ s', step s c = .ok s' := by
  cases c with
  | consume rawToken token sessionId clock =>
    have hok := (consume_ok hs.links).mpr ⟨teacherId, h.1, rfl, rfl⟩
    exact ⟨_, map_eq_ok.mpr ⟨_, hok, rfl⟩⟩
  | _ => exact h.elim

theorem SignOut.accepted (h : SignOut hash c) : ∃ s', step s c = .ok s' := by
  cases c with
  | revoke rawToken now => exact ⟨_, rfl⟩
  | _ => exact h.elim

/-- Nothing but a sign-in and a sign-out touches the session of a teacher. -/
theorem live_teacher_step (hs : Coherent s.db) :
    Live (commit step s c).db.sessions hash (.teacher teacherId) e ↔
      SignIn hash teacherId e s c ∨
        Live s.db.sessions hash (.teacher teacherId) e ∧ ¬SignOut hash c := by
  rcases commit_cases hs c with ⟨s', db', -, heq, heffect⟩ | ⟨⟨message, herror⟩, heq⟩
  · rw [heq]
    cases heffect with
    | read hc => cases c <;> simp [Call.reads, SignIn, SignOut] at hc ⊢
    | unmailed h | mailed h | busy _ h => simp [SignIn, SignOut]
    | created hwho hreq h => simp [SignIn, SignOut, furnished]
    | applied roomId event => simp [SignIn, SignOut, applyEvent]
    | refused h => simp [SignIn, SignOut, h]
    | signedIn h =>
      refine live_concat.trans ⟨?_, ?_⟩
      · rintro (hlive | ⟨hhash, hholder, he, -⟩)
        · exact .inr ⟨hlive, id⟩
        · cases hholder
          exact .inl ⟨h, hhash, he⟩
      · rintro (⟨hsign, hhash, he⟩ | ⟨hlive, -⟩)
        · cases h.unique hs.links hsign
          exact .inr ⟨hhash, rfl, he, rfl⟩
        · exact .inl hlive
    | revoked rawToken now =>
      rw [live_revoke]
      simp [SignIn]
    | @seated which otherId sessionId token clock p room member hp h =>
      have hother (row : SessionRow) (_ : row.tokenHash = hash)
          (hholder : row.holder = .teacher teacherId) :
          heldBy member.roomMemberId row = false := by
        simp [heldBy, hholder]
      refine live_concat.trans ?_
      rw [live_revokeWhere hother]
      simp [SignIn, SignOut, newSession]
    | closed h | expired _ h _ _ =>
      refine (live_revokeWhere fun row _ hholder => seatOf_teacher hholder).trans ?_
      simp [SignIn, SignOut]
    | projected deletionJobId status =>
      have hsame : (projectStatus s.db deletionJobId status).sessions = s.db.sessions := by
        unfold projectStatus
        split <;> rfl
      rw [hsame]
      simp [SignIn, SignOut]
    | finished deletionJobId =>
      have hsame : Live (finishDeletion s.db deletionJobId).sessions hash (.teacher teacherId) e ↔
          Live s.db.sessions hash (.teacher teacherId) e := by
        rcases finishDeletion_eq hs deletionJobId with heq | ⟨room, -, -, hsessions, -⟩
        · rw [heq]
        · rw [hsessions]
          refine (live_filter fun row _ hholder => ?_).trans (and_iff_left rfl)
          rw [seatOf_teacher hholder]
          rfl
      rw [hsame]
      simp [SignIn, SignOut]
  · rw [heq]
    have hno : ¬SignIn hash teacherId e s c := not_refused herror fun h => h.accepted hs
    have hkept : ¬SignOut hash c := not_refused herror SignOut.accepted
    simp [hno, hkept]

end Teacher

section Room

variable {roomId : Id} {p : Id → Id → Prop}

theorem Id.ext_text {a b : Id} (h : a.text = b.text) : a = b := by
  cases a
  cases b
  cases h
  rfl

theorem Make.accepted {teacherId novaActorId : Id} (h : Make roomId teacherId novaActorId s c) :
    ∃ s', step s c = .ok s' := by
  cases c with
  | createRoom hasher who draws now =>
    obtain ⟨hwho, db', response, hreq, -⟩ := h
    refine ⟨{ s with db := db' }, ?_⟩
    change resume s.entered who _ = _
    rw [resume_of_some hwho]
    exact map_eq_ok.mpr ⟨_, hreq, rfl⟩
  | _ => exact h.elim

theorem open_revoke {rawToken : Option String} {now : Int} :
    Open (revoke db rawToken now) roomId p ↔ Open db roomId p := by
  cases rawToken with
  | none => exact Iff.rfl
  | some raw =>
    change Open (if unusable raw then db else _) roomId p ↔ _
    split <;> exact Iff.rfl

/-- A new room is not being deleted. -/
theorem open_created (hs : Coherent db) {hasher : CodeHasher} {teacherId : Id} {room : RoomRow}
    {rows : List MemberRow} {response : CreateRoomResponse}
    (h : Created hasher db teacherId room rows response) :
    Open (furnished db room rows) roomId p ↔
      room.roomId = roomId ∧ p teacherId room.novaActorId ∨ Open db roomId p := by
  constructor
  · rintro ⟨hidle, r, hr, hid, hp⟩
    rcases List.mem_append.mp hr with hr | hr
    · exact .inr ⟨hidle, r, hr, hid, hp⟩
    · rw [List.mem_singleton.mp hr] at hid hp
      rw [h.owner] at hp
      exact .inl ⟨hid, hp⟩
  · rintro (⟨rfl, hp⟩ | ⟨hidle, r, hr, hid, hp⟩)
    · refine ⟨?_, room, List.mem_append_right _ (List.mem_singleton_self _), rfl, ?_⟩
      · rw [← Bool.not_eq_true]
        intro hdel
        obtain ⟨r, hr, hid⟩ := hs.deletions _ hdel
        exact h.fresh r hr hid
      · rwa [h.owner]
    · exact ⟨hidle, r, List.mem_append_left _ hr, hid, hp⟩

theorem delete_closed {s' : State} {who : Nat} {text : String} {confirmation : Option String}
    {deletionJobId roomId : Id} {clock : Int} {principal : Option AuthSession} {room : RoomRow}
    (hok : step s (.requestDeletion who text confirmation deletionJobId clock) = .ok s')
    (h : Deletes s.db principal text confirmation deletionJobId room) :
    Delete roomId s (.requestDeletion who text confirmation deletionJobId clock) ↔
      room.roomId = roomId := by
  refine ⟨fun hd => Id.ext_text (h.spelled.trans hd.2.symm), ?_⟩
  rintro rfl
  exact ⟨⟨s', hok⟩, h.spelled⟩

theorem delete_expired {s' : State} {which : Nat} {deletionJobId roomId : Id} {clock : Int}
    {room : ExpiredRoom} (hok : step s (.expireRoom which deletionJobId clock) = .ok s')
    (hroom : s.sweeping[which]? = some room) :
    Delete roomId s (.expireRoom which deletionJobId clock) ↔ room.roomId = roomId := by
  constructor
  · rintro ⟨-, room', hroom', rfl⟩
    cases hroom.symm.trans hroom'
    rfl
  · rintro rfl
    exact ⟨⟨s', hok⟩, room, hroom, rfl⟩

/-- Nothing but its making and the deletion of it changes whether a room is there. -/
theorem open_step (hs : Coherent s.db) : Open (commit step s c).db roomId p ↔
    (∃ teacherId novaActorId, Make roomId teacherId novaActorId s c ∧ p teacherId novaActorId) ∨
      Open s.db roomId p ∧ ¬Delete roomId s c := by
  rcases commit_cases hs c with ⟨s', db', hok, heq, heffect⟩ | ⟨⟨message, herror⟩, heq⟩
  · rw [heq]
    cases heffect with
    | read hc => cases c <;> simp [Call.reads, Make, Delete] at hc ⊢
    | unmailed h | refused h => simp [Make, Delete]
    | mailed h | signedIn h | seated _ h =>
      simp only [Make, Delete, false_and, exists_false, false_or, and_false, not_false_eq_true,
        and_true]
      exact Iff.rfl
    | revoked rawToken now =>
      rw [open_revoke]
      simp [Make, Delete]
    | @created hasher who draws now teacherId room rows response hwho hreq h =>
      have hmake (t n : Id) : Make roomId t n s (.createRoom hasher who draws now) ↔
          t = teacherId ∧ room.roomId = roomId ∧ room.novaActorId = n := by
        constructor
        · rintro ⟨hwho', db', response', hreq', rfl, rfl⟩
          cases hwho.symm.trans hwho'
          cases hreq.symm.trans hreq'
          exact ⟨rfl, h.answer.1.symm, h.answer.2.1.symm⟩
        · rintro ⟨rfl, rfl, rfl⟩
          exact ⟨hwho, _, response, hreq, h.answer.1, h.answer.2.1⟩
      have hkept : ¬Delete roomId s (.createRoom hasher who draws now) := And.right
      rw [open_created hs h, and_iff_left hkept]
      refine or_congr_left ⟨fun ⟨hid, hp⟩ => ⟨teacherId, _, (hmake _ _).mpr ⟨rfl, hid, rfl⟩, hp⟩, ?_⟩
      rintro ⟨t, n, hm, hp⟩
      obtain ⟨rfl, hid, rfl⟩ := (hmake t n).mp hm
      exact ⟨hid, hp⟩
    | closed h =>
      rw [open_closedFor, delete_closed hok h]
      simp [Make]
    | @busy which deletionJobId clock room hroom h =>
      have hdelete : Delete roomId s (.expireRoom which deletionJobId clock) →
          ¬Open s.db roomId p := by
        intro hd ho
        rw [(delete_expired hok hroom).mp hd, ho.1] at h
        cases h
      simp only [Make, false_and, exists_false, false_or]
      exact ⟨fun ho => ⟨ho, fun hd => hdelete hd ho⟩, And.left⟩
    | expired hroom h hthere hfresh =>
      rw [open_expiredFor, delete_expired hok hroom]
      simp [Make]
    | projected deletionJobId status =>
      rw [open_projectStatus]
      simp [Make, Delete]
    | finished deletionJobId =>
      rw [open_finishDeletion hs]
      simp [Make, Delete]
    | applied id event =>
      rw [open_applyEvent]
      simp [Make, Delete]
  · rw [heq]
    have hno (teacherId novaActorId : Id) : ¬Make roomId teacherId novaActorId s c :=
      not_refused herror fun h => h.accepted
    have hkept : ¬Delete roomId s c := not_refused herror And.left
    simp [hno, hkept]

end Room

theorem run_coherent (accounts : List TeacherAccount) (policies : List Policy)
    (calls : List Call) : Coherent (commitAll step (State.initial accounts policies) calls).db :=
  List.foldlRecOn (motive := fun s : State => Coherent s.db) calls (commit step)
    (coherent_initial accounts policies) fun _ hs c _ => commit_coherent hs c

end LearningOrbit.Access
