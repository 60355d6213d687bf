import Mathlib.Data.Set.Subsingleton
import LearningOrbit.Access.History

/-!
# Who is let in

What a token is answered, first from the tables and then from the requests that made them:
a teacher and a room in which neither has ended since it began, or a seat that was taken with
this token and that nothing has taken away.
-/

namespace LearningOrbit.Access

variable {db : Database} {s : State} {c : Call}

/-! ## The rows behind an answer -/

theorem Id.spelled_iff {id : Id} {text : String} :
    id.spelled text = true ↔ Uuid.canonical text = some id.text := by
  unfold Id.spelled
  exact decide_eq_true_iff

theorem Id.canonical_text (id : Id) : Uuid.canonical id.text = some id.text := id.stored

theorem accessRows_mem {select : SessionRow → Bool} {text : String} {row : AccessRow} :
    row ∈ accessRows db select text ↔
      row.session ∈ db.sessions ∧ select row.session = true ∧ row.member = db.seat? row.session ∧
        row.room ∈ db.rooms ∧ joinsRoom row.session row.member row.room = true ∧
        Uuid.canonical text = some row.room.roomId.text := by
  unfold accessRows
  simp only [List.mem_flatMap, List.mem_filter, List.mem_map, Bool.and_eq_true, Id.spelled_iff]
  constructor
  · rintro ⟨session, ⟨hsession, hselect⟩, room, ⟨hroom, hjoins, htext⟩, rfl⟩
    exact ⟨hsession, hselect, rfl, hroom, hjoins, htext⟩
  · rintro ⟨hsession, hselect, hmember, hroom, hjoins, htext⟩
    rw [hmember] at hjoins
    refine ⟨row.session, ⟨hsession, hselect⟩, row.room, ⟨hroom, hjoins, htext⟩, ?_⟩
    rw [← hmember]

theorem SessionRow.good_iff {hash : List Nat} {now : Int} {row : SessionRow} :
    row.good hash now = true ↔ row.tokenHash = hash ∧ row.revokedAt = none ∧ now < row.expiresAt := by
  simp [SessionRow.good, Option.isNone_iff_eq_none, and_assoc]

/-- One session is selected and one room has the id. -/
theorem accessRows_unique (hs : Coherent db) {select : SessionRow → Bool} {text : String}
    (hone : ∀ a ∈ db.sessions, ∀ b ∈ db.sessions, select a = true → select b = true → a = b)
    {row row' : AccessRow} (h : row ∈ accessRows db select text)
    (h' : row' ∈ accessRows db select text) : row = row' := by
  obtain ⟨hsession, hselect, hmember, hroom, -, htext⟩ := accessRows_mem.mp h
  obtain ⟨hsession', hselect', hmember', hroom', -, htext'⟩ := accessRows_mem.mp h'
  have hid : row.room.roomId = row'.room.roomId :=
    Id.ext_text (Option.some.inj (htext.symm.trans htext'))
  have hsame := hone _ hsession _ hsession' hselect hselect'
  have hthere := List.inj_on_of_nodup_map hs.rooms hroom hroom' hid
  have hseat : row.member = row'.member := by rw [hmember, hmember', hsame]
  cases row
  cases row'
  cases hsame
  cases hthere
  cases hseat
  rfl

theorem accessRows_head (hs : Coherent db) {select : SessionRow → Bool} {text : String}
    (hone : ∀ a ∈ db.sessions, ∀ b ∈ db.sessions, select a = true → select b = true → a = b)
    {row : AccessRow} :
    (accessRows db select text).head? = some row ↔ row ∈ accessRows db select text := by
  refine ⟨List.mem_of_head?, fun hrow => ?_⟩
  cases hhead : (accessRows db select text).head? with
  | none =>
    rw [List.head?_eq_none_iff.mp hhead] at hrow
    cases hrow
  | some row' => rw [accessRows_unique hs hone (List.mem_of_head? hhead) hrow]

theorem good_unique (hs : Coherent db) {hash : List Nat} {now : Int} :
    ∀ a ∈ db.sessions, ∀ b ∈ db.sessions, SessionRow.good hash now a = true →
      SessionRow.good hash now b = true → a = b := by
  intro a ha b hb hgood hgood'
  exact List.inj_on_of_nodup_map hs.sessions ha hb
    ((SessionRow.good_iff.mp hgood).1.trans (SessionRow.good_iff.mp hgood').1.symm)

theorem authenticate_ok (hs : Coherent db) {rejectClosedRoom : Bool} {raw text : String}
    {now : Int} {sessionId : Id} {principal : AuthSession} {actorId : Id} :
    authenticate rejectClosedRoom db (some raw) text now =
        .ok (.ok sessionId principal actorId) ↔
      unusable raw = false ∧ ∃ row ∈ accessRows db (SessionRow.good (tokenHash raw) now) text,
        row.decide db rejectClosedRoom text = .ok sessionId principal actorId := by
  unfold authenticate
  dsimp only
  by_cases hraw : unusable raw = true
  · simp [hraw]
  · rw [if_neg hraw]
    rw [Bool.not_eq_true] at hraw
    rw [hraw, eq_self_iff_true, true_and]
    simp only [← accessRows_head hs (good_unique hs)]
    by_cases htext : (Uuid.canonical text).isNone = true
    · rw [if_pos htext]
      refine iff_of_false (fun h => by cases h) ?_
      rintro ⟨row, hrow, -⟩
      rw [(accessRows_mem.mp (List.mem_of_head? hrow)).2.2.2.2.2] at htext
      cases htext
    · rw [if_neg htext]
      cases (accessRows db (SessionRow.good (tokenHash raw) now) text).head? <;> simp

theorem authenticateToken_ok (hs : Coherent db) {raw text : String} {now : Int} {sessionId : Id}
    {principal : AuthSession} {actorId : Id} :
    authenticateToken db (some raw) text now = .ok (.ok sessionId principal actorId) ↔
      unusable raw = false ∧ ∃ row ∈ accessRows db (SessionRow.good (tokenHash raw) now) text,
        row.decide db false text = .ok sessionId principal actorId :=
  authenticate_ok hs

/-- A teacher is let into a room of hers that is not being deleted. -/
theorem teacher_answer (hs : Coherent db) {raw text : String} {now : Int} {teacherId : Id} :
    (∃ sessionId actorId, authenticateToken db (some raw) text now =
        .ok (.ok sessionId (.teacher teacherId) actorId)) ↔
      unusable raw = false ∧ ∃ roomId e, Uuid.canonical text = some roomId.text ∧ now < e ∧
        Live db.sessions (tokenHash raw) (.teacher teacherId) e ∧
        Open db roomId fun owner _ => owner = teacherId := by
  simp only [authenticateToken_ok hs, exists_and_left]
  refine and_congr_right fun _ => ?_
  constructor
  · rintro ⟨sessionId, actorId, row, hrow, hdecide⟩
    obtain ⟨hsession, hgood, hmember, hroom, hjoins, htext⟩ := accessRows_mem.mp hrow
    obtain ⟨hhash, hrevoked, hexpires⟩ := SessionRow.good_iff.mp hgood
    unfold AccessRow.decide at hdecide
    split at hdecide
    · cases hdecide
    · rename_i hidle
      rw [Bool.false_and, if_neg Bool.false_ne_true] at hdecide
      split at hdecide
      · rename_i holder hholder
        cases hdecide
        have hnone : row.member = none := by
          rw [hmember]
          unfold Database.seat?
          rw [hholder]
        rw [joinsRoom, hnone, Option.any_none, Bool.false_or, decide_eq_true_eq, hholder,
          Holder.teacher.injEq] at hjoins
        exact ⟨row.room.roomId, htext, row.session.expiresAt, hexpires,
          ⟨row.session, hsession, hhash, hholder, rfl, hrevoked⟩,
          Bool.eq_false_of_not_eq_true hidle, row.room, hroom, rfl, hjoins.symm⟩
      · cases hdecide
      · split at hdecide <;> cases hdecide
  · rintro ⟨roomId, htext, e, hexpires, ⟨session, hsession, hhash, hholder, rfl, hrevoked⟩,
      hidle, room, hroom, rfl, hown⟩
    refine ⟨session.sessionId, teacherId, ⟨session, none, room⟩, accessRows_mem.mpr
      ⟨hsession, SessionRow.good_iff.mpr ⟨hhash, hrevoked, hexpires⟩, ?_, hroom, ?_, htext⟩, ?_⟩
    · unfold Database.seat?
      rw [hholder]
    · simp [joinsRoom, hholder, hown]
    · unfold AccessRow.decide
      simp only [hidle, Bool.false_and, hholder]
      rfl

/-! ## Seats -/

/-- A student may be in a room with this token until `e`. -/
def Admitted (db : Database) (hash : List Nat) (e : Int) (roomId roomMemberId actorId : Id)
    (pseudonym : Pseudonym) (novaActorId : Id) : Prop :=
  Live db.sessions hash (.student roomMemberId) e ∧ Sits db roomId roomMemberId actorId pseudonym ∧
    Open db roomId fun _ nova => nova = novaActorId

/-- A student is let into the room of the seat, under the room's own spelling only. -/
theorem student_answer (hs : Coherent db) {raw text : String} {now : Int}
    {roomId roomMemberId actorId novaActorId : Id} {pseudonym : Pseudonym} :
    (∃ sessionId actorId', authenticateToken db (some raw) text now =
        .ok (.ok sessionId (.student roomId roomMemberId actorId pseudonym novaActorId) actorId')) ↔
      unusable raw = false ∧ roomId.text = text ∧ ∃ e, now < e ∧
        Admitted db (tokenHash raw) e roomId roomMemberId actorId pseudonym novaActorId := by
  simp only [authenticateToken_ok hs, exists_and_left]
  refine and_congr_right fun _ => ?_
  constructor
  · rintro ⟨sessionId, actorId', row, hrow, hdecide⟩
    obtain ⟨hsession, hgood, hmember, hroom, hjoins, htext⟩ := accessRows_mem.mp hrow
    obtain ⟨hhash, hrevoked, hexpires⟩ := SessionRow.good_iff.mp hgood
    unfold AccessRow.decide at hdecide
    split at hdecide
    · cases hdecide
    · rename_i hidle
      rw [Bool.false_and, if_neg Bool.false_ne_true] at hdecide
      split at hdecide
      · cases hdecide
      · cases hdecide
      · rename_i holderId m hholder hm
        split at hdecide
        · cases hdecide
        · rename_i hspelled
          cases hdecide
          rw [ne_eq, not_not] at hspelled
          have hseat : db.member? holderId = some m := by
            rw [← hm, hmember]
            unfold Database.seat?
            rw [hholder]
          have hfound := List.find?_some hseat
          rw [decide_eq_true_eq] at hfound
          have hin : row.room.roomId = m.roomId := by
            rw [joinsRoom, hm, hholder] at hjoins
            simpa using hjoins
          refine ⟨hspelled, row.session.expiresAt, hexpires, ?_, ?_, ?_⟩
          · exact ⟨row.session, hsession, hhash, by rw [hholder, hfound], rfl, hrevoked⟩
          · exact ⟨m, List.mem_of_find?_eq_some hseat, rfl, rfl, rfl, rfl⟩
          · refine ⟨?_, row.room, hroom, hin, rfl⟩
            rw [← hin]
            exact Bool.eq_false_of_not_eq_true hidle
  · rintro ⟨rfl, e, hexpires, ⟨session, hsession, hhash, hholder, rfl, hrevoked⟩,
      ⟨m, hmem, hid, rfl, rfl, rfl⟩, hidle, room, hroom, hin, rfl⟩
    have hseat : db.seat? session = some m := by
      unfold Database.seat?
      rw [hholder]
      exact Rows.find?_unique hs.members hmem hid
    refine ⟨session.sessionId, m.actorId, ⟨session, some m, room⟩, accessRows_mem.mpr
      ⟨hsession, SessionRow.good_iff.mpr ⟨hhash, hrevoked, hexpires⟩, hseat.symm, hroom, ?_, ?_⟩, ?_⟩
    · simp [joinsRoom, hin]
    · rw [hin]
      exact m.roomId.canonical_text
    · unfold AccessRow.decide
      rw [← hin] at hidle
      simp [hidle, hholder, hid]

section Seat

variable {hash : List Nat} {e : Int} {roomId roomMemberId actorId novaActorId : Id}
  {pseudonym : Pseudonym}

theorem Sits.row (hids : (db.members.map MemberRow.roomMemberId).Nodup)
    (h : Sits db roomId roomMemberId actorId pseudonym) {m : MemberRow} (hm : m ∈ db.members)
    (hid : m.roomMemberId = roomMemberId) :
    m.roomId = roomId ∧ m.actorId = actorId ∧ m.pseudonym = pseudonym := by
  obtain ⟨m', hm', hid', hroom, hactor, hname⟩ := h
  obtain rfl := List.inj_on_of_nodup_map hids hm hm' (hid.trans hid'.symm)
  exact ⟨hroom, hactor, hname⟩

/-- The sessions of a room's seats, seen from one seat. -/
theorem Sits.seatOf (hids : (db.members.map MemberRow.roomMemberId).Nodup)
    (h : Sits db roomId roomMemberId actorId pseudonym) {room : Id} {row : SessionRow} (hholder : row.holder = .student roomMemberId) :
    db.seatOf room row = decide (room = roomId) := by
  rw [Bool.eq_iff_iff, seatOf_student hholder, decide_eq_true_eq]
  constructor
  · rintro ⟨m, hm, rfl, hid⟩
    exact (h.row hids hm hid).1
  · rintro rfl
    obtain ⟨m, hm, hid, hroom, -⟩ := h
    exact ⟨m, hm, hroom, hid⟩

/-- A new room has nobody in it yet. -/
theorem admitted_created (hs : Coherent db) {hasher : CodeHasher} {teacherId : Id}
    {room : RoomRow} {rows : List MemberRow} {response : CreateRoomResponse}
    (h : Created hasher db teacherId room rows response) :
    Admitted (furnished db room rows) hash e roomId roomMemberId actorId pseudonym novaActorId ↔
      Admitted db hash e roomId roomMemberId actorId pseudonym novaActorId := by
  unfold Admitted
  rw [open_created hs h]
  refine and_congr_right fun hlive => ?_
  obtain ⟨session, hsession, -, hholder, -⟩ := hlive
  obtain ⟨m, hm, hid⟩ := hs.seats session hsession roomMemberId hholder
  have hsits : Sits (furnished db room rows) roomId roomMemberId actorId pseudonym ↔
      Sits db roomId roomMemberId actorId pseudonym := by
    constructor
    · rintro ⟨m', hm', hid', hrest⟩
      have hsame : m = m' := List.inj_on_of_nodup_map h.ids (List.mem_append_left _ hm) hm'
        (hid.trans hid'.symm)
      exact ⟨m, hm, hid, hsame ▸ hrest⟩
    · rintro ⟨m', hm', hrest⟩
      exact ⟨m', List.mem_append_left _ hm', hrest⟩
  rw [hsits]
  refine and_congr_right fun hsits => or_iff_right ?_
  rintro ⟨rfl, -⟩
  obtain ⟨r, hr, hroom⟩ := hs.memberRooms m hm
  exact h.fresh r hr (hroom.trans (hsits.row hs.members hm hid).1)

/-- A seat is taken: whoever had it is out, and who took it is in. -/
theorem admitted_seated (hs : Coherent db) {p : PendingJoin} {sessionId : Id}
    {token : OpaqueToken} {clock : Int} {room : RoomRow} {member : MemberRow}
    (h : Seats db p sessionId token room member) :
    Admitted (seated db sessionId token clock member) hash e roomId roomMemberId actorId pseudonym
        novaActorId ↔
      (tokenHash token.text = hash ∧ micros clock + sessionDuration = e ∧ room.roomId = roomId ∧
        room.novaActorId = novaActorId ∧ db.deleting roomId = false ∧
        member.roomMemberId = roomMemberId ∧ member.actorId = actorId ∧
        member.pseudonym = pseudonym) ∨
      Admitted db hash e roomId roomMemberId actorId pseudonym novaActorId ∧
        member.roomMemberId ≠ roomMemberId := by
  have hheld (row : SessionRow) (_ : row.tokenHash = hash)
      (hholder : row.holder = .student roomMemberId) :
      heldBy member.roomMemberId row = decide (roomMemberId = member.roomMemberId) := by
    simp [heldBy, hholder]
  have hlive : Live (seated db sessionId token clock member).sessions hash
      (.student roomMemberId) e ↔
        Live db.sessions hash (.student roomMemberId) e ∧ member.roomMemberId ≠ roomMemberId ∨
          tokenHash token.text = hash ∧ member.roomMemberId = roomMemberId ∧
            micros clock + sessionDuration = e := by
    refine live_concat.trans ?_
    rw [live_revokeWhere hheld, decide_eq_false_iff_not, eq_comm (a := roomMemberId)]
    simp [newSession]
  obtain ⟨hmember, hin, -⟩ := h.member_mem
  unfold Admitted
  rw [hlive]
  constructor
  · rintro ⟨⟨hlive, hother⟩ | ⟨hhash, rfl, rfl⟩, hsits, hopen⟩
    · exact .inr ⟨⟨hlive, hsits, hopen⟩, hother⟩
    · obtain ⟨hroom, hactor, hname⟩ := hsits.row hs.members hmember rfl
      obtain ⟨hidle, r, hr, hrid, hnova⟩ := hopen
      have hsame : room = r := List.inj_on_of_nodup_map hs.rooms h.room_mem hr
        (hin.symm.trans (hroom.trans hrid.symm))
      exact .inl ⟨hhash, rfl, hin.symm.trans hroom, hsame ▸ hnova, hidle, rfl, hactor, hname⟩
  · rintro (⟨hhash, rfl, rfl, rfl, hidle, rfl, rfl, rfl⟩ | ⟨⟨hlive, hsits, hopen⟩, hother⟩)
    · exact ⟨.inr ⟨hhash, rfl, rfl⟩, ⟨member, hmember, rfl, hin, rfl, rfl⟩, hidle, room, h.room_mem,
        rfl, rfl⟩
    · exact ⟨.inl ⟨hlive, hother⟩, hsits, hopen⟩

/-- The deletion of a room puts out who sits in it, and nobody else. -/
theorem admitted_revoked (hs : Coherent db) {db' : Database} {room : Id} {at_ : Int}
    (hmembers : db'.members = db.members)
    (hsessions : db'.sessions = db.sessions)
    (hopen : Open db' roomId (fun _ nova => nova = novaActorId) ↔
      Open db roomId (fun _ nova => nova = novaActorId) ∧ room ≠ roomId) :
    Admitted (revokeWhere (db'.seatOf room) at_ db') hash e roomId roomMemberId actorId pseudonym
        novaActorId ↔
      Admitted db hash e roomId roomMemberId actorId pseudonym novaActorId ∧ room ≠ roomId := by
  have hsits : Sits db' roomId roomMemberId actorId pseudonym ↔
      Sits db roomId roomMemberId actorId pseudonym := by
    unfold Sits
    rw [hmembers]
  have hids : (db'.members.map MemberRow.roomMemberId).Nodup := by
    rw [hmembers]
    exact hs.members
  constructor
  · rintro ⟨hlive, hsit, hop⟩
    obtain ⟨hop, hother⟩ := hopen.mp hop
    have hkept (row : SessionRow) (_ : row.tokenHash = hash)
        (hholder : row.holder = .student roomMemberId) :
        db'.seatOf room row = decide (room = roomId) := hsit.seatOf hids hholder
    rw [live_revokeWhere hkept, hsessions] at hlive
    exact ⟨⟨hlive.1, hsits.mp hsit, hop⟩, hother⟩
  · rintro ⟨⟨hlive, hsit, hop⟩, hother⟩
    have hkept (row : SessionRow) (_ : row.tokenHash = hash)
        (hholder : row.holder = .student roomMemberId) :
        db'.seatOf room row = decide (room = roomId) := (hsits.mpr hsit).seatOf hids hholder
    refine ⟨?_, hsits.mpr hsit, hopen.mpr ⟨hop, hother⟩⟩
    rw [live_revokeWhere hkept, hsessions]
    exact ⟨hlive, decide_eq_false hother⟩

theorem admitted_finished (hs : Coherent db) {deletionJobId : Id} :
    Admitted (finishDeletion db deletionJobId) hash e roomId roomMemberId actorId pseudonym
        novaActorId ↔
      Admitted db hash e roomId roomMemberId actorId pseudonym novaActorId := by
  unfold Admitted
  rw [open_finishDeletion hs]
  rcases finishDeletion_eq hs deletionJobId with heq | ⟨room, hdel, -, hsessions, hmembers, -⟩
  · rw [heq]
  · rw [hsessions]
    constructor
    · rintro ⟨⟨session, hsession, hrest⟩, ⟨m, hm, hmember⟩, hopen⟩
      rw [hmembers] at hm
      exact ⟨⟨session, List.mem_of_mem_filter hsession, hrest⟩,
        ⟨m, List.mem_of_mem_filter hm, hmember⟩, hopen⟩
    · rintro ⟨hlive, hsits, hopen⟩
      have hother : room ≠ roomId := by
        rintro rfl
        rw [hopen.1] at hdel
        cases hdel
      have hkept (row : SessionRow) (_ : row.tokenHash = hash)
          (hholder : row.holder = .student roomMemberId) : (!db.seatOf room row) = true := by
        rw [hsits.seatOf hs.members hholder, decide_eq_false hother]
        rfl
      refine ⟨(live_filter hkept).mpr ⟨hlive, rfl⟩, ?_, hopen⟩
      obtain ⟨m, hm, hid, hroom, hrest⟩ := hsits
      refine ⟨m, ?_, hid, hroom, hrest⟩
      rw [hmembers, List.mem_filter, decide_eq_true_eq, hroom]
      exact ⟨hm, hother.symm⟩

theorem finishJoin_accepted (hs : Coherent s.db) {which : Nat} {otherId sessionId : Id}
    {token : OpaqueToken} {clock : Int} {p : PendingJoin} {room : RoomRow} {member : MemberRow}
    (hp : s.joining[which]? = some p) (h : Seats s.db p sessionId token room member) :
    ∃ s', step s (.finishJoin which otherId sessionId token clock) = .ok s' := by
  have hok : finishJoin s.db p otherId sessionId token clock = _ :=
    (finishJoin_ok hs.rooms).mpr ⟨room, member, h, rfl, rfl⟩
  refine ⟨{ s with db := seated s.db sessionId token clock member }, ?_⟩
  change resume s.joining which _ = _
  rw [resume_of_some hp]
  exact map_eq_ok.mpr ⟨_, hok, rfl⟩

theorem SitDown.accepted (hs : Coherent s.db)
    (h : SitDown hash e roomId roomMemberId actorId pseudonym novaActorId s c) :
    ∃ s', step s c = .ok s' := by
  cases c with
  | finishJoin which otherId sessionId token clock =>
    obtain ⟨p, room, member, hp, hseats, -⟩ := h
    exact finishJoin_accepted hs hp hseats
  | _ => exact h.elim

/-- Nothing that is refused ends a seat. -/
theorem SeatEnds.accepted (hs : Coherent s.db) (h : SeatEnds hash roomId roomMemberId s c) :
    ∃ s', step s c = .ok s' := by
  rcases h with hout | htaken | hdeleted
  · exact hout.accepted
  · cases c with
    | finishJoin which otherId sessionId token clock =>
      obtain ⟨p, room, member, hp, hseats, -⟩ := htaken
      exact finishJoin_accepted hs hp hseats
    | _ => exact htaken.elim
  · exact hdeleted.1

/-- A seat is taken and lost by nothing else. -/
theorem admitted_step (hs : Coherent s.db) :
    Admitted (commit step s c).db hash e roomId roomMemberId actorId pseudonym novaActorId ↔
      SitDown hash e roomId roomMemberId actorId pseudonym novaActorId s c ∨
        Admitted s.db hash e roomId roomMemberId actorId pseudonym novaActorId ∧
          ¬SeatEnds hash roomId roomMemberId s c := by
  rcases commit_cases hs c with ⟨s', db', hok, heq, heffect⟩ | ⟨⟨message, herror⟩, heq⟩
  · rw [heq]
    cases heffect with
    | read hc => cases c <;> simp [Call.reads, SitDown, SeatEnds, SignOut, Retake, Delete] at hc ⊢
    | unmailed h | refused h => simp [SitDown, SeatEnds, SignOut, Retake, Delete]
    | mailed h =>
      simp only [SitDown, SeatEnds, SignOut, Retake, Delete, and_false, or_self, not_false_eq_true,
        and_true, false_or]
      exact Iff.rfl
    | signedIn h =>
      simp only [SitDown, SeatEnds, SignOut, Retake, Delete, and_false, or_self, not_false_eq_true,
        and_true, false_or]
      exact and_congr_left fun _ => live_concat.trans (or_iff_left fun hrow => by cases hrow.2.1)
    | revoked rawToken now =>
      have hsits : Sits (revoke s.db rawToken now) roomId roomMemberId actorId pseudonym ↔
          Sits s.db roomId roomMemberId actorId pseudonym := by
        cases rawToken with
        | none => exact Iff.rfl
        | some raw =>
          change Sits (if unusable raw then s.db else _) _ _ _ _ ↔ _
          split <;> exact Iff.rfl
      unfold Admitted
      rw [live_revoke, hsits, open_revoke]
      simp only [SitDown, SeatEnds, Retake, Delete, and_false, or_false, false_or]
      exact and_right_comm
    | created hwho hreq h =>
      rw [admitted_created hs h]
      simp [SitDown, SeatEnds, SignOut, Retake, Delete]
    | @seated which otherId sessionId token clock p room member hp h =>
      have hone {q : PendingJoin} {r : RoomRow} {m : MemberRow}
          (hq : s.joining[which]? = some q) (hother : Seats s.db q sessionId token r m) :
          p = q ∧ room = r ∧ member = m := by
        cases hp.symm.trans hq
        exact ⟨rfl, h.unique hs.rooms hother⟩
      rw [admitted_seated hs h]
      refine or_congr ⟨?_, ?_⟩ (and_congr_right fun _ => not_congr ⟨?_, ?_⟩)
      · rintro ⟨hhash, he, hroom, hnova, hidle, hrest⟩
        exact ⟨p, room, member, hp, h, hhash, he, hroom, hnova, hidle, hrest⟩
      · rintro ⟨q, r, m, hq, hother, hrest⟩
        obtain ⟨rfl, rfl, rfl⟩ := hone hq hother
        exact hrest
      · exact fun hid => .inr (.inl ⟨p, room, member, hp, h, hid⟩)
      · rintro (hout | ⟨q, r, m, hq, hother, hid⟩ | hdeleted)
        · exact hout.elim
        · obtain ⟨rfl, rfl, rfl⟩ := hone hq hother
          exact hid
        · exact hdeleted.2.elim
    | @closed who text confirmation deletionJobId clock room h =>
      have hends : SeatEnds hash roomId roomMemberId s
          (.requestDeletion who text confirmation deletionJobId clock) ↔ room.roomId = roomId := by
        simp only [SeatEnds, SignOut, Retake, false_or]
        exact delete_closed hok h
      rw [hends]
      simp only [SitDown, false_or]
      refine admitted_revoked hs rfl rfl ?_
      refine (open_mapRooms fun r => ?_).trans (open_addDeletion rfl rfl)
      split <;> exact ⟨rfl, rfl, rfl⟩
    | @busy which deletionJobId clock room hroom h =>
      have hends : SeatEnds hash roomId roomMemberId s (.expireRoom which deletionJobId clock) →
          ¬Admitted s.db hash e roomId roomMemberId actorId pseudonym novaActorId := by
        rintro (hout | htaken | hdeleted) ⟨-, -, hopen⟩
        · exact hout
        · exact htaken
        · rw [(delete_expired hok hroom).mp hdeleted, hopen.1] at h
          cases h
      simp only [SitDown, false_or]
      exact ⟨fun ho => ⟨ho, fun hd => hends hd ho⟩, And.left⟩
    | @expired which deletionJobId clock room hroom h hthere hfresh =>
      have hends : SeatEnds hash roomId roomMemberId s (.expireRoom which deletionJobId clock) ↔
          room.roomId = roomId := by
        simp only [SeatEnds, SignOut, Retake, false_or]
        exact delete_expired hok hroom
      rw [hends]
      simp only [SitDown, false_or]
      exact admitted_revoked hs rfl rfl (open_addDeletion rfl rfl)
    | projected deletionJobId status =>
      have hsessions : (projectStatus s.db deletionJobId status).sessions = s.db.sessions := by
        unfold projectStatus
        split <;> rfl
      have hmembers : (projectStatus s.db deletionJobId status).members = s.db.members := by
        unfold projectStatus
        split <;> rfl
      unfold Admitted Sits
      rw [open_projectStatus, hsessions, hmembers]
      simp [SitDown, SeatEnds, SignOut, Retake, Delete]
    | finished deletionJobId =>
      rw [admitted_finished hs]
      simp [SitDown, SeatEnds, SignOut, Retake, Delete]
    | applied id event =>
      unfold Admitted
      rw [open_applyEvent]
      simp only [SitDown, SeatEnds, SignOut, Retake, Delete, and_false, or_self, not_false_eq_true,
        and_true, false_or]
      exact Iff.rfl
  · rw [heq]
    have hno : ¬SitDown hash e roomId roomMemberId actorId pseudonym novaActorId s c :=
      not_refused herror fun h => h.accepted hs
    have hkept : ¬SeatEnds hash roomId roomMemberId s c :=
      not_refused herror fun h => h.accepted hs
    simp [hno, hkept]

end Seat

/-! ## Sockets -/

section Sockets

variable {raw text : String} {now : Int} {sessionId actorId : Id} {principal : AuthSession}

theorem AccessRow.decide_closed {row : AccessRow} :
    row.decide db true text = .ok sessionId principal actorId ↔
      row.decide db false text = .ok sessionId principal actorId ∧ row.room.status ≠ .closed := by
  unfold AccessRow.decide
  by_cases hclosed : row.room.status = .closed
  · simp [hclosed]
  · simp [hclosed]

theorem AccessRow.decide_session {row : AccessRow}
    (h : row.decide db false text = .ok sessionId principal actorId) :
    row.session.sessionId = sessionId := by
  unfold AccessRow.decide at h
  split at h
  · cases h
  · rw [Bool.false_and, if_neg Bool.false_ne_true] at h
    split at h
    · cases h
      rfl
    · cases h
    · split at h
      · cases h
      · cases h
        rfl

/-- A socket is opened for whoever is let in, but not on a closed room. -/
theorem webSocket_answer (hs : Coherent db) :
    authenticateWebSocketToken db (some raw) text now = .ok (.ok sessionId principal actorId) ↔
      authenticateToken db (some raw) text now = .ok (.ok sessionId principal actorId) ∧
        ∃ room ∈ db.rooms, Uuid.canonical text = some room.roomId.text ∧ room.status ≠ .closed := by
  unfold authenticateWebSocketToken
  rw [authenticate_ok hs, authenticateToken_ok hs, and_assoc]
  refine and_congr_right fun _ => ?_
  simp only [AccessRow.decide_closed]
  constructor
  · rintro ⟨row, hrow, hdecide, hclosed⟩
    obtain ⟨-, -, -, hroom, -, htext⟩ := accessRows_mem.mp hrow
    exact ⟨⟨row, hrow, hdecide⟩, row.room, hroom, htext, hclosed⟩
  · rintro ⟨⟨row, hrow, hdecide⟩, room, hroom, htext, hclosed⟩
    obtain ⟨-, -, -, hroom', -, htext'⟩ := accessRows_mem.mp hrow
    have hid : row.room.roomId = room.roomId :=
      Id.ext_text (Option.some.inj (htext'.symm.trans htext))
    have hsame := List.inj_on_of_nodup_map hs.rooms hroom' hroom hid
    exact ⟨row, hrow, hdecide, hsame ▸ hclosed⟩

theorem reauthorize_ok (hs : Coherent db)
    (hids : (db.sessions.map SessionRow.sessionId).Nodup) {sessionId' : Id} :
    reauthorize db db sessionId text now = .ok (.ok sessionId' principal actorId) ↔
      ∃ row ∈ accessRows db (fun row =>
          row.sessionId = sessionId && row.revokedAt.isNone && now < row.expiresAt) text,
        row.decide db false text = .ok sessionId' principal actorId := by
  have hone : ∀ a ∈ db.sessions, ∀ b ∈ db.sessions,
      (a.sessionId = sessionId && a.revokedAt.isNone && now < a.expiresAt) = true →
      (b.sessionId = sessionId && b.revokedAt.isNone && now < b.expiresAt) = true → a = b := by
    intro a ha b hb hlive hlive'
    simp only [Bool.and_eq_true, decide_eq_true_eq] at hlive hlive'
    exact List.inj_on_of_nodup_map hids ha hb (hlive.1.1.trans hlive'.1.1.symm)
  unfold reauthorize
  dsimp only
  simp only [← accessRows_head hs hone]
  constructor
  · intro h
    split at h
    · cases h
    · split at h
      · cases h
      · split at h
        · cases h
        · rename_i row hhead
          exact ⟨row, hhead, by simpa using h⟩
  · rintro ⟨row, hhead, hdecide⟩
    obtain ⟨hsession, hlive, -, -, -, htext⟩ := accessRows_mem.mp (List.mem_of_head? hhead)
    rw [if_neg, if_neg, hhead]
    · exact congrArg Except.ok hdecide
    · simp [htext]
    · rw [Bool.not_eq_true', Bool.not_eq_false, List.any_eq_true]
      exact ⟨row.session, hsession, hlive⟩

/-- A token is let in exactly if its session is and would be kept on. -/
theorem socket_answer (hs : Coherent db)
    (hids : (db.sessions.map SessionRow.sessionId).Nodup) :
    authenticateToken db (some raw) text now = .ok (.ok sessionId principal actorId) ↔
      getSessionId db (some raw) now = some sessionId ∧
        reauthorize db db sessionId text now = .ok (.ok sessionId principal actorId) := by
  rw [authenticateToken_ok hs, reauthorize_ok hs hids]
  unfold getSessionId sessionOf
  constructor
  · rintro ⟨husable, row, hrow, hdecide⟩
    obtain ⟨hsession, hgood, hmember, hroom, hjoins, htext⟩ := accessRows_mem.mp hrow
    obtain ⟨-, hrevoked, hexpires⟩ := SessionRow.good_iff.mp hgood
    have hid := AccessRow.decide_session hdecide
    have hfound := Rows.find?_eq_some_of_nodup hs.sessions hsession hgood fun r hr hr' =>
      congrArg SessionRow.tokenHash (good_unique hs r hr _ hsession hr' hgood)
    refine ⟨?_, row, accessRows_mem.mpr ⟨hsession, ?_, hmember, hroom, hjoins, htext⟩, hdecide⟩
    · dsimp only
      rw [husable, if_neg Bool.false_ne_true, hfound, Option.map_some, hid]
    · simp [hid, hrevoked, hexpires]
  · rintro ⟨hfound, row, hrow, hdecide⟩
    obtain ⟨hsession, hlive, hmember, hroom, hjoins, htext⟩ := accessRows_mem.mp hrow
    simp only [Bool.and_eq_true, decide_eq_true_eq] at hlive
    obtain ⟨session, hsome, hid⟩ := Option.map_eq_some_iff.mp hfound
    dsimp only at hsome
    split at hsome
    · cases hsome
    · rename_i husable
      have hsame : row.session = session := List.inj_on_of_nodup_map hids hsession
        (List.mem_of_find?_eq_some hsome) (hlive.1.1.trans hid.symm)
      refine ⟨Bool.eq_false_of_not_eq_true husable, row, accessRows_mem.mpr
        ⟨hsession, ?_, hmember, hroom, hjoins, htext⟩, hdecide⟩
      rw [hsame]
      exact List.find?_some hsome

theorem revokeWhere_ids {q : SessionRow → Bool} {at_ : Int} :
    (revokeWhere q at_ db).sessions.map SessionRow.sessionId =
      db.sessions.map SessionRow.sessionId := by
  unfold revokeWhere
  rw [List.map_map]
  refine List.map_congr_left fun row _ => ?_
  rw [Function.comp_apply]
  split <;> rfl

/-- No request gives two sessions one id. -/
theorem Effect.sessionIds {db' : Database} (hs : Coherent s.db) (h : Effect s c db')
    (hids : (s.db.sessions.map SessionRow.sessionId).Nodup) :
    (db'.sessions.map SessionRow.sessionId).Nodup := by
  have hfresh {rows : List SessionRow} {id : Id}
      (hrows : ∀ row ∈ rows, row.sessionId ≠ id) : id ∉ rows.map SessionRow.sessionId := by
    intro hmem
    obtain ⟨row, hrow, hid⟩ := List.mem_map.mp hmem
    exact hrows row hrow hid
  cases h with
  | read hc | unmailed h | mailed h | refused h | created hwho hreq h | busy hroom h
    | applied id event => exact hids
  | signedIn h => exact Rows.nodup_concat hids (hfresh fun row hrow => (h.fresh row hrow).1)
  | revoked rawToken now =>
    unfold revoke
    split
    · exact hids
    · split
      · exact hids
      · rw [revokeWhere_ids]
        exact hids
  | seated hp h =>
    refine Rows.nodup_concat ?_ (hfresh fun row hrow => ?_)
    · rw [revokeWhere_ids]
      exact hids
    · exact (revokeWhere_fresh.mpr h.fresh row hrow).1
  | closed h | expired hroom h hthere hnew =>
    refine Eq.mpr (congrArg List.Nodup revokeWhere_ids) ?_
    exact hids
  | projected deletionJobId status =>
    unfold projectStatus
    split <;> exact hids
  | finished deletionJobId =>
    rcases finishDeletion_eq hs deletionJobId with heq | ⟨room, -, -, hsessions, -⟩
    · rw [heq]
      exact hids
    · rw [hsessions]
      exact hids.sublist (List.filter_sublist.map _)

end Sockets

/-! ## Runs -/

section Runs

variable (accounts : List TeacherAccount) (policies : List Policy) (calls : List Call)

theorem live_teacher_iff {hash : List Nat} {teacherId : Id} {e : Int} :
    Live (commitAll step (State.initial accounts policies) calls).db.sessions hash
        (.teacher teacherId) e ↔
      Since (commit step) (SignIn hash teacherId e) (fun _ => SignOut hash)
        (State.initial accounts policies) calls := by
  refine Since.iff_of_step (I := fun s : State => Coherent s.db)
    (P := fun s : State => Live s.db.sessions hash (.teacher teacherId) e)
    (fun s c hs => commit_coherent hs c) (fun s c hs => live_teacher_step hs)
    (coherent_initial accounts policies) ?_
  rintro ⟨session, hsession, -⟩
  cases hsession

theorem open_iff {roomId teacherId : Id} :
    Open (commitAll step (State.initial accounts policies) calls).db roomId
        (fun owner _ => owner = teacherId) ↔
      Since (commit step) (fun s c => ∃ novaActorId, Make roomId teacherId novaActorId s c)
        (Delete roomId) (State.initial accounts policies) calls := by
  refine Since.iff_of_step (I := fun s : State => Coherent s.db)
    (P := fun s : State => Open s.db roomId fun owner _ => owner = teacherId)
    (fun s c hs => commit_coherent hs c) (fun s c hs => (open_step hs).trans ?_)
    (coherent_initial accounts policies) ?_
  · refine or_congr_left ⟨?_, fun ⟨novaActorId, h⟩ => ⟨teacherId, novaActorId, h, rfl⟩⟩
    rintro ⟨_, novaActorId, h, rfl⟩
    exact ⟨novaActorId, h⟩
  · rintro ⟨-, room, hroom, -⟩
    cases hroom

theorem admitted_iff {hash : List Nat} {e : Int} {roomId roomMemberId actorId novaActorId : Id}
    {pseudonym : Pseudonym} :
    Admitted (commitAll step (State.initial accounts policies) calls).db hash e roomId roomMemberId
        actorId pseudonym novaActorId ↔
      Since (commit step) (SitDown hash e roomId roomMemberId actorId pseudonym novaActorId)
        (SeatEnds hash roomId roomMemberId) (State.initial accounts policies) calls := by
  refine Since.iff_of_step (I := fun s : State => Coherent s.db)
    (P := fun s : State => Admitted s.db hash e roomId roomMemberId actorId pseudonym novaActorId)
    (fun s c hs => commit_coherent hs c) (fun s c hs => admitted_step hs)
    (coherent_initial accounts policies) ?_
  rintro ⟨⟨session, hsession, -⟩, -⟩
  cases hsession

/-- A token lets a teacher into a room exactly if she signed in under it and has not signed out,
and she made the room and its deletion has not been accepted. -/
theorem teacher_admitted_iff (raw text : String) (now : Int) (teacherId : Id) :
    (∃ sessionId actorId,
        authenticateToken (commitAll step (State.initial accounts policies) calls).db (some raw)
          text now = .ok (.ok sessionId (.teacher teacherId) actorId)) ↔
      unusable raw = false ∧ ∃ roomId e, Uuid.canonical text = some roomId.text ∧ now < e ∧
        Since (commit step) (SignIn (tokenHash raw) teacherId e) (fun _ => SignOut (tokenHash raw))
          (State.initial accounts policies) calls ∧
        Since (commit step) (fun s c => ∃ novaActorId, Make roomId teacherId novaActorId s c)
          (Delete roomId) (State.initial accounts policies) calls := by
  rw [teacher_answer (run_coherent accounts policies calls)]
  simp only [live_teacher_iff, open_iff]

/-- A token lets a student in exactly if somebody with the codes of the room and of the seat got
it, and since then nobody has signed out with it, taken the seat again or had the room deleted. -/
theorem student_admitted_iff (raw text : String) (now : Int)
    (roomId roomMemberId actorId novaActorId : Id) (pseudonym : Pseudonym) :
    (∃ sessionId actorId',
        authenticateToken (commitAll step (State.initial accounts policies) calls).db (some raw)
          text now = .ok (.ok sessionId
            (.student roomId roomMemberId actorId pseudonym novaActorId) actorId')) ↔
      unusable raw = false ∧ roomId.text = text ∧ ∃ e, now < e ∧
        Since (commit step)
          (SitDown (tokenHash raw) e roomId roomMemberId actorId pseudonym novaActorId)
          (SeatEnds (tokenHash raw) roomId roomMemberId) (State.initial accounts policies) calls := by
  rw [student_answer (run_coherent accounts policies calls)]
  simp only [admitted_iff]

theorem run_sessionIds :
    ((commitAll step (State.initial accounts policies) calls).db.sessions.map
      SessionRow.sessionId).Nodup := by
  have hboth : Coherent (commitAll step (State.initial accounts policies) calls).db ∧
      ((commitAll step (State.initial accounts policies) calls).db.sessions.map
        SessionRow.sessionId).Nodup := by
    refine List.foldlRecOn (motive := fun s : State =>
      Coherent s.db ∧ (s.db.sessions.map SessionRow.sessionId).Nodup) calls (commit step)
      ⟨coherent_initial accounts policies, List.nodup_nil⟩ fun s hs c _ =>
        ⟨commit_coherent hs.1 c, ?_⟩
    rcases commit_cases hs.1 c with ⟨-, db', -, heq, heffect⟩ | ⟨-, heq⟩
    · rw [heq]
      exact heffect.sessionIds hs.1 hs.2
    · rw [heq]
      exact hs.2
  exact hboth.2

/-- A socket opens for a token exactly if the check before each later frame would let its session
go on, and the room is not closed. -/
theorem socket_opens_iff (raw text : String) (now : Int) (sessionId actorId : Id)
    (principal : AuthSession) :
    authenticateWebSocketToken (commitAll step (State.initial accounts policies) calls).db
        (some raw) text now = .ok (.ok sessionId principal actorId) ↔
      (getSessionId (commitAll step (State.initial accounts policies) calls).db (some raw) now =
          some sessionId ∧
        reauthorize (commitAll step (State.initial accounts policies) calls).db
          (commitAll step (State.initial accounts policies) calls).db sessionId text now =
            .ok (.ok sessionId principal actorId)) ∧
        ∃ room ∈ (commitAll step (State.initial accounts policies) calls).db.rooms,
          Uuid.canonical text = some room.roomId.text ∧ room.status ≠ .closed := by
  have hs := run_coherent accounts policies calls
  rw [webSocket_answer hs, socket_answer hs (run_sessionIds accounts policies calls)]

/-- Whoever takes a seat puts out who sat there. -/
theorem SitDown.retakes {s : State} {c : Call} {hash : List Nat} {e : Int}
    {roomId roomMemberId actorId novaActorId : Id} {pseudonym : Pseudonym}
    (h : SitDown hash e roomId roomMemberId actorId pseudonym novaActorId s c) :
    Retake roomMemberId s c := by
  cases c with
  | finishJoin which otherId sessionId token clock =>
    obtain ⟨p, room, member, hp, hseats, -, -, -, -, -, hid, -⟩ := h
    exact ⟨p, room, member, hp, hseats, hid⟩
  | _ => exact h.elim

/-- However often the codes of a seat are given, at most one token opens it. -/
theorem seat_opens_to_one (roomMemberId : Id) :
    {hash | ∃ raw text now sessionId roomId actorId pseudonym novaActorId actorId',
      tokenHash raw = hash ∧
        authenticateToken (commitAll step (State.initial accounts policies) calls).db (some raw)
          text now = .ok (.ok sessionId
            (.student roomId roomMemberId actorId pseudonym novaActorId) actorId')}.Subsingleton := by
  rintro _ ⟨raw, text, now, sessionId, roomId, actorId, pseudonym, novaActorId, actorId', rfl, hin⟩
    _ ⟨raw', text', now', sessionId', roomId', actor, pseudonym', nova, actor', rfl, hin'⟩
  have hs := run_coherent accounts policies calls
  obtain ⟨-, -, e, -, hsat⟩ := (student_answer hs).mp ⟨sessionId, actorId', hin⟩
  obtain ⟨-, -, e', -, hsat'⟩ := (student_answer hs).mp ⟨sessionId', actor', hin'⟩
  rw [admitted_iff] at hsat hsat'
  obtain ⟨s, c, hsit, hsit'⟩ := hsat.started_together hsat'
    (fun s c h => .inr (.inl h.retakes)) (fun s c h => .inr (.inl h.retakes))
  cases c with
  | finishJoin which otherId sessionId token clock =>
    obtain ⟨-, -, -, -, -, hhash, -⟩ := hsit
    obtain ⟨-, -, -, -, -, hhash', -⟩ := hsit'
    exact hhash.symm.trans hhash'
  | _ => exact hsit.elim

end Runs

end LearningOrbit.Access
