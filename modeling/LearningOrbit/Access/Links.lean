import LearningOrbit.Access.History

/-!
# Links

A link that was mailed signs its teacher in once, within its quarter of an hour.
-/

namespace LearningOrbit.Access

variable {db : Database} {s : State} {c : Call} {hash : List Nat} {teacherId : Id} {e : Int}

/-- A link with this token has not been used. -/
def Waits (links : List MagicLink) (hash : List Nat) (teacherId : Id) (e : Int) : Prop :=
  ∃ l ∈ links, l.tokenHash = hash ∧ l.teacherId = teacherId ∧ l.expiresAt = e ∧ l.consumedAt = none

/-- A link with this token goes out to the teacher. -/
def Mail (hash : List Nat) (teacherId : Id) (e : Int) (s : State) : Call → Prop
  | .requestLink email token magicLinkId clock =>
    Mails s.db email token magicLinkId teacherId ∧ tokenHash token.text = hash ∧
      micros clock + linkDuration = e
  | _ => False

/-- The link with this token signs somebody in. -/
def Use (hash : List Nat) (s : State) : Call → Prop
  | .consume rawToken token sessionId clock =>
    tokenHash rawToken = hash ∧ ∃ teacherId, SignsIn s.db rawToken token sessionId clock teacherId
  | _ => False

theorem Mails.unique {email : String} {token : OpaqueToken} {magicLinkId teacherId' : Id}
    (h : Mails db email token magicLinkId teacherId)
    (h' : Mails db email token magicLinkId teacherId') : teacherId = teacherId' := by
  obtain ⟨account, hfind, rfl⟩ := h.account
  obtain ⟨account', hfind', rfl⟩ := h'.account
  rw [Option.some.inj (hfind.symm.trans hfind')]

theorem waits_concat {links : List MagicLink} {link : MagicLink} (hl : link.consumedAt = none) :
    Waits (links ++ [link]) hash teacherId e ↔ Waits links hash teacherId e ∨
      link.tokenHash = hash ∧ link.teacherId = teacherId ∧ link.expiresAt = e := by
  simp only [Waits, List.mem_append, List.mem_singleton, or_and_right, exists_or, exists_eq_left,
    hl, and_true]

/-- Spending a token leaves the links of all others. -/
theorem waits_spend {other : List Nat} {clock : Int} {links : List MagicLink}
    (hl : (links.map MagicLink.tokenHash).Nodup)
    (h : ∃ l ∈ links, l.open other clock = true) :
    Waits (spend other clock links) hash teacherId e ↔
      Waits links hash teacherId e ∧ other ≠ hash := by
  unfold Waits spend
  simp only [List.mem_map, exists_exists_and_eq_and]
  constructor
  · rintro ⟨l, hmem, hrow⟩
    split at hrow
    · cases hrow.2.2.2
    · rename_i hclosed
      obtain ⟨hhash, hteacher, he, hunused⟩ := hrow
      refine ⟨⟨l, hmem, hhash, hteacher, he, hunused⟩, ?_⟩
      rintro rfl
      obtain ⟨l', hmem', hopen⟩ := h
      have hsame : l.tokenHash = l'.tokenHash :=
        hhash.trans (MagicLink.open_iff.mp hopen).1.symm
      rw [List.inj_on_of_nodup_map hl hmem hmem' hsame] at hclosed
      exact hclosed hopen
  · rintro ⟨⟨l, hmem, hhash, hrest⟩, hother⟩
    have hclosed : ¬l.open other clock = true := by
      intro hopen
      exact hother ((MagicLink.open_iff.mp hopen).1.symm.trans hhash)
    refine ⟨l, hmem, ?_⟩
    rw [if_neg hclosed]
    exact ⟨hhash, hrest⟩

theorem Mail.accepted (h : Mail hash teacherId e s c) : ∃ s', step s c = .ok s' := by
  cases c with
  | requestLink email token magicLinkId clock =>
    have hok : requestLink s.db email token magicLinkId clock = _ :=
      requestLink_ok.mpr ⟨teacherId, h.1, rfl, rfl⟩
    exact ⟨_, map_eq_ok.mpr ⟨_, hok, rfl⟩⟩
  | _ => exact h.elim

theorem Use.accepted (hs : Coherent s.db) (h : Use hash s c) : ∃ s', step s c = .ok s' := by
  cases c with
  | consume rawToken token sessionId clock =>
    obtain ⟨-, teacherId, hsign⟩ := h
    have hok := (consume_ok hs.links).mpr ⟨teacherId, hsign, rfl, rfl⟩
    exact ⟨_, map_eq_ok.mpr ⟨_, hok, rfl⟩⟩
  | _ => exact h.elim

/-- A link comes with a mail and goes with its use. -/
theorem waits_step (hs : Coherent s.db) :
    Waits (commit step s c).db.links hash teacherId e ↔
      Mail hash teacherId e s c ∨ Waits s.db.links hash teacherId e ∧ ¬Use hash s c := by
  rcases commit_cases hs c with ⟨s', db', -, heq, heffect⟩ | ⟨⟨message, herror⟩, heq⟩
  · rw [heq]
    cases heffect with
    | read hc => cases c <;> simp [Call.reads, Mail, Use] at hc ⊢
    | unmailed h => simp [Mail, Use, h]
    | mailed h =>
      refine (waits_concat rfl).trans ⟨?_, ?_⟩
      · rintro (hwaits | ⟨hhash, rfl, he⟩)
        · exact .inr ⟨hwaits, id⟩
        · exact .inl ⟨h, hhash, he⟩
      · rintro (⟨hmail, hhash, he⟩ | ⟨hwaits, -⟩)
        · exact .inr ⟨hhash, h.unique hmail, he⟩
        · exact .inl hwaits
    | refused h => simp [Mail, Use, h]
    | @signedIn rawToken token sessionId other clock h =>
      obtain ⟨link, hlink, hopen, -⟩ := h.link
      refine (waits_spend hs.links ⟨link, hlink, hopen⟩).trans ?_
      have hsigns : ∃ t, SignsIn s.db rawToken token sessionId clock t := ⟨other, h⟩
      simp [Mail, Use, hsigns]
    | revoked rawToken now =>
      have hsame : (revoke s.db rawToken now).links = s.db.links := by
        cases rawToken with
        | none => rfl
        | some raw =>
          change (if unusable raw then s.db else _ : Database).links = _
          split <;> rfl
      rw [hsame]
      simp [Mail, Use]
    | created hwho hreq h => simp [Mail, Use, furnished]
    | seated hp h => simp [Mail, Use, seated, revokeWhere]
    | closed h => simp [Mail, Use, closedFor, revokeWhere]
    | busy hroom h => simp [Mail, Use]
    | expired hroom h hthere hfresh => simp [Mail, Use, expiredFor, revokeWhere]
    | projected deletionJobId status =>
      have hsame : (projectStatus s.db deletionJobId status).links = s.db.links := by
        unfold projectStatus
        split <;> rfl
      rw [hsame]
      simp [Mail, Use]
    | finished deletionJobId =>
      have hsame : (finishDeletion s.db deletionJobId).links = s.db.links := by
        rcases finishDeletion_eq hs deletionJobId with heq | ⟨room, -, hlinks, -⟩
        · rw [heq]
        · exact hlinks
      rw [hsame]
      simp [Mail, Use]
    | applied id event => simp [Mail, Use, applyEvent]
  · rw [heq]
    have hno : ¬Mail hash teacherId e s c := not_refused herror fun h => h.accepted
    have hkept : ¬Use hash s c := not_refused herror fun h => h.accepted hs
    simp [hno, hkept]

theorem consume_answer (hs : Coherent db) {rawToken : String} {token : OpaqueToken}
    {sessionId : Id} {clock : Int} :
    (∃ db' text, consume db rawToken token sessionId clock = .ok (db', some text)) ↔
      unusable rawToken = false ∧
        (∀ row ∈ db.sessions, row.sessionId ≠ sessionId ∧ row.tokenHash ≠ tokenHash token.text) ∧
        ∃ teacherId e, micros clock < e ∧ Waits db.links (tokenHash rawToken) teacherId e := by
  simp only [consume_ok hs.links]
  constructor
  · rintro ⟨-, -, teacherId, h, -, -⟩
    obtain ⟨link, hlink, hopen, rfl⟩ := h.link
    obtain ⟨hhash, hunused, hexpires⟩ := MagicLink.open_iff.mp hopen
    exact ⟨h.usable, h.fresh, _, _, hexpires, link, hlink, hhash, rfl, rfl, hunused⟩
  · rintro ⟨husable, hfresh, teacherId, e, hexpires, link, hlink, hhash, hteacher, rfl, hunused⟩
    have hopen := MagicLink.open_iff.mpr ⟨hhash, hunused, hexpires⟩
    exact ⟨_, _, teacherId, ⟨husable, ⟨link, hlink, hopen, hteacher⟩, hfresh⟩, rfl, rfl⟩

/-- A token signs in exactly if it was mailed less than a quarter of an hour ago and not used
since, provided that what the new session is called by is new. -/
theorem link_signs_in_iff (accounts : List TeacherAccount) (policies : List Policy)
    (calls : List Call) (rawToken : String) (token : OpaqueToken) (sessionId : Id) (clock : Int) :
    (∃ db' text,
        consume (commitAll step (State.initial accounts policies) calls).db rawToken token sessionId
          clock = .ok (db', some text)) ↔
      unusable rawToken = false ∧
        (∀ row ∈ (commitAll step (State.initial accounts policies) calls).db.sessions,
          row.sessionId ≠ sessionId ∧ row.tokenHash ≠ tokenHash token.text) ∧
        ∃ teacherId e, micros clock < e ∧
          Since (commit step) (Mail (tokenHash rawToken) teacherId e) (Use (tokenHash rawToken))
            (State.initial accounts policies) calls := by
  rw [consume_answer (run_coherent accounts policies calls)]
  have hwaits (teacherId : Id) (e : Int) :
      Waits (commitAll step (State.initial accounts policies) calls).db.links (tokenHash rawToken)
          teacherId e ↔
        Since (commit step) (Mail (tokenHash rawToken) teacherId e) (Use (tokenHash rawToken))
          (State.initial accounts policies) calls := by
    refine Since.iff_of_step (I := fun s : State => Coherent s.db)
      (P := fun s : State => Waits s.db.links (tokenHash rawToken) teacherId e)
      (fun s c hs => commit_coherent hs c) (fun s c hs => waits_step hs)
      (coherent_initial accounts policies) ?_
    rintro ⟨link, hlink, -⟩
    cases hlink
  simp only [hwaits]

end LearningOrbit.Access
