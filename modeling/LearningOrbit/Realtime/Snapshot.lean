import LearningOrbit.Realtime.Resume

/-!
# What a connection asks a snapshot for

Every `snapshot_required` names the cursor of the hello, or zero before it, whatever has
been replayed since. A browser that has processed the frames before it agrees exactly when
no event was among them and the hello was in, unless its cursor is zero.
-/

namespace LearningOrbit.Realtime

open LearningOrbit.Rooms (Envelope)

variable {α : Type} {congested : Nat → Bool}

def Session.receiveAll (s : Session α) (frames : List (Frame α)) : Session α :=
  frames.foldl Session.receiveFrame s

/-- The browser takes every `snapshot_required` of the log as the start of a recovery. -/
def Agrees (s : Session α) (log : List (Frame α)) : Prop :=
  ∀ front back afterSeq through, log = front ++ .snapshotRequired afterSeq through :: back →
    (s.receiveAll front).ledger.lastRoomSeq = afterSeq ∧ afterSeq ≤ through ∧
      ((s.receiveAll front).onFrame (.snapshotRequired afterSeq through)).2 = none

/-- A snapshot is asked for before any event, and after the hello unless the cursor is zero. -/
def AsksEarly (s : Session α) (w : Server α) : Prop :=
  ∀ front back afterSeq through,
    w.connection.sent = front ++ .snapshotRequired afterSeq through :: back →
      (∀ e, .event e ∉ front) ∧ (w.connection.hello = true ∨ s.ledger.lastRoomSeq = 0)

/-- The browser can append the events after its cursor. -/
structure Genuine (s : Session α) (outbox : List (DurableRow α)) : Prop where
  working : s.recoveryError = none
  room : ∀ e, Stored outbox e → e.roomId = s.ledger.roomId
  fresh : ∀ e, Stored outbox e → s.ledger.lastRoomSeq < e.roomSeq →
    e.eventId ∉ s.ledger.events.map Envelope.eventId

/-! ## The log of a connection -/

def Unasked (log : List (Frame α)) : Prop :=
  ∀ afterSeq through, .snapshotRequired afterSeq through ∉ log

/-- The frames of a replay: a welcome, and events from the one after the cursor on. -/
def Replays (outbox : List (DurableRow α)) (resumeFrom : Nat) (log : List (Frame α))
    (replayed : List (Envelope α)) : Prop :=
  (∃ cursor, log = .welcome cursor :: replayed.map .event) ∧
    ∀ e, replayed.head? = some e → e.roomSeq = resumeFrom + 1 ∧ Stored outbox e

/-- What was sent before a snapshot was asked for. -/
def Opening (outbox : List (DurableRow α)) (c : Connection α) (log : List (Frame α)) : Prop :=
  log = [] ∨ c.hello = true ∧ ∃ replayed, Replays outbox c.resumeFrom log replayed

def Prepared (w : Server α) : Prop :=
  match w.phase with
  | .hello => Gated w.connection false ∧ w.connection.sent = []
  | .authorizing | .roomState => Gated w.connection true ∧ w.connection.sent = []
  | .querying => Gated w.connection true ∧ ∃ cursor, w.connection.sent = [.welcome cursor]
  | .replaying rows through =>
    Gated w.connection true ∧ w.connection.resumeFrom ≤ through ∧
      (∀ row ∈ rows, row ∈ w.outbox) ∧ (∀ row, rows.head? = some row → row.roomSeq = through + 1) ∧
      ∃ replayed, Replays w.outbox w.connection.resumeFrom w.connection.sent replayed ∧
        (replayed = [] → through = w.connection.resumeFrom)
  | .done =>
    w.connection.hello = true ∧ w.connection.replaying = false ∧ Unasked w.connection.sent

/-- The hello brings the browser's cursor. -/
def AtCursor (cursor : Nat) (c : Connection α) : Prop :=
  c.resumeFrom = if c.hello then cursor else 0

structure Consistent (cursor : Nat) (w : Server α) : Prop where
  resumeFrom : AtCursor cursor w.connection
  prepared : w.connection.closed = false → Prepared w
  asked : Unasked w.connection.sent ∨ w.connection.closed = true ∧
    ∃ front through, w.connection.sent =
      front ++ [.snapshotRequired w.connection.resumeFrom through] ∧
      Unasked front ∧ Opening w.outbox w.connection front ∧ w.connection.resumeFrom ≤ through

theorem start_consistent (cursor : Nat) (roomId : String) :
    Consistent cursor (Server.start roomId : Server α) where
  resumeFrom := rfl
  prepared _ := ⟨⟨rfl, rfl, rfl⟩, rfl⟩
  asked := .inl (by simp [Unasked, Server.start, Connection.opened])

theorem Replays.unasked {outbox : List (DurableRow α)} {resumeFrom : Nat} {log : List (Frame α)}
    {replayed : List (Envelope α)} (h : Replays outbox resumeFrom log replayed) : Unasked log := by
  obtain ⟨⟨cursor, rfl⟩, -⟩ := h
  simp [Unasked]

theorem Replays.mono {outbox outbox' : List (DurableRow α)} {resumeFrom : Nat}
    {log : List (Frame α)} {replayed : List (Envelope α)}
    (h : Replays outbox resumeFrom log replayed) (hp : outbox <+: outbox') :
    Replays outbox' resumeFrom log replayed :=
  ⟨h.1, fun e he => ⟨(h.2 e he).1, (h.2 e he).2.mono hp⟩⟩

theorem Opening.mono {outbox outbox' : List (DurableRow α)} {c : Connection α}
    {log : List (Frame α)} (h : Opening outbox c log) (hp : outbox <+: outbox') :
    Opening outbox' c log := by
  rcases h with hnil | ⟨hhello, replayed, hreplays⟩
  · exact .inl hnil
  · exact .inr ⟨hhello, replayed, hreplays.mono hp⟩

/-! ## Sends -/

/-- What every send but that of a `snapshot_required` keeps. -/
structure Keeps (c c' : Connection α) : Prop where
  hello : c'.hello = c.hello
  resumeFrom : c'.resumeFrom = c.resumeFrom
  unasked : Unasked c.sent → Unasked c'.sent

theorem Keeps.rfl (c : Connection α) : Keeps c c := ⟨Eq.refl _, Eq.refl _, id⟩

theorem Keeps.trans {c₁ c₂ c₃ : Connection α} (h : Keeps c₁ c₂) (h' : Keeps c₂ c₃) :
    Keeps c₁ c₃ :=
  ⟨h'.hello.trans h.hello, h'.resumeFrom.trans h.resumeFrom, fun hu => h'.unasked (h.unasked hu)⟩

theorem AtCursor.keeps {cursor : Nat} {c c' : Connection α} (h : AtCursor cursor c)
    (hk : Keeps c c') : AtCursor cursor c' := by
  unfold AtCursor at h ⊢
  rw [hk.resumeFrom, hk.hello]
  exact h

theorem close_keeps (c : Connection α) : Keeps c c.close := by
  unfold Connection.close
  split <;> exact ⟨rfl, rfl, id⟩

theorem send_keeps (c : Connection α) {frame : Frame α}
    (hframe : ∀ afterSeq through, frame ≠ .snapshotRequired afterSeq through) :
    Keeps c (c.send congested frame) := by
  unfold Connection.send
  split
  · exact .rfl c
  · split
    · have hclose := close_keeps { c with looks := c.looks + 1 }
      exact ⟨hclose.hello, hclose.resumeFrom, hclose.unasked⟩
    · refine ⟨rfl, rfl, fun hu afterSeq through hmem => ?_⟩
      rcases List.mem_append.mp hmem with hold | hnew
      · exact hu afterSeq through hold
      · exact hframe afterSeq through (List.mem_singleton.mp hnew).symm

theorem flush_keeps (events : List (Envelope α)) (c : Connection α) :
    Keeps c (Connection.flush congested events c) ∧
      (Connection.flush congested events c).replaying = c.replaying := by
  induction events generalizing c with
  | nil => exact ⟨.rfl c, rfl⟩
  | cons e rest ih =>
    unfold Connection.flush
    split
    · obtain ⟨hkeeps, hreplaying⟩ := ih ((c.send congested (.event e)).setReplayThrough e.roomSeq)
      refine ⟨.trans (send_keeps c (by simp)) ⟨hkeeps.hello, hkeeps.resumeFrom, hkeeps.unasked⟩, ?_⟩
      rw [hreplaying]
      change (c.send congested (.event e)).replaying = c.replaying
      unfold Connection.send Connection.close
      split
      · rfl
      · split <;> rfl
    · exact ih c

theorem finishReplay_keeps (c : Connection α) (through : Nat) :
    Keeps c (c.finishReplay congested through) ∧
      (c.closed = false → (c.finishReplay congested through).replaying = false) := by
  unfold Connection.finishReplay
  split
  · rename_i hclosed
    exact ⟨.rfl c, fun hopen => by rw [hclosed] at hopen; cases hopen⟩
  · obtain ⟨hkeeps, hreplaying⟩ := @flush_keeps α congested
      (c.liveBuffer.insertionSort (·.roomSeq ≤ ·.roomSeq))
      { c with
        replayThrough := max c.replayThrough through
        replaying := false
        liveBuffer := [] }
    exact ⟨⟨hkeeps.hello, hkeeps.resumeFrom, hkeeps.unasked⟩, fun _ => hreplaying⟩

/-- A request for a snapshot closes the connection, and is the last frame if it is sent. -/
theorem requireSnapshot_sent (c : Connection α) (afterSeq through : Nat) :
    (c.requireSnapshot congested afterSeq through).hello = c.hello ∧
      (c.requireSnapshot congested afterSeq through).resumeFrom = c.resumeFrom ∧
      ((c.requireSnapshot congested afterSeq through).sent = c.sent ∨
        (c.requireSnapshot congested afterSeq through).sent =
          c.sent ++ [.snapshotRequired afterSeq through]) := by
  unfold Connection.requireSnapshot Connection.send Connection.close
  dsimp only
  repeat' split
  all_goals simp

/-! ## Steps -/

section
variable {w w' : Server α} {c : Connection α} {cursor through : Nat}

/-- A connection that closes without asking. -/
theorem consistent_of_closed (hcursor : AtCursor cursor c)
    (hunasked : Unasked c.sent) (hconnection : w'.connection = c) (hclosed : c.closed = true) :
    Consistent cursor w' := by
  subst hconnection
  refine ⟨hcursor, fun hopen => ?_, .inl hunasked⟩
  rw [hclosed] at hopen
  cases hopen

/-- A connection that asks from its cursor, with nothing but a replay before it. -/
theorem consistent_of_asked (hcursor : AtCursor cursor c)
    (hunasked : Unasked c.sent) (hopening : Opening w'.outbox c c.sent)
    (hle : c.resumeFrom ≤ through)
    (hconnection : w'.connection = c.requireSnapshot congested c.resumeFrom through) :
    Consistent cursor w' := by
  obtain ⟨hhello, hfrom, hsent⟩ :=
    @requireSnapshot_sent α congested c c.resumeFrom through
  have hclosed : w'.connection.closed = true := by
    rw [hconnection]
    exact Connection.requireSnapshot_closed ..
  rw [← hconnection] at hhello hfrom hsent
  have hcursor' : AtCursor cursor w'.connection := by
    unfold AtCursor at hcursor ⊢
    rw [hhello, hfrom]
    exact hcursor
  refine ⟨hcursor', fun hopen => ?_, ?_⟩
  · rw [hclosed] at hopen
    cases hopen
  · rcases hsent with hsame | hasked
    · rw [hsame]
      exact .inl hunasked
    · refine .inr ⟨hclosed, c.sent, through, ?_, hunasked, ?_, ?_⟩
      · rw [hasked, hfrom]
      · rcases hopening with hnil | ⟨hh, replayed, hreplays⟩
        · exact .inl hnil
        · exact .inr ⟨hhello.trans hh, replayed, hfrom.symm ▸ hreplays⟩
      · rw [hfrom]
        exact hle

/-- The loop over the rows: nothing but events after the welcome until it is over. -/
theorem nextRow_consistent {rows : List (DurableRow α)} (replayed : List (Envelope α))
    (hcursor : AtCursor cursor c) (hunasked : Unasked c.sent)
    (hopened : c.closed = false → Gated c true ∧ c.resumeFrom ≤ through ∧
      (∀ row ∈ rows, row ∈ w.outbox) ∧ Replays w.outbox c.resumeFrom c.sent replayed ∧
      (replayed = [] → through = c.resumeFrom)) :
    Consistent cursor (w.nextRow congested c through rows) := by
  cases hclosed : c.closed with
  | true =>
    exact consistent_of_closed hcursor hunasked (nextRow_closed w through rows hclosed) hclosed
  | false =>
    obtain ⟨hgated, hle, hrows, hreplays, hnone⟩ := hopened hclosed
    unfold Server.nextRow
    cases rows with
    | nil =>
      dsimp only
      have hsend := @send_keeps α congested c (.resumeComplete through) (by simp)
      obtain ⟨hfinish, hreplaying⟩ :=
        @finishReplay_keeps α congested (c.send congested (.resumeComplete through)) through
      have hkeeps := hsend.trans hfinish
      refine ⟨hcursor.keeps hkeeps,
        fun hopen => ⟨hkeeps.hello.trans hgated.hello, ?_, hkeeps.unasked hunasked⟩,
        .inl (hkeeps.unasked hunasked)⟩
      apply hreplaying
      cases hc : (c.send congested (.resumeComplete through)).closed with
      | false => rfl
      | true =>
        dsimp only [Server.over] at hopen
        rw [Connection.finishReplay_closed _ hc, hc] at hopen
        cases hopen
    | cons row rest =>
      dsimp only
      split
      · refine consistent_of_asked hcursor hunasked (.inr ⟨hgated.hello, replayed, hreplays⟩) hle rfl
      · rename_i hnext
        refine ⟨hcursor, fun _ => ⟨hgated, hle, hrows, ?_, replayed, hreplays, hnone⟩, .inl hunasked⟩
        intro r hr
        cases hr
        exact not_not.mp hnext

/-- Steps that leave the connection and the phase alone. -/
theorem Consistent.carry (h : Consistent cursor w) (hconnection : w'.connection = w.connection)
    (hphase : w'.phase = w.phase) (houtbox : w.outbox <+: w'.outbox) : Consistent cursor w' := by
  refine ⟨hconnection ▸ h.resumeFrom, fun hopen => ?_, ?_⟩
  · rw [hconnection] at hopen
    have hprepared := h.prepared hopen
    unfold Prepared at hprepared ⊢
    rw [hphase, hconnection]
    cases hw : w.phase with
    | hello | authorizing | roomState | querying | done =>
      rw [hw] at hprepared
      exact hprepared
    | replaying rows through =>
      rw [hw] at hprepared
      obtain ⟨hgated, hle, hrows, hhead, replayed, hreplays, hnone⟩ := hprepared
      exact ⟨hgated, hle, fun row hrow => houtbox.subset (hrows row hrow), hhead, replayed,
        hreplays.mono houtbox, hnone⟩
  · rw [hconnection]
    rcases h.asked with hunasked | ⟨hclosed, front, through, hsent, hfront, hopening, hle⟩
    · exact .inl hunasked
    · exact .inr ⟨hclosed, front, through, hsent, hfront, hopening.mono houtbox, hle⟩

theorem Consistent.unasked (h : Consistent cursor w) (hopen : w.connection.closed = false) :
    Unasked w.connection.sent := by
  rcases h.asked with hunasked | ⟨hclosed, -⟩
  · exact hunasked
  · rw [hopen] at hclosed
    cases hclosed

/-- Before the resume is over the log is at most a replay, and the gate is shut. -/
theorem Prepared.opening (h : Prepared w) (hphase : w.phase ≠ .done) :
    w.connection.replaying = true ∧ Opening w.outbox w.connection w.connection.sent := by
  unfold Prepared at h
  cases hw : w.phase with
  | hello =>
    rw [hw] at h
    exact ⟨h.1.replaying, .inl h.2⟩
  | authorizing | roomState =>
    rw [hw] at h
    exact ⟨h.1.replaying, .inl h.2⟩
  | querying =>
    rw [hw] at h
    obtain ⟨hgated, cursor, hsent⟩ := h
    exact ⟨hgated.replaying, .inr ⟨hgated.hello, [], ⟨cursor, hsent⟩, by simp⟩⟩
  | replaying rows through =>
    rw [hw] at h
    obtain ⟨hgated, -, -, -, replayed, hreplays, -⟩ := h
    exact ⟨hgated.replaying, .inr ⟨hgated.hello, replayed, hreplays⟩⟩
  | done => exact absurd hw hphase

variable (h : Consistent cursor w) (hopen : w.connection.closed = false)
include h hopen

theorem close_consistent (hclose : w'.connection = w.connection.close) : Consistent cursor w' :=
  consistent_of_closed (h.resumeFrom.keeps (close_keeps _))
    ((close_keeps _).unasked (h.unasked hopen)) hclose (Connection.close_closed _)

theorem hello_consistent (resumeFrom : Nat) (hr : resumeFrom = cursor) :
    Consistent cursor (w.act congested (.hello resumeFrom)) := by
  unfold Server.act
  dsimp only
  split
  · rename_i hphase
    split
    · have hprepared := h.prepared hopen
      unfold Prepared at hprepared
      rw [hphase] at hprepared
      obtain ⟨hgated, hsent⟩ := hprepared
      exact ⟨hr, fun _ => ⟨⟨rfl, hgated.replaying, hgated.replayThrough⟩, hsent⟩,
        .inl (h.unasked hopen)⟩
    · exact h
  · exact h

theorem authorized_consistent (ok : Bool) :
    Consistent cursor (w.act congested (.authorized ok)) := by
  unfold Server.act
  dsimp only
  split
  · rename_i hphase
    split
    · have hprepared := h.prepared hopen
      unfold Prepared at hprepared
      rw [hphase] at hprepared
      exact ⟨h.resumeFrom, fun _ => hprepared, .inl (h.unasked hopen)⟩
    · exact close_consistent h hopen rfl
  · exact h

theorem roomState_consistent (at? : Option Nat) :
    Consistent cursor (w.act congested (.roomState at?)) := by
  unfold Server.act
  dsimp only
  split
  · rename_i hphase
    split
    · rename_i at₀
      have hprepared := h.prepared hopen
      unfold Prepared at hprepared
      rw [hphase] at hprepared
      obtain ⟨hgated, hsent⟩ := hprepared
      have hkeeps := @send_keeps α congested w.connection (.welcome at₀) (by simp)
      refine ⟨h.resumeFrom.keeps hkeeps, fun hopen' => ?_,
        .inl (hkeeps.unasked (h.unasked hopen))⟩
      dsimp only at hopen'
      unfold Prepared
      dsimp only
      rw [(Connection.send_open hopen').2]
      refine ⟨⟨hgated.hello, hgated.replaying, hgated.replayThrough⟩, at₀, ?_⟩
      change w.connection.sent ++ [.welcome at₀] = _
      rw [hsent, List.nil_append]
    · exact close_consistent h hopen rfl
  · exact h

theorem startReplay_consistent (hphase : w.phase = .querying) :
    Consistent cursor (w.startReplay congested) := by
  have hprepared := h.prepared hopen
  unfold Prepared at hprepared
  rw [hphase] at hprepared
  obtain ⟨hgated, at₀, hsent⟩ := hprepared
  have hreplays : Replays w.outbox w.connection.resumeFrom w.connection.sent [] :=
    ⟨⟨at₀, hsent⟩, by simp⟩
  unfold Server.startReplay
  dsimp only
  split
  · rename_i hmany
    refine consistent_of_asked h.resumeFrom (h.unasked hopen)
      (.inr ⟨hgated.hello, [], hreplays⟩) ?_ rfl
    obtain ⟨last, hlast⟩ : ∃ last, ((w.outbox.filter fun row =>
        w.connection.resumeFrom < row.roomSeq).take 501).getLast? = some last := by
      rw [← Option.isSome_iff_exists, List.getLast?_isSome]
      intro hnil
      rw [hnil] at hmany
      simp at hmany
    have hmem := List.mem_of_mem_take (List.mem_of_getLast? hlast)
    have hgt := (List.mem_filter.mp hmem).2
    rw [hlast]
    simp only [decide_eq_true_eq] at hgt
    exact Nat.le_of_lt hgt
  · refine nextRow_consistent [] h.resumeFrom (h.unasked hopen) fun _ => ?_
    exact ⟨hgated, Nat.le_refl _,
      fun row hrow => (List.mem_filter.mp (List.mem_of_mem_take hrow)).1, hreplays, fun _ => rfl⟩

theorem replayRow_consistent {row : DurableRow α} {rest : List (DurableRow α)} {through : Nat}
    (hphase : w.phase = .replaying (row :: rest) through) :
    Consistent cursor (w.replayRow congested row rest through) := by
  have hprepared := h.prepared hopen
  unfold Prepared at hprepared
  rw [hphase] at hprepared
  obtain ⟨hgated, hle, hrows, hhead, replayed, hreplays, hnone⟩ := hprepared
  have hopening : Opening w.outbox w.connection w.connection.sent :=
    .inr ⟨hgated.hello, replayed, hreplays⟩
  unfold Server.replayRow
  dsimp only
  cases henv : row.envelope with
  | none => exact consistent_of_asked h.resumeFrom (h.unasked hopen) hopening hle rfl
  | some e =>
    dsimp only
    split
    · exact consistent_of_asked h.resumeFrom (h.unasked hopen) hopening hle rfl
    · rename_i hsame
      have hseq : e.roomSeq = through + 1 := (not_not.mp hsame).trans (hhead row rfl)
      have hkeeps := @send_keeps α congested w.connection (.event e) (by simp)
      refine nextRow_consistent (replayed ++ [e]) (h.resumeFrom.keeps hkeeps)
        (hkeeps.unasked (h.unasked hopen)) fun hopen' => ?_
      rw [(Connection.send_open hopen').2]
      refine ⟨⟨hgated.hello, hgated.replaying, hgated.replayThrough⟩, ?_, ?_, ⟨?_, ?_⟩, by simp⟩
      · change w.connection.resumeFrom ≤ e.roomSeq
        omega
      · exact fun r hr => hrows r (List.mem_cons_of_mem _ hr)
      · obtain ⟨⟨at₀, hsent⟩, -⟩ := hreplays
        refine ⟨at₀, ?_⟩
        change w.connection.sent ++ [.event e] = _
        rw [hsent]
        simp
      · intro f hf
        cases replayed with
        | nil =>
          cases hf
          change e.roomSeq = w.connection.resumeFrom + 1 ∧ _
          rw [hseq, hnone rfl]
          exact ⟨rfl, row, hrows row (List.mem_cons_self ..), henv⟩
        | cons e₀ others =>
          cases hf
          exact hreplays.2 f rfl

/-- An event goes into the buffer. -/
theorem held_consistent (hphase : w.phase ≠ .done) (index : Nat) (e : Envelope α) :
    Consistent cursor (w.delivered index e (w.connection.held e)) := by
  have hprepared := h.prepared hopen
  have hgate : ∀ hello, Gated w.connection hello → Gated (w.connection.held e) hello :=
    fun hello hgated => ⟨hgated.hello, hgated.replaying, hgated.replayThrough⟩
  refine ⟨h.resumeFrom, fun _ => ?_, .inl (h.unasked hopen)⟩
  unfold Prepared at hprepared ⊢
  rw [show (w.delivered index e _).phase = w.phase from rfl]
  cases hw : w.phase with
  | hello =>
    rw [hw] at hprepared
    exact ⟨hgate false hprepared.1, hprepared.2⟩
  | authorizing | roomState | querying | replaying =>
    rw [hw] at hprepared
    exact ⟨hgate true hprepared.1, hprepared.2⟩
  | done => exact absurd hw hphase

theorem deliver_consistent (index : Nat) (ok : Bool) :
    Consistent cursor (w.act congested (.deliver index ok)) := by
  unfold Server.act
  dsimp only
  split
  · rename_i b hget
    split
    · cases ok with
      | false => exact close_consistent h hopen rfl
      | true =>
        have hprepared := h.prepared hopen
        change Consistent cursor (w.delivered index b.event
          (w.connection.sendDurable congested b.event))
        unfold Connection.sendDurable
        rw [if_neg (by simp [hopen])]
        split
        · rename_i hgate
          have hphase : w.phase ≠ .done := by
            intro hdone
            unfold Prepared at hprepared
            rw [hdone] at hprepared
            simp [hprepared.1, hprepared.2.1] at hgate
          split
          · exact consistent_of_asked h.resumeFrom (h.unasked hopen)
              (hprepared.opening hphase).2 (Nat.le_max_left ..) rfl
          · exact held_consistent h hopen hphase index b.event
        · rename_i hgate
          have hphase : w.phase = .done := by
            by_contra hnot
            simp [(hprepared.opening hnot).1] at hgate
          unfold Prepared at hprepared
          rw [hphase] at hprepared
          obtain ⟨hhello, hreplaying, hunasked⟩ := hprepared
          have hkeeps := @send_keeps α congested w.connection (.event b.event) (by simp)
          refine ⟨h.resumeFrom.keeps hkeeps, fun hopen' => ?_, .inl (hkeeps.unasked hunasked)⟩
          unfold Prepared
          rw [show (w.delivered index b.event _).phase = w.phase from rfl, hphase]
          refine ⟨hkeeps.hello.trans hhello, ?_, hkeeps.unasked hunasked⟩
          change (w.connection.send congested (.event b.event)).replaying = false
          rw [(Connection.send_open hopen').2]
          exact hreplaying
    · exact h
  · exact h

/-- One step; a hello brings the browser's cursor. -/
theorem act_consistent (a : Event α) (hhello : ∀ r, a = .hello r → r = cursor) :
    Consistent cursor (w.act congested a) := by
  cases a with
  | commit row =>
    refine h.carry ?_ ?_ (act_outbox w _)
    · unfold Server.act
      dsimp only
      split <;> rfl
    · unfold Server.act
      dsimp only
      split <;> rfl
  | connect | broadcast index =>
    refine h.carry ?_ ?_ (act_outbox w _)
    · unfold Server.act
      dsimp only
      split <;> rfl
    · unfold Server.act
      dsimp only
      split <;> rfl
  | hello resumeFrom => exact hello_consistent h hopen resumeFrom (hhello _ rfl)
  | authorized ok => exact authorized_consistent h hopen ok
  | roomState at? => exact roomState_consistent h hopen at?
  | queried ok =>
    unfold Server.act
    dsimp only
    split
    · rename_i hphase
      split
      · exact startReplay_consistent h hopen hphase
      · exact close_consistent h hopen rfl
    · exact h
  | replay ok =>
    unfold Server.act
    dsimp only
    split
    · rename_i row rest through hphase
      split
      · exact replayRow_consistent h hopen hphase
      · exact close_consistent h hopen rfl
    · exact h
  | deliver index ok => exact deliver_consistent h hopen index ok
  | finish index =>
    unfold Server.act
    dsimp only
    split
    · split
      · exact h
      · exact h.carry rfl rfl List.prefix_rfl
    · exact h
  | abort index => exact h.carry rfl rfl List.prefix_rfl
  | close =>
    unfold Server.act
    dsimp only
    split
    · exact close_consistent h hopen rfl
    · exact h

end

/-! ## Runs -/

theorem run_consistent (roomId : String) {cursor : Nat} (events : List (Event α))
    (hhello : ∀ r, .hello r ∈ events → r = cursor) :
    Consistent cursor ((Server.start roomId).run congested events) := by
  induction events using List.reverseRecOn with
  | nil => exact start_consistent cursor roomId
  | append_singleton events a ih =>
    have hw := ih fun r hr => hhello r (List.mem_append_left _ hr)
    rw [run_snoc]
    cases hc : ((Server.start roomId).run congested events).connection.closed with
    | false =>
      apply act_consistent hw hc
      rintro r rfl
      exact hhello r (List.mem_append_right _ (List.mem_singleton_self _))
    | true =>
      have hsame := @act_closed α congested _ a hc
      refine ⟨hsame ▸ hw.resumeFrom, fun hopen => ?_, ?_⟩
      · rw [hsame, hc] at hopen
        cases hopen
      · rw [hsame]
        rcases hw.asked with hunasked | ⟨hclosed, front, through, hsent, hfront, hopening, hle⟩
        · exact .inl hunasked
        · exact .inr ⟨hclosed, front, through, hsent, hfront, hopening.mono (act_outbox _ a), hle⟩

/-- A `snapshot_required` is the last frame of its connection. -/
theorem Consistent.last {cursor : Nat} {w : Server α} (h : Consistent cursor w)
    {front back : List (Frame α)} {afterSeq through : Nat}
    (hsent : w.connection.sent = front ++ .snapshotRequired afterSeq through :: back) :
    afterSeq = w.connection.resumeFrom ∧ afterSeq ≤ through ∧
      Opening w.outbox w.connection front := by
  rcases h.asked with hunasked | ⟨-, front', through', hsent', hfront, hopening, hle⟩
  · exact absurd (hsent ▸ List.mem_append_right _ (List.mem_cons_self ..))
      (hunasked afterSeq through)
  · rw [hsent] at hsent'
    rcases List.eq_nil_or_concat back with rfl | ⟨mid, last, rfl⟩
    · have hfronts := List.append_inj_left' hsent' rfl
      have hframe := List.append_inj_right' hsent' rfl
      subst hfronts
      simp only [List.cons.injEq, Frame.snapshotRequired.injEq, and_true] at hframe
      obtain ⟨rfl, rfl⟩ := hframe
      exact ⟨rfl, hle, hopening⟩
    · rw [List.concat_eq_append, ← List.cons_append, ← List.append_assoc] at hsent'
      have hfront' := List.append_inj_left' hsent' rfl
      exact absurd (hfront' ▸ List.mem_append_right _ (List.mem_cons_self ..))
        (hfront afterSeq through)

/-! ## The browser -/

theorem append_mono {l l' : EventLedger α} {e : Envelope α} {result : AppendResult}
    (h : l.append e = some (result, l')) : l.lastRoomSeq ≤ l'.lastRoomSeq := by
  unfold EventLedger.append at h
  split at h
  · cases h
  · split at h
    · cases h
      exact Nat.le_refl _
    · split at h
      · cases h
        exact Nat.le_refl _
      · split at h
        · cases h
          exact Nat.le_refl _
        · cases h
          dsimp only
          omega

theorem receiveFrame_mono (s : Session α) (frame : Frame α) :
    s.ledger.lastRoomSeq ≤ (s.receiveFrame frame).ledger.lastRoomSeq := by
  have hrecover : ∀ (s : Session α) n b, (s.recoverEvents n b).ledger = s.ledger := by
    intro s n b
    unfold Session.recoverEvents
    split <;> rfl
  have hsnapshot : ∀ (s : Session α) a t, (s.snapshotRequired a t).1.ledger = s.ledger := by
    intro s a t
    unfold Session.snapshotRequired
    split
    · rfl
    · exact hrecover ..
  have happend : ∀ (s : Session α) e,
      s.ledger.lastRoomSeq ≤ (s.appendEvent e).1.ledger.lastRoomSeq := by
    intro s e
    unfold Session.appendEvent
    split
    · exact Nat.le_refl _
    · rename_i ledger hledger
      exact append_mono hledger
    · exact Nat.le_refl _
    · exact Nat.le_refl _
    · exact Nat.le_refl _
  have hframe : s.ledger.lastRoomSeq ≤ (s.onFrame frame).1.ledger.lastRoomSeq := by
    cases frame with
    | event e =>
      change s.ledger.lastRoomSeq ≤ (s.acceptEvent e).1.ledger.lastRoomSeq
      unfold Session.acceptEvent
      split
      · exact Nat.le_refl _
      · split
        · rw [hsnapshot]
        · exact happend { s with lastRoomSeq := e.roomSeq } e
    | resumeComplete through =>
      unfold Session.onFrame
      dsimp only
      split
      · rw [hsnapshot]
      · exact Nat.le_refl _
    | snapshotRequired a t =>
      change s.ledger.lastRoomSeq ≤ (s.snapshotRequired a t).1.ledger.lastRoomSeq
      rw [hsnapshot]
    | welcome c => exact Nat.le_refl _
  unfold Session.receiveFrame
  split
  · exact Nat.le_refl _
  · split
    · rename_i s' heq
      rw [heq] at hframe
      exact hframe
    · rename_i s' code heq
      rw [heq] at hframe
      unfold Session.failRecovery
      split <;> exact hframe

theorem receiveAll_mono (frames : List (Frame α)) (s : Session α) :
    s.ledger.lastRoomSeq ≤ (s.receiveAll frames).ledger.lastRoomSeq := by
  induction frames generalizing s with
  | nil => exact Nat.le_refl _
  | cons frame rest ih => exact Nat.le_trans (receiveFrame_mono s frame) (ih _)

theorem receiveFrame_welcome (s : Session α) (cursor : Nat) :
    s.receiveFrame (.welcome cursor) = s := by
  unfold Session.receiveFrame Session.onFrame
  split <;> rfl

/-- The event after the cursor moves it. -/
theorem receiveFrame_next {s : Session α} {e : Envelope α} (hworking : s.recoveryError = none)
    (hsocket : s.lastRoomSeq = s.ledger.lastRoomSeq) (hroom : e.roomId = s.ledger.roomId)
    (hseq : e.roomSeq = s.ledger.lastRoomSeq + 1)
    (hfresh : e.eventId ∉ s.ledger.events.map Envelope.eventId) :
    (s.receiveFrame (.event e)).ledger.lastRoomSeq = s.ledger.lastRoomSeq + 1 := by
  have happend : s.ledger.append e = some (.appended,
      { s.ledger with events := s.ledger.events ++ [e], lastRoomSeq := e.roomSeq }) := by
    unfold EventLedger.append
    rw [if_neg (not_not.mpr hroom), if_neg hfresh, if_neg (by omega), if_neg (by omega)]
  have haccept : s.onFrame (.event e) = ({ s with lastRoomSeq := e.roomSeq }.appendEvent e) := by
    change s.acceptEvent e = _
    unfold Session.acceptEvent
    rw [if_neg (by rw [hroom, hsocket, hseq]; simp), if_neg (by omega)]
  unfold Session.receiveFrame
  rw [if_neg (by simp [hworking]), haccept]
  unfold Session.appendEvent
  rw [happend]
  exact hseq

/-- In every run: if a snapshot is asked for only before any event, and after the hello unless
the cursor is zero, the browser takes the request as the start of a recovery. Over events
that the browser can append, this is also necessary. -/
theorem snapshot_required_agreed (congested : Nat → Bool) (roomId : String) (s : Session α)
    (events : List (Event α)) (hsocket : s.lastRoomSeq = s.ledger.lastRoomSeq)
    (hhello : ∀ r, .hello r ∈ events → r = s.lastRoomSeq) :
    (AsksEarly s ((Server.start roomId).run congested events) →
      Agrees s ((Server.start roomId).run congested events).connection.sent) ∧
    (Genuine s ((Server.start roomId).run congested events).outbox →
      Agrees s ((Server.start roomId).run congested events).connection.sent →
        AsksEarly s ((Server.start roomId).run congested events)) := by
  rw [hsocket] at hhello
  have hw := @run_consistent α congested roomId _ events hhello
  generalize (Server.start roomId).run congested events = w at hw ⊢
  have hfrom := hw.resumeFrom
  unfold AtCursor at hfrom
  constructor
  · intro hearly front back afterSeq through hsent
    obtain ⟨hafter, hle, hopening⟩ := hw.last hsent
    obtain ⟨hnone, hzero⟩ := hearly front back afterSeq through hsent
    have hsame : s.receiveAll front = s := by
      rcases hopening with rfl | ⟨-, replayed, ⟨cursor, hlog⟩, -⟩
      · rfl
      · have : replayed = [] := by
          cases replayed with
          | nil => rfl
          | cons e rest => exact absurd (hlog ▸ by simp) (hnone e)
        subst this
        rw [hlog]
        exact receiveFrame_welcome s cursor
    have hcursor : s.ledger.lastRoomSeq = afterSeq := by
      rw [hafter, hfrom]
      split
      · rfl
      · rename_i hno
        exact hzero.resolve_left hno
    rw [hsame]
    refine ⟨hcursor, hle, ?_⟩
    change (s.snapshotRequired afterSeq through).2 = none
    unfold Session.snapshotRequired
    rw [if_neg (by omega)]
  · intro hgenuine hagrees front back afterSeq through hsent
    obtain ⟨hafter, hle, hopening⟩ := hw.last hsent
    obtain ⟨hledger, -, -⟩ := hagrees front back afterSeq through hsent
    rw [hafter, hfrom] at hledger
    rcases hopening with rfl | ⟨hh, replayed, ⟨cursor, hlog⟩, hhead⟩
    · refine ⟨by simp, ?_⟩
      cases hh : w.connection.hello with
      | true => exact .inl rfl
      | false =>
        rw [hh] at hledger
        exact .inr hledger
    · refine ⟨fun e he => ?_, .inl hh⟩
      rw [hh] at hledger hfrom
      cases replayed with
      | nil =>
        rw [hlog] at he
        simp at he
      | cons e₀ rest =>
        obtain ⟨hseq, hstored⟩ := hhead e₀ rfl
        have hnext : e₀.roomSeq = s.ledger.lastRoomSeq + 1 := by
          rw [hseq, hfrom]
          rfl
        have hmoved := receiveFrame_next hgenuine.working hsocket (hgenuine.room e₀ hstored) hnext
          (hgenuine.fresh e₀ hstored (by omega))
        have hmono := receiveAll_mono (rest.map .event) (s.receiveFrame (.event e₀))
        rw [hlog] at hledger
        change (((s.receiveFrame (.welcome cursor)).receiveFrame (.event e₀)).receiveAll
          (rest.map .event)).ledger.lastRoomSeq = s.ledger.lastRoomSeq at hledger
        rw [receiveFrame_welcome] at hledger
        omega

/-- The only row does not parse, so the request precedes every event. -/
def malformed : List (Event Unit) :=
  [.commit ⟨1, none⟩, .connect, .hello 0, .authorized true, .roomState (some 1), .queried true,
    .replay true]

theorem snapshot_required_agreed_malformed :
    ((Server.start "garden").run (fun _ => false) malformed).connection.sent =
      [.welcome 1, .snapshotRequired 0 0] ∧
    Agrees (.start "garden")
      ((Server.start "garden").run (fun _ => false) malformed).connection.sent := by
  have hlog : ((Server.start "garden").run (fun _ => false) malformed).connection.sent =
      [.welcome 1, .snapshotRequired 0 0] := by decide
  refine ⟨hlog, ?_⟩
  apply (snapshot_required_agreed (fun _ => false) "garden" (.start "garden") malformed rfl ?_).1
  · intro front back afterSeq through hsent
    refine ⟨fun e he => ?_, .inr rfl⟩
    have : .event e ∈ ((Server.start "garden").run (fun _ => false) malformed).connection.sent :=
      hsent ▸ List.mem_append_left _ he
    rw [hlog] at this
    simp at this
  · intro r hr
    have : r = 0 := by simpa [malformed] using hr
    exact this

def gardenNth (n : Nat) : Envelope Unit := gardenEvent ("e" ++ toString n) n

/-- An event is committed and broadcast. -/
def announced (n : Nat) : List (Event Unit) :=
  [.commit ⟨n + 3, some (gardenNth (n + 3))⟩, .broadcast (n + 2), .deliver 0 true, .finish 0]

/-- Two events of the room; the resume has replayed the first. -/
def halfReplayed : List (Event Unit) :=
  [.commit ⟨1, some (gardenNth 1)⟩, .commit ⟨2, some (gardenNth 2)⟩, .connect, .hello 0,
    .authorized true, .roomState (some 2), .queried true, .replay true]

/-- While the second waits, one event more is announced than the buffer holds. -/
def overflowed : List (Event Unit) :=
  halfReplayed ++ (List.range (maxLiveBufferEvents + 1)).flatMap announced

/-- The server with so many rows, events in the buffer and finished broadcasts. -/
def crowded (rows held finished : Nat) (broadcasts : List (Broadcast Unit)) : Server Unit where
  roomId := "garden"
  outbox := (List.range rows).map fun i => ⟨i + 1, some (gardenNth (i + 1))⟩
  joined := true
  connection :=
    ⟨true, false, true, 0, 0, (List.range held).map fun i => gardenNth (i + 3),
      [.welcome 2, .event (gardenNth 1)], 2⟩
  phase := .replaying [⟨2, some (gardenNth 2)⟩] 1
  broadcasts := broadcasts
  finished := (List.range finished).map fun i => gardenNth (i + 3)

theorem crowded_commit (n : Nat) :
    (crowded (n + 2) n n []).act (fun _ => false) (.commit ⟨n + 3, some (gardenNth (n + 3))⟩) =
      crowded (n + 3) n n [] := by
  unfold Server.act
  dsimp only
  rw [if_pos]
  · simp [crowded, List.range_succ]
  · simp [crowded]

theorem crowded_broadcast (n : Nat) :
    (crowded (n + 3) n n []).act (fun _ => false) (.broadcast (n + 2)) =
      crowded (n + 3) n n [⟨gardenNth (n + 3), true⟩] := by
  have hpublished : (crowded (n + 3) n n []).published (n + 2) = some (gardenNth (n + 3)) := by
    have hrow : (crowded (n + 3) n n []).outbox[n + 2]? =
        some ⟨n + 3, some (gardenNth (n + 3))⟩ := by
      simp [crowded]
    unfold Server.published
    rw [hrow]
    change (some (gardenNth (n + 3))).filter (fun e => e.roomId = "garden") = _
    rw [Option.filter_some, if_pos (by simp [gardenNth, gardenEvent])]
  unfold Server.act
  dsimp only
  rw [hpublished]
  rfl

theorem crowded_finish (n : Nat) :
    (crowded (n + 3) (n + 1) n [⟨gardenNth (n + 3), false⟩]).act (fun _ => false) (.finish 0) =
      crowded (n + 3) (n + 1) (n + 1) [] := by
  simp [Server.act, crowded, List.range_succ]

theorem crowded_deliver {n : Nat} (hn : n < maxLiveBufferEvents) :
    (crowded (n + 3) n n [⟨gardenNth (n + 3), true⟩]).act (fun _ => false) (.deliver 0 true) =
      crowded (n + 3) (n + 1) n [⟨gardenNth (n + 3), false⟩] := by
  have hroom : ¬ maxLiveBufferEvents ≤ n := by omega
  simp [Server.act, crowded, Connection.sendDurable, List.range_succ, hroom]

theorem crowded_announced {n : Nat} (hn : n < maxLiveBufferEvents) :
    (crowded (n + 2) n n []).run (fun _ => false) (announced n) =
      crowded (n + 3) (n + 1) (n + 1) [] := by
  unfold Server.run announced
  rw [List.foldl_cons, crowded_commit, List.foldl_cons, crowded_broadcast, List.foldl_cons,
    crowded_deliver hn, List.foldl_cons, crowded_finish, List.foldl_nil]

theorem crowded_overflow {n : Nat} (hn : maxLiveBufferEvents ≤ n) :
    ((crowded (n + 2) n n []).run (fun _ => false) (announced n)).connection.sent =
      [.welcome 2, .event (gardenNth 1), .snapshotRequired 0 0] := by
  have hdeliver : ((crowded (n + 3) n n [⟨gardenNth (n + 3), true⟩]).act (fun _ => false)
      (.deliver 0 true)).connection.sent =
        [.welcome 2, .event (gardenNth 1), .snapshotRequired 0 0] := by
    simp [Server.act, crowded, Connection.sendDurable, Connection.requireSnapshot, Connection.send,
      Connection.close, hn]
  unfold Server.run announced
  rw [List.foldl_cons, crowded_commit, List.foldl_cons, crowded_broadcast, List.foldl_cons,
    List.foldl_cons, List.foldl_nil, ← hdeliver]
  generalize (crowded (n + 3) n n [⟨gardenNth (n + 3), true⟩]).act (fun _ => false)
    (.deliver 0 true) = w
  unfold Server.act
  dsimp only
  split
  · split <;> rfl
  · rfl

theorem run_append (w : Server α) (events later : List (Event α)) :
    w.run congested (events ++ later) = (w.run congested events).run congested later :=
  List.foldl_append ..

theorem crowded_all {n : Nat} (hn : n ≤ maxLiveBufferEvents) :
    (crowded 2 0 0 []).run (fun _ => false) ((List.range n).flatMap announced) =
      crowded (n + 2) n n [] := by
  induction n with
  | zero => rfl
  | succ n ih =>
    rw [List.range_succ, List.flatMap_append, run_append, ih (by omega), List.flatMap_singleton]
    exact crowded_announced (by omega)

/-- The request names the cursor of the hello, and the browser has moved on. -/
theorem snapshot_refused_after_replay :
    ¬ Agrees (.start "garden")
      ((Server.start "garden").run (fun _ => false) overflowed).connection.sent := by
  have hstart : (Server.start "garden").run (fun _ => false) halfReplayed = crowded 2 0 0 [] := rfl
  have hlog : ((Server.start "garden").run (fun _ => false) overflowed).connection.sent =
      [.welcome 2, .event (gardenNth 1)] ++ .snapshotRequired 0 0 :: [] := by
    unfold overflowed
    rw [run_append, hstart, List.range_succ, List.flatMap_append, run_append,
      crowded_all (Nat.le_refl _), List.flatMap_singleton, crowded_overflow (Nat.le_refl _)]
    rfl
  intro hagrees
  have hledger := (hagrees _ _ _ _ hlog).1
  revert hledger
  decide

end LearningOrbit.Realtime
