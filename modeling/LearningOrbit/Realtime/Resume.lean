import Mathlib.Data.List.Induction
import LearningOrbit.Rows
import LearningOrbit.Realtime.Connection

/-!
# A resume loses no durable event

An event whose broadcast has passed the connection is among the rows of the query, or was
committed after the query and waits in the live buffer. The query and the buffer overlap,
so nothing falls between them, and the flush drops only what the replay has sent.
-/

namespace LearningOrbit.Realtime

open LearningOrbit.Rooms (Envelope)

variable {α : Type} {congested : Nat → Bool}

/-! ## One connection -/

@[simp] theorem Connection.close_closed (c : Connection α) : c.close.closed = true := by
  unfold Connection.close
  split
  · assumption
  · rfl

@[simp] theorem Connection.requireSnapshot_closed (c : Connection α) (afterSeq through : Nat) :
    (c.requireSnapshot congested afterSeq through).closed = true :=
  Connection.close_closed _

def Connection.logged (c : Connection α) (frame : Frame α) : Connection α :=
  { c with sent := c.sent ++ [frame], looks := c.looks + 1 }

def Connection.held (c : Connection α) (e : Envelope α) : Connection α :=
  { c with liveBuffer := c.liveBuffer ++ [e] }

/-- A connection that is open after a send has sent. -/
theorem Connection.send_open {c : Connection α} {frame : Frame α}
    (h : (c.send congested frame).closed = false) :
    c.closed = false ∧ c.send congested frame = c.logged frame := by
  unfold Connection.send at h ⊢
  split at h
  · rename_i hclosed
    rw [hclosed] at h
    cases h
  · rename_i hclosed
    split at h
    · simp at h
    · rename_i hfree
      rw [if_neg hclosed, if_neg hfree]
      exact ⟨Bool.not_eq_true _ ▸ hclosed, rfl⟩

theorem Connection.send_closed {c : Connection α} (frame : Frame α) (h : c.closed = true) :
    c.send congested frame = c := by
  unfold Connection.send
  rw [if_pos h]

theorem Connection.close_of_closed {c : Connection α} (h : c.closed = true) : c.close = c := by
  unfold Connection.close
  rw [if_pos h]

theorem Connection.requireSnapshot_of_closed {c : Connection α} (afterSeq through : Nat)
    (h : c.closed = true) : c.requireSnapshot congested afterSeq through = c := by
  unfold Connection.requireSnapshot
  rw [Connection.send_closed _ h, Connection.close_of_closed h]

theorem Connection.sendDurable_closed {c : Connection α} (e : Envelope α)
    (h : c.closed = true) : c.sendDurable congested e = c := by
  unfold Connection.sendDurable
  rw [if_pos h]

theorem Connection.finishReplay_closed {c : Connection α} (through : Nat)
    (h : c.closed = true) : c.finishReplay congested through = c := by
  unfold Connection.finishReplay
  rw [if_pos h]

/-- The gate is shut: the event waits in the buffer. -/
theorem Connection.sendDurable_gated {c : Connection α} {e : Envelope α}
    (hgate : c.replaying = true) (h : (c.sendDurable congested e).closed = false) :
    c.sendDurable congested e = c.held e := by
  unfold Connection.sendDurable at h ⊢
  split at h
  · rename_i hclosed
    rw [hclosed] at h
    cases h
  · rename_i hclosed
    rw [if_neg hclosed]
    rw [if_pos (by simp [hgate])] at h ⊢
    split at h
    · simp at h
    · rename_i hroom
      rw [if_neg hroom]
      rfl

/-- The gate is open: the event is sent at once. -/
theorem Connection.sendDurable_live {c : Connection α} {e : Envelope α} (hhello : c.hello = true)
    (hgate : c.replaying = false) (h : (c.sendDurable congested e).closed = false) :
    c.sendDurable congested e = c.logged (.event e) := by
  unfold Connection.sendDurable at h ⊢
  split at h
  · rename_i hclosed
    rw [hclosed] at h
    cases h
  · rename_i hclosed
    rw [if_neg hclosed]
    rw [if_neg (by simp [hhello, hgate])] at h ⊢
    exact (Connection.send_open h).2

/-- What the flush has sent, when the connection is open after it. -/
structure Flushed (c c' : Connection α) (events kept : List (Envelope α)) : Prop where
  sent : c'.sent = c.sent ++ kept.map .event
  increasing : (kept.map Envelope.roomSeq).Pairwise (· < ·)
  beyond : ∀ e ∈ kept, c.replayThrough < e.roomSeq
  complete : ∀ e ∈ events, c.replayThrough < e.roomSeq → ∃ k ∈ kept, k.roomSeq = e.roomSeq
  among : ∀ e ∈ kept, e ∈ events
  hello : c'.hello = c.hello
  replaying : c'.replaying = c.replaying
  resumeFrom : c'.resumeFrom = c.resumeFrom
  liveBuffer : c'.liveBuffer = c.liveBuffer

theorem Connection.flush_closed (events : List (Envelope α)) (c : Connection α)
    (h : c.closed = true) : (Connection.flush congested events c).closed = true := by
  induction events generalizing c with
  | nil => exact h
  | cons e rest ih =>
    unfold Connection.flush
    split
    · apply ih
      change (c.send congested (.event e)).closed = true
      rw [Connection.send_closed _ h]
      exact h
    · exact ih c h

theorem Connection.flush_spec (events : List (Envelope α)) (c : Connection α)
    (hsorted : events.Pairwise (·.roomSeq ≤ ·.roomSeq))
    (h : (Connection.flush congested events c).closed = false) :
    ∃ kept, Flushed c (Connection.flush congested events c) events kept := by
  induction events generalizing c with
  | nil =>
    exact ⟨[], by simp [Connection.flush], by simp, by simp, by simp, by simp, rfl, rfl, rfl, rfl⟩
  | cons e rest ih =>
    obtain ⟨hhead, hrest⟩ := List.pairwise_cons.mp hsorted
    unfold Connection.flush at h ⊢
    by_cases hnew : c.replayThrough < e.roomSeq
    · rw [if_pos hnew] at h ⊢
      have hopen : (c.send congested (.event e)).closed = false := by
        cases hc : (c.send congested (.event e)).closed with
        | false => rfl
        | true =>
          have hshut : ((c.send congested (.event e)).setReplayThrough e.roomSeq).closed = true := hc
          rw [Connection.flush_closed rest _ hshut] at h
          cases h
      rw [(Connection.send_open hopen).2] at h ⊢
      obtain ⟨kept, hk⟩ := ih _ hrest h
      refine ⟨e :: kept, ?_, ?_, ?_, ?_, ?_, hk.hello, hk.replaying, hk.resumeFrom, hk.liveBuffer⟩
      · rw [hk.sent, List.map_cons]
        exact List.append_assoc c.sent [.event e] _
      · rw [List.map_cons, List.pairwise_cons]
        refine ⟨fun n hn => ?_, hk.increasing⟩
        obtain ⟨k, hkm, rfl⟩ := List.mem_map.mp hn
        exact hk.beyond k hkm
      · intro k hkm
        rcases List.mem_cons.mp hkm with rfl | hin
        · exact hnew
        · exact Nat.lt_trans hnew (hk.beyond k hin)
      · intro f hf hlt
        rcases List.mem_cons.mp hf with rfl | hin
        · exact ⟨f, List.mem_cons_self .., rfl⟩
        -- An event of the same number is dropped: its twin has been sent.
        · rcases Nat.eq_or_lt_of_le (hhead f hin) with heq | hgt
          · exact ⟨e, List.mem_cons_self .., heq⟩
          · obtain ⟨k, hkm, hseq⟩ := hk.complete f hin hgt
            exact ⟨k, List.mem_cons_of_mem _ hkm, hseq⟩
      · intro k hkm
        rcases List.mem_cons.mp hkm with rfl | hin
        · exact List.mem_cons_self ..
        · exact List.mem_cons_of_mem _ (hk.among k hin)
    · rw [if_neg hnew] at h ⊢
      obtain ⟨kept, hk⟩ := ih c hrest h
      refine ⟨kept, hk.sent, hk.increasing, hk.beyond, ?_, ?_, hk.hello, hk.replaying,
        hk.resumeFrom, hk.liveBuffer⟩
      · intro f hf hlt
        rcases List.mem_cons.mp hf with rfl | hin
        · exact absurd hlt hnew
        · exact hk.complete f hin hlt
      · exact fun k hkm => List.mem_cons_of_mem _ (hk.among k hkm)

/-! ## The outbox -/

/-- The `i`-th row has number `i + 1`, and so has its event. -/
def Numbered (outbox : List (DurableRow α)) : Prop :=
  ∀ i row, outbox[i]? = some row →
    row.roomSeq = i + 1 ∧ ∀ e, row.envelope = some e → e.roomSeq = i + 1

def Stored (outbox : List (DurableRow α)) (e : Envelope α) : Prop :=
  ∃ row ∈ outbox, row.envelope = some e

theorem Stored.mono {outbox outbox' : List (DurableRow α)} {e : Envelope α}
    (h : Stored outbox e) (hp : outbox <+: outbox') : Stored outbox' e := by
  obtain ⟨row, hrow, henv⟩ := h
  exact ⟨row, hp.subset hrow, henv⟩

theorem Numbered.of_append {outbox tail : List (DurableRow α)} (h : Numbered (outbox ++ tail)) :
    Numbered outbox := by
  intro i row hrow
  apply h i row
  rw [List.getElem?_append_left (List.getElem?_eq_some_iff.mp hrow).1, hrow]

section
variable {outbox : List (DurableRow α)} (hn : Numbered outbox)
include hn

/-- A stored event stands where its number says. -/
theorem Numbered.find {e : Envelope α} (h : Stored outbox e) :
    ∃ i row, outbox[i]? = some row ∧ row.envelope = some e ∧ e.roomSeq = i + 1 := by
  obtain ⟨row, hrow, henv⟩ := h
  obtain ⟨i, hi⟩ := List.getElem?_of_mem hrow
  exact ⟨i, row, hi, henv, (hn i row hi).2 e henv⟩

theorem Numbered.le_length {e : Envelope α} (h : Stored outbox e) :
    e.roomSeq ≤ outbox.length := by
  obtain ⟨i, row, hi, -, hseq⟩ := hn.find h
  have := (List.getElem?_eq_some_iff.mp hi).1
  omega

theorem Numbered.unique {e f : Envelope α} (he : Stored outbox e) (hf : Stored outbox f)
    (hseq : e.roomSeq = f.roomSeq) : e = f := by
  obtain ⟨i, row, hi, henv, hei⟩ := hn.find he
  obtain ⟨j, row', hj, henv', hfj⟩ := hn.find hf
  have hij : i = j := by omega
  subst hij
  rw [hi] at hj
  cases hj
  rw [henv] at henv'
  exact Option.some_inj.mp henv'

end

/-! ## The invariant -/

/-- The connection's turn in a broadcast of the event is over. -/
def Passed (w : Server α) (e : Envelope α) : Prop :=
  e ∈ w.finished ∨ ∃ b ∈ w.broadcasts, b.waiting = false ∧ b.event = e

/-- What is broadcast or buffered comes from the outbox. -/
structure Backed (w : Server α) : Prop where
  running : ∀ b ∈ w.broadcasts, Stored w.outbox b.event
  finished : ∀ e ∈ w.finished, Stored w.outbox e
  buffered : ∀ e ∈ w.connection.liveBuffer, Stored w.outbox e

theorem Backed.passed {w : Server α} (h : Backed w) {e : Envelope α} (he : Passed w e) :
    Stored w.outbox e := by
  rcases he with hfin | ⟨b, hb, -, rfl⟩
  · exact h.finished e hfin
  · exact h.running b hb

/-- Durable events are held back. -/
structure Gated (c : Connection α) (hello : Bool) : Prop where
  hello : c.hello = hello
  replaying : c.replaying = true
  replayThrough : c.replayThrough = 0

/-- The replay has sent the rows up to a number; the others stand after it in the outbox. -/
structure Replaying (outbox : List (DurableRow α)) (c : Connection α)
    (rows : List (DurableRow α)) (through : Nat) : Prop where
  from_le : c.resumeFrom ≤ through
  rows : rows <+: outbox.drop through
  sent : ∃ (cursor : Nat) (replayed : List (Envelope α)),
    c.sent = .welcome cursor :: replayed.map .event ∧
    replayed.map Envelope.roomSeq = List.range' (c.resumeFrom + 1) (through - c.resumeFrom) ∧
    ∀ e ∈ replayed, Stored outbox e

/-- The gate is open, and every event that has passed the connection is sent. -/
structure Live (w : Server α) : Prop where
  hello : w.connection.hello = true
  replaying : w.connection.replaying = false
  passed : ∀ e, Passed w e → w.connection.resumeFrom < e.roomSeq → .event e ∈ w.connection.sent

def Staged (w : Server α) : Prop :=
  match w.phase with
  | .hello => Gated w.connection false ∧ w.connection.sent = []
  | .authorizing | .roomState =>
    w.joined = true ∧ Gated w.connection true ∧ w.connection.sent = []
  | .querying =>
    w.joined = true ∧ Gated w.connection true ∧ ∃ cursor, w.connection.sent = [.welcome cursor]
  | .replaying rows through =>
    w.joined = true ∧ Gated w.connection true ∧ Replaying w.outbox w.connection rows through ∧
      ∀ e, Passed w e → e.roomSeq ≤ through + rows.length ∨ e ∈ w.connection.liveBuffer
  | .done => w.joined = true ∧ Live w

/-- What holds of an open connection over a numbered outbox. -/
structure Bridged (w : Server α) : Prop where
  backed : Backed w
  staged : Staged w

/-- The log when a resume has just finished. -/
def Completed (c : Connection α) : Prop :=
  ∃ (cursor through : Nat) (replayed flushed : List (Envelope α)),
    c.sent =
      .welcome cursor :: replayed.map .event ++ .resumeComplete through :: flushed.map .event ∧
    c.resumeFrom ≤ through ∧
    replayed.map Envelope.roomSeq = List.range' (c.resumeFrom + 1) (through - c.resumeFrom) ∧
    (flushed.map Envelope.roomSeq).Pairwise (· < ·) ∧ ∀ e ∈ flushed, through < e.roomSeq

theorem start_bridged (roomId : String) : Bridged (Server.start roomId : Server α) where
  backed := by
    constructor <;> simp [Server.start, Connection.opened]
  staged := ⟨⟨rfl, rfl, rfl⟩, rfl⟩

section
variable {w : Server α} {c : Connection α} {rows : List (DurableRow α)} {through : Nat}

/-- After the last row the gate opens; the buffer makes up for what the query missed. -/
theorem nextRow_finished (hn : Numbered w.outbox) (hjoined : w.joined = true) (hb : Backed w)
    (hgated : Gated c true) (hbuffer : c.liveBuffer = w.connection.liveBuffer)
    (hrep : Replaying w.outbox c [] through)
    (hcovered : ∀ e, Passed w e → e.roomSeq ≤ through ∨ e ∈ c.liveBuffer)
    (hopen : (w.nextRow congested c through []).connection.closed = false) :
    Bridged (w.nextRow congested c through []) ∧
      Completed (w.nextRow congested c through []).connection := by
  obtain ⟨cursor, replayed, hsent, hseqs, hfrom⟩ := hrep.sent
  change ((c.send congested (.resumeComplete through)).finishReplay congested through).closed =
    false at hopen
  change Bridged (w.over ((c.send congested (.resumeComplete through)).finishReplay congested
    through)) ∧ Completed ((c.send congested (.resumeComplete through)).finishReplay congested
    through)
  have hsend : (c.send congested (.resumeComplete through)).closed = false := by
    cases hc : (c.send congested (.resumeComplete through)).closed with
    | false => rfl
    | true =>
      rw [Connection.finishReplay_closed _ hc, hc] at hopen
      cases hopen
  obtain ⟨hopened, hlog⟩ := Connection.send_open hsend
  rw [hlog] at hopen ⊢
  unfold Connection.finishReplay at hopen ⊢
  rw [if_neg (by simp [Connection.logged, hopened])] at hopen ⊢
  dsimp only [Connection.logged] at hopen ⊢
  rw [hgated.replayThrough, Nat.zero_max] at hopen ⊢
  obtain ⟨kept, hk⟩ := Connection.flush_spec _ _ (List.pairwise_insertionSort _ _) hopen
  have hkept : ∀ e ∈ kept, Stored w.outbox e := by
    intro e he
    have hin := (List.mem_insertionSort _).mp (hk.among e he)
    exact hb.buffered e (hbuffer ▸ hin)
  have hdone : ∀ e, Stored w.outbox e → c.resumeFrom < e.roomSeq → e.roomSeq ≤ through →
      e ∈ replayed := by
    intro e hstored hafter hbefore
    have hmem : e.roomSeq ∈ replayed.map Envelope.roomSeq := by
      rw [hseqs, List.mem_range'_1]
      omega
    obtain ⟨r, hr, hseq⟩ := List.mem_map.mp hmem
    exact hn.unique (hfrom r hr) hstored hseq ▸ hr
  refine ⟨⟨⟨hb.running, hb.finished, ?_⟩, hjoined, ?_, ?_, ?_⟩, ?_⟩
  · change ∀ e ∈ (Connection.flush congested _ _).liveBuffer, Stored w.outbox e
    rw [hk.liveBuffer]
    simp
  · exact hk.hello.trans hgated.hello
  · exact hk.replaying
  · intro e he hafter
    change .event e ∈ (Connection.flush congested _ _).sent
    change (Connection.flush congested _ _).resumeFrom < e.roomSeq at hafter
    rw [hk.resumeFrom] at hafter
    rw [hk.sent]
    have hstored : Stored w.outbox e := hb.passed he
    rcases Nat.lt_or_ge through e.roomSeq with hbeyond | hbefore
    · have hbuf : e ∈ c.liveBuffer := (hcovered e he).resolve_left (by omega)
      obtain ⟨k, hkm, hseq⟩ := hk.complete e ((List.mem_insertionSort _).mpr hbuf) hbeyond
      have : k = e := hn.unique (hkept k hkm) hstored hseq
      subst this
      exact List.mem_append_right _ (List.mem_map_of_mem hkm)
    · apply List.mem_append_left
      apply List.mem_append_left
      rw [hsent]
      exact List.mem_cons_of_mem _ (List.mem_map_of_mem (hdone e hstored hafter hbefore))
  · refine ⟨cursor, through, replayed, kept, ?_, ?_, ?_, hk.increasing, hk.beyond⟩
    · rw [hk.sent, hsent]
      simp
    · rw [hk.resumeFrom]
      exact hrep.from_le
    · rw [hk.resumeFrom]
      exact hseqs

theorem nextRow_bridged (hn : Numbered w.outbox) (hjoined : w.joined = true) (hb : Backed w)
    (hgated : Gated c true) (hbuffer : c.liveBuffer = w.connection.liveBuffer)
    (hrep : Replaying w.outbox c rows through)
    (hcovered : ∀ e, Passed w e → e.roomSeq ≤ through + rows.length ∨ e ∈ c.liveBuffer)
    (hopen : (w.nextRow congested c through rows).connection.closed = false) :
    Bridged (w.nextRow congested c through rows) ∧
      ((w.nextRow congested c through rows).phase = .done →
        Completed (w.nextRow congested c through rows).connection) := by
  cases rows with
  | nil =>
    obtain ⟨hbridged, hcompleted⟩ :=
      nextRow_finished hn hjoined hb hgated hbuffer hrep hcovered hopen
    exact ⟨hbridged, fun _ => hcompleted⟩
  | cons row rest =>
    unfold Server.nextRow at hopen ⊢
    dsimp only at hopen ⊢
    split at hopen
    · simp [Server.over] at hopen
    · rename_i hnext
      rw [if_neg hnext]
      refine ⟨⟨⟨hb.running, hb.finished, ?_⟩, hjoined, hgated, hrep, hcovered⟩, by simp⟩
      intro e he
      exact hb.buffered e (hbuffer ▸ he)

end

/-! ## Steps -/

theorem nextRow_closed (w : Server α) {c : Connection α} (through : Nat)
    (rows : List (DurableRow α)) (h : c.closed = true) :
    (w.nextRow congested c through rows).connection = c := by
  unfold Server.nextRow
  cases rows with
  | nil =>
    dsimp only [Server.over]
    rw [Connection.send_closed _ h, Connection.finishReplay_closed _ h]
  | cons row rest =>
    dsimp only
    split
    · exact Connection.requireSnapshot_of_closed _ _ h
    · rfl

/-- Nothing happens to a closed connection. -/
theorem act_closed {w : Server α} (a : Event α) (h : w.connection.closed = true) :
    (w.act congested a).connection = w.connection := by
  cases a with
  | commit row | connect | broadcast index =>
    unfold Server.act
    dsimp only
    split <;> rfl
  | hello resumeFrom =>
    unfold Server.act
    dsimp only
    split
    · rw [h, if_neg (by simp)]
    · rfl
  | authorized ok =>
    unfold Server.act
    dsimp only
    split
    · split
      · rfl
      · exact Connection.close_of_closed h
    · rfl
  | roomState cursor =>
    unfold Server.act
    dsimp only
    split
    · split
      · exact Connection.send_closed _ h
      · exact Connection.close_of_closed h
    · rfl
  | queried ok =>
    unfold Server.act
    dsimp only
    split
    · split
      · unfold Server.startReplay
        dsimp only
        split
        · exact Connection.requireSnapshot_of_closed _ _ h
        · exact nextRow_closed w _ _ h
      · exact Connection.close_of_closed h
    · rfl
  | replay ok =>
    unfold Server.act
    dsimp only
    split
    · split
      · unfold Server.replayRow
        dsimp only
        split
        · exact Connection.requireSnapshot_of_closed _ _ h
        · split
          · exact Connection.requireSnapshot_of_closed _ _ h
          · rw [Connection.send_closed _ h]
            exact nextRow_closed w _ _ h
      · exact Connection.close_of_closed h
    · rfl
  | deliver index ok =>
    unfold Server.act
    dsimp only
    split
    · split
      · dsimp only
        split
        · exact Connection.sendDurable_closed _ h
        · exact Connection.close_of_closed h
      · rfl
    · rfl
  | finish index =>
    unfold Server.act
    dsimp only
    split
    · split <;> rfl
    · rfl
  | abort index => rfl
  | close =>
    unfold Server.act
    dsimp only
    split
    · exact Connection.close_of_closed h
    · rfl

/-- A connection that is open after a step was open before it. -/
theorem open_of_act {w : Server α} {a : Event α}
    (h : (w.act congested a).connection.closed = false) : w.connection.closed = false := by
  cases hc : w.connection.closed with
  | false => rfl
  | true =>
    rw [act_closed a hc, hc] at h
    cases h

/-- The outbox only grows. -/
theorem act_outbox (w : Server α) (a : Event α) :
    w.outbox <+: (w.act congested a).outbox := by
  have hnext : ∀ c through rows, w.outbox <+: (w.nextRow congested c through rows).outbox := by
    intro c through rows
    unfold Server.nextRow
    cases rows with
    | nil => exact List.prefix_rfl
    | cons row rest =>
      dsimp only
      split <;> exact List.prefix_rfl
  cases a with
  | commit row =>
    unfold Server.act
    dsimp only
    split
    · exact List.prefix_append ..
    · exact List.prefix_rfl
  | queried ok =>
    unfold Server.act Server.startReplay
    dsimp only
    split
    · split
      · split
        · exact List.prefix_rfl
        · exact hnext ..
      · exact List.prefix_rfl
    · exact List.prefix_rfl
  | replay ok =>
    unfold Server.act Server.replayRow
    dsimp only
    split
    · split
      · split
        · exact List.prefix_rfl
        · split
          · exact List.prefix_rfl
          · exact hnext ..
      · exact List.prefix_rfl
    · exact List.prefix_rfl
  | abort index => exact List.prefix_rfl
  | connect | hello resumeFrom | authorized ok | roomState cursor | broadcast index
  | deliver index ok | finish index | close =>
    unfold Server.act
    dsimp only
    repeat' split
    all_goals exact List.prefix_rfl

section
variable {w w' : Server α}

/-- Steps that leave the connection and the phase alone. -/
theorem Bridged.carry (h : Bridged w) (hconnection : w'.connection = w.connection)
    (hphase : w'.phase = w.phase) (hjoined : w.joined = true → w'.joined = true)
    (houtbox : w.outbox <+: w'.outbox)
    (hrunning : ∀ b ∈ w'.broadcasts, Stored w'.outbox b.event)
    (hfinished : ∀ e ∈ w'.finished, Stored w'.outbox e)
    (hpassed : w.joined = true → ∀ e, Passed w' e → Passed w e) : Bridged w' := by
  refine ⟨⟨hrunning, hfinished, fun e he => ?_⟩, ?_⟩
  · rw [hconnection] at he
    exact (h.backed.buffered e he).mono houtbox
  · have hstaged := h.staged
    unfold Staged at hstaged ⊢
    rw [hphase, hconnection]
    cases hw : w.phase with
    | hello =>
      rw [hw] at hstaged
      exact hstaged
    | authorizing | roomState | querying =>
      rw [hw] at hstaged
      obtain ⟨hj, hrest⟩ := hstaged
      exact ⟨hjoined hj, hrest⟩
    | replaying rows through =>
      rw [hw] at hstaged
      obtain ⟨hj, hgated, hrep, hcovered⟩ := hstaged
      refine ⟨hjoined hj, hgated, ⟨hrep.from_le, ?_, ?_⟩, fun e he => hcovered e (hpassed hj e he)⟩
      · obtain ⟨tail, htail⟩ := houtbox
        rw [← htail, List.drop_append]
        exact hrep.rows.trans (List.prefix_append _ _)
      · obtain ⟨cursor, replayed, hsent, hseqs, hfrom⟩ := hrep.sent
        exact ⟨cursor, replayed, hsent, hseqs, fun e he => (hfrom e he).mono houtbox⟩
    | done =>
      rw [hw] at hstaged
      obtain ⟨hj, hlive⟩ := hstaged
      refine ⟨hjoined hj, ?_, ?_, fun e he => ?_⟩
      · rw [hconnection]
        exact hlive.hello
      · rw [hconnection]
        exact hlive.replaying
      · rw [hconnection]
        exact hlive.passed e (hpassed hj e he)

theorem commit_bridged (h : Bridged w) (row : DurableRow α) :
    Bridged (w.act congested (.commit row)) := by
  have houtbox := @act_outbox α congested w (.commit row)
  unfold Server.act at houtbox ⊢
  dsimp only at houtbox ⊢
  split
  · rename_i hlater
    rw [if_pos hlater] at houtbox
    exact h.carry rfl rfl id houtbox (fun b hb => (h.backed.running b hb).mono houtbox)
      (fun e he => (h.backed.finished e he).mono houtbox) fun _ e he => he
  · exact h

theorem connect_bridged (h : Bridged w) : Bridged (w.act congested .connect) := by
  unfold Server.act
  dsimp only
  split
  · exact h
  · exact h.carry rfl rfl (fun _ => rfl) List.prefix_rfl h.backed.running h.backed.finished
      fun _ e he => he

theorem broadcast_bridged (h : Bridged w) (hopen : w.connection.closed = false) (index : Nat) :
    Bridged (w.act congested (.broadcast index)) := by
  unfold Server.act
  dsimp only
  cases hrow : w.published index with
  | none => exact h
  | some e =>
    have hstored : Stored w.outbox e := by
      unfold Server.published at hrow
      obtain ⟨row, hget, hfilter⟩ := Option.bind_eq_some_iff.mp hrow
      exact ⟨row, List.mem_of_getElem? hget, (Option.filter_eq_some_iff.mp hfilter).1⟩
    refine h.carry rfl rfl id List.prefix_rfl (fun b hb => ?_) h.backed.finished fun hj f hf => ?_
    · rcases List.mem_append.mp hb with hold | hnew
      · exact h.backed.running b hold
      · rw [List.mem_singleton] at hnew
        subst hnew
        exact hstored
    -- The copied set holds the connection, so it has not had its turn.
    · rcases hf with hfin | ⟨b, hb, hwaiting, rfl⟩
      · exact .inl hfin
      · rcases List.mem_append.mp hb with hold | hnew
        · exact .inr ⟨b, hold, hwaiting, rfl⟩
        · rw [List.mem_singleton] at hnew
          subst hnew
          simp [hj, hopen] at hwaiting

theorem finish_bridged (h : Bridged w) (index : Nat) :
    Bridged (w.act congested (.finish index)) := by
  unfold Server.act
  dsimp only
  cases hget : w.broadcasts[index]? with
  | none => exact h
  | some b =>
    dsimp only
    split
    · exact h
    · rename_i hwaiting
      have hmem : b ∈ w.broadcasts := List.mem_of_getElem? hget
      refine h.carry rfl rfl id List.prefix_rfl
        (fun b' hb' => h.backed.running b' (List.mem_of_mem_eraseIdx hb')) (fun e he => ?_)
        fun _ e he => ?_
      · rcases List.mem_append.mp he with hold | hnew
        · exact h.backed.finished e hold
        · rw [List.mem_singleton] at hnew
          subst hnew
          exact h.backed.running b hmem
      · rcases he with hfin | ⟨b', hb', hw, rfl⟩
        · rcases List.mem_append.mp hfin with hold | hnew
          · exact .inl hold
          · rw [List.mem_singleton] at hnew
            subst hnew
            exact .inr ⟨b, hmem, by simpa using hwaiting, rfl⟩
        · exact .inr ⟨b', List.mem_of_mem_eraseIdx hb', hw, rfl⟩

theorem abort_bridged (h : Bridged w) (index : Nat) :
    Bridged (w.act congested (.abort index)) := by
  refine h.carry rfl rfl id List.prefix_rfl
    (fun b hb => h.backed.running b (List.mem_of_mem_eraseIdx hb)) h.backed.finished
    fun _ e he => ?_
  rcases he with hfin | ⟨b, hb, hw, rfl⟩
  · exact .inl hfin
  · exact .inr ⟨b, List.mem_of_mem_eraseIdx hb, hw, rfl⟩

/-- The replay of one row. -/
theorem replayRow_bridged {row : DurableRow α} {rest : List (DurableRow α)} {through : Nat}
    (hn : Numbered w.outbox) (h : Bridged w) (hphase : w.phase = .replaying (row :: rest) through)
    (hopen : (w.replayRow congested row rest through).connection.closed = false) :
    Bridged (w.replayRow congested row rest through) ∧
      ((w.replayRow congested row rest through).phase = .done →
        Completed (w.replayRow congested row rest through).connection) := by
  have hstaged := h.staged
  unfold Staged at hstaged
  rw [hphase] at hstaged
  obtain ⟨hjoined, hgated, hrep, hcovered⟩ := hstaged
  obtain ⟨tail, htail⟩ := hrep.rows
  have hget : w.outbox[through]? = some row := by
    have := congrArg (fun l => l[0]?) htail
    simpa [List.getElem?_drop] using this.symm
  have hrest : rest <+: w.outbox.drop (through + 1) := by
    refine ⟨tail, ?_⟩
    have := congrArg List.tail htail
    simpa [List.tail_drop] using this
  unfold Server.replayRow at hopen ⊢
  dsimp only at hopen ⊢
  cases henv : row.envelope with
  | none =>
    rw [henv] at hopen
    simp [Server.over] at hopen
  | some e =>
    rw [henv] at hopen
    dsimp only at hopen ⊢
    have hseq : e.roomSeq = through + 1 := (hn _ _ hget).2 e henv
    rw [if_neg (by rw [hseq, (hn _ _ hget).1]; simp)] at hopen ⊢
    have hsend : (w.connection.send congested (.event e)).closed = false := by
      cases hc : (w.connection.send congested (.event e)).closed with
      | false => rfl
      | true =>
        rw [nextRow_closed w _ _ hc, hc] at hopen
        cases hopen
    rw [(Connection.send_open hsend).2] at hopen ⊢
    have hgated' : Gated (w.connection.logged (.event e)) true :=
      ⟨hgated.hello, hgated.replaying, hgated.replayThrough⟩
    apply nextRow_bridged hn hjoined h.backed hgated' rfl ?_ ?_ hopen
    · obtain ⟨cursor, replayed, hsent, hseqs, hfrom⟩ := hrep.sent
      have hle := hrep.from_le
      refine ⟨?_, hseq ▸ hrest, cursor, replayed ++ [e], ?_, ?_, ?_⟩
      · change w.connection.resumeFrom ≤ e.roomSeq
        omega
      · change w.connection.sent ++ [.event e] = _
        rw [hsent]
        simp
      · change _ = List.range' (w.connection.resumeFrom + 1) (e.roomSeq - w.connection.resumeFrom)
        have hone : through + 1 - w.connection.resumeFrom =
            (through - w.connection.resumeFrom) + 1 := by omega
        rw [List.map_append, hseqs, List.map_singleton, hseq, hone, List.range'_concat]
        congr 2
        omega
      · intro f hf
        rcases List.mem_append.mp hf with hold | hnew
        · exact hfrom f hold
        · rw [List.mem_singleton] at hnew
          subst hnew
          exact ⟨row, List.mem_of_getElem? hget, henv⟩
    · intro f hf
      rcases hcovered f hf with hle | hbuf
      · left
        rw [List.length_cons] at hle
        omega
      · exact .inr hbuf

/-- The query sees every row that is committed; what passed before it is among them. -/
theorem startReplay_bridged (hn : Numbered w.outbox) (h : Bridged w) (hphase : w.phase = .querying)
    (hopen : (w.startReplay congested).connection.closed = false) :
    Bridged (w.startReplay congested) ∧
      ((w.startReplay congested).phase = .done →
        Completed (w.startReplay congested).connection) := by
  have hstaged := h.staged
  unfold Staged at hstaged
  rw [hphase] at hstaged
  obtain ⟨hjoined, hgated, cursor, hsent⟩ := hstaged
  unfold Server.startReplay at hopen ⊢
  dsimp only at hopen ⊢
  rw [Rows.filter_numbered fun i row hrow => (hn i row hrow).1] at hopen ⊢
  split at hopen
  · simp [Server.over] at hopen
  · rename_i hfew
    rw [if_neg hfew]
    have hall : (w.outbox.drop w.connection.resumeFrom).take 501 =
        w.outbox.drop w.connection.resumeFrom := by
      rw [List.length_take] at hfew
      exact List.take_of_length_le (by omega)
    rw [hall] at hopen ⊢
    apply nextRow_bridged hn hjoined h.backed hgated rfl ?_ ?_ hopen
    · refine ⟨Nat.le_refl _, List.prefix_rfl, cursor, [], hsent, ?_, by simp⟩
      rw [Nat.sub_self]
      rfl
    · intro e he
      left
      have := hn.le_length (h.backed.passed he)
      rw [List.length_drop]
      omega

theorem hello_bridged (h : Bridged w) (resumeFrom : Nat) :
    Bridged (w.act congested (.hello resumeFrom)) := by
  unfold Server.act
  dsimp only
  split
  · rename_i hphase
    split
    · rename_i hguard
      have hstaged := h.staged
      unfold Staged at hstaged
      rw [hphase] at hstaged
      obtain ⟨hgated, hsent⟩ := hstaged
      refine ⟨⟨h.backed.running, h.backed.finished, h.backed.buffered⟩, ?_, ?_, hsent⟩
      · simp only [Bool.and_eq_true] at hguard
        exact hguard.1
      · exact ⟨rfl, hgated.replaying, hgated.replayThrough⟩
    · exact h
  · exact h

theorem authorized_bridged (h : Bridged w) (ok : Bool)
    (hopen : (w.act congested (.authorized ok)).connection.closed = false) :
    Bridged (w.act congested (.authorized ok)) := by
  unfold Server.act at hopen ⊢
  dsimp only at hopen ⊢
  split at hopen
  · rename_i hphase
    split at hopen
    · rename_i hok
      rw [if_pos hok]
      have hstaged := h.staged
      unfold Staged at hstaged
      rw [hphase] at hstaged
      exact ⟨⟨h.backed.running, h.backed.finished, h.backed.buffered⟩, hstaged⟩
    · simp [Server.over] at hopen
  · exact h

theorem roomState_bridged (h : Bridged w) (cursor : Option Nat)
    (hopen : (w.act congested (.roomState cursor)).connection.closed = false) :
    Bridged (w.act congested (.roomState cursor)) := by
  unfold Server.act at hopen ⊢
  dsimp only at hopen ⊢
  split at hopen
  · rename_i hphase
    cases cursor with
    | none => simp [Server.over] at hopen
    | some cursor =>
      dsimp only at hopen ⊢
      rw [(Connection.send_open hopen).2]
      have hstaged := h.staged
      unfold Staged at hstaged
      rw [hphase] at hstaged
      obtain ⟨hjoined, hgated, hsent⟩ := hstaged
      refine ⟨⟨h.backed.running, h.backed.finished, h.backed.buffered⟩, hjoined, ?_, cursor, ?_⟩
      · exact ⟨hgated.hello, hgated.replaying, hgated.replayThrough⟩
      · change w.connection.sent ++ [.welcome cursor] = _
        rw [hsent, List.nil_append]
  · exact h

/-- The connection has had its turn in a broadcast. -/
def Server.delivered (w : Server α) (index : Nat) (e : Envelope α) (c : Connection α) : Server α :=
  { w with connection := c, broadcasts := w.broadcasts.set index ⟨e, false⟩ }

section
variable {index : Nat} {b : Broadcast α}

theorem delivered_passed {c : Connection α} {e f : Envelope α}
    (he : Passed (w.delivered index f c) e) : Passed w e ∨ e = f := by
  rcases he with hfin | ⟨b', hb', hw, rfl⟩
  · exact .inl (.inl hfin)
  · rcases List.mem_or_eq_of_mem_set hb' with hold | rfl
    · exact .inl (.inr ⟨b', hold, hw, rfl⟩)
    · exact .inr rfl

variable (hget : w.broadcasts[index]? = some b)
include hget

theorem delivered_backed (h : Backed w) (c : Connection α)
    (hbuffer : ∀ e ∈ c.liveBuffer, e ∈ w.connection.liveBuffer ∨ e = b.event) :
    Backed (w.delivered index b.event c) := by
  have hstored : Stored w.outbox b.event := h.running b (List.mem_of_getElem? hget)
  refine ⟨fun b' hb' => ?_, h.finished, fun e he => ?_⟩
  · rcases List.mem_or_eq_of_mem_set hb' with hold | rfl
    · exact h.running b' hold
    · exact hstored
  · rcases hbuffer e he with hold | rfl
    · exact h.buffered e hold
    · exact hstored

/-- While the gate is shut the event waits in the buffer. -/
theorem delivered_gated (h : Bridged w) (hphase : w.phase ≠ .done) :
    Bridged (w.delivered index b.event (w.connection.held b.event)) := by
  have hgate : ∀ hello, Gated w.connection hello → Gated (w.connection.held b.event) hello :=
    fun hello hgated => ⟨hgated.hello, hgated.replaying, hgated.replayThrough⟩
  refine ⟨delivered_backed hget h.backed _ (by simp [Connection.held]), ?_⟩
  have hstaged := h.staged
  unfold Staged at hstaged ⊢
  rw [show (w.delivered index b.event _).phase = w.phase from rfl]
  cases hw : w.phase with
  | hello =>
    rw [hw] at hstaged
    exact ⟨hgate false hstaged.1, hstaged.2⟩
  | authorizing | roomState | querying =>
    rw [hw] at hstaged
    exact ⟨hstaged.1, hgate true hstaged.2.1, hstaged.2.2⟩
  | replaying rows through =>
    rw [hw] at hstaged
    obtain ⟨hjoined, hgated, hrep, hcovered⟩ := hstaged
    refine ⟨hjoined, hgate true hgated, ⟨hrep.from_le, hrep.rows, hrep.sent⟩, fun e he => ?_⟩
    rcases delivered_passed he with hold | rfl
    · rcases hcovered e hold with hle | hbuf
      · exact .inl hle
      · exact .inr (List.mem_append_left _ hbuf)
    · exact .inr (List.mem_append_right _ (List.mem_singleton_self _))
  | done => exact absurd hw hphase

/-- Once it is open the event is sent at once. -/
theorem delivered_live (h : Bridged w) (hphase : w.phase = .done) :
    Bridged (w.delivered index b.event (w.connection.logged (.event b.event))) := by
  refine ⟨delivered_backed hget h.backed _ (fun e he => .inl he), ?_⟩
  have hstaged := h.staged
  unfold Staged at hstaged ⊢
  rw [show (w.delivered index b.event _).phase = w.phase from rfl]
  rw [hphase] at hstaged ⊢
  obtain ⟨hjoined, hlive⟩ := hstaged
  refine ⟨hjoined, hlive.hello, hlive.replaying, fun e he hafter => ?_⟩
  change .event e ∈ w.connection.sent ++ [.event b.event]
  rcases delivered_passed he with hold | rfl
  · exact List.mem_append_left _ (hlive.passed e hold hafter)
  · exact List.mem_append_right _ (List.mem_singleton_self _)

end

/-- What passes the connection while it is gated waits in the buffer, and is sent after. -/
theorem deliver_bridged (h : Bridged w) (index : Nat) (ok : Bool)
    (hopen : (w.act congested (.deliver index ok)).connection.closed = false) :
    Bridged (w.act congested (.deliver index ok)) := by
  unfold Server.act at hopen ⊢
  dsimp only at hopen ⊢
  cases hget : w.broadcasts[index]? with
  | none => exact h
  | some b =>
    rw [hget] at hopen
    dsimp only at hopen ⊢
    by_cases hwaiting : b.waiting = true
    · rw [if_pos hwaiting] at hopen ⊢
      dsimp only at hopen ⊢
      by_cases hok : ok = true
      · rw [if_pos hok] at hopen ⊢
        change Bridged (w.delivered index b.event (w.connection.sendDurable congested b.event))
        have hstaged := h.staged
        unfold Staged at hstaged
        cases hw : w.phase with
        | done =>
          rw [hw] at hstaged
          rw [Connection.sendDurable_live hstaged.2.hello hstaged.2.replaying hopen]
          exact delivered_live hget h hw
        | hello =>
          rw [hw] at hstaged
          rw [Connection.sendDurable_gated hstaged.1.replaying hopen]
          exact delivered_gated hget h (by simp [hw])
        | authorizing | roomState | querying | replaying =>
          rw [hw] at hstaged
          rw [Connection.sendDurable_gated hstaged.2.1.replaying hopen]
          exact delivered_gated hget h (by simp [hw])
      · rw [if_neg hok] at hopen
        simp at hopen
    · rw [if_neg hwaiting]
      exact h

/-- One step of an open connection over a numbered outbox. -/
theorem act_bridged (h : Bridged w) (a : Event α) (hn : Numbered w.outbox)
    (hopen : (w.act congested a).connection.closed = false) :
    Bridged (w.act congested a) ∧
      (w.phase ≠ .done → (w.act congested a).phase = .done →
        Completed (w.act congested a).connection) := by
  have hopened : w.connection.closed = false := open_of_act hopen
  cases a with
  | commit row =>
    refine ⟨commit_bridged h row, fun hphase hdone => absurd ?_ hphase⟩
    unfold Server.act at hdone
    dsimp only at hdone
    split at hdone <;> exact hdone
  | connect =>
    refine ⟨connect_bridged h, fun hphase hdone => absurd ?_ hphase⟩
    unfold Server.act at hdone
    dsimp only at hdone
    split at hdone <;> exact hdone
  | hello resumeFrom =>
    refine ⟨hello_bridged h resumeFrom, fun hphase hdone => absurd ?_ hphase⟩
    unfold Server.act at hdone
    dsimp only at hdone
    split at hdone
    · split at hdone
      · cases hdone
      · exact hdone
    · exact hdone
  | authorized ok =>
    refine ⟨authorized_bridged h ok hopen, fun hphase hdone => absurd ?_ hphase⟩
    unfold Server.act at hdone hopen
    dsimp only at hdone hopen
    split at hdone
    · split at hdone
      · cases hdone
      · simp_all [Server.over]
    · exact hdone
  | roomState cursor =>
    refine ⟨roomState_bridged h cursor hopen, fun hphase hdone => absurd ?_ hphase⟩
    unfold Server.act at hdone hopen
    dsimp only at hdone hopen
    split at hdone
    · cases cursor with
      | none => simp_all [Server.over]
      | some cursor => cases hdone
    · exact hdone
  | queried ok =>
    unfold Server.act at hopen ⊢
    dsimp only at hopen ⊢
    split at hopen
    · rename_i hphase
      split at hopen
      · rename_i hok
        rw [if_pos hok]
        obtain ⟨hbridged, hcompleted⟩ := startReplay_bridged hn h hphase hopen
        exact ⟨hbridged, fun _ => hcompleted⟩
      · simp [Server.over] at hopen
    · exact ⟨h, fun hphase hdone => absurd hdone hphase⟩
  | replay ok =>
    unfold Server.act at hopen ⊢
    dsimp only at hopen ⊢
    split at hopen
    · rename_i row rest through hphase
      split at hopen
      · rename_i hok
        rw [if_pos hok]
        obtain ⟨hbridged, hcompleted⟩ := replayRow_bridged hn h hphase hopen
        exact ⟨hbridged, fun _ => hcompleted⟩
      · simp [Server.over] at hopen
    · exact ⟨h, fun hphase hdone => absurd hdone hphase⟩
  | broadcast index =>
    refine ⟨broadcast_bridged h hopened index, fun hphase hdone => absurd ?_ hphase⟩
    unfold Server.act at hdone
    dsimp only at hdone
    split at hdone <;> exact hdone
  | deliver index ok =>
    refine ⟨deliver_bridged h index ok hopen, fun hphase hdone => absurd ?_ hphase⟩
    unfold Server.act at hdone
    dsimp only at hdone
    split at hdone
    · split at hdone <;> exact hdone
    · exact hdone
  | finish index =>
    refine ⟨finish_bridged h index, fun hphase hdone => absurd ?_ hphase⟩
    unfold Server.act at hdone
    dsimp only at hdone
    split at hdone
    · split at hdone <;> exact hdone
    · exact hdone
  | abort index => exact ⟨abort_bridged h index, fun hphase hdone => absurd hdone hphase⟩
  | close =>
    unfold Server.act at hopen ⊢
    dsimp only at hopen ⊢
    split at hopen
    · simp at hopen
    · rename_i hjoined
      rw [if_neg hjoined]
      exact ⟨h, fun hphase hdone => absurd hdone hphase⟩

end

/-! ## Runs -/

theorem run_snoc (w : Server α) (events : List (Event α)) (a : Event α) :
    w.run congested (events ++ [a]) = (w.run congested events).act congested a := by
  unfold Server.run
  rw [List.foldl_append]
  rfl

/-- Once the resume is over the log only grows. -/
theorem act_after_done {w : Server α} (hphase : w.phase = .done) (a : Event α) :
    (w.act congested a).phase = .done ∧
      w.connection.sent <+: (w.act congested a).connection.sent ∧
      (w.act congested a).connection.resumeFrom = w.connection.resumeFrom := by
  have hclose : ∀ c : Connection α, c.close.sent = c.sent ∧ c.close.resumeFrom = c.resumeFrom := by
    intro c
    unfold Connection.close
    split <;> exact ⟨rfl, rfl⟩
  have hsend : ∀ (c : Connection α) frame, c.sent <+: (c.send congested frame).sent ∧
      (c.send congested frame).resumeFrom = c.resumeFrom := by
    intro c frame
    unfold Connection.send
    split
    · exact ⟨List.prefix_rfl, rfl⟩
    · split
      · rw [(hclose _).1, (hclose _).2]
        exact ⟨List.prefix_rfl, rfl⟩
      · exact ⟨List.prefix_append _ _, rfl⟩
  have hdurable : ∀ (c : Connection α) e, c.sent <+: (c.sendDurable congested e).sent ∧
      (c.sendDurable congested e).resumeFrom = c.resumeFrom := by
    intro c e
    unfold Connection.sendDurable Connection.requireSnapshot
    split
    · exact ⟨List.prefix_rfl, rfl⟩
    · split
      · split
        · rw [(hclose _).1, (hclose _).2]
          exact hsend _ _
        · exact ⟨List.prefix_rfl, rfl⟩
      · exact hsend _ _
  have hsame : w.connection.sent <+: w.connection.sent ∧
      w.connection.resumeFrom = w.connection.resumeFrom := ⟨List.prefix_rfl, rfl⟩
  cases a with
  | commit row | connect | broadcast index =>
    unfold Server.act
    dsimp only
    split <;> exact ⟨hphase, hsame⟩
  | hello resumeFrom | authorized ok | roomState cursor | queried ok | replay ok =>
    unfold Server.act
    rw [hphase]
    exact ⟨hphase, hsame⟩
  | deliver index ok =>
    unfold Server.act
    dsimp only
    split
    · split
      · refine ⟨hphase, ?_⟩
        dsimp only
        split
        · exact hdurable _ _
        · rw [(hclose _).1, (hclose _).2]
          exact hsame
      · exact ⟨hphase, hsame⟩
    · exact ⟨hphase, hsame⟩
  | finish index =>
    unfold Server.act
    dsimp only
    split
    · split <;> exact ⟨hphase, hsame⟩
    · exact ⟨hphase, hsame⟩
  | abort index => exact ⟨hphase, hsame⟩
  | close =>
    unfold Server.act
    dsimp only
    split
    · refine ⟨hphase, ?_⟩
      dsimp only
      rw [(hclose _).1, (hclose _).2]
      exact hsame
    · exact ⟨hphase, hsame⟩

/-- The step in which a resume finished, and its log, which later steps only extend. -/
def FinishedIn (congested : Nat → Bool) (w₀ : Server α) (events : List (Event α)) : Prop :=
  ∃ before a after, events = before ++ a :: after ∧
    (w₀.run congested before).phase ≠ .done ∧
    (w₀.run congested (before ++ [a])).phase = .done ∧
    Completed (w₀.run congested (before ++ [a])).connection ∧
    (w₀.run congested (before ++ [a])).connection.sent <+:
      (w₀.run congested events).connection.sent ∧
    (w₀.run congested (before ++ [a])).connection.resumeFrom =
      (w₀.run congested events).connection.resumeFrom

theorem run_bridged (roomId : String) (events : List (Event α))
    (hn : Numbered ((Server.start roomId).run congested events).outbox)
    (hopen : ((Server.start roomId).run congested events).connection.closed = false) :
    (∀ before, before <+: events → Bridged ((Server.start roomId).run congested before)) ∧
      (((Server.start roomId).run congested events).phase = .done →
        FinishedIn congested (Server.start roomId) events) := by
  induction events using List.reverseRecOn with
  | nil =>
    refine ⟨fun before hbefore => ?_, by simp [Server.run, Server.start]⟩
    rw [List.prefix_nil.mp hbefore]
    exact start_bridged roomId
  | append_singleton events a ih =>
    rw [run_snoc] at hn hopen ⊢
    obtain ⟨tail, htail⟩ :=
      @act_outbox α congested ((Server.start roomId).run congested events) a
    have hn₀ : Numbered ((Server.start roomId).run congested events).outbox := by
      rw [← htail] at hn
      exact hn.of_append
    have hopen₀ : ((Server.start roomId).run congested events).connection.closed = false :=
      open_of_act hopen
    obtain ⟨hbridged, hearlier⟩ := ih hn₀ hopen₀
    obtain ⟨hbridged', hcompleted⟩ :=
      act_bridged (hbridged events List.prefix_rfl) a hn₀ hopen
    constructor
    · intro before hbefore
      rcases List.prefix_concat_iff.mp hbefore with rfl | hshort
      · rw [run_snoc]
        exact hbridged'
      · exact hbridged before hshort
    · intro hdone
      by_cases hphase : ((Server.start roomId).run congested events).phase = .done
      · obtain ⟨before, b, after, hsplit, hnot, hat, hlog, hsent, hfrom⟩ := hearlier hphase
        obtain ⟨-, hgrown, hkept⟩ := @act_after_done α congested _ hphase a
        refine ⟨before, b, after ++ [a], by rw [hsplit]; simp, hnot, hat, hlog, ?_, ?_⟩
        · rw [run_snoc _ events a]
          exact hsent.trans hgrown
        · rw [run_snoc _ events a]
          exact hfrom.trans hkept.symm
      · refine ⟨events, a, [], rfl, hphase, ?_, ?_, List.prefix_rfl, rfl⟩
        · rw [run_snoc]
          exact hdone
        · rw [run_snoc]
          exact hcompleted hphase hdone

/-- The third event is committed after the query, and broadcast before the replay is over. -/
def bridgedRun : List (Event Unit) :=
  [.commit ⟨1, some (gardenEvent "e1" 1)⟩, .connect, .broadcast 0, .hello 0, .authorized true,
    .commit ⟨2, some (gardenEvent "e2" 2)⟩, .roomState (some 2), .queried true, .replay true,
    .commit ⟨3, some (gardenEvent "e3" 3)⟩, .broadcast 2, .deliver 1 true, .deliver 0 true,
    .replay true, .finish 1, .finish 0]

end LearningOrbit.Realtime
