import LearningOrbit.Rows
import LearningOrbit.Realtime.Client

/-!
# Recovery by pages under live delivery

A recovery asks for the events after its own cursor and waits; live frames move the
ledger meanwhile. The ledger stays a prefix of the room's whatever arrives. A page is
refused exactly when live frames have run ahead of its first event.
-/

namespace LearningOrbit.Realtime

open LearningOrbit.Rooms (Envelope)

variable {α : Type}

/-- The room's events, the browser, and the page that is on its way to it. -/
structure World (α : Type) where
  room : List (Envelope α)
  session : Session α
  answer : Option (Page α)

/-- Something happens at the server or at the browser. A frame carries any event of the room. -/
inductive Action (α : Type)
  | append (e : Envelope α)
  | live (index : Nat)
  | recover (requiredThroughSeq : Nat)
  | answer (limit : Nat)
  | arrive

/-- The next event of the room: its number, its room, and an id of its own. -/
def continues (room : List (Envelope α)) (roomId : String) (e : Envelope α) : Bool :=
  e.roomSeq = room.length + 1 && e.roomId = roomId && e.eventId ∉ room.map Envelope.eventId

/-- What happens, and the code a recovery rejects with. -/
def World.act (w : World α) : Action α → World α × Option String
  | .append e =>
    (if continues w.room w.session.ledger.roomId e then { w with room := w.room ++ [e] } else w,
      none)
  | .live index =>
    match w.room[index]? with
    | some e => ({ w with session := w.session.receiveFrame (.event e) }, none)
    | none => (w, none)
  | .recover required => ({ w with session := w.session.recoverEvents required false }, none)
  | .answer limit =>
    match w.session.recovery, w.answer with
    | some r, none =>
      (if 1 ≤ limit then { w with answer := some (eventsPage w.room r.cursor limit) } else w, none)
    | _, _ => (w, none)
  | .arrive =>
    match w.session.recovery, w.answer with
    | some r, some page =>
      let (session, code) := w.session.receivePage r.cursor page
      ({ w with session, answer := none }, code)
    | _, _ => (w, none)

def World.run (w : World α) (actions : List (Action α)) : World α :=
  actions.foldl (fun w a => (w.act a).1) w

def World.start (roomId : String) : World α := ⟨[], .start roomId, none⟩

/-! ## Numbers -/

/-- The `i`-th event has number `i + 1`, and ids are distinct. -/
structure Contiguous (roomId : String) (room : List (Envelope α)) : Prop where
  number : ∀ i e, room[i]? = some e → e.roomSeq = i + 1 ∧ e.roomId = roomId
  ids : (room.map Envelope.eventId).Nodup

theorem Contiguous.snoc {roomId : String} {room : List (Envelope α)} {e : Envelope α}
    (hc : Contiguous roomId room) (h : continues room roomId e = true) :
    Contiguous roomId (room ++ [e]) := by
  simp only [continues, Bool.and_eq_true, decide_eq_true_eq] at h
  obtain ⟨⟨hseq, hroom⟩, hfresh⟩ := h
  constructor
  · intro i f hf
    rcases Nat.lt_trichotomy i room.length with hlt | rfl | hgt
    · rw [List.getElem?_append_left hlt] at hf
      exact hc.number i f hf
    · rw [List.getElem?_concat_length] at hf
      cases hf
      exact ⟨hseq, hroom⟩
    · rw [List.getElem?_eq_none (by simp; omega)] at hf
      cases hf
  · rw [List.map_append, List.nodup_append]
    refine ⟨hc.ids, by simp, fun a ha b hb hab => ?_⟩
    rw [List.map_singleton, List.mem_singleton] at hb
    subst hb hab
    exact hfresh ha

/-- A page that answers the cursor it was asked with. -/
structure Answers (room : List (Envelope α)) (cursor : Nat) (page : Page α) : Prop where
  events : page.events <+: room.drop cursor
  through : page.throughRoomSeq = cursor + page.events.length

theorem Answers.snoc {room : List (Envelope α)} {cursor : Nat} {page : Page α}
    (ha : Answers room cursor page) (hle : cursor ≤ room.length) (e : Envelope α) :
    Answers (room ++ [e]) cursor page := by
  refine ⟨?_, ha.through⟩
  rw [List.drop_append_of_le_length hle]
  exact ha.events.trans (List.prefix_append _ _)

theorem eventsPage_answers {roomId : String} {room : List (Envelope α)}
    (hc : Contiguous roomId room) (cursor limit : Nat) :
    Answers room cursor (eventsPage room cursor limit) := by
  unfold eventsPage
  dsimp only
  rw [Rows.filter_numbered fun i e he => (hc.number i e he).1]
  refine ⟨List.take_prefix _ _, ?_⟩
  dsimp only
  rcases List.eq_nil_or_concat ((room.drop cursor).take limit) with hnil | ⟨front, last, hcons⟩
  · rw [hnil]
    rfl
  · have hlast : room[cursor + front.length]? = some last := by
      have hget : ((room.drop cursor).take limit)[front.length]? = some last := by
        rw [hcons, List.concat_eq_append, List.getElem?_concat_length]
      have hlt : front.length < limit := by
        have := (List.getElem?_eq_some_iff.mp hget).1
        rw [List.length_take] at this
        omega
      rw [List.getElem?_take_of_lt hlt, List.getElem?_drop] at hget
      exact hget
    have hnum := (hc.number _ _ hlast).1
    rw [hcons, List.concat_eq_append]
    simp only [List.getLast?_append_of_ne_nil, ne_eq, List.cons_ne_self, not_false_eq_true,
      List.getLast?_singleton, Option.map_some, Option.getD_some, List.length_append,
      List.length_singleton]
    omega

/-! ## The ledger follows the room -/

/-- The ledger is the first events of the room, and the socket's cursor agrees with it. -/
structure Follows (roomId : String) (room : List (Envelope α)) (s : Session α) : Prop where
  roomId : s.ledger.roomId = roomId
  ledger : s.ledger.events = room.take s.ledger.lastRoomSeq
  within : s.ledger.lastRoomSeq ≤ room.length
  cursor : s.lastRoomSeq = s.ledger.lastRoomSeq

section
variable {roomId : String} {room : List (Envelope α)} {s : Session α}

theorem Follows.snoc (h : Follows roomId room s) (e : Envelope α) :
    Follows roomId (room ++ [e]) s := by
  refine ⟨h.roomId, ?_, ?_, h.cursor⟩
  · rw [List.take_append_of_le_length h.within, h.ledger]
  · rw [List.length_append]
    have := h.within
    omega

theorem Follows.recoverEvents (h : Follows roomId room s) (required : Nat) (watched : Bool) :
    Follows roomId room (s.recoverEvents required watched) := by
  unfold Session.recoverEvents
  split
  · exact h
  · exact ⟨h.roomId, h.ledger, h.within, h.cursor⟩

/-- The session after the next event of the room. -/
def Session.advance (s : Session α) (e : Envelope α) : Session α :=
  { s with
    lastRoomSeq := e.roomSeq
    ledger := { s.ledger with events := s.ledger.events ++ [e], lastRoomSeq := e.roomSeq } }

variable (hc : Contiguous roomId room)
include hc

/-- An event that the ledger has is skipped. -/
theorem Follows.acceptEvent_seen (h : Follows roomId room s) {i : Nat} {e : Envelope α}
    (he : room[i]? = some e) (hi : i < s.ledger.lastRoomSeq) : s.acceptEvent e = (s, none) := by
  have hseq := (hc.number i e he).1
  unfold Session.acceptEvent
  rw [if_pos]
  right
  rw [h.cursor]
  omega

/-- The next event is appended. -/
theorem Follows.acceptEvent_next (h : Follows roomId room s) {e : Envelope α}
    (he : room[s.ledger.lastRoomSeq]? = some e) :
    s.acceptEvent e = (s.advance e, none) ∧ Follows roomId room (s.advance e) := by
  obtain ⟨hseq, hroom⟩ := hc.number _ e he
  have hfresh : e.eventId ∉ s.ledger.events.map Envelope.eventId := by
    rw [h.ledger]
    intro hmem
    obtain ⟨f, hf, hid⟩ := List.mem_map.mp hmem
    obtain ⟨j, hj⟩ := List.getElem?_of_mem hf
    have hjl : j < s.ledger.lastRoomSeq := by
      have := (List.getElem?_eq_some_iff.mp hj).1
      rw [List.length_take] at this
      omega
    rw [List.getElem?_take_of_lt hjl] at hj
    have hsame : (room.map Envelope.eventId)[j]? =
        (room.map Envelope.eventId)[s.ledger.lastRoomSeq]? := by
      rw [List.getElem?_map, List.getElem?_map, hj, he, Option.map_some, Option.map_some, hid]
    have hbound : j < (room.map Envelope.eventId).length := by
      rw [List.length_map]
      exact (List.getElem?_eq_some_iff.mp hj).1
    have := (List.getElem?_inj hbound hc.ids).mp hsame
    omega
  constructor
  · have hskip : ¬ (e.roomId ≠ s.ledger.roomId ∨ e.roomSeq ≤ s.lastRoomSeq) := by
      rw [hroom, h.roomId, h.cursor, hseq, not_or]
      exact ⟨not_not.mpr rfl, by omega⟩
    have hgap : ¬ e.roomSeq ≠ s.lastRoomSeq + 1 := by
      rw [h.cursor, hseq]
      omega
    have happend : s.ledger.append e = some (.appended,
        { s.ledger with events := s.ledger.events ++ [e], lastRoomSeq := e.roomSeq }) := by
      unfold EventLedger.append
      rw [if_neg (by rw [hroom, h.roomId]; simp), if_neg hfresh, if_neg (by omega),
        if_neg (by omega)]
    unfold Session.acceptEvent
    rw [if_neg hskip, if_neg hgap]
    unfold Session.appendEvent
    rw [happend]
    rfl
  · refine ⟨h.roomId, ?_, ?_, rfl⟩
    · change s.ledger.events ++ [e] = room.take e.roomSeq
      rw [hseq, List.take_add_one, he, h.ledger]
      rfl
    · change e.roomSeq ≤ room.length
      have := (List.getElem?_eq_some_iff.mp he).1
      omega

/-- A later event starts a recovery. -/
theorem Follows.acceptEvent_gap (h : Follows roomId room s) {i : Nat} {e : Envelope α}
    (he : room[i]? = some e) (hi : s.ledger.lastRoomSeq < i) :
    s.acceptEvent e = (s.recoverEvents i true, none) := by
  obtain ⟨hseq, hroom⟩ := hc.number i e he
  have hskip : ¬ (e.roomId ≠ s.ledger.roomId ∨ e.roomSeq ≤ s.lastRoomSeq) := by
    rw [hroom, h.roomId, h.cursor, hseq, not_or]
    exact ⟨not_not.mpr rfl, by omega⟩
  unfold Session.acceptEvent
  rw [if_neg hskip, if_pos (by rw [h.cursor, hseq]; omega), hseq]
  unfold Session.snapshotRequired
  rw [if_neg (by rw [h.cursor]; omega), Nat.add_sub_cancel]

/-- An event of the room neither fails the session nor leaves the room's order. -/
theorem Follows.acceptEvent (h : Follows roomId room s) {i : Nat} {e : Envelope α}
    (he : room[i]? = some e) :
    ∃ s', s.acceptEvent e = (s', none) ∧ Follows roomId room s' ∧
      s.ledger.lastRoomSeq ≤ s'.ledger.lastRoomSeq ∧
      ((∃ r, s.recovery = some r) → s'.recovery.map Recovery.cursor =
        s.recovery.map Recovery.cursor) ∧
      (s.recovery = none → ∀ r, s'.recovery = some r → r.cursor = s.ledger.lastRoomSeq) := by
  rcases Nat.lt_trichotomy i s.ledger.lastRoomSeq with hlt | rfl | hgt
  · refine ⟨s, h.acceptEvent_seen hc he hlt, h, Nat.le_refl _, fun _ => rfl, fun hnone r hr => ?_⟩
    rw [hnone] at hr
    cases hr
  · obtain ⟨haccept, hfollows⟩ := h.acceptEvent_next hc he
    refine ⟨_, haccept, hfollows, ?_, fun _ => rfl, fun hnone r hr => ?_⟩
    · change s.ledger.lastRoomSeq ≤ e.roomSeq
      rw [(hc.number _ e he).1]
      omega
    · rw [show (s.advance e).recovery = s.recovery from rfl, hnone] at hr
      cases hr
  · refine ⟨_, h.acceptEvent_gap hc he hgt, h.recoverEvents i true, ?_, ?_, ?_⟩
    · unfold Session.recoverEvents
      split <;> exact Nat.le_refl _
    · rintro ⟨r, hr⟩
      unfold Session.recoverEvents
      split
      · rfl
      · rw [hr]
        rfl
    · intro hnone r hr
      unfold Session.recoverEvents at hr
      split at hr
      · rw [hnone] at hr
        cases hr
      · rw [hnone] at hr
        cases hr
        rfl

/-- The first event of a page is the one after its cursor. -/
theorem Contiguous.head_of_prefix {cursor : Nat} {e : Envelope α} {rest : List (Envelope α)}
    (hp : e :: rest <+: room.drop cursor) :
    room[cursor]? = some e ∧ e.roomSeq = cursor + 1 ∧ rest <+: room.drop (cursor + 1) := by
  obtain ⟨tail, htail⟩ := hp
  have hget : room[cursor]? = some e := by
    have := congrArg (fun l => l[0]?) htail
    simpa [List.getElem?_drop] using this.symm
  refine ⟨hget, (hc.number cursor e hget).1, tail, ?_⟩
  have := congrArg List.tail htail
  simpa [List.tail_drop] using this

/-- A page whose first event live frames have not run past is taken to its end. -/
theorem Follows.acceptPage (h : Follows roomId room s) {events : List (Envelope α)} {cursor : Nat}
    (hp : events <+: room.drop cursor) (hle : cursor ≤ s.ledger.lastRoomSeq)
    (hahead : events = [] ∨ s.ledger.lastRoomSeq ≤ cursor + 1) :
    ∃ s', Session.acceptPage events cursor s = (s', .ok (cursor + events.length)) ∧
      Follows roomId room s' ∧ cursor + events.length ≤ s'.ledger.lastRoomSeq ∧
      s'.recovery = s.recovery := by
  induction events generalizing cursor s with
  | nil => exact ⟨s, rfl, h, hle, rfl⟩
  | cons e rest ih =>
    obtain ⟨hget, hseq, hrest⟩ := hc.head_of_prefix hp
    have hahead : s.ledger.lastRoomSeq ≤ cursor + 1 := hahead.resolve_left (by simp)
    -- Either a live frame brought this event, or it is the next one.
    obtain ⟨s', haccept, hfollows, hlast, hkept⟩ : ∃ s', s.acceptEvent e = (s', none) ∧
        Follows roomId room s' ∧ s'.ledger.lastRoomSeq = cursor + 1 ∧
        s'.recovery = s.recovery := by
      rcases Nat.lt_or_ge cursor s.ledger.lastRoomSeq with hlt | hge
      · exact ⟨s, h.acceptEvent_seen hc hget hlt, h, by omega, rfl⟩
      · have heq : cursor = s.ledger.lastRoomSeq := by omega
        obtain ⟨hnext, hf⟩ := h.acceptEvent_next hc (heq ▸ hget)
        exact ⟨_, hnext, hf, hseq, rfl⟩
    obtain ⟨s₂, hpage, hf₂, hle₂, hkept₂⟩ :=
      ih hfollows hrest (by omega) (.inr (by omega))
    refine ⟨s₂, ?_, hf₂, by rw [List.length_cons]; omega, hkept₂.trans hkept⟩
    have hframe : s.onFrame (.event e) = (s', none) := haccept
    unfold Session.acceptPage
    rw [if_neg (not_not.mpr hseq), hframe]
    dsimp only
    rw [if_neg (by rw [hlast, hseq]; simp), hseq, hpage, List.length_cons]
    congr 2
    omega

/-- A page that live frames have run past is refused at its first event. -/
theorem Follows.acceptPage_overtaken (h : Follows roomId room s) {events : List (Envelope α)}
    {cursor : Nat} (hp : events <+: room.drop cursor) (hne : events ≠ [])
    (hahead : cursor + 1 < s.ledger.lastRoomSeq) :
    Session.acceptPage events cursor s = (s, .error "ROOM_EVENT_PAGE_REJECTED") := by
  cases events with
  | nil => exact absurd rfl hne
  | cons e rest =>
    obtain ⟨hget, hseq, -⟩ := hc.head_of_prefix hp
    have hframe : s.onFrame (.event e) = (s, none) := h.acceptEvent_seen hc hget (by omega)
    unfold Session.acceptPage
    rw [if_neg (not_not.mpr hseq), hframe]
    dsimp only
    rw [if_pos (by omega)]

end

/-! ## Runs -/

/-- Everything that happens keeps this. -/
structure Synced (roomId : String) (w : World α) : Prop where
  room : Contiguous roomId w.room
  follows : Follows roomId w.room w.session
  recovery : ∀ r, w.session.recovery = some r → r.cursor ≤ w.session.ledger.lastRoomSeq
  answer : ∀ page, w.answer = some page →
    ∃ r, w.session.recovery = some r ∧ Answers w.room r.cursor page

/-- The page on its way has events, and live frames have run past the first of them. -/
def Overtaken (w : World α) : Prop :=
  ∃ r page, w.session.recovery = some r ∧ w.answer = some page ∧ page.events ≠ [] ∧
    r.cursor + 1 < w.session.ledger.lastRoomSeq

def pageConflicts : List String :=
  ["ROOM_EVENT_PAGE_REJECTED", "ROOM_EVENT_PAGE_GAP", "ROOM_EVENT_PAGE_CURSOR_MISMATCH"]

theorem start_synced (roomId : String) : Synced roomId (World.start roomId : World α) where
  room := ⟨by simp [World.start], by simp [World.start]⟩
  follows := ⟨rfl, rfl, Nat.le_refl _, rfl⟩
  recovery := by simp [World.start, Session.start]
  answer := by simp [World.start]

/-- The end of a recovery changes neither ledger nor cursor. -/
theorem rejectRecovery_keeps {roomId : String} {room : List (Envelope α)} {s : Session α}
    (h : Follows roomId room s) :
    Follows roomId room s.rejectRecovery ∧ s.rejectRecovery.recovery = none := by
  unfold Session.rejectRecovery Session.failRecovery
  dsimp only
  split
  · split <;> exact ⟨⟨h.roomId, h.ledger, h.within, h.cursor⟩, rfl⟩
  · exact ⟨⟨h.roomId, h.ledger, h.within, h.cursor⟩, rfl⟩

theorem turnPage_keeps {roomId : String} {room : List (Envelope α)} {s s' : Session α}
    {page : Page α} {cursor : Nat} (h : Follows roomId room s)
    (hle : cursor ≤ s.ledger.lastRoomSeq) (ht : s.turnPage page cursor = .ok s') :
    Follows roomId room s' ∧ ∀ r, s'.recovery = some r → r.cursor ≤ s'.ledger.lastRoomSeq := by
  unfold Session.turnPage at ht
  split at ht
  · cases ht
  · split at ht
    · split at ht
      · cases ht
      · cases ht
        exact ⟨⟨h.roomId, h.ledger, h.within, h.cursor⟩, by simp⟩
    · split at ht
      · cases ht
      · split at ht
        · cases ht
        · cases ht
          refine ⟨⟨h.roomId, h.ledger, h.within, h.cursor⟩, fun r hr => ?_⟩
          obtain ⟨r₀, -, rfl⟩ := Option.map_eq_some_iff.mp hr
          exact hle

theorem turnPage_error {s : Session α} {page : Page α} {cursor : Nat} {code : String}
    (hthrough : page.throughRoomSeq = cursor) (ht : s.turnPage page cursor = .error code) :
    code ∉ pageConflicts := by
  unfold Session.turnPage at ht
  rw [if_neg (by simpa using hthrough)] at ht
  split at ht
  · split at ht
    · cases ht
      decide
    · cases ht
  · split at ht
    · cases ht
      decide
    · split at ht
      · cases ht
        decide
      · cases ht

/-- One page: the ledger follows the room, and the page conflicts exactly when overtaken. -/
theorem receivePage_spec {roomId : String} {w : World α} (hw : Synced roomId w) {r : Recovery}
    {page : Page α} (hr : w.session.recovery = some r) (hp : w.answer = some page) :
    Follows roomId w.room (w.session.receivePage r.cursor page).1 ∧
      (∀ r', (w.session.receivePage r.cursor page).1.recovery = some r' →
        r'.cursor ≤ (w.session.receivePage r.cursor page).1.ledger.lastRoomSeq) ∧
      ((∀ code, (w.session.receivePage r.cursor page).2 = some code → code ∉ pageConflicts) ↔
        ¬ Overtaken w) := by
  obtain ⟨r', hr', hanswer⟩ := hw.answer page hp
  rw [hr] at hr'
  cases hr'
  have hle := hw.recovery r hr
  by_cases hover : page.events ≠ [] ∧ r.cursor + 1 < w.session.ledger.lastRoomSeq
  · obtain ⟨hne, hahead⟩ := hover
    have hpage := hw.follows.acceptPage_overtaken hw.room hanswer.events hne hahead
    unfold Session.receivePage
    rw [hpage]
    obtain ⟨hfollows, hnone⟩ := rejectRecovery_keeps hw.follows
    refine ⟨hfollows, by simp [hnone], iff_of_false (fun hcodes => ?_) (fun hno => ?_)⟩
    · exact hcodes _ rfl (by decide)
    · exact hno ⟨r, page, hr, hp, hne, hahead⟩
  · have hfit : page.events = [] ∨ w.session.ledger.lastRoomSeq ≤ r.cursor + 1 := by
      by_cases hne : page.events = []
      · exact .inl hne
      · exact .inr (Nat.le_of_not_lt fun hlt => hover ⟨hne, hlt⟩)
    have hno : ¬ Overtaken w := by
      rintro ⟨r₁, page₁, hr₁, hp₁, hne, hlt⟩
      rw [hr] at hr₁
      rw [hp] at hp₁
      cases hr₁
      cases hp₁
      exact hover ⟨hne, hlt⟩
    obtain ⟨s', hpage, hfollows, hcursor, -⟩ :=
      hw.follows.acceptPage hw.room hanswer.events hle hfit
    unfold Session.receivePage
    rw [hpage]
    dsimp only
    cases hturn : s'.turnPage page (r.cursor + page.events.length) with
    | error code =>
      obtain ⟨hkeeps, hnone⟩ := rejectRecovery_keeps hfollows
      refine ⟨hkeeps, by simp [hnone], iff_of_true (fun c hc => ?_) hno⟩
      cases hc
      exact turnPage_error hanswer.through hturn
    | ok s₂ =>
      obtain ⟨hkeeps, hrec⟩ := turnPage_keeps hfollows hcursor hturn
      exact ⟨hkeeps, hrec, iff_of_true (fun c hc => by cases hc) hno⟩

section
variable {roomId : String} {w : World α} (hw : Synced roomId w)
include hw

theorem append_synced (e : Envelope α) : Synced roomId (w.act (.append e)).1 := by
  change Synced roomId (if continues w.room w.session.ledger.roomId e then
    { w with room := w.room ++ [e] } else w)
  split
  · rename_i hnext
    rw [hw.follows.roomId] at hnext
    refine ⟨hw.room.snoc hnext, hw.follows.snoc e, hw.recovery, fun page hpage => ?_⟩
    obtain ⟨r, hr, hanswer⟩ := hw.answer page hpage
    have hle : r.cursor ≤ w.room.length := Nat.le_trans (hw.recovery r hr) hw.follows.within
    exact ⟨r, hr, hanswer.snoc hle e⟩
  · exact hw

/-- A live frame may move the ledger and start a recovery, never the cursor of one. -/
theorem live_synced (index : Nat) : Synced roomId (w.act (.live index)).1 := by
  unfold World.act
  dsimp only
  cases hget : w.room[index]? with
  | none => exact hw
  | some e =>
    dsimp only
    unfold Session.receiveFrame
    split
    · exact hw
    · obtain ⟨s', haccept, hfollows, hmono, hkept, hfresh⟩ := hw.follows.acceptEvent hw.room hget
      have hframe : w.session.onFrame (.event e) = (s', none) := haccept
      rw [hframe]
      refine ⟨hw.room, hfollows, fun r hr => ?_, fun page hpage => ?_⟩
      · cases hold : w.session.recovery with
        | none =>
          have := hfresh hold r hr
          dsimp only at hr ⊢
          omega
        | some r₀ =>
          have hcursor := hkept ⟨r₀, hold⟩
          rw [hr, hold, Option.map_some, Option.map_some, Option.some_inj] at hcursor
          have := hw.recovery r₀ hold
          dsimp only
          omega
      · obtain ⟨r₀, hold, hanswer⟩ := hw.answer page hpage
        have hcursor := hkept ⟨r₀, hold⟩
        rw [hold, Option.map_some] at hcursor
        obtain ⟨r, hr, heq⟩ := Option.map_eq_some_iff.mp hcursor
        exact ⟨r, hr, heq ▸ hanswer⟩

theorem recover_synced (required : Nat) : Synced roomId (w.act (.recover required)).1 := by
  change Synced roomId { w with session := w.session.recoverEvents required false }
  refine ⟨hw.room, hw.follows.recoverEvents required false, fun r hr => ?_, fun page hpage => ?_⟩
  · have hledger : (w.session.recoverEvents required false).ledger = w.session.ledger := by
      unfold Session.recoverEvents
      split <;> rfl
    change r.cursor ≤ (w.session.recoverEvents required false).ledger.lastRoomSeq
    rw [hledger]
    unfold Session.recoverEvents at hr
    split at hr
    · exact hw.recovery r hr
    · cases hold : w.session.recovery with
      | none =>
        rw [hold] at hr
        cases hr
        exact Nat.le_refl _
      | some r₀ =>
        rw [hold] at hr
        cases hr
        exact hw.recovery r₀ hold
  · obtain ⟨r₀, hold, hanswer⟩ := hw.answer page hpage
    unfold Session.recoverEvents
    split
    · exact ⟨r₀, hold, hanswer⟩
    · rw [hold]
      exact ⟨_, rfl, hanswer⟩

theorem answer_synced (limit : Nat) : Synced roomId (w.act (.answer limit)).1 := by
  unfold World.act
  dsimp only
  split
  · rename_i r hr hnone
    dsimp only
    split
    · refine ⟨hw.room, hw.follows, hw.recovery, fun page hpage => ?_⟩
      cases hpage
      exact ⟨r, hr, eventsPage_answers hw.room r.cursor limit⟩
    · exact hw
  · exact hw

theorem arrive_synced : Synced roomId (w.act .arrive).1 := by
  unfold World.act
  dsimp only
  split
  · rename_i r page hr hpage
    obtain ⟨hfollows, hcursor, -⟩ := receivePage_spec hw hr hpage
    exact ⟨hw.room, hfollows, hcursor, by simp⟩
  · exact hw

theorem act_synced (a : Action α) : Synced roomId (w.act a).1 := by
  cases a with
  | append e => exact append_synced hw e
  | live index => exact live_synced hw index
  | recover required => exact recover_synced hw required
  | answer limit => exact answer_synced hw limit
  | arrive => exact arrive_synced hw

theorem run_synced (actions : List (Action α)) : Synced roomId (w.run actions) := by
  induction actions generalizing w with
  | nil => exact hw
  | cons a rest ih => exact ih (act_synced hw a)

/-- A step rejects with a conflict exactly when an overtaken page arrives. -/
theorem act_conflicts_iff (a : Action α) :
    (∀ code, (w.act a).2 = some code → code ∉ pageConflicts) ↔ (a = .arrive → ¬ Overtaken w) := by
  cases a with
  | append e => simp [World.act]
  | recover required => simp [World.act]
  | live index => cases hget : w.room[index]? <;> simp [World.act, hget]
  | answer limit =>
    cases hr : w.session.recovery <;> cases hp : w.answer <;> simp [World.act, hr, hp]
  | arrive =>
    cases hr : w.session.recovery with
    | none => simp [World.act, Overtaken, hr]
    | some r =>
      cases hp : w.answer with
      | none => simp [World.act, Overtaken, hp]
      | some page =>
        have hspec := (receivePage_spec hw hr hp).2.2
        have hcode : (w.act .arrive).2 = (w.session.receivePage r.cursor page).2 := by
          simp only [World.act, hr, hp]
        rw [hcode, hspec]
        exact ⟨fun h _ => h, fun h => h rfl⟩

end

/-- After every step of every run the ledger is a prefix of the room's; a recovery meets no
conflict exactly when no page with events arrives after live frames ran past its first. -/
theorem recovery_conflicts_iff (roomId : String) (actions : List (Action α)) :
    (∀ before, before <+: actions →
      ((World.start roomId).run before).session.ledger.events <+:
        ((World.start roomId).run before).room) ∧
    ((∀ before a after, actions = before ++ a :: after →
      ∀ code, (((World.start roomId).run before).act a).2 = some code → code ∉ pageConflicts) ↔
    ∀ before after, actions = before ++ .arrive :: after →
      ¬ Overtaken ((World.start roomId).run before)) := by
  have hsynced : ∀ before : List (Action α), Synced roomId ((World.start roomId).run before) :=
    run_synced (start_synced roomId)
  constructor
  · intro before _
    rw [(hsynced before).follows.ledger]
    exact List.take_prefix _ _
  · constructor
    · intro hcodes before after hsplit
      exact (act_conflicts_iff (hsynced before) .arrive).mp (hcodes before .arrive after hsplit) rfl
    · intro hfit before a after hsplit
      apply (act_conflicts_iff (hsynced before) a).mpr
      intro harrive
      subst harrive
      exact hfit before after hsplit

/-- Two events arrive live while their page is on its way. -/
def overtakenPage : List (Action Unit) :=
  [.append (gardenEvent "e1" 1), .append (gardenEvent "e2" 2), .recover 0, .answer 100,
    .live 0, .live 1]

/-- The page is then refused although both ledgers agree. -/
theorem page_rejected_after_live :
    (((World.start "garden").run overtakenPage).act .arrive).2 = some "ROOM_EVENT_PAGE_REJECTED" ∧
      "ROOM_EVENT_PAGE_REJECTED" ∈ pageConflicts ∧
      ((World.start "garden").run overtakenPage).session.ledger.events.length = 2 := by
  decide

end LearningOrbit.Realtime
