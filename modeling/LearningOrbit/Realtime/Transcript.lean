import Mathlib.Data.List.Dedup
import Mathlib.Data.List.Sort
import LearningOrbit.Realtime.Client
import LearningOrbit.Rooms.MessageRuns

/-!
# The transcript of the browser

`EventLedger` folds the events of a room into one entry a message. An entry takes over what
the next event of its message does not bring: the text, the mentions and the media of a
message that is retracted, and, with `??`, also the reply of a message whose revision
answers nothing any more.
-/

namespace LearningOrbit.Realtime

open LearningOrbit (Dict)
open LearningOrbit.Rooms

structure LedgerMessage where
  messageId : String
  text : String
  actorId : String
  actorKind : ActorKind
  actorRole : ActorRole
  eventId : String
  causationId : String
  revision : Nat
  operation : Operation
  eventTime : Int
  firstRoomSeq : Nat
  roomSeq : Nat
  replyTo : Option String
  mentions : List String
  mediaIds : List String
  deriving DecidableEq

/-- The ledger with the messages it folds. -/
structure MessageLedger where
  ledger : EventLedger Payload
  messages : Dict String LedgerMessage

/-- `coreTypes`. -/
def coreTypes : List String :=
  ["room.opened", "room.paused", "room.resumed", "room.closed",
   "message.added", "message.revised", "message.retracted"]

def parseCoreRoomEvent (e : Envelope Payload) : Except String (Option (Envelope Payload)) :=
  if parseRoomEventEnvelope e = false then .error "INVALID_ROOM_EVENT"
  else if e.type ∉ coreTypes then .ok none
  else if corePayloads.assert e.type e.payload = false then
    .error ("INVALID_EVENT_PAYLOAD:" ++ e.type)
  else .ok (some e)

/-- The members of a payload that a message shows. -/
structure Visible where
  text : String
  replyTo : Option String
  mentions : List String
  mediaIds : List String
  deriving DecidableEq

/-- What the message shows from this event on; nothing new when it is retracted. -/
def visible? (e : Envelope Payload) : Option Visible :=
  if e.type = "message.retracted" then none
  else match e.payload with
    | .message _ text replyTo mentions mediaIds => some ⟨text, replyTo, mentions, mediaIds⟩
    | _ => none

/-- `nextMessage`. -/
def nextMessage (messageId : String) (previous : Option LedgerMessage) (e : Envelope Payload) :
    LedgerMessage where
  messageId
  text := ((visible? e).map (·.text)).getD ((previous.map (·.text)).getD "")
  actorId := (previous.map (·.actorId)).getD e.actorId
  actorKind := (previous.map (·.actorKind)).getD e.actorKind
  actorRole := (previous.map (·.actorRole)).getD e.actorRole
  eventId := e.eventId
  causationId := e.causationId
  revision := e.revision
  operation := e.operation
  eventTime := e.eventTime
  firstRoomSeq := (previous.map (·.firstRoomSeq)).getD e.roomSeq
  roomSeq := e.roomSeq
  replyTo := ((visible? e).bind (·.replyTo)).or (previous.bind (·.replyTo))
  mentions := ((visible? e).map (·.mentions)).getD ((previous.map (·.mentions)).getD [])
  mediaIds := ((visible? e).map (·.mediaIds)).getD ((previous.map (·.mediaIds)).getD [])

/-- The message an event of this type is about. -/
def aboutMessage (e : Envelope Payload) : Option String :=
  if e.type = "message.added" ∨ e.type = "message.revised" ∨ e.type = "message.retracted" then
    e.payload.messageId?
  else none

/-- The messages after an event that was appended. -/
def foldMessage (messages : Dict String LedgerMessage) (core : Option (Envelope Payload)) :
    Dict String LedgerMessage :=
  match core with
  | none => messages
  | some e =>
    match aboutMessage e with
    | none => messages
    | some messageId =>
      if (messages.get? messageId).all (·.revision ≤ e.revision) then
        messages.set messageId (nextMessage messageId (messages.get? messageId) e)
      else messages

namespace MessageLedger

def start (roomId : String) : MessageLedger := ⟨⟨roomId, [], 0⟩, .empty⟩

/-- `append`. -/
def append (l : MessageLedger) (e : Envelope Payload) :
    Except String (AppendResult × MessageLedger) := do
  let core ← parseCoreRoomEvent e
  match l.ledger.append e with
  | none => .error "ROOM_EVENT_ROOM_MISMATCH"
  | some (.appended, ledger) => .ok (.appended, ⟨ledger, foldMessage l.messages core⟩)
  | some (result, _) => .ok (result, l)

/-- Append one event after the other. -/
def appendAll (l : MessageLedger) : List (Envelope Payload) → Except String MessageLedger
  | [] => .ok l
  | e :: rest => do
    let (_, l) ← l.append e
    l.appendAll rest

/-- `messages()`. -/
def list (l : MessageLedger) : List LedgerMessage :=
  l.messages.values.insertionSort fun a b => a.firstRoomSeq ≤ b.firstRoomSeq

/-- `activeMediaIds()`, a set. -/
def activeMediaIds (l : MessageLedger) : List String :=
  ((l.messages.values.filter (·.operation ≠ .retract)).flatMap (·.mediaIds)).dedup

end MessageLedger

/-! ## What the transcript should be -/

/-- An entry says what the events of its message say: the author and the place of the first, the
operation and the revision of the last, and the payload of the last that has one. -/
structure Entry (room : List (Envelope Payload)) (m : LedgerMessage) : Prop where
  first : ((messageEvents room m.messageId).head?.map fun e =>
    (e.actorId, e.actorKind, e.actorRole, e.roomSeq)) =
      some (m.actorId, m.actorKind, m.actorRole, m.firstRoomSeq)
  latest : ((messageEvents room m.messageId).getLast?.map fun e => (e.operation, e.revision)) =
    some (m.operation, m.revision)
  content : ((messageEvents room m.messageId).filterMap visible?).getLast? =
    some ⟨m.text, m.replyTo, m.mentions, m.mediaIds⟩

/-- The messages are the fold of the room. -/
structure Transcribes (room : List (Envelope Payload)) (l : MessageLedger) : Prop where
  once : (l.list.map (·.messageId)).Nodup
  complete : ∀ id, id ∈ l.list.map (·.messageId) ↔ messageEvents room id ≠ []
  ordered : l.list.Pairwise fun a b => a.firstRoomSeq < b.firstRoomSeq
  entries : ∀ m ∈ l.list, Entry room m
  media : ∀ id, id ∈ l.activeMediaIds ↔ ∃ m ∈ l.list, m.operation ≠ .retract ∧ id ∈ m.mediaIds

/-- No message that answered another has a last payload that answers none. -/
def KeepsReplies (room : List (Envelope Payload)) : Prop :=
  ∀ id last, ((messageEvents room id).filterMap visible?).getLast? = some last →
    last.replyTo = none → ∀ v ∈ (messageEvents room id).filterMap visible?, v.replyTo = none

/-! ## The fold of one message -/

/-- The entry of a message after its events. -/
def entryOf (messageId : String) (events : List (Envelope Payload)) : Option LedgerMessage :=
  events.foldl (fun previous e => some (nextMessage messageId previous e)) none

theorem entryOf_snoc (messageId : String) (events : List (Envelope Payload))
    (e : Envelope Payload) :
    entryOf messageId (events ++ [e]) =
      some (nextMessage messageId (entryOf messageId events) e) := by
  simp [entryOf]

/-- What the fold makes of the events of a message. -/
structure Folds (messageId : String) (events : List (Envelope Payload)) (m : LedgerMessage) :
    Prop where
  messageId : m.messageId = messageId
  first : (events.head?.map fun e => (e.actorId, e.actorKind, e.actorRole, e.roomSeq)) =
    some (m.actorId, m.actorKind, m.actorRole, m.firstRoomSeq)
  latest : (events.getLast?.map fun e => (e.operation, e.revision)) =
    some (m.operation, m.revision)
  text : m.text = ((events.filterMap visible?).getLast?.map (·.text)).getD ""
  mentions : m.mentions = ((events.filterMap visible?).getLast?.map (·.mentions)).getD []
  mediaIds : m.mediaIds = ((events.filterMap visible?).getLast?.map (·.mediaIds)).getD []
  /-- The last answer any of the payloads gives. -/
  replyTo : m.replyTo = ((events.filterMap visible?).filterMap (·.replyTo)).getLast?

theorem entryOf_folds (messageId : String) {events : List (Envelope Payload)}
    (hne : events ≠ []) : ∃ m, entryOf messageId events = some m ∧ Folds messageId events m := by
  induction events using List.reverseRecOn with
  | nil => exact absurd rfl hne
  | append_singleton events e ih =>
    refine ⟨_, entryOf_snoc .., ?_⟩
    by_cases hnil : events = []
    · subst hnil
      constructor <;> cases hv : visible? e <;> simp [entryOf, nextMessage, hv]
    · obtain ⟨m, hm, hf⟩ := ih hnil
      have hshown : (events ++ [e]).filterMap visible? =
          events.filterMap visible? ++ (visible? e).toList := by
        cases hv : visible? e <;> simp [hv]
      rw [hm]
      constructor
      · rfl
      · rw [List.head?_append_of_ne_nil _ hnil]
        exact hf.first
      · rw [List.getLast?_concat]
        rfl
      · rw [hshown]
        cases hv : visible? e <;> simp [nextMessage, hv, hf.text]
      · rw [hshown]
        cases hv : visible? e <;> simp [nextMessage, hv, hf.mentions]
      · rw [hshown]
        cases hv : visible? e <;> simp [nextMessage, hv, hf.mediaIds]
      · rw [hshown, List.filterMap_append, List.getLast?_append, ← hf.replyTo]
        cases hv : visible? e with
        | none => simp [nextMessage, hv]
        | some v => cases hr : v.replyTo <;> simp [nextMessage, hv, hr]

/-- Only the reply of an entry may differ from the last payload of its message. -/
theorem Folds.entry_iff {room : List (Envelope Payload)} {m : LedgerMessage}
    (hf : Folds m.messageId (messageEvents room m.messageId) m) {last : Visible}
    (hlast : ((messageEvents room m.messageId).filterMap visible?).getLast? = some last) :
    Entry room m ↔ (last.replyTo = none →
      ∀ v ∈ (messageEvents room m.messageId).filterMap visible?, v.replyTo = none) := by
  have htext := hf.text
  have hmentions := hf.mentions
  have hmedia := hf.mediaIds
  have hreply := hf.replyTo
  rw [hlast] at htext hmentions hmedia
  obtain ⟨front, hfront⟩ : ∃ front,
      (messageEvents room m.messageId).filterMap visible? = front ++ [last] :=
    List.getLast?_eq_some_iff.mp hlast
  rw [hfront, List.filterMap_append, List.getLast?_append] at hreply
  have hentry : Entry room m ↔ last.replyTo = m.replyTo := by
    constructor
    · intro he
      have hc := he.content
      rw [hlast, Option.some.injEq] at hc
      rw [hc]
    · intro hr
      refine ⟨hf.first, hf.latest, ?_⟩
      rw [hlast, htext, hmentions, hmedia, ← hr]
      rfl
  rw [hentry, hfront, hreply]
  cases hr : last.replyTo with
  | some r => simp [hr]
  | none =>
    simp only [List.filterMap_cons, hr, List.filterMap_nil, List.getLast?_nil, Option.none_or,
      forall_const]
    rw [eq_comm, List.getLast?_eq_none_iff, List.filterMap_eq_nil_iff]
    constructor
    · intro hall v hv
      rcases List.mem_append.mp hv with hv | hv
      · exact hall v hv
      · rw [List.mem_singleton.mp hv]
        exact hr
    · intro hall v hv
      exact hall v (List.mem_append_left _ hv)

/-! ## The fold of the room -/

/-- The events of a room as the server sends them. -/
structure Served (roomId : String) (room : List (Envelope Payload)) : Prop where
  numbered : room.map (·.roomSeq) = List.range' 1 room.length
  eventIds : (room.map (·.eventId)).Nodup
  rooms : ∀ e ∈ room, e.roomId = roomId
  parsed : ∀ e ∈ room, parseRoomEventEnvelope e = true ∧
    corePayloads.assert e.type e.payload = true
  revised : ∀ id, (messageEvents room id).Pairwise fun a b => a.revision < b.revision

theorem messageEvents_snoc (room : List (Envelope Payload)) (e : Envelope Payload) (id : String) :
    messageEvents (room ++ [e]) id =
      messageEvents room id ++ if e.payload.messageId? = some id then [e] else [] := by
  unfold messageEvents
  by_cases h : e.payload.messageId? = some id <;> simp [h]

section Served

variable {roomId : String} {room : List (Envelope Payload)} {e : Envelope Payload}

theorem Served.before (h : Served roomId (room ++ [e])) :
    Served roomId room ∧ e.roomSeq = room.length + 1 ∧ e.eventId ∉ room.map (·.eventId) := by
  have hnumbered := h.numbered
  rw [List.length_append, List.length_singleton, List.range'_1_concat, List.map_append,
    List.map_singleton] at hnumbered
  obtain ⟨hfront, hlast⟩ := List.append_inj' hnumbered rfl
  have hids := h.eventIds
  rw [List.map_append, List.map_singleton, List.nodup_append] at hids
  refine ⟨⟨hfront, hids.1, ?_, ?_, ?_⟩, ?_, ?_⟩
  · intro a ha
    exact h.rooms a (List.mem_append_left _ ha)
  · intro a ha
    exact h.parsed a (List.mem_append_left _ ha)
  · intro id
    have hrevised := h.revised id
    rw [messageEvents_snoc, List.pairwise_append] at hrevised
    exact hrevised.1
  · have hseq := List.singleton_inj.mp hlast
    omega
  · intro hmem
    exact hids.2.2 _ hmem _ (List.mem_singleton_self _) rfl

/-- A core event is about the message its payload names. -/
theorem aboutMessage_eq (h : corePayloads.assert e.type e.payload = true) :
    e.type ∈ coreTypes ∧ aboutMessage e = e.payload.messageId? := by
  unfold EventPayloadRegistry.assert corePayloads at h
  dsimp only at h
  unfold aboutMessage coreTypes
  split at h
  case h_8 => cases h
  all_goals
    rename_i htype
    cases hp : e.payload <;> simp_all [Payload.messageId?, validMessage]

theorem parseCoreRoomEvent_eq (hparsed : parseRoomEventEnvelope e = true)
    (hpayload : corePayloads.assert e.type e.payload = true) :
    parseCoreRoomEvent e = .ok (some e) := by
  unfold parseCoreRoomEvent
  simp [hparsed, hpayload, (aboutMessage_eq hpayload).1]

namespace MessageLedger

theorem appendAll_snoc (l : MessageLedger) (events : List (Envelope Payload))
    (e : Envelope Payload) :
    l.appendAll (events ++ [e]) =
      l.appendAll events >>= fun l => (l.append e) >>= fun r => .ok r.2 := by
  induction events generalizing l with
  | nil => rfl
  | cons first events ih =>
    rw [List.cons_append, appendAll, appendAll]
    cases l.append first with
    | error error => rfl
    | ok result => exact ih result.2

theorem append_next {l : MessageLedger} {room : List (Envelope Payload)}
    (hl : l.ledger = ⟨roomId, room, room.length⟩) (h : Served roomId (room ++ [e])) :
    l.append e = .ok (.appended,
      ⟨⟨roomId, room ++ [e], room.length + 1⟩, foldMessage l.messages (some e)⟩) := by
  obtain ⟨-, hseq, hfresh⟩ := h.before
  have he : e ∈ room ++ [e] := List.mem_append_right _ (List.mem_singleton_self _)
  obtain ⟨hparsed, hpayload⟩ := h.parsed e he
  have hledger : l.ledger.append e =
      some (.appended, ⟨roomId, room ++ [e], room.length + 1⟩) := by
    unfold EventLedger.append
    rw [hl, if_neg (not_not_intro (h.rooms e he)), if_neg hfresh, if_neg (by dsimp only; omega),
      if_neg (by dsimp only; omega), hseq]
  unfold append
  rw [parseCoreRoomEvent_eq hparsed hpayload]
  change (match l.ledger.append e with
    | none => _
    | some (.appended, ledger) => _
    | some (result, _) => _) = _
  rw [hledger]

/-- The entries are the folds of the messages. -/
def Holds (l : MessageLedger) (room : List (Envelope Payload)) : Prop :=
  ∀ id, l.messages.get? id = entryOf id (messageEvents room id)

/-- The revision of an entry is below that of the next event of its message. -/
theorem entryOf_revision {id : String} (h : Served roomId (room ++ [e]))
    (hid : e.payload.messageId? = some id) :
    (entryOf id (messageEvents room id)).all (·.revision ≤ e.revision) = true := by
  by_cases hnil : messageEvents room id = []
  · rw [hnil]
    rfl
  · obtain ⟨m, hm, hf⟩ := entryOf_folds id hnil
    obtain ⟨last, hlast, hlatest⟩ := Option.map_eq_some_iff.mp hf.latest
    have hrevised := h.revised id
    rw [messageEvents_snoc, if_pos hid, List.pairwise_append] at hrevised
    have hlt := hrevised.2.2 last (List.mem_of_getLast? hlast) e (List.mem_singleton_self _)
    rw [hm, Option.all_some, decide_eq_true_eq, ← (Prod.mk.inj hlatest).2]
    exact Nat.le_of_lt hlt

theorem Holds.fold {l : MessageLedger} (hl : l.Holds room) (h : Served roomId (room ++ [e]))
    (ledger : EventLedger Payload) :
    Holds ⟨ledger, foldMessage l.messages (some e)⟩ (room ++ [e]) := by
  intro id
  obtain ⟨-, hpayload⟩ := h.parsed e (List.mem_append_right _ (List.mem_singleton_self _))
  unfold foldMessage
  dsimp only
  rw [(aboutMessage_eq hpayload).2, messageEvents_snoc]
  cases hid : e.payload.messageId? with
  | none => simpa using hl id
  | some messageId =>
    dsimp only
    rw [hl messageId, if_pos (entryOf_revision h hid), Dict.get?_set]
    by_cases hsame : id = messageId
    · rw [if_pos hsame, if_pos (by rw [hsame]), hsame, entryOf_snoc]
    · rw [if_neg hsame, if_neg (fun heq => hsame (Option.some.inj heq).symm), List.append_nil]
      exact hl id

theorem appendAll_served (h : Served roomId room) :
    ∃ l, (start roomId).appendAll room = .ok l ∧ l.ledger = ⟨roomId, room, room.length⟩ ∧
      l.Holds room := by
  induction room using List.reverseRecOn with
  | nil => exact ⟨start roomId, rfl, rfl, fun id => rfl⟩
  | append_singleton room e ih =>
    obtain ⟨l, hall, hl, hholds⟩ := ih h.before.1
    refine ⟨_, ?_, ?_, hholds.fold h ⟨roomId, room ++ [e], room.length + 1⟩⟩
    · rw [appendAll_snoc, hall]
      change (l.append e >>= fun r => .ok r.2) = _
      rw [append_next hl h]
      rfl
    · rw [List.length_append, List.length_singleton]

theorem Holds.stored {l : MessageLedger} (hl : l.Holds room) {id : String} {m : LedgerMessage}
    (hget : l.messages.get? id = some m) : messageEvents room id ≠ [] ∧ m.messageId = id := by
  rw [hl id] at hget
  have hne : messageEvents room id ≠ [] := by
    intro hnil
    rw [hnil] at hget
    cases hget
  obtain ⟨m', hm', hf⟩ := entryOf_folds id hne
  obtain rfl : m' = m := Option.some.inj (hm'.symm.trans hget)
  exact ⟨hne, hf.messageId⟩

theorem Holds.mem_list {l : MessageLedger} (hl : l.Holds room) {m : LedgerMessage} :
    m ∈ l.list ↔ messageEvents room m.messageId ≠ [] ∧
      entryOf m.messageId (messageEvents room m.messageId) = some m := by
  unfold list
  rw [List.mem_insertionSort, Dict.mem_values]
  constructor
  · rintro ⟨id, hget⟩
    obtain ⟨hne, rfl⟩ := hl.stored hget
    exact ⟨hne, (hl m.messageId).symm.trans hget⟩
  · rintro ⟨-, hentry⟩
    exact ⟨m.messageId, (hl m.messageId).trans hentry⟩

theorem Holds.folds {l : MessageLedger} (hl : l.Holds room) {m : LedgerMessage}
    (hm : m ∈ l.list) : Folds m.messageId (messageEvents room m.messageId) m := by
  obtain ⟨hne, hentry⟩ := hl.mem_list.mp hm
  obtain ⟨m', hm', hf⟩ := entryOf_folds m.messageId hne
  obtain rfl : m' = m := Option.some.inj (hm'.symm.trans hentry)
  exact hf

theorem Holds.once {l : MessageLedger} (hl : l.Holds room) :
    (l.list.map (·.messageId)).Nodup := by
  have hkeys : l.messages.values.map (·.messageId) = l.messages.keys := by
    unfold Dict.values Dict.keys
    rw [List.map_map]
    refine List.map_congr_left fun entry hentry => ?_
    exact (hl.stored (Dict.get?_eq_some.mpr hentry)).2
  have hperm : (l.list.map (·.messageId)).Perm (l.messages.values.map (·.messageId)) :=
    (List.perm_insertionSort _ _).map _
  rw [hperm.nodup_iff, hkeys]
  exact l.messages.keys_nodup

/-- The first events of two messages are two events. -/
theorem Holds.ordered {l : MessageLedger} (hl : l.Holds room) (h : Served roomId room) :
    l.list.Pairwise fun a b => a.firstRoomSeq < b.firstRoomSeq := by
  have hle : l.list.Pairwise fun a b => a.firstRoomSeq ≤ b.firstRoomSeq :=
    List.pairwise_insertionSort _ _
  have hne : l.list.Pairwise fun a b => a.messageId ≠ b.messageId := List.pairwise_map.mp hl.once
  have hseqs : (room.map (·.roomSeq)).Nodup := by
    rw [h.numbered]
    exact List.nodup_range'
  refine (hle.and hne).imp_of_mem fun {a b} ha hb hab => ?_
  refine Nat.lt_of_le_of_ne hab.1 fun hsame => hab.2 ?_
  obtain ⟨first, hfirst, hfa⟩ := Option.map_eq_some_iff.mp (hl.folds ha).first
  obtain ⟨second, hsecond, hsb⟩ := Option.map_eq_some_iff.mp (hl.folds hb).first
  obtain ⟨hfirst, hnames⟩ := List.mem_filter.mp (List.mem_of_head? hfirst)
  obtain ⟨hsecond, hnames'⟩ := List.mem_filter.mp (List.mem_of_head? hsecond)
  have hseq : first.roomSeq = second.roomSeq := by
    simp only [Prod.mk.injEq] at hfa hsb
    omega
  rw [List.inj_on_of_nodup_map hseqs hfirst hsecond hseq] at hnames
  exact Option.some.inj ((of_decide_eq_true hnames).symm.trans (of_decide_eq_true hnames'))

theorem mem_activeMediaIds {l : MessageLedger} {id : String} :
    id ∈ l.activeMediaIds ↔ ∃ m ∈ l.list, m.operation ≠ .retract ∧ id ∈ m.mediaIds := by
  unfold activeMediaIds list
  simp only [List.mem_dedup, List.mem_flatMap, List.mem_filter, List.mem_insertionSort,
    decide_eq_true_eq, and_assoc]

/-- The messages are the fold of the room exactly if no revision took a reply back. -/
theorem Holds.transcribes_iff {l : MessageLedger} (hl : l.Holds room) (h : Served roomId room)
    (hsaid : ∀ id, messageEvents room id ≠ [] → (messageEvents room id).filterMap visible? ≠ []) :
    Transcribes room l ↔ KeepsReplies room := by
  have hshown : ∀ id, messageEvents room id ≠ [] → ∃ m ∈ l.list, m.messageId = id := by
    intro id hne
    obtain ⟨m, hm, hf⟩ := entryOf_folds id hne
    obtain rfl := hf.messageId
    exact ⟨m, hl.mem_list.mpr ⟨hne, hm⟩, rfl⟩
  have hentry : ∀ m ∈ l.list, ∃ last,
      ((messageEvents room m.messageId).filterMap visible?).getLast? = some last ∧
        (Entry room m ↔ (last.replyTo = none →
          ∀ v ∈ (messageEvents room m.messageId).filterMap visible?, v.replyTo = none)) := by
    intro m hm
    obtain ⟨last, hlast⟩ := Option.ne_none_iff_exists'.mp fun hnone =>
      hsaid _ (hl.mem_list.mp hm).1 (List.getLast?_eq_none_iff.mp hnone)
    exact ⟨last, hlast, (hl.folds hm).entry_iff hlast⟩
  constructor
  · intro ht id last hlast hnone
    have hne : messageEvents room id ≠ [] := by
      intro hnil
      rw [hnil] at hlast
      cases hlast
    obtain ⟨m, hm, rfl⟩ := hshown id hne
    obtain ⟨last', hlast', hiff⟩ := hentry m hm
    obtain rfl : last' = last := Option.some.inj (hlast'.symm.trans hlast)
    exact hiff.mp (ht.entries m hm) hnone
  · intro hk
    refine ⟨hl.once, fun id => ⟨?_, ?_⟩, hl.ordered h, ?_, fun id => mem_activeMediaIds⟩
    · intro hid
      obtain ⟨m, hm, rfl⟩ := List.mem_map.mp hid
      exact (hl.mem_list.mp hm).1
    · intro hne
      obtain ⟨m, hm, rfl⟩ := hshown id hne
      exact List.mem_map_of_mem hm
    · intro m hm
      obtain ⟨last, hlast, hiff⟩ := hentry m hm
      exact hiff.mpr (hk _ last hlast)

end MessageLedger

end Served

/-! ## The rooms of the server -/

section Rooms

variable {db db₀ : Database Payload} {drawn : List String}

/-- The envelopes a room sends, in its order. -/
def sentBy (db : Database Payload) : List (Envelope Payload) := db.outbox.map (·.envelope)

theorem sentBy_columns (h : Sound corePayloads db) :
    db.events = (sentBy db).map Envelope.columns := by
  have hmap : db.outbox.map (fun o => o.envelope.columns) = db.events.map id :=
    Rows.map_forall₂ h.outbox fun e o hm => hm.columns
  rw [List.map_id] at hmap
  rw [← hmap, sentBy, List.map_map]
  rfl

theorem messageEvents_sentBy (h : Sound corePayloads db) (id : String) :
    messageEvents db.events id = (messageEvents (sentBy db) id).map Envelope.columns := by
  unfold messageEvents
  rw [sentBy_columns h, List.filter_map]
  rfl

theorem sentBy_parsed (h : Sound corePayloads db) {e : Envelope Payload} (he : e ∈ sentBy db) :
    parseRoomEventEnvelope e = true ∧ corePayloads.assert e.type e.payload = true := by
  obtain ⟨o, ho, rfl⟩ := List.mem_map.mp he
  have hmirrors := h.outbox
  clear he
  generalize db.events = events, db.outbox = outbox at hmirrors ho
  induction hmirrors with
  | nil => cases ho
  | cons hm _ ih =>
    rcases List.mem_cons.mp ho with rfl | ho
    · exact ⟨hm.parsed, hm.payload⟩
    · exact ih ho

theorem sentBy_served (h : Told db₀ db drawn) (hhome : AtHome db) :
    Served db.room.roomId (sentBy db) := by
  have hsound := h.followed.sound
  have hcolumns := sentBy_columns hsound
  have hseqs : (sentBy db).map (·.roomSeq) = List.range' 1 (db.room.nextRoomSeq - 1) := by
    rw [← hsound.seqs, hcolumns, List.map_map]
    rfl
  refine ⟨?_, ?_, ?_, fun e he => sentBy_parsed hsound he, fun id => ?_⟩
  · have hlength := congrArg List.length hseqs
    rw [List.length_map, List.length_range'] at hlength
    rw [hseqs, hlength]
  · have hids := hsound.eventIds
    rw [hcolumns, List.map_map] at hids
    refine List.Nodup.of_map column ?_
    rw [List.map_map]
    exact hids
  · intro e he
    obtain ⟨o, ho, rfl⟩ := List.mem_map.mp he
    exact hhome o ho
  · obtain ⟨state, hchain⟩ := h.chained id
    rw [messageEvents_sentBy hsound] at hchain
    have hrevisions := hchain.revisions
    rw [List.pairwise_map] at hrevisions
    exact hrevisions

/-- A message is there with what it said first. -/
theorem sentBy_said (h : Told db₀ db drawn) {id : String} (hne : messageEvents (sentBy db) id ≠ []) :
    (messageEvents (sentBy db) id).filterMap visible? ≠ [] := by
  obtain ⟨state, hchain⟩ := h.chained id
  rw [messageEvents_sentBy h.followed.sound] at hchain
  obtain ⟨column, hcolumn, htype⟩ := hchain.first_added (by simpa using hne)
  obtain ⟨e, he, rfl⟩ := List.mem_map.mp hcolumn
  have htype : e.type = "message.added" := htype
  obtain ⟨-, hpayload⟩ := sentBy_parsed h.followed.sound (List.mem_filter.mp he).1
  rw [htype] at hpayload
  have hvalid : validMessage e.payload = true := hpayload
  cases hp : e.payload with
  | message messageId text replyTo mentions mediaIds =>
    have hsaid : visible? e = some ⟨text, replyTo, mentions, mediaIds⟩ := by
      simp [visible?, htype, hp]
    exact List.ne_nil_of_mem (List.mem_filterMap.mpr ⟨e, he, hsaid⟩)
  | opened | paused | resumed | closed | retracted =>
    rw [hp] at hvalid
    cases hvalid

theorem told_transcribes (h : Told db₀ db drawn) (hhome : AtHome db) :
    ∃ l, (MessageLedger.start db.room.roomId).appendAll (sentBy db) = .ok l ∧
      l.ledger.events = sentBy db ∧ (Transcribes (sentBy db) l ↔ KeepsReplies (sentBy db)) := by
  have hserved := sentBy_served h hhome
  obtain ⟨l, hall, hledger, hholds⟩ := MessageLedger.appendAll_served hserved
  exact ⟨l, hall, by rw [hledger], hholds.transcribes_iff hserved fun id => sentBy_said h⟩

/-- Whatever a room has seen, the transcript of a browser that got its events is their fold
exactly if no message that answered another was revised to answer none. -/
theorem transcript_iff (h₀ : Unopened db₀) (calls : List Call)
    (hdrawn : (calls.filterMap Call.messageId?).Nodup) :
    let db := commitAll step db₀ calls
    ∃ l, (MessageLedger.start db.room.roomId).appendAll (sentBy db) = .ok l ∧
      l.ledger.events = sentBy db ∧ (Transcribes (sentBy db) l ↔ KeepsReplies (sentBy db)) :=
  told_transcribes (commitAll_told h₀ calls hdrawn) (commitAll_atHome h₀ calls)

end Rooms

/-- What the next transactions draw. -/
def drawing (eventId jobId : String) (stored : Uuid.Stored eventId ∧ Uuid.Stored jobId) : Ambient :=
  { firstAmbient with drawn := ⟨eventId, jobId, some 1001, stored⟩ }

/-- A room is opened and greeted, the greeting is answered, and the answer is revised to answer
nothing. -/
def answeredCalls : List Call :=
  [ .openRoom "11111111-1111-4111-8111-111111111111" roomOwner
      "cccccccc-cccc-4ccc-8ccc-cccccccccccc" firstAmbient,
    .add noAttachments helloStudent helloCommand true "77777777-7777-4777-8777-777777777777"
      (drawing "88888888-8888-4888-8888-888888888882" "99999999-9999-4999-8999-999999999992"
        (by decide +kernel)),
    .add noAttachments helloStudent
      { helloCommand with
        commandId := "aaaaaaaa-aaaa-4aaa-8aaa-aaaaaaaaaaab", text := .value "yes"
        replyTo := .value (some "77777777-7777-4777-8777-777777777777") }
      true "77777777-7777-4777-8777-777777777778"
      (drawing "88888888-8888-4888-8888-888888888883" "99999999-9999-4999-8999-999999999993"
        (by decide +kernel)),
    .revise helloStudent
      { helloCommand with
        commandId := "aaaaaaaa-aaaa-4aaa-8aaa-aaaaaaaaaaac", type := "message.revise"
        messageId := .value "77777777-7777-4777-8777-777777777778", baseRevision := some 1
        text := .value "no" }
      true
      (drawing "88888888-8888-4888-8888-888888888884" "99999999-9999-4999-8999-999999999994"
        (by decide +kernel)) ]

theorem transcript_iff_greeted :
    let db := commitAll step scheduledRoom (answeredCalls.take 2)
    (sentBy db).length = 2 ∧
      ∃ l, (MessageLedger.start db.room.roomId).appendAll (sentBy db) = .ok l ∧
        l.ledger.events = sentBy db ∧ (Transcribes (sentBy db) l ↔ KeepsReplies (sentBy db)) :=
  ⟨by decide +kernel, transcript_iff scheduledRoom_unopened _ (by decide)⟩

theorem reply_not_cleared :
    ∃ l, (MessageLedger.start (commitAll step scheduledRoom answeredCalls).room.roomId).appendAll
        (sentBy (commitAll step scheduledRoom answeredCalls)) = .ok l ∧
      ¬Transcribes (sentBy (commitAll step scheduledRoom answeredCalls)) l := by
  obtain ⟨l, hall, -, hiff⟩ := told_transcribes
    (commitAll_told scheduledRoom_unopened answeredCalls (by decide))
    (commitAll_atHome scheduledRoom_unopened answeredCalls)
  refine ⟨l, hall, fun ht => ?_⟩
  have hsaid : (messageEvents (sentBy (commitAll step scheduledRoom answeredCalls))
      "77777777-7777-4777-8777-777777777778").filterMap visible? =
      [⟨"yes", some "77777777-7777-4777-8777-777777777777", [], []⟩, ⟨"no", none, [], []⟩] := by
    decide +kernel
  have hkept := hiff.mp ht "77777777-7777-4777-8777-777777777778" ⟨"no", none, [], []⟩
  rw [hsaid] at hkept
  have hfirst := hkept rfl rfl _ (List.mem_cons_self ..)
  cases hfirst

end LearningOrbit.Realtime
