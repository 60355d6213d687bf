import LearningOrbit.Rooms.LifecycleRuns
import Mathlib.Data.List.Induction

/-!
# The revisions of a message over every interleaving

The events that name one message form a chain: it is added, revised by its
author and retracted at most once. The query for the latest revision finds the
end of the chain, which is what makes the checks of the next command right.
-/

namespace LearningOrbit.Rooms

/-- Where a message stands: its author and its last revision. -/
inductive MessageState
  | absent
  | standing (author : String) (revision : Nat)
  | retracted
  deriving DecidableEq

/-- The events of one message, in the order of the room. -/
inductive Chain (teacherId : String) : List (Envelope Payload) → MessageState → Prop
  | absent : Chain teacherId [] .absent
  | added {e : Envelope Payload} (type : e.type = "message.added") (operation : e.operation = .add)
      (revision : e.revision = 1) : Chain teacherId [e] (.standing e.actorId 1)
  | revised {l : List (Envelope Payload)} {author : String} {n : Nat} {e : Envelope Payload}
      (chain : Chain teacherId l (.standing author n)) (type : e.type = "message.revised")
      (operation : e.operation = .revise) (revision : e.revision = n + 1)
      (own : e.actorId = author) : Chain teacherId (l ++ [e]) (.standing author (n + 1))
  | retracted {l : List (Envelope Payload)} {author : String} {n : Nat} {e : Envelope Payload}
      (chain : Chain teacherId l (.standing author n)) (type : e.type = "message.retracted")
      (operation : e.operation = .retract) (revision : e.revision = n + 1)
      (own : e.actorId = author ∨ e.actorId = teacherId) : Chain teacherId (l ++ [e]) .retracted

section Chains

variable {teacherId : String} {l : List (Envelope Payload)} {state : MessageState}
  {e prior : Envelope Payload} {author : String} {n : Nat}

theorem latest_mem (h : latest l = some e) : e ∈ l := by
  induction l generalizing e with
  | nil => cases h
  | cons a l ih =>
    rw [latest] at h
    split at h
    · cases h
      exact List.mem_cons_self ..
    · rename_i b hb
      split at h
      · cases h
        exact List.mem_cons_of_mem _ (ih hb)
      · cases h
        exact List.mem_cons_self ..

/-- A revision above all others is the latest. -/
theorem latest_concat (h : ∀ a ∈ l, a.revision < e.revision) : latest (l ++ [e]) = some e := by
  induction l with
  | nil => rfl
  | cons a l ih =>
    have ha : laterRevision e a = true := by
      have := h a (List.mem_cons_self ..)
      simp [laterRevision, this]
    rw [List.cons_append, latest, ih fun b hb => h b (List.mem_cons_of_mem _ hb)]
    simp [ha]

/-- A message that stands: its latest event has its last revision and its author. -/
theorem Chain.standing_latest (h : Chain teacherId l (.standing author n)) :
    (∀ a ∈ l, a.revision ≤ n ∧ a.operation ≠ .retract) ∧
      ∃ last, latest l = some last ∧ last.revision = n ∧ last.actorId = author := by
  generalize hs : MessageState.standing author n = s at h
  induction h generalizing author n with
  | absent => cases hs
  | @added e type operation revision =>
    cases hs
    refine ⟨?_, e, rfl, revision, rfl⟩
    intro a ha
    rw [List.mem_singleton.mp ha]
    exact ⟨Nat.le_of_eq revision, by rw [operation]; decide⟩
  | @revised l author' n' e chain type operation revision own ih =>
    cases hs
    obtain ⟨hall, -⟩ := ih rfl
    refine ⟨?_, e, latest_concat fun a ha => ?_, revision, own⟩
    · intro a ha
      rcases List.mem_append.mp ha with ha | ha
      · exact ⟨Nat.le_succ_of_le (hall a ha).1, (hall a ha).2⟩
      · rw [List.mem_singleton.mp ha]
        exact ⟨Nat.le_of_eq revision, by rw [operation]; decide⟩
    · have := (hall a ha).1
      omega
  | retracted chain type operation revision own ih => cases hs

theorem Chain.retracted_latest (h : Chain teacherId l .retracted) :
    ∃ last, latest l = some last ∧ last.operation = .retract := by
  cases h with
  | retracted chain type operation revision own =>
    refine ⟨_, latest_concat fun a ha => ?_, operation⟩
    have := (chain.standing_latest.1 a ha).1
    omega

/-- A latest event that is no retraction tells where the message stands. -/
theorem Chain.standing_of_latest (h : Chain teacherId l state) (hl : latest l = some prior)
    (hp : prior.operation ≠ .retract) : state = .standing prior.actorId prior.revision := by
  cases state with
  | absent =>
    cases h
    cases hl
  | standing author n =>
    obtain ⟨-, last, hlast, hn, ha⟩ := h.standing_latest
    rw [hl] at hlast
    cases hlast
    rw [hn, ha]
  | retracted =>
    obtain ⟨last, hlast, hop⟩ := h.retracted_latest
    rw [hl] at hlast
    cases hlast
    exact absurd hop hp

/-- An addition, revisions numbered from two on, and at most one retraction. -/
structure Revisions (teacherId : String) (added : Envelope Payload)
    (revises retracts : List (Envelope Payload)) : Prop where
  type : added.type = "message.added" ∧ added.operation = .add
  first : added.revision = 1
  revised : ∀ e ∈ revises, e.type = "message.revised" ∧ e.operation = .revise ∧
    e.actorId = added.actorId
  numbered : revises.map (·.revision) = List.range' 2 revises.length
  once : retracts.length ≤ 1
  retracted : ∀ e ∈ retracts, e.type = "message.retracted" ∧ e.operation = .retract ∧
    e.revision = revises.length + 2 ∧ (e.actorId = added.actorId ∨ e.actorId = teacherId)

theorem Chain.standing_shape (h : Chain teacherId l (.standing author n)) :
    ∃ added revises, l = added :: revises ∧ Revisions teacherId added revises [] ∧
      added.actorId = author ∧ n = revises.length + 1 := by
  generalize hs : MessageState.standing author n = s at h
  induction h generalizing author n with
  | absent => cases hs
  | @added e type operation revision =>
    cases hs
    refine ⟨e, [], rfl, ⟨⟨type, operation⟩, revision, by simp, rfl, Nat.zero_le _, by simp⟩, rfl,
      rfl⟩
  | @revised l author' n' e chain type operation revision own ih =>
    cases hs
    obtain ⟨added, revises, rfl, hr, hauthor, hn⟩ := ih rfl
    refine ⟨added, revises ++ [e], rfl, ⟨hr.type, hr.first, ?_, ?_, Nat.zero_le _, by simp⟩,
      hauthor, by simp [hn]⟩
    · intro a ha
      rcases List.mem_append.mp ha with ha | ha
      · exact hr.revised a ha
      · rw [List.mem_singleton.mp ha]
        exact ⟨type, operation, own.trans hauthor.symm⟩
    · have hlast : e.revision = 2 + revises.length := by omega
      rw [List.map_append, hr.numbered, List.length_append, List.length_singleton,
        List.range'_1_concat, List.map_singleton, hlast]
  | retracted chain type operation revision own ih => cases hs

theorem Chain.shape (h : Chain teacherId l state) : l = [] ∨ ∃ added revises retracts,
    l = added :: (revises ++ retracts) ∧ Revisions teacherId added revises retracts := by
  cases state with
  | absent =>
    cases h
    exact .inl rfl
  | standing author n =>
    obtain ⟨added, revises, rfl, hr, -⟩ := h.standing_shape
    exact .inr ⟨added, revises, [], by simp, hr⟩
  | retracted =>
    cases h with
    | @retracted l author n e chain type operation revision own =>
      obtain ⟨added, revises, rfl, hr, hauthor, hn⟩ := chain.standing_shape
      refine .inr ⟨added, revises, [e], rfl, hr.type, hr.first, hr.revised, hr.numbered,
        Nat.le_refl _, ?_⟩
      intro a ha
      rw [List.mem_singleton.mp ha]
      exact ⟨type, operation, by omega, by rwa [hauthor]⟩

theorem Chain.revisions (h : Chain teacherId l state) :
    l.Pairwise fun a b => a.revision < b.revision := by
  have hsnoc : ∀ {l : List (Envelope Payload)} {author : String} {n : Nat} {e : Envelope Payload},
      Chain teacherId l (.standing author n) → e.revision = n + 1 →
      (l.Pairwise fun a b => a.revision < b.revision) →
      (l ++ [e]).Pairwise fun a b => a.revision < b.revision := by
    intro l author n e chain hrevision ih
    refine List.pairwise_append.mpr ⟨ih, List.pairwise_singleton _ _, fun a ha b hb => ?_⟩
    have hle := (chain.standing_latest.1 a ha).1
    rw [List.mem_singleton.mp hb]
    omega
  induction h with
  | absent => exact .nil
  | added => exact List.pairwise_singleton _ _
  | revised chain _ _ revision _ ih => exact hsnoc chain revision ih
  | retracted chain _ _ revision _ ih => exact hsnoc chain revision ih

theorem Chain.first_added (h : Chain teacherId l state) (hne : l ≠ []) :
    ∃ e ∈ l, e.type = "message.added" := by
  rcases h.shape with hnil | ⟨added, revises, retracts, rfl, hr⟩
  · exact absurd hnil hne
  · exact ⟨added, List.mem_cons_self .., hr.type.1⟩

end Chains

section Runs

variable {db db' db₀ : Database Payload} {causation : Option String}
  {target : Option (String × Nat)} {e : Envelope Payload} {messageId : String}

/-- Every message of the room has its chain. -/
def Chained (db : Database Payload) : Prop :=
  ∀ messageId, ∃ state, Chain db.room.teacherId (messageEvents db.events messageId) state

theorem messageEvents_concat (events : List (Envelope Payload)) (e : Envelope Payload)
    (messageId : String) : messageEvents (events ++ [e.columns]) messageId =
      messageEvents events messageId ++
        if e.payload.messageId? = some messageId then [e.columns] else [] := by
  unfold messageEvents
  rw [List.filter_append]
  by_cases h : e.payload.messageId? = some messageId
  · have hc : e.columns.payload.messageId? = some messageId := h
    rw [if_pos h, List.filter_cons_of_pos (by simpa using hc), List.filter_nil]
  · have hc : ¬ e.columns.payload.messageId? = some messageId := h
    rw [if_neg h, List.filter_cons_of_neg (by simpa using hc), List.filter_nil]

theorem Sound.actor (h : Sound corePayloads db) (he : e ∈ db.events) :
    column e.actorId = e.actorId := by
  obtain ⟨o, -, hm⟩ := h.mirrored he
  have hformat : uuidFormat o.envelope.actorId = true := by
    have hp := hm.parsed
    simp only [parseRoomEventEnvelope, Bool.and_eq_true] at hp
    exact hp.1.1.1.1.1.1.2
  rw [← hm.columns]
  exact column_column hformat

theorem mem_messageEvents {events : List (Envelope Payload)} :
    e ∈ messageEvents events messageId ↔ e ∈ events ∧ e.payload.messageId? = some messageId := by
  simp [messageEvents]

/-- An event that names no message leaves every chain. -/
theorem Chained.unnamed (h : Chained db) (hg : Grows db db' e)
    (hp : e.payload.messageId? = none) : Chained db' := by
  intro messageId
  rw [hg.events, hg.same.teacherId, messageEvents_concat, hp, if_neg (by simp), List.append_nil]
  exact h messageId

/-- An event that names a message extends its chain and leaves the others. -/
theorem Chained.named (h : Chained db) (hg : Grows db db' e)
    (hp : e.payload.messageId? = some messageId)
    (hchain : ∃ state, Chain db.room.teacherId
      (messageEvents db.events messageId ++ [e.columns]) state) : Chained db' := by
  intro other
  rw [hg.events, hg.same.teacherId, messageEvents_concat, hp]
  by_cases ho : messageId = other
  · subst ho
    rw [if_pos rfl]
    exact hchain
  · rw [if_neg (by simpa using ho), List.append_nil]
    exact h other

theorem Chained.message (h : Chained db) (hdb : Sound corePayloads db)
    (hteacher : Uuid.Stored db.room.teacherId)
    (hfresh : ∀ id, target = some (id, 0) → messageEvents db.events id = [])
    (hg : Grows db db' e) (hm : MessageEvent target db e) : Chained db' := by
  -- A stored author is spelled as the column prints it, and so is the owner.
  have hprior : ∀ {id prior}, latest (messageEvents db.events id) = some prior →
      column prior.actorId = prior.actorId := fun hl =>
    hdb.actor (mem_messageEvents.mp (latest_mem hl)).1
  cases hm with
  | added messageId type operation revision names based answers =>
    refine h.named hg names ⟨.standing e.columns.actorId 1, ?_⟩
    rw [hfresh messageId based]
    exact .added (e := e.columns) type operation revision
  | revised messageId prior type operation names found stands based revision author answers =>
    obtain ⟨state, hstate⟩ := h messageId
    rw [hstate.standing_of_latest found stands] at hstate
    refine h.named hg names ⟨_, .revised hstate type operation revision ?_⟩
    change column e.actorId = prior.actorId
    rw [← author]
    exact hprior found
  | retracted messageId prior type operation names found stands based revision author answers =>
    obtain ⟨state, hstate⟩ := h messageId
    rw [hstate.standing_of_latest found stands] at hstate
    refine h.named hg names ⟨_, .retracted hstate type operation revision ?_⟩
    rcases author with hauthor | howner
    · refine .inl ?_
      change column e.actorId = prior.actorId
      rw [← hauthor]
      exact hprior found
    · refine .inr ?_
      change column e.actorId = db.room.teacherId
      rw [howner]
      exact column_of_stored hteacher

theorem Chained.effect (h : Chained db) (hdb : Followed db₀ db)
    (hteacher : Uuid.Stored db.room.teacherId)
    (hfresh : ∀ id, target = some (id, 0) → messageEvents db.events id = [])
    (heffect : Effect causation target db db') : Chained db' := by
  cases heffect with
  | quiet events outbox room same =>
    intro messageId
    rw [events, room]
    exact h messageId
  | manual kind e grows cause untargeted event before after => exact h.unnamed grows event.payload
  | automatic e grows untargeted type actorKind payload before after => exact h.unnamed grows payload
  | repeated e stored type before events sound =>
    have hclosed := hdb.recorded.closed stored type
    rw [hclosed] at before
    rcases before with h | h <;> cases h
  | message e grows event before after => exact h.message hdb.sound hteacher hfresh grows event

/-- The message is there and stands. -/
def Stands (events : List (Envelope Payload)) (messageId : String) : Prop :=
  messageEvents events messageId ≠ [] ∧
    ∀ m ∈ messageEvents events messageId, m.operation ≠ .retract

/-- Every reply was to a message that stood when it was written. -/
def Replied (events : List (Envelope Payload)) : Prop :=
  ∀ (i : Nat) (e : Envelope Payload), events[i]? = some e →
    ∀ replyTo, e.payload.replyTo? = some replyTo → Stands (events.take i) replyTo

theorem Chained.stands (h : Chained db) {target : Envelope Payload}
    (hl : latest (messageEvents db.events messageId) = some target)
    (ht : target.operation ≠ .retract) : Stands db.events messageId := by
  obtain ⟨state, hstate⟩ := h messageId
  rw [hstate.standing_of_latest hl ht] at hstate
  refine ⟨fun hnil => ?_, fun m hm => (hstate.standing_latest.1 m hm).2⟩
  rw [hnil] at hl
  cases hl

theorem Replied.concat {events : List (Envelope Payload)} (h : Replied events)
    (he : ∀ replyTo, e.payload.replyTo? = some replyTo → Stands events replyTo) :
    Replied (events ++ [e.columns]) := by
  intro i a ha replyTo hreply
  by_cases hi : i < events.length
  · rw [List.getElem?_append_left hi] at ha
    rw [List.take_append_of_le_length (Nat.le_of_lt hi)]
    exact h i a ha replyTo hreply
  · have hlt := (List.getElem?_eq_some_iff.mp ha).1
    rw [List.length_append, List.length_singleton] at hlt
    have hlast : i = events.length := by omega
    subst hlast
    rw [List.getElem?_concat_length] at ha
    cases ha
    rw [List.take_left']
    · exact he replyTo hreply
    · rfl

theorem replyTo?_of_unnamed {payload : Payload} (h : payload.messageId? = none) :
    payload.replyTo? = none := by
  cases payload <;> simp [Payload.messageId?, Payload.replyTo?] at h ⊢

theorem Replied.effect (h : Replied db.events) (hc : Chained db)
    (heffect : Effect causation target db db') : Replied db'.events := by
  cases heffect with
  | quiet events outbox room same =>
    rw [events]
    exact h
  | manual kind e grows cause untargeted event before after =>
    rw [grows.events]
    refine h.concat fun replyTo hreply => ?_
    rw [replyTo?_of_unnamed event.payload] at hreply
    cases hreply
  | automatic e grows untargeted type actorKind payload before after =>
    rw [grows.events]
    refine h.concat fun replyTo hreply => ?_
    rw [replyTo?_of_unnamed payload] at hreply
    cases hreply
  | repeated e stored type before events sound =>
    rw [events]
    exact h
  | message e grows event before after =>
    rw [grows.events]
    have hanswers : Answers db e := by cases event <;> assumption
    refine h.concat fun replyTo hreply => ?_
    obtain ⟨target, hl, ht⟩ := hanswers replyTo hreply
    exact hc.stands hl ht

/-- The id `add` draws for a new message. -/
def Call.messageId? : Call → Option String
  | .add _ _ _ _ messageId _ => some messageId
  | _ => none

theorem MessageCommand.target?_pos {command : MessageCommand} {n : Nat}
    (h : command.target? = some (messageId, n)) : 1 ≤ n := by
  unfold MessageCommand.target? at h
  split at h
  · split at h
    · cases h
      assumption
    · cases h
  · cases h

theorem Call.messageId?_of_target {call : Call} (h : call.target? = some (messageId, 0)) :
    call.messageId? = some messageId := by
  cases call with
  | add attachments principal command session id ambient =>
    cases h
    rfl
  | revise principal command session ambient =>
    exact absurd (MessageCommand.target?_pos h) (by omega)
  | retract principal command session ambient =>
    exact absurd (MessageCommand.target?_pos h) (by omega)
  | openRoom | ownerRetry | closeIfDue | closeIfDueForOwner | simpleTransition | closeRoom
  | autoClose | queue => cases h

/-- What holds of the messages after transactions that drew these ids. -/
structure Told (db₀ db : Database Payload) (drawn : List String) : Prop where
  followed : Followed db₀ db
  chained : Chained db
  replied : Replied db.events
  known : ∀ e ∈ db.events, ∀ id, e.payload.messageId? = some id → id ∈ drawn

theorem Told.fresh {drawn : List String} (h : Told db₀ db drawn) (hid : messageId ∉ drawn) :
    messageEvents db.events messageId = [] := by
  unfold messageEvents
  rw [List.filter_eq_nil_iff]
  intro e he hnames
  exact hid (h.known e he messageId (by simpa using hnames))

/-- The id of an appended event was drawn now or is the id of an event before. -/
theorem Effect.known {drawn : List String} (heffect : Effect causation target db db')
    (h : ∀ e ∈ db.events, ∀ id, e.payload.messageId? = some id → id ∈ drawn)
    (htarget : ∀ id, target = some (id, 0) → id ∈ drawn) :
    ∀ e ∈ db'.events, ∀ id, e.payload.messageId? = some id → id ∈ drawn := by
  have hgrows : ∀ {e}, Grows db db' e → (∀ id, e.payload.messageId? = some id → id ∈ drawn) →
      ∀ e ∈ db'.events, ∀ id, e.payload.messageId? = some id → id ∈ drawn := by
    intro e hg he a ha id hid
    rw [hg.events] at ha
    rcases List.mem_append.mp ha with ha | ha
    · exact h a ha id hid
    · rw [List.mem_singleton.mp ha] at hid
      exact he id hid
  have hnamed : ∀ {id prior}, latest (messageEvents db.events id) = some prior → id ∈ drawn := by
    intro id prior hl
    obtain ⟨hmem, hid⟩ := mem_messageEvents.mp (latest_mem hl)
    exact h prior hmem id hid
  cases heffect with
  | quiet events outbox room same =>
    rw [events]
    exact h
  | manual kind e grows cause untargeted event before after =>
    refine hgrows grows fun id hid => ?_
    rw [event.payload] at hid
    cases hid
  | automatic e grows untargeted type actorKind payload before after =>
    refine hgrows grows fun id hid => ?_
    rw [payload] at hid
    cases hid
  | repeated e stored type before events sound =>
    rw [events]
    exact h
  | message e grows event before after =>
    refine hgrows grows fun id hid => ?_
    cases event with
    | added messageId type operation revision names based answers =>
      rw [names] at hid
      cases hid
      exact htarget _ based
    | revised messageId prior type operation names found stands based revision author answers =>
      rw [names] at hid
      cases hid
      exact hnamed found
    | retracted messageId prior type operation names found stands based revision author answers =>
      rw [names] at hid
      cases hid
      exact hnamed found

theorem Told.commit_ok {drawn : List String} {call : Call} (h₀ : Unopened db₀) (h : Told db₀ db drawn)
    (hfresh : ∀ id, call.messageId? = some id → id ∉ drawn) (hstep : step db call = .ok db') :
    Told db₀ db' (drawn ++ call.messageId?.toList) := by
  have heffect := step_effect h.followed.sound hstep
  have hteacher : Uuid.Stored db.room.teacherId := by
    rw [h.followed.same.teacherId]
    exact h₀.teacher
  refine ⟨h.followed.effect heffect, ?_, h.replied.effect h.chained heffect, ?_⟩
  · exact h.chained.effect h.followed hteacher
      (fun id hid => h.fresh (hfresh id (Call.messageId?_of_target hid))) heffect
  · refine heffect.known (fun e he id hid => List.mem_append_left _ (h.known e he id hid)) ?_
    intro id hid
    simp [Call.messageId?_of_target hid]

theorem commitAll_told (h₀ : Unopened db₀) (calls : List Call)
    (hn : (calls.filterMap Call.messageId?).Nodup) :
    Told db₀ (commitAll step db₀ calls) (calls.filterMap Call.messageId?) := by
  induction calls using List.reverseRecOn with
  | nil =>
    refine ⟨h₀.followed, fun messageId => ⟨.absent, ?_⟩, ?_, ?_⟩
    · change Chain _ (messageEvents db₀.events messageId) _
      rw [h₀.new.events]
      exact .absent
    · intro i e he
      change db₀.events[i]? = some e at he
      rw [h₀.new.events] at he
      cases he
    · intro e he
      change e ∈ db₀.events at he
      rw [h₀.new.events] at he
      cases he
  | append_singleton calls call ih =>
    rw [List.filterMap_append, List.nodup_append] at hn
    have htold := ih hn.1
    have hdrawn : [call].filterMap Call.messageId? = call.messageId?.toList := by
      cases h : call.messageId? <;> simp [h]
    have hfresh : ∀ id, call.messageId? = some id → id ∉ calls.filterMap Call.messageId? := by
      intro id hid hmem
      exact hn.2.2 id hmem id (by simp [hid]) rfl
    rw [commitAll_append, List.filterMap_append, hdrawn]
    change Told db₀ (commit step (commitAll step db₀ calls) call) _
    cases hstep : step (commitAll step db₀ calls) call with
    | ok db' =>
      rw [commit_of_ok hstep]
      exact htold.commit_ok h₀ hfresh hstep
    | error error =>
      rw [commit_of_error hstep]
      exact ⟨htold.followed, htold.chained, htold.replied,
        fun e he id hid => List.mem_append_left _ (htold.known e he id hid)⟩

theorem Effect.grows_or (heffect : Effect causation target db db') :
    db'.events = db.events ∨
      ∃ e : Envelope Payload, db'.events = db.events ++ [e.columns] := by
  cases heffect with
  | quiet events outbox room same => exact .inl events
  | manual kind e grows => exact .inr ⟨e, grows.events⟩
  | automatic e grows => exact .inr ⟨e, grows.events⟩
  | repeated e stored type before events sound => exact .inl events
  | message e grows => exact .inr ⟨e, grows.events⟩

/-- Events are never taken back. -/
theorem commitAll_extends (h₀ : Unopened db₀) (calls calls' : List Call) :
    (commitAll step db₀ calls).events <+: (commitAll step db₀ (calls ++ calls')).events := by
  have hstart : Followed db₀ (commitAll step db₀ calls) := commitAll_followed h₀ calls
  rw [commitAll_append]
  refine (commitAll_invariant (P := fun db => Followed db₀ db ∧
    (commitAll step db₀ calls).events <+: db.events) ?_ ⟨hstart, List.prefix_refl _⟩ calls').2
  rintro db call db' ⟨hf, hp⟩ hstep
  have heffect := step_effect hf.sound hstep
  refine ⟨hf.effect heffect, ?_⟩
  rcases heffect.grows_or with he | ⟨e, he⟩
  · rw [he]
    exact hp
  · rw [he]
    exact hp.trans (List.prefix_append ..)

/-- A command that appends found the revision it is based on, and appends the next. -/
theorem Effect.targeted {n : Nat} (heffect : Effect causation (some (messageId, n)) db db')
    (hgrew : db'.events ≠ db.events) (hn : 1 ≤ n) :
    (∃ prior, latest (messageEvents db.events messageId) = some prior ∧
      prior.operation ≠ .retract ∧ prior.revision = n) ∧
    ∃ row ∈ db'.events, row.payload.messageId? = some messageId ∧ row.revision = n + 1 := by
  cases heffect with
  | quiet events outbox room same => exact absurd events hgrew
  | manual kind e grows cause untargeted => cases untargeted
  | automatic e grows untargeted => cases untargeted
  | repeated e stored type before events sound => exact absurd events hgrew
  | message e grows event before after =>
    have hmem : e.columns ∈ db'.events := by
      rw [grows.events]
      exact List.mem_append_right _ (List.mem_singleton_self _)
    cases event with
    | added id type operation revision names based answers =>
      cases based
      omega
    | revised id prior type operation names found stands based revision author answers =>
      cases based
      exact ⟨⟨prior, found, stands, rfl⟩, e.columns, hmem, names, revision⟩
    | retracted id prior type operation names found stands based revision author answers =>
      cases based
      exact ⟨⟨prior, found, stands, rfl⟩, e.columns, hmem, names, revision⟩

/-- A message that has the next revision is not the base of another command. -/
theorem Told.based_once {drawn : List String} {call : Call} {n : Nat} (h : Told db₀ db drawn)
    (hrow : ∃ row ∈ db.events, row.payload.messageId? = some messageId ∧ row.revision = n + 1)
    (htarget : call.target? = some (messageId, n)) (hn : 1 ≤ n) :
    (commit step db call).events = db.events := by
  cases hstep : step db call with
  | error error => rw [commit_of_error hstep]
  | ok db' =>
    rw [commit_of_ok hstep]
    by_contra hgrew
    have heffect := step_effect h.followed.sound hstep
    rw [htarget] at heffect
    obtain ⟨⟨prior, hl, hp, hrevision⟩, -⟩ := heffect.targeted hgrew hn
    obtain ⟨state, hstate⟩ := h.chained messageId
    rw [hstate.standing_of_latest hl hp] at hstate
    obtain ⟨row, hmem, hnames, hnext⟩ := hrow
    have hle := (hstate.standing_latest.1 row (mem_messageEvents.mpr ⟨hmem, hnames⟩)).1
    omega

/-- The envelopes of the outbox name the room as its row does. -/
def AtHome (db : Database Payload) : Prop := ∀ o ∈ db.outbox, o.envelope.roomId = db.room.roomId

theorem AtHome.effect (h : AtHome db) (hdb : Followed db₀ db)
    (heffect : Effect causation target db db') : AtHome db' := by
  have hgrows : ∀ {e}, Grows db db' e → AtHome db' := by
    intro e hg o ho
    rw [hg.outbox] at ho
    rw [hg.same.roomId]
    rcases List.mem_append.mp ho with ho | ho
    · exact h o ho
    · rw [List.mem_singleton.mp ho]
      exact hg.roomId
  cases heffect with
  | quiet events outbox room same =>
    intro o ho
    rw [outbox] at ho
    rw [same.roomId]
    exact h o ho
  | manual kind e grows => exact hgrows grows
  | automatic e grows => exact hgrows grows
  | message e grows => exact hgrows grows
  | repeated e stored type before =>
    have hclosed := hdb.recorded.closed stored type
    rw [hclosed] at before
    rcases before with h | h <;> cases h

theorem commitAll_atHome (h₀ : Unopened db₀) (calls : List Call) :
    AtHome (commitAll step db₀ calls) := by
  refine (commitAll_invariant (P := fun db => Followed db₀ db ∧ AtHome db) ?_
    ⟨h₀.followed, ?_⟩ calls).2
  · rintro db call db' ⟨hf, hh⟩ hstep
    have heffect := step_effect hf.sound hstep
    exact ⟨hf.effect heffect, hh.effect hf heffect⟩
  · intro o ho
    rw [h₀.new.outbox] at ho
    cases ho

end Runs

def helloCommand : MessageCommand where
  commandId := "aaaaaaaa-aaaa-4aaa-8aaa-aaaaaaaaaaaa"
  roomId := "11111111-1111-4111-8111-111111111111"
  type := "message.add"
  clientTime := some 2000
  baseRevision := none
  messageId := .absent
  text := .value "hello"
  replyTo := .absent
  mentions := .value []
  mediaIds := .absent

def helloStudent : Principal :=
  .student "11111111-1111-4111-8111-111111111111" "44444444-4444-4444-8444-444444444444"
    "55555555-5555-4555-8555-555555555555"

end LearningOrbit.Rooms
