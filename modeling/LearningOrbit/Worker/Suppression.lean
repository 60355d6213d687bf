import LearningOrbit.Reference.Statements
import LearningOrbit.Worker.ReplayKept

/-!
# Suppressed evidence and the conversation around it

A review that retracts evidence turns an event into a semantic no-op before the lineage
of the messages is resolved. An event that replies to, revises or withdraws a message
nobody opened is then rejected as a whole, so what is suppressed can take other turns
with it: `Cut` follows the chains of replies, `Stands` says which event is left to speak
for its message, and the active contributions of the concept map are what the standing
events state.
-/

namespace LearningOrbit.Worker

open LearningOrbit (Host Dict)
open LearningOrbit.Reference

/-! ## Conversations -/

/-- A message event of the given message. -/
def On (root : String) (e : RoomEvent) : Prop :=
  e.type.semantic = true ∧ e.payload.messageId = some root

def RoomEvent.Withdraws (e : RoomEvent) : Prop :=
  e.type = .messageRetracted ∨ e.type = .messageDeleted

instance (e : RoomEvent) : Decidable e.Withdraws := inferInstanceAs (Decidable (_ ∨ _))

/-- The message was opened and not withdrawn. -/
def Open (done : List RoomEvent) (root : String) : Prop :=
  (∃ d ∈ done, On root d) ∧ ∀ d ∈ done, On root d → ¬ d.Withdraws

/-- What the server checks of a message event against the events before it: an added message
has a new id, the others and every reply name a message that is open, and learners or the
agent speak. -/
structure Spoken (done : List RoomEvent) (e : RoomEvent) : Prop where
  operation : e.type.operation? = some e.operation
  message : ∃ root, e.payload.messageId = some root ∧ root ≠ "" ∧
    (e.type ≠ .messageAdded → Open done root)
  opened : e.type = .messageAdded → ∀ d ∈ done, d.payload.messageId ≠ e.payload.messageId
  reply : ∀ root, truthy e.payload.replyTo = some root → Open done root
  speaker : e.actorKind ≠ .system
  author : e.actorKind = .human → e.type = .messageAdded ∨ e.type = .messageRevised →
    e.actorRole ∈ [some .student, some .learner, none]

/-- Every message event of a room is spoken into the conversation before it. -/
def Talk : List RoomEvent → List RoomEvent → Prop
  | _, [] => True
  | done, e :: es => (e.type.semantic = true → Spoken done e) ∧ Talk (e :: done) es

theorem Talk.spoken {done events : List RoomEvent} (ht : Talk done events) {e : RoomEvent}
    (he : e ∈ events) (hs : e.type.semantic = true) : ∃ before, Spoken before e := by
  induction events generalizing done with
  | nil => cases he
  | cons d ds ih =>
    rcases List.mem_cons.mp he with rfl | he
    · exact ⟨done, ht.1 hs⟩
    · exact ih ht.2 he

/-- No two events open one message. -/
theorem Talk.opened {done events : List RoomEvent} (ht : Talk done events) :
    events.Pairwise fun a b => b.type = .messageAdded →
      a.payload.messageId ≠ b.payload.messageId := by
  suffices h : (∀ d ∈ done, ∀ e ∈ events, e.type = .messageAdded →
      d.payload.messageId ≠ e.payload.messageId) ∧ events.Pairwise fun a b =>
      b.type = .messageAdded → a.payload.messageId ≠ b.payload.messageId from h.2
  induction events generalizing done with
  | nil => exact ⟨fun _ _ _ he => absurd he List.not_mem_nil, List.Pairwise.nil⟩
  | cons e es ih =>
    obtain ⟨hdone, hpair⟩ := ih ht.2
    have hsem {x : RoomEvent} (hx : x.type = .messageAdded) : x.type.semantic = true := by
      rw [hx]
      rfl
    refine ⟨fun d hd f hf hadd => ?_, List.Pairwise.cons (fun f hf => ?_) hpair⟩
    · rcases List.mem_cons.mp hf with rfl | hf
      · exact (ht.1 (hsem hadd)).opened hadd d hd
      · exact hdone d (List.mem_cons_of_mem _ hd) f hf hadd
    · exact hdone e (List.mem_cons_self ..) f hf

/-! ## What a suppression cuts off -/

/-- The message was opened by a suppressed event, or by a reply to a message that is cut off. -/
inductive Cut (S : List String) (events : List RoomEvent) : String → Prop
  | suppressed {e : RoomEvent} {root : String} : e ∈ events → e.type = .messageAdded →
      e.payload.messageId = some root → e.eventId ∈ S → Cut S events root
  | reply {e : RoomEvent} {root parent : String} : e ∈ events → e.type = .messageAdded →
      e.payload.messageId = some root → truthy e.payload.replyTo = some parent →
      Cut S events parent → Cut S events root

/-- A message event that is not suppressed, replies to no message that is cut off, and does
not revise or withdraw one. -/
structure Kept (S : List String) (events : List RoomEvent) (e : RoomEvent) : Prop where
  semantic : e.type.semantic = true
  unsuppressed : e.eventId ∉ S
  reply : ∀ root, truthy e.payload.replyTo = some root → ¬ Cut S events root
  message : e.type ≠ .messageAdded → ∀ root, e.payload.messageId = some root →
    ¬ Cut S events root

/-- The latest kept event of its message, and not a withdrawal. -/
structure Stands (S : List String) (events : List RoomEvent) (e : RoomEvent) : Prop where
  kept : Kept S events e
  speaks : ¬ e.Withdraws
  last : ∀ f ∈ events, Kept S events f → f.payload.messageId = e.payload.messageId →
    f.roomSeq ≤ e.roomSeq

section Cut

variable {S : List String} {events : List RoomEvent}

/-- Nothing of a message that is cut off is kept. -/
theorem Cut.not_kept (hadded : events.Pairwise fun a b => b.type = .messageAdded →
      a.payload.messageId ≠ b.payload.messageId)
    {root : String} (hcut : Cut S events root) {e : RoomEvent} (he : e ∈ events)
    (hon : e.payload.messageId = some root) : ¬ Kept S events e := by
  intro hk
  by_cases hadd : e.type = .messageAdded
  · have hunique {f : RoomEvent} (hf : f ∈ events) (hfadd : f.type = .messageAdded)
        (hfon : f.payload.messageId = some root) : f = e := by
      by_contra hne
      have hboth : events.Pairwise fun a b => a.type = .messageAdded →
          b.type = .messageAdded → a.payload.messageId ≠ b.payload.messageId :=
        hadded.imp fun h _ hb => h hb
      have : Std.Symm fun a b : RoomEvent => a.type = .messageAdded →
          b.type = .messageAdded → a.payload.messageId ≠ b.payload.messageId :=
        ⟨fun a b h hb ha heq => h ha hb heq.symm⟩
      exact hboth.forall hf he hne hfadd hadd (hfon.trans hon.symm)
    cases hcut with
    | suppressed hf hfadd hfon hS => exact hk.unsuppressed (hunique hf hfadd hfon ▸ hS)
    | reply hf hfadd hfon hreply hparent =>
      rw [hunique hf hfadd hfon] at hreply
      exact hk.reply _ hreply hparent
  · exact hk.message hadd root hon hcut

/-- The addition of a message that is not cut off is kept. -/
theorem kept_of_not_cut {root : String} (hcut : ¬ Cut S events root) {a : RoomEvent}
    (ha : a ∈ events) (hadd : a.type = .messageAdded) (hon : On root a) : Kept S events a where
  semantic := hon.1
  unsuppressed hS := hcut (.suppressed ha hadd hon.2 hS)
  reply _ hreply hparent := hcut (.reply ha hadd hon.2 hreply hparent)
  message hne := absurd hadd hne

theorem not_cut_nil (root : String) : ¬ Cut [] events root := by
  intro hcut
  induction hcut with
  | suppressed _ _ _ hS => cases hS
  | reply _ _ _ _ _ ih => exact ih

/-- With nothing suppressed every message event is kept. -/
theorem kept_nil {e : RoomEvent} (hs : e.type.semantic = true) : Kept [] events e :=
  ⟨hs, by simp, fun root _ => not_cut_nil root, fun _ root _ => not_cut_nil root⟩

end Cut

/-! ## The adapter -/

/-- The chat event of a room event that replies to and replaces nothing. -/
def alone (h : Host) (e : RoomEvent) : Option ChatEvent :=
  e.ingestTime.bind fun ingest => (do
    let composite ← buildCompositeArtifact h e .empty
    ChatEvent.create (chatFields e (effectiveTime e ingest) ingest
      (composite.getD emptyComposite) ⟨none, none⟩)).toOption

/-- What the extractor finds in the text of a room event. -/
def statements (h : Host) (e : RoomEvent) : List ConceptContribution :=
  match alone h e with
  | some c => stagedOf h c
  | none => []

/-- Unicode normalization leaves no text blank that was not. -/
def KeepsText (h : Host) : Prop := ∀ s, Text.strip (h.nfc s) = "" → Text.strip s = ""

theorem create_of_fields (c : ChatEvent) : ChatEvent.create c.toChatEventFields = .ok c := by
  unfold ChatEvent.create
  rw [dif_neg c.speaker, dif_pos c.required, dif_pos c.probability, dif_pos c.revision_pos]

/-- An adapted event states what its room event states, at the time of its room event. -/
theorem adaptOne_states {h : Host} {i j : MessageLineageIndex} {e : RoomEvent} {c : ChatEvent}
    (ha : adaptOne h i e = some (c, j)) :
    stagedOf h c = statements h e ∧ c.eventId = e.eventId ∧
      c.eventTime = effectiveTime e (e.ingestTime.getD 0) := by
  unfold adaptOne at ha
  obtain ⟨ingest, hi, ha⟩ := Option.bind_eq_some_iff.mp ha
  split at ha
  · cases ht : toChatEvent h i e (effectiveTime e ingest) ingest with
    | error message => rw [ht] at ha; cases ha
    | ok r =>
      rw [ht] at ha
      cases ha
      obtain ⟨before, -, ht⟩ := bind_eq_ok.mp ht
      obtain ⟨composite, hcomp, ht⟩ := bind_eq_ok.mp ht
      obtain ⟨created, hcreate, ht⟩ := bind_eq_ok.mp ht
      cases ht
      have hf := ChatEvent.create_ok hcreate
      let single : ChatEvent :=
        { c with replyTo := none, supersedes := none, retracts := none }
      have hsingle : single.toChatEventFields = chatFields e (effectiveTime e ingest) ingest
          (composite.getD emptyComposite) ⟨none, none⟩ := by
        change { c.toChatEventFields with replyTo := none, supersedes := none, retracts := none } = _
        rw [hf]
        simp [chatFields]
      have halone : alone h e = some single := by
        unfold alone
        rw [hi, Option.bind_some, hcomp]
        change (ChatEvent.create _).toOption = _
        rw [← hsingle, create_of_fields]
        rfl
      refine ⟨?_, congrArg ChatEventFields.eventId hf, ?_⟩
      · unfold statements
        rw [halone]
        exact stagedOf_congr rfl rfl rfl rfl rfl
      · rw [hi]
        exact congrArg ChatEventFields.eventTime hf
  · cases ha

/-- A message event of the conversation has a text view. -/
theorem composite_ok {h : Host} (hn : KeepsText h) {e : RoomEvent}
    (hauthor : e.actorKind = .human → e.type = .messageAdded ∨ e.type = .messageRevised →
      e.actorRole ∈ [some .student, some .learner, none]) :
    ∃ composite, buildCompositeArtifact h e .empty = .ok composite ∧
      (composite.getD emptyComposite).sourceConfidence = 1 := by
  have hmedia : (e.payload.mediaIds.filterMap fun mediaId =>
      ((Dict.empty : Dict String DerivedTextArtifact).get? mediaId).bind fun artifact =>
        if artifact.active then
          some (⟨artifact.text, artifact.eventId, artifact.sourceModality⟩ : CompositeItem)
        else none) = [] := by
    simp
  obtain ⟨direct, hdirect⟩ : ∃ direct, maybeDeriveDirectText h e = .ok direct := by
    unfold maybeDeriveDirectText
    split
    · exact ⟨none, rfl⟩
    · rename_i hc
      simp only [not_or, ne_eq, Decidable.not_not, not_and_or] at hc
      obtain ⟨htype, hkind, htext⟩ := hc
      have hblank : Text.strip (h.nfc e.payload.text) ≠ "" := fun hb => htext (hn _ hb)
      have hrole : ¬ (e.actorKind ≠ .human ∨
          e.actorRole ∉ [some .student, some .learner, none]) := by
        rintro (hne | hrole)
        · exact hne hkind
        · exact hrole (hauthor hkind htype)
      unfold deriveDirectText
      dsimp only
      rw [if_neg hblank, if_neg hrole]
      exact ⟨_, rfl⟩
  unfold buildCompositeArtifact
  rw [hdirect]
  dsimp only [bind, Except.bind]
  rw [hmedia]
  cases direct with
  | none => exact ⟨none, rfl, rfl⟩
  | some d => exact ⟨_, rfl, by simp [compositeOf, itemConfidence]⟩

/-- The adapter accepts a message event whose lineage resolves. -/
theorem adaptOne_accepts {h : Host} (hn : KeepsText h) {index : MessageLineageIndex}
    {e : RoomEvent} {before : ResolvedLineage} (hw : e.WellFormed)
    (ht : e.ingestTime.isSome) (hs : e.type.semantic = true) (hk : e.actorKind ≠ .system)
    (hauthor : e.actorKind = .human → e.type = .messageAdded ∨ e.type = .messageRevised →
      e.actorRole ∈ [some .student, some .learner, none])
    (hb : index.resolveBefore e = .ok before) :
    ∃ chat, adaptOne h index e = some (chat, index.advance e) := by
  obtain ⟨ingest, hi⟩ := Option.isSome_iff_exists.mp ht
  obtain ⟨composite, hcomp, hconf⟩ := composite_ok (h := h) hn hauthor
  let chat : ChatEvent :=
    { chatFields e (effectiveTime e ingest) ingest (composite.getD emptyComposite) before with
      speaker := hk
      required := ⟨hw.eventId, hw.roomId, hw.actorId⟩
      probability := by
        change 0 ≤ (composite.getD emptyComposite).sourceConfidence ∧
          (composite.getD emptyComposite).sourceConfidence ≤ 1
        rw [hconf]
        decide
      revision_pos := hw.revision }
  refine ⟨chat, ?_⟩
  rw [adaptOne_of_ingest hi, if_pos hs]
  have hok : toChatEvent h index e (effectiveTime e ingest) ingest =
      .ok (chat, index.advance e) :=
    bind_eq_ok.mpr ⟨before, hb, bind_eq_ok.mpr ⟨composite, hcomp,
      bind_eq_ok.mpr ⟨chat, create_of_fields chat, rfl⟩⟩⟩
  rw [hok]
  rfl

/-- It rejects one whose lineage does not. -/
theorem adaptOne_rejects {h : Host} {index : MessageLineageIndex} {e : RoomEvent}
    {message : String} (hb : index.resolveBefore e = .error message) :
    adaptOne h index e = none := by
  have herror : ∀ t ingest, toChatEvent h index e t ingest = .error message := by
    intro t ingest
    unfold toChatEvent
    rw [hb]
    rfl
  unfold adaptOne
  cases e.ingestTime with
  | none => rfl
  | some ingest =>
    rw [Option.bind_some, herror]
    split <;> rfl

/-! ## The lineage index -/

/-- What the overlay leaves alone of an event it does not suppress. -/
theorem effectiveEvent_unsuppressed {o : Overlay} {e : RoomEvent} (hS : e.eventId ∉ o.suppressed) :
    (effectiveEvent o e).type = e.type ∧ (effectiveEvent o e).operation = e.operation ∧
    (effectiveEvent o e).actorKind = e.actorKind ∧ (effectiveEvent o e).actorRole = e.actorRole ∧
    (effectiveEvent o e).payload.messageId = e.payload.messageId ∧
    (effectiveEvent o e).payload.replyTo = e.payload.replyTo := by
  unfold effectiveEvent
  rw [if_neg hS]
  split <;> exact ⟨rfl, rfl, rfl, rfl, rfl, rfl⟩

theorem adaptOne_noop {h : Host} {index : MessageLineageIndex} {e : RoomEvent}
    (hs : e.type.semantic = false) : adaptOne h index e = none := by
  unfold adaptOne
  cases e.ingestTime with
  | none => rfl
  | some ingest => rw [Option.bind_some, if_neg (by simp [hs])]

theorem effectiveEvent_suppressed {o : Overlay} {e : RoomEvent} (hS : e.eventId ∈ o.suppressed) :
    (effectiveEvent o e).type.semantic = false := by
  unfold effectiveEvent
  rw [if_pos hS]
  rfl

/-- The index names, for each message, the event that stands among those seen. -/
structure Indexes (S : List String) (events done : List RoomEvent)
    (index : MessageLineageIndex) : Prop where
  points : ∀ root id, index.activeByMessage.get? root = some id ↔
    ∃ e ∈ done, Kept S events e ∧ e.payload.messageId = some root ∧ ¬ e.Withdraws ∧
      e.eventId = id ∧ ∀ f ∈ done, Kept S events f → f.payload.messageId = some root →
        f.roomSeq ≤ e.roomSeq
  present : ∀ root, (∃ e ∈ done, Kept S events e ∧ e.payload.messageId = some root) →
    (∀ e ∈ done, On root e → ¬ e.Withdraws) → index.activeByMessage.get? root ≠ none

theorem Indexes.init (S : List String) (events : List RoomEvent) :
    Indexes S events [] .init where
  points root id := by
    constructor
    · intro hget
      cases hget
    · rintro ⟨e, he, -⟩
      cases he
  present root hex := by
    obtain ⟨e, he, -⟩ := hex
    cases he

section Index

variable {S : List String} {events done : List RoomEvent} {index : MessageLineageIndex}
  {e : RoomEvent}

/-- An open message is in the index exactly if it is not cut off. -/
theorem Indexes.open_iff (hx : Indexes S events done index)
    (hadded : events.Pairwise fun a b => b.type = .messageAdded →
      a.payload.messageId ≠ b.payload.messageId)
    (hsub : ∀ d ∈ done, d ∈ events)
    (hfirst : ∀ root d, d ∈ done → On root d → ∃ a ∈ done, On root a ∧ a.type = .messageAdded)
    {root : String} (hopen : Open done root) :
    index.activeByMessage.get? root = none ↔ Cut S events root := by
  constructor
  · intro hnone
    by_contra hcut
    obtain ⟨⟨d, hd, hon⟩, hwith⟩ := hopen
    obtain ⟨a, ha, hona, hadd⟩ := hfirst root d hd hon
    exact hx.present root ⟨a, ha, kept_of_not_cut hcut (hsub a ha) hadd hona, hona.2⟩ hwith hnone
  · intro hcut
    cases hget : index.activeByMessage.get? root with
    | none => rfl
    | some id =>
      obtain ⟨d, hd, hk, hon, -⟩ := (hx.points root id).mp hget
      exact absurd hk (hcut.not_kept hadded (hsub d hd) hon)

/-- An event that is not kept changes nothing. -/
theorem Indexes.skip (hx : Indexes S events done index) (hk : ¬ Kept S events e) :
    Indexes S events (e :: done) index where
  points root id := by
    rw [hx.points root id]
    constructor
    · rintro ⟨d, hd, hkd, hon, hw, hid, hlast⟩
      refine ⟨d, List.mem_cons_of_mem _ hd, hkd, hon, hw, hid, fun f hf hkf => ?_⟩
      rcases List.mem_cons.mp hf with rfl | hf
      · exact absurd hkf hk
      · exact hlast f hf hkf
    · rintro ⟨d, hd, hkd, hon, hw, hid, hlast⟩
      rcases List.mem_cons.mp hd with rfl | hd
      · exact absurd hkd hk
      · exact ⟨d, hd, hkd, hon, hw, hid, fun f hf => hlast f (List.mem_cons_of_mem _ hf)⟩
  present root hex hwith := by
    obtain ⟨d, hd, hkd, hon⟩ := hex
    refine hx.present root ⟨d, ?_, hkd, hon⟩ fun f hf => hwith f (List.mem_cons_of_mem _ hf)
    rcases List.mem_cons.mp hd with rfl | hd
    · exact absurd hkd hk
    · exact hd

/-- A kept event becomes the voice of its message, or silences it. -/
theorem Indexes.keep (hx : Indexes S events done index) (hk : Kept S events e)
    (hlt : ∀ d ∈ done, d.roomSeq < e.roomSeq) {root : String}
    (hroot : e.payload.messageId = some root) {next : MessageLineageIndex}
    (hnext : ∀ key, next.activeByMessage.get? key =
      if key = root then (if e.Withdraws then none else some e.eventId)
      else index.activeByMessage.get? key) :
    Indexes S events (e :: done) next where
  points key id := by
    rw [hnext key]
    by_cases hkey : key = root
    · subst hkey
      rw [if_pos rfl]
      have hbefore : ∀ d ∈ e :: done, (∀ f ∈ e :: done, Kept S events f →
          f.payload.messageId = some key → f.roomSeq ≤ d.roomSeq) → d = e := by
        intro d hd hlast
        rcases List.mem_cons.mp hd with rfl | hd
        · rfl
        · have h1 := hlast e (List.mem_cons_self ..) hk hroot
          have h2 := hlt d hd
          omega
      constructor
      · intro hget
        split at hget
        · cases hget
        · rename_i hw
          cases hget
          refine ⟨e, List.mem_cons_self .., hk, hroot, hw, rfl, fun f hf _ _ => ?_⟩
          rcases List.mem_cons.mp hf with rfl | hf
          · exact Nat.le_refl _
          · exact Nat.le_of_lt (hlt f hf)
      · rintro ⟨d, hd, -, -, hw, hid, hlast⟩
        have hde := hbefore d hd hlast
        subst hde
        rw [if_neg hw, hid]
    · rw [if_neg hkey, hx.points key id]
      have hother : e.payload.messageId ≠ some key := by
        rw [hroot]
        exact fun heq => hkey (Option.some.inj heq).symm
      constructor
      · rintro ⟨d, hd, hkd, hon, hw, hid, hlast⟩
        refine ⟨d, List.mem_cons_of_mem _ hd, hkd, hon, hw, hid, fun f hf hkf honf => ?_⟩
        rcases List.mem_cons.mp hf with rfl | hf
        · exact absurd honf hother
        · exact hlast f hf hkf honf
      · rintro ⟨d, hd, hkd, hon, hw, hid, hlast⟩
        rcases List.mem_cons.mp hd with rfl | hd
        · exact absurd hon hother
        · exact ⟨d, hd, hkd, hon, hw, hid, fun f hf => hlast f (List.mem_cons_of_mem _ hf)⟩
  present key hex hwith := by
    rw [hnext key]
    by_cases hkey : key = root
    · subst hkey
      have hw := hwith e (List.mem_cons_self ..) ⟨hk.semantic, hroot⟩
      rw [if_pos rfl, if_neg hw]
      exact Option.some_ne_none _
    · rw [if_neg hkey]
      obtain ⟨d, hd, hkd, hon⟩ := hex
      refine hx.present key ⟨d, ?_, hkd, hon⟩ fun f hf => hwith f (List.mem_cons_of_mem _ hf)
      rcases List.mem_cons.mp hd with rfl | hd
      · exact absurd (Option.some.inj (hon.symm.trans hroot)) hkey
      · exact hd

theorem withdraws_iff (ho : e.type.operation? = some e.operation) :
    e.Withdraws ↔ e.operation = .retract ∨ e.operation = .delete := by
  unfold RoomEvent.Withdraws
  cases ht : e.type <;> simp [ht, EventType.operation?] at ho <;> simp [← ho]

theorem resolveBefore_cases (index : MessageLineageIndex) (e : RoomEvent) :
    (∃ before, index.resolveBefore e = .ok before) ∨
    ∃ message, index.resolveBefore e = .error message ∧
      ((∃ root, truthy e.payload.replyTo = some root ∧ index.activeByMessage.get? root = none) ∨
        (e.operation ≠ .add ∧ (truthy e.payload.messageId).bind index.activeByMessage.get? = none)) := by
  unfold MessageLineageIndex.resolveBefore
  dsimp only
  split
  · rename_i hreply
    obtain ⟨root, hroot⟩ := Option.isSome_iff_exists.mp hreply.1
    refine .inr ⟨_, rfl, .inl ⟨root, hroot, ?_⟩⟩
    have := hreply.2
    rwa [hroot, Option.bind_some] at this
  · split
    · rename_i htarget
      exact .inr ⟨_, rfl, .inr htarget⟩
    · exact .inl ⟨_, rfl⟩

theorem resolveBefore_error (index : MessageLineageIndex) (e : RoomEvent)
    (hbad : (∃ root, truthy e.payload.replyTo = some root ∧
        index.activeByMessage.get? root = none) ∨
      (e.operation ≠ .add ∧ (truthy e.payload.messageId).bind index.activeByMessage.get? = none)) :
    ∃ message, index.resolveBefore e = .error message := by
  unfold MessageLineageIndex.resolveBefore
  dsimp only
  split
  · exact ⟨_, rfl⟩
  · rename_i hreply
    rcases hbad with ⟨root, hroot, hnone⟩ | htarget
    · exact absurd ⟨by rw [hroot]; rfl, by rw [hroot, Option.bind_some, hnone]⟩ hreply
    · rw [if_pos htarget]
      exact ⟨_, rfl⟩

/-- The adapter accepts exactly the kept events, and the index follows. -/
theorem Indexes.step {h : Host} (hn : KeepsText h) {o : Overlay}
    (hx : Indexes o.suppressed events done index)
    (hadded : events.Pairwise fun a b => b.type = .messageAdded →
      a.payload.messageId ≠ b.payload.messageId)
    (hsub : ∀ d ∈ done, d ∈ events)
    (hfirst : ∀ root d, d ∈ done → On root d → ∃ a ∈ done, On root a ∧ a.type = .messageAdded)
    (hspoken : e.type.semantic = true → Spoken done e) (hw : e.WellFormed)
    (ht : e.ingestTime.isSome) (hlt : ∀ d ∈ done, d.roomSeq < e.roomSeq) :
    match adaptOne h index (effectiveEvent o e) with
    | some (_, next) => Kept o.suppressed events e ∧ Indexes o.suppressed events (e :: done) next
    | none => ¬ Kept o.suppressed events e ∧ Indexes o.suppressed events (e :: done) index := by
  have hnone (hk : ¬ Kept o.suppressed events e)
      (ha : adaptOne h index (effectiveEvent o e) = none) :
      match adaptOne h index (effectiveEvent o e) with
      | some (_, next) => Kept o.suppressed events e ∧ Indexes o.suppressed events (e :: done) next
      | none => ¬ Kept o.suppressed events e ∧ Indexes o.suppressed events (e :: done) index := by
    rw [ha]
    exact ⟨hk, hx.skip hk⟩
  by_cases hS : e.eventId ∈ o.suppressed
  · exact hnone (fun hk => hk.unsuppressed hS) (adaptOne_noop (effectiveEvent_suppressed hS))
  obtain ⟨htype, hop, hkind, hrole, hmsg, hreply⟩ := effectiveEvent_unsuppressed hS
  by_cases hs : e.type.semantic = true
  · have hsp := hspoken hs
    obtain ⟨root, hroot, hrne, hopen⟩ := hsp.message
    have htruthy : truthy e.payload.messageId = some root := by
      simp [truthy, hroot, Option.filter, hrne]
    have hadd : e.operation ≠ .add ↔ e.type ≠ .messageAdded := by
      have ho := hsp.operation
      cases hty : e.type <;> simp [hty, EventType.operation?] at ho <;> simp [← ho]
    rcases resolveBefore_cases index (effectiveEvent o e) with ⟨before, hb⟩ | ⟨message, hb, hbad⟩
    · -- the lineage resolves, so nothing the event rests on is cut off
      have hk : Kept o.suppressed events e := by
        refine ⟨hs, hS, fun r hr hcut => ?_, fun hne r hr hcut => ?_⟩
        · have hget := (hx.open_iff hadded hsub hfirst (hsp.reply r hr)).mpr hcut
          obtain ⟨message, herr⟩ := resolveBefore_error index (effectiveEvent o e)
            (.inl ⟨r, hreply ▸ hr, hget⟩)
          rw [hb] at herr
          cases herr
        · have hrr : r = root := Option.some.inj (hr.symm.trans hroot)
          subst hrr
          have hget := (hx.open_iff hadded hsub hfirst (hopen hne)).mpr hcut
          obtain ⟨message, herr⟩ := resolveBefore_error index (effectiveEvent o e)
            (.inr ⟨hop ▸ hadd.mpr hne, by rw [hmsg, htruthy, Option.bind_some, hget]⟩)
          rw [hb] at herr
          cases herr
      obtain ⟨chat, ha⟩ := adaptOne_accepts (h := h) hn (effectiveEvent_wellFormed o hw)
        (by rw [(effectiveEvent_fields o e).2.2.2.2.2.2.1]; exact ht) (htype ▸ hs)
        (hkind ▸ hsp.speaker) (by rw [hkind, htype, hrole]; exact hsp.author) hb
      rw [ha]
      refine ⟨hk, hx.keep hk hlt hroot fun key => ?_⟩
      rw [advance_get? (hmsg.trans hroot) hrne, hop, effectiveEvent_eventId]
      simp only [withdraws_iff hsp.operation]
    · -- it does not, because a message it rests on is cut off
      refine hnone (fun hk => ?_) (adaptOne_rejects hb)
      rcases hbad with ⟨r, hr, hget⟩ | ⟨hne, hget⟩
      · rw [hreply] at hr
        exact hk.reply r hr ((hx.open_iff hadded hsub hfirst (hsp.reply r hr)).mp hget)
      · rw [hop] at hne
        rw [hmsg, htruthy, Option.bind_some] at hget
        have hne' := hadd.mp hne
        exact hk.message hne' root hroot
          ((hx.open_iff hadded hsub hfirst (hopen hne')).mp hget)
  · exact hnone (fun hk => hs hk.semantic) (adaptOne_noop (by rw [htype]; simpa using hs))

end Index

/-! ## A whole room -/

/-- The chat event stands for the room event under the overlay. -/
structure Adapts (h : Host) (o : Overlay) (e : RoomEvent) (c : ChatEvent) : Prop where
  states : stagedOf h c = statements h (effectiveEvent o e)
  eventId : c.eventId = e.eventId
  eventTime : c.eventTime = effectiveTime e (e.ingestTime.getD 0)

theorem RoomLedger.ordered (L : RoomLedger) :
    L.events.Pairwise fun a b => a.roomSeq < b.roomSeq := by
  have hrange : (L.events.map (·.roomSeq)).Pairwise (· < ·) := by
    rw [L.contiguous]
    exact List.pairwise_lt_range'
  exact List.pairwise_map.mp hrange

section Room

variable {h : Host} {L : RoomLedger} {o : Overlay}

open scoped Classical in
/-- The chat events of a room are those of its kept events, and the index ends with the
standing ones. -/
theorem Indexes.run (hn : KeepsText h) (htalk : Talk [] L.events) (rest done : List RoomEvent)
    {index : MessageLineageIndex} (hsplit : L.events = done.reverse ++ rest)
    (ht : Talk done rest)
    (hfirst : ∀ root d, d ∈ done → On root d → ∃ a ∈ done, On root a ∧ a.type = .messageAdded)
    (hx : Indexes o.suppressed L.events done index) :
    Indexes o.suppressed L.events L.events.reverse (lineageAfter h index (effectiveEvents o rest)) ∧
      List.Forall₂ (Adapts h o) (rest.filter fun e => Kept o.suppressed L.events e)
        (adapted h index (effectiveEvents o rest)) := by
  induction rest generalizing done index with
  | nil =>
    rw [List.append_nil] at hsplit
    have hrev : L.events.reverse = done := by rw [hsplit, List.reverse_reverse]
    rw [hrev]
    exact ⟨hx, List.Forall₂.nil⟩
  | cons e es ih =>
    have he : e ∈ L.events := by rw [hsplit]; simp
    have hsub : ∀ d ∈ done, d ∈ L.events := fun d hd => by rw [hsplit]; simp [hd]
    have hlt : ∀ d ∈ done, d.roomSeq < e.roomSeq := by
      intro d hd
      have hord := L.ordered
      rw [hsplit, List.pairwise_append] at hord
      exact hord.2.2 d (List.mem_reverse.mpr hd) e (List.mem_cons_self ..)
    have hsplit' : L.events = (e :: done).reverse ++ es := by rw [hsplit]; simp
    have hfirst' : ∀ root d, d ∈ e :: done → On root d →
        ∃ a ∈ e :: done, On root a ∧ a.type = .messageAdded := by
      intro root d hd hon
      have hearlier (hd : d ∈ done) (hon : On root d) :
          ∃ a ∈ e :: done, On root a ∧ a.type = .messageAdded := by
        obtain ⟨a, ha, hrest⟩ := hfirst root d hd hon
        exact ⟨a, List.mem_cons_of_mem _ ha, hrest⟩
      rcases List.mem_cons.mp hd with rfl | hd
      · by_cases hadd : d.type = .messageAdded
        · exact ⟨d, List.mem_cons_self .., hon, hadd⟩
        · obtain ⟨root', hroot, -, hopen⟩ := (ht.1 hon.1).message
          have hrr : root' = root := Option.some.inj (hroot.symm.trans hon.2)
          subst hrr
          obtain ⟨⟨f, hf, honf⟩, -⟩ := hopen hadd
          obtain ⟨a, ha, hrest⟩ := hfirst root' f hf honf
          exact ⟨a, List.mem_cons_of_mem _ ha, hrest⟩
      · exact hearlier hd hon
    have hstep := hx.step hn htalk.opened hsub hfirst ht.1 (L.wellFormed e he)
      (L.ingestParses e he) hlt
    simp only [effectiveEvents, List.map_cons, lineageAfter, adapted, List.filter_cons]
    rcases ha : adaptOne h index (effectiveEvent o e) with _ | ⟨chat, next⟩
    · rw [ha] at hstep
      obtain ⟨hindex, hrest⟩ := ih (e :: done) hsplit' ht.2 hfirst' hstep.2
      rw [if_neg (by simpa using hstep.1)]
      exact ⟨hindex, hrest⟩
    · rw [ha] at hstep
      obtain ⟨hindex, hrest⟩ := ih (e :: done) hsplit' ht.2 hfirst' hstep.2
      obtain ⟨hstates, hid, htime⟩ := adaptOne_states ha
      rw [if_pos (decide_eq_true hstep.1)]
      refine ⟨hindex, List.Forall₂.cons ⟨hstates, ?_, ?_⟩ hrest⟩
      · rw [hid, effectiveEvent_eventId]
      · obtain ⟨-, -, -, -, -, heventTime, hingest, -⟩ := effectiveEvent_fields o e
        rw [htime]
        unfold effectiveTime
        rw [heventTime, hingest]

open scoped Classical in
theorem Indexes.whole (hx : Indexes o.suppressed L.events [] .init) (hn : KeepsText h)
    (htalk : Talk [] L.events) :
    Indexes o.suppressed L.events L.events.reverse
        (lineageAfter h .init (effectiveEvents o L.events)) ∧
      List.Forall₂ (Adapts h o) (L.events.filter fun e => Kept o.suppressed L.events e)
        (adapted h .init (effectiveEvents o L.events)) :=
  Indexes.run hn htalk L.events [] rfl htalk (fun _ _ hd => absurd hd List.not_mem_nil) hx

/-- A fold of `_apply_one` leaves the lineage of the adapted events. -/
theorem Projection.fold_lineage (h : Host) (replaying : Bool) (p : Projection)
    {events : List RoomEvent} (hw : ∀ e ∈ events, e.WellFormed)
    (ht : ∀ e ∈ events, e.ingestTime.isSome) :
    (events.foldl (fun p e => (p.applyOne h replaying e).1) p).lineage =
      lineageAfter h p.lineage events := by
  induction events generalizing p with
  | nil => rfl
  | cons e es ih =>
    have hone := p.applyOne_adapted h replaying (hw e (List.mem_cons_self ..))
      (ht e (List.mem_cons_self ..))
    rw [List.foldl_cons, ih _ (fun f hf => hw f (List.mem_cons_of_mem _ hf))
      fun f hf => ht f (List.mem_cons_of_mem _ hf)]
    simp only [lineageAfter]
    split
    · rename_i chat next ha
      rw [ha] at hone
      rw [hone.2.1]
    · rename_i ha
      rw [ha] at hone
      rw [hone.2.1]

/-- A conversation fed online keeps reducers and lineage in step. -/
theorem Lockstep.fold (h : Host) {p : Projection} {done : List RoomEvent} (hp : Lockstep done p)
    (events : List RoomEvent) (hc : ∀ e ∈ events, e.Canonical)
    (hd : (events.reverse ++ done).map (·.eventId) |>.Nodup)
    (hw : ∀ e ∈ done, e.eventId ≠ "")
    (ha : (events.reverse ++ done).Pairwise fun b a => b.type = .messageAdded →
      a.payload.messageId ≠ b.payload.messageId) :
    Lockstep (events.reverse ++ done)
      (events.foldl (fun p e => (p.applyOne h false e).1) p) := by
  induction events generalizing p done with
  | nil => exact hp
  | cons e es ih =>
    have happend : (e :: es).reverse ++ done = es.reverse ++ e :: done := by simp
    rw [happend] at hd ha ⊢
    have hde : ((e :: done).map (·.eventId)).Nodup := by
      rw [List.map_append] at hd
      exact (List.nodup_append.mp hd).2.1
    have hae := (List.pairwise_append.mp ha).2.1
    have hfresh : Fresh done e := by
      refine ⟨fun d hdm heq => ?_, fun hadd d hdm => ?_⟩
      · exact (List.nodup_cons.mp hde).1 (List.mem_map.mpr ⟨d, hdm, heq⟩)
      · exact (List.pairwise_cons.mp hae).1 d hdm hadd
    have hce := hc e (List.mem_cons_self ..)
    refine ih (hp.applyOne h (List.nodup_cons.mp hde).2 hce hfresh hw)
      (fun f hf => hc f (List.mem_cons_of_mem _ hf)) hd ?_ ha
    intro d hdm
    rcases List.mem_cons.mp hdm with rfl | hdm
    · exact hce.eventId
    · exact hw d hdm

theorem effectiveEvent_canonical (htalk : Talk [] L.events) {e : RoomEvent} (he : e ∈ L.events) :
    (effectiveEvent o e).Canonical where
  toWellFormed := effectiveEvent_wellFormed o (L.wellFormed e he)
  message hs := by
    have hS : e.eventId ∉ o.suppressed := fun hS => by
      rw [effectiveEvent_suppressed hS] at hs
      cases hs
    obtain ⟨htype, -, -, -, hmsg, -⟩ := effectiveEvent_unsuppressed hS
    obtain ⟨before, hspoken⟩ := htalk.spoken he (htype ▸ hs)
    obtain ⟨root, hroot, hne, -⟩ := hspoken.message
    exact ⟨root, hmsg.trans hroot, hne⟩
  operation op hop := by
    have hs : (effectiveEvent o e).type.semantic = true := by
      cases ht : (effectiveEvent o e).type with
      | other name => rw [ht] at hop; cases hop
      | _ => rfl
    have hS : e.eventId ∉ o.suppressed := fun hS => by
      rw [effectiveEvent_suppressed hS] at hs
      cases hs
    obtain ⟨htype, hoperation, -⟩ := effectiveEvent_unsuppressed hS
    obtain ⟨before, hspoken⟩ := htalk.spoken he (htype ▸ hs)
    rw [htype, hspoken.operation] at hop
    rw [hoperation]
    exact Option.some.inj hop

theorem effectiveEvents_opened (htalk : Talk [] L.events) :
    (effectiveEvents o L.events).Pairwise fun a b => b.type = .messageAdded →
      a.payload.messageId ≠ b.payload.messageId := by
  unfold effectiveEvents
  rw [List.pairwise_map]
  refine htalk.opened.imp_of_mem fun {a b} _ hb hab hadd => ?_
  have hsem : (effectiveEvent o b).type.semantic = true := by rw [hadd]; rfl
  have hS : b.eventId ∉ o.suppressed := fun hS => by
    rw [effectiveEvent_suppressed hS] at hsem
    cases hsem
  obtain ⟨htype, -, -, -, hmsg, -⟩ := effectiveEvent_unsuppressed hS
  obtain ⟨before, hspoken⟩ := htalk.spoken hb (htype ▸ hsem)
  obtain ⟨root, hroot, -⟩ := hspoken.message
  by_cases hSa : a.eventId ∈ o.suppressed
  · have hnone : (effectiveEvent o a).payload.messageId = none := by
      unfold effectiveEvent
      rw [if_pos hSa]
    rw [hnone, hmsg, hroot]
    simp
  · rw [(effectiveEvent_unsuppressed hSa).2.2.2.2.1, hmsg]
    exact hab (htype ▸ hadd)

/-- The projection a room ends with: its lineage, and the reducers in step with it. -/
theorem onlineProjector_lockstep (htalk : Talk [] L.events) :
    Lockstep (effectiveEvents o L.events).reverse
        (onlineProjector h L o L.events.length).state ∧
      (onlineProjector h L o L.events.length).state.lineage =
        lineageAfter h .init (effectiveEvents o L.events) := by
  have hstate : (onlineProjector h L o L.events.length).state =
      (effectiveEvents o L.events).foldl (fun p e => (p.applyOne h false e).1) .init := by
    change StreamingProjector.prefixState h (L.effective o L.events.length) _ = _
    unfold StreamingProjector.prefixState
    rw [List.take_length]
    change (effectiveEvents o (L.events.take L.events.length)).foldl _ _ = _
    rw [List.take_length]
  have hE := (L.effective o L.events.length).wellFormed
  have hI := (L.effective o L.events.length).ingestParses
  have hD := (L.effective o L.events.length).distinct
  have hevents : (L.effective o L.events.length).events = effectiveEvents o L.events := by
    change effectiveEvents o (L.events.take L.events.length) = _
    rw [List.take_length]
  rw [hevents] at hE hI hD
  rw [hstate]
  refine ⟨?_, Projection.fold_lineage h false .init hE hI⟩
  have hfold := Lockstep.init.fold h (effectiveEvents o L.events) ?_ ?_ ?_ ?_
  · rwa [List.append_nil] at hfold
  · intro e he
    obtain ⟨d, hd, rfl⟩ := List.mem_map.mp he
    exact effectiveEvent_canonical htalk hd
  · rw [List.append_nil, List.map_reverse, List.nodup_reverse]
    exact hD
  · intro e he
    cases he
  · rw [List.append_nil, List.pairwise_reverse]
    exact effectiveEvents_opened htalk

/-- On time, an event is active in the concept map exactly if it stands. -/
theorem onlineProjector_active (hn : KeepsText h) (htalk : Talk [] L.events)
    (htime : (onlineProjector h L o L.events.length).state.echo.requiresReplay = [])
    (id : String) :
    (onlineProjector h L o L.events.length).state.echo.view.Active id ↔
      ∃ e ∈ L.events, Stands o.suppressed L.events e ∧ e.eventId = id := by
  obtain ⟨hlock, hlineage⟩ := onlineProjector_lockstep (h := h) (o := o) htalk
  obtain ⟨hindex, -⟩ := (Indexes.init o.suppressed L.events).whole (h := h) hn htalk
  rw [hlock.active htime id, hlineage]
  constructor
  · rintro ⟨root, hget⟩
    obtain ⟨e, he, hk, hon, hw, hid, hlast⟩ := (hindex.points root id).mp hget
    refine ⟨e, List.mem_reverse.mp he, ⟨hk, hw, fun f hf hkf hmsg => ?_⟩, hid⟩
    exact hlast f (List.mem_reverse.mpr hf) hkf (hmsg.trans hon)
  · rintro ⟨e, he, hst, hid⟩
    obtain ⟨before, hspoken⟩ := htalk.spoken he hst.kept.semantic
    obtain ⟨root, hroot, -⟩ := hspoken.message
    refine ⟨root, (hindex.points root id).mpr ⟨e, List.mem_reverse.mpr he, hst.kept, hroot,
      hst.speaks, hid, fun f hf hkf hmsg => ?_⟩⟩
    exact hst.last f (List.mem_reverse.mp hf) hkf (hmsg.trans hroot.symm)

theorem chatsOf_length (h : Host) (L : RoomLedger) (o : Overlay) :
    chatsOf h L o L.events.length = adapted h .init (effectiveEvents o L.events) := by
  unfold chatsOf
  rw [List.take_length]

/-- Every kept event has a chat event, and every chat event a kept one. -/
theorem chatsOf_kept (hn : KeepsText h) (htalk : Talk [] L.events) :
    (∀ e ∈ L.events, Kept o.suppressed L.events e →
      ∃ c ∈ chatsOf h L o L.events.length, Adapts h o e c) ∧
    ∀ c ∈ chatsOf h L o L.events.length,
      ∃ e ∈ L.events, Kept o.suppressed L.events e ∧ Adapts h o e c := by
  classical
  obtain ⟨-, hall⟩ := (Indexes.init o.suppressed L.events).whole (h := h) hn htalk
  rw [← chatsOf_length] at hall
  have hpairs : ∀ es cs, List.Forall₂ (Adapts h o) es cs →
      (∀ e ∈ es, ∃ c ∈ cs, Adapts h o e c) ∧ ∀ c ∈ cs, ∃ e ∈ es, Adapts h o e c := by
    intro es cs hf
    induction hf with
    | nil => exact ⟨fun _ he => absurd he List.not_mem_nil, fun _ hc => absurd hc List.not_mem_nil⟩
    | @cons e c es cs hec _ ih =>
      refine ⟨fun f hf => ?_, fun d hd => ?_⟩
      · rcases List.mem_cons.mp hf with rfl | hf
        · exact ⟨c, List.mem_cons_self .., hec⟩
        · obtain ⟨d, hd, hfd⟩ := ih.1 f hf
          exact ⟨d, List.mem_cons_of_mem _ hd, hfd⟩
      · rcases List.mem_cons.mp hd with rfl | hd
        · exact ⟨e, List.mem_cons_self .., hec⟩
        · obtain ⟨f, hf, hfd⟩ := ih.2 d hd
          exact ⟨f, List.mem_cons_of_mem _ hf, hfd⟩
  obtain ⟨hleft, hright⟩ := hpairs _ _ hall
  constructor
  · intro e he hk
    exact hleft e (List.mem_filter.mpr ⟨he, decide_eq_true hk⟩)
  · intro c hc
    obtain ⟨e, he, hec⟩ := hright c hc
    obtain ⟨hmem, hk⟩ := List.mem_filter.mp he
    exact ⟨e, hmem, of_decide_eq_true hk, hec⟩

/-- On time, the active contributions are what the standing events state. -/
theorem onlineProjector_contributions (hn : KeepsText h) (htalk : Talk [] L.events)
    (hids : StreamingConceptMap.Distinguished h (chatsOf h L o L.events.length))
    (htime : (onlineProjector h L o L.events.length).state.echo.requiresReplay = [])
    (x : ConceptContribution) :
    (x ∈ (onlineProjector h L o L.events.length).state.echo.contributions.values ∧
        x.active = true) ↔
      ∃ e ∈ L.events, Stands o.suppressed L.events e ∧
        x ∈ (filed (statements h (effectiveEvent o e)) .empty).values := by
  have hactive := onlineProjector_active hn htalk htime
  have hfollows := chatsOf_follows h L o L.events.length
  have hdist : StreamingConceptMap.Distinguished h
      ((chatsOf h L o L.events.length).reverse ++ []) :=
    hids.mono fun c hc => by simpa using hc
  have hverbatim := (StreamingConceptMap.Verbatim.init h (.within (seconds 5))).run
    (StreamingConceptMap.Known.init _) hfollows hdist
  have htracked := (StreamingConceptMap.Tracked.init h (.within (seconds 5))).run hfollows hdist
  rw [List.append_nil] at hverbatim htracked
  change (echoRun h (.within (seconds 5)) (chatsOf h L o L.events.length)).Verbatim h _ at hverbatim
  change (echoRun h (.within (seconds 5)) (chatsOf h L o L.events.length)).Tracked h _ at htracked
  rw [← onlineProjector_echo] at hverbatim htracked
  obtain ⟨hchat, hevent⟩ := chatsOf_kept (h := h) (o := o) hn htalk
  constructor
  · rintro ⟨hx, ha⟩
    obtain ⟨key, hget⟩ := Dict.mem_values.mp hx
    obtain ⟨c, hc, hstated⟩ := hverbatim.said key x hget ha
    obtain ⟨e, he, -, hadapts⟩ := hevent c (List.mem_reverse.mp hc)
    obtain ⟨f, hf, hstands, hfid⟩ := (hactive _).mp (htracked.backed x hx ha)
    obtain ⟨-, -, hxe, -⟩ := statedOf_spec hstated
    have hfe : f = e := L.eq_of_eventId hf he (by rw [hfid, hxe, hadapts.eventId])
    subst hfe
    refine ⟨f, hf, hstands, Dict.mem_values.mpr ⟨key, ?_⟩⟩
    rw [← hadapts.states]
    exact hstated
  · rintro ⟨e, he, hstands, hx⟩
    obtain ⟨key, hget⟩ := Dict.mem_values.mp hx
    obtain ⟨c, hc, hadapts⟩ := hchat e he hstands.kept
    rw [← hadapts.states] at hget
    have hact := (hactive c.eventId).mpr ⟨e, he, hstands, hadapts.eventId.symm⟩
    have hstored := hverbatim.kept c (List.mem_reverse.mpr hc) hact key x hget
    exact ⟨Dict.mem_values.mpr ⟨key, hstored⟩, (statedOf_spec hget).2.2.2⟩

end Room

/-! ## Two runs of one room -/

theorem tooLate_mono {w w' : Option Int} (hw : ∀ a, w' = some a → ∃ b, w = some b ∧ a ≤ b)
    {allowed : Lateness} {time : Int} (hl : tooLate w allowed time = false) :
    tooLate w' allowed time = false := by
  cases w' with
  | none => rfl
  | some a =>
    obtain ⟨b, rfl, hab⟩ := hw a rfl
    cases allowed with
    | inf => rfl
    | within l =>
      simp only [tooLate, decide_eq_false_iff_not, not_lt] at hl ⊢
      omega

theorem raiseWatermark_mono {w w' : Option Int}
    (hw : ∀ a, w' = some a → ∃ b, w = some b ∧ a ≤ b) (time : Int) :
    ∀ a, raiseWatermark w' time = some a → ∃ b, raiseWatermark w time = some b ∧ a ≤ b := by
  intro a ha
  cases w' with
  | none =>
    cases ha
    cases w with
    | none => exact ⟨time, rfl, le_refl _⟩
    | some b =>
      by_cases hb : b < time
      · exact ⟨time, by simp [raiseWatermark, hb], le_refl _⟩
      · exact ⟨b, by simp [raiseWatermark, hb], by omega⟩
  | some c =>
    obtain ⟨b, rfl, hcb⟩ := hw c rfl
    simp only [raiseWatermark] at ha ⊢
    split at ha <;> split <;> cases ha <;> exact ⟨_, rfl, by omega⟩

theorem raiseWatermark_ge (w : Option Int) (time : Int) :
    ∀ a, w = some a → ∃ b, raiseWatermark w time = some b ∧ a ≤ b := by
  rintro a rfl
  simp only [raiseWatermark]
  split
  · exact ⟨time, rfl, by omega⟩
  · exact ⟨a, rfl, le_refl _⟩

/-- Leaving events out makes none of the others late. -/
theorem lateFrom_sublist {allowed : Lateness} {chats chats' : List ChatEvent}
    (hs : (chats'.map (·.eventTime)).Sublist (chats.map (·.eventTime))) {w w' : Option Int}
    (hw : ∀ a, w' = some a → ∃ b, w = some b ∧ a ≤ b) (hl : lateFrom allowed w chats = []) :
    lateFrom allowed w' chats' = [] := by
  induction chats generalizing chats' w w' with
  | nil =>
    have hnil : chats' = [] := by simpa using hs
    rw [hnil]
    rfl
  | cons c cs ih =>
    simp only [lateFrom] at hl
    split at hl
    · cases hl
    · rename_i hontime
      rw [List.map_cons, List.sublist_cons_iff] at hs
      rcases hs with hs | ⟨rest, hrest, hs⟩
      · refine ih hs (fun a ha => ?_) hl
        obtain ⟨b, hb, hab⟩ := hw a ha
        obtain ⟨d, hd, hbd⟩ := raiseWatermark_ge w c.eventTime b hb
        exact ⟨d, hd, le_trans hab hbd⟩
      · cases chats' with
        | nil => rfl
        | cons d ds =>
          obtain ⟨htime, hds⟩ := List.cons.inj hrest
          subst hds
          have hlate := tooLate_mono hw (by simpa using hontime :
            tooLate w allowed c.eventTime = false)
          simp only [lateFrom, htime, hlate, Bool.false_eq_true, ↓reduceIte]
          exact ih hs (raiseWatermark_mono hw c.eventTime) hl

section Compare

variable {h : Host} {L : RoomLedger} {S : List String} {corrected : Dict String String}

/-- A suppression takes nothing else out of the concept map: what is active under it is what
was active without it, less what the suppressed events state. -/
def Contained (m n : StreamingConceptMap) (S : List String) : Prop :=
  ∀ x : ConceptContribution, (x ∈ n.contributions.values ∧ x.active = true) ↔
    (x ∈ m.contributions.values ∧ x.active = true) ∧ x.eventId ∉ S

theorem kept_mono {events : List RoomEvent} {e : RoomEvent} (hk : Kept S events e) :
    Kept [] events e := kept_nil hk.semantic

/-- A suppression makes nothing late and adds nothing that was not said. -/
theorem suppressed_run (hn : KeepsText h) (htalk : Talk [] L.events)
    (hids : StreamingConceptMap.Distinguished h (chatsOf h L ⟨[], corrected⟩ L.events.length))
    (htime : lateEvents h L ⟨[], corrected⟩ L.events.length = []) :
    StreamingConceptMap.Distinguished h (chatsOf h L ⟨S, corrected⟩ L.events.length) ∧
      (onlineProjector h L ⟨S, corrected⟩ L.events.length).state.echo.requiresReplay = [] := by
  classical
  have hsame : ∀ e, Kept S L.events e →
      effectiveEvent ⟨S, corrected⟩ e = effectiveEvent ⟨[], corrected⟩ e := by
    intro e hk
    simp [effectiveEvent, hk.unsuppressed]
  obtain ⟨-, hS⟩ := (Indexes.init S L.events).whole (h := h) (o := ⟨S, corrected⟩) hn htalk
  obtain ⟨-, hA⟩ := (Indexes.init [] L.events).whole (h := h) (o := ⟨[], corrected⟩) hn htalk
  rw [← chatsOf_length] at hS hA
  obtain ⟨-, heventS⟩ := chatsOf_kept (h := h) (o := ⟨S, corrected⟩) hn htalk
  obtain ⟨hchatA, -⟩ := chatsOf_kept (h := h) (o := ⟨[], corrected⟩) hn htalk
  constructor
  · intro a ha b hb hab s hs t ht
    obtain ⟨e, he, hke, hae⟩ := heventS a ha
    obtain ⟨f, hf, hkf, hbf⟩ := heventS b hb
    obtain ⟨a', ha', hae'⟩ := hchatA e he (kept_mono hke)
    obtain ⟨b', hb', hbf'⟩ := hchatA f hf (kept_mono hkf)
    refine hids a' ha' b' hb' ?_ s ?_ t ?_
    · rw [hae'.eventId, hbf'.eventId, ← hae.eventId, ← hbf.eventId]
      exact hab
    · rw [hae'.states, ← hsame e hke, ← hae.states]
      exact hs
    · rw [hbf'.states, ← hsame f hkf, ← hbf.states]
      exact ht
  · have htimes : ((chatsOf h L ⟨S, corrected⟩ L.events.length).map (·.eventTime)).Sublist
        ((chatsOf h L ⟨[], corrected⟩ L.events.length).map (·.eventTime)) := by
      rw [Rows.map_forall₂ hS fun _ _ hec => hec.eventTime,
        Rows.map_forall₂ hA fun _ _ hec => hec.eventTime]
      refine List.Sublist.map _ (List.monotone_filter_right _ fun e he => ?_)
      exact decide_eq_true (kept_mono (of_decide_eq_true he))
    have hstart : ∀ a, (none : Option Int) = some a → ∃ b, (none : Option Int) = some b ∧ a ≤ b :=
      fun a ha => by cases ha
    have hlate := lateFrom_sublist htimes hstart htime
    have hreplay := (StreamingProjector.prefixState_requiresReplay h
      (L.effective ⟨S, corrected⟩ L.events.length)).1
    change (onlineProjector h L ⟨S, corrected⟩ L.events.length).state.echo.requiresReplay =
      (lateFrom _ none (chatsOf h L ⟨S, corrected⟩ L.events.length)).map _ at hreplay
    rw [hreplay, hlate]
    rfl

theorem mem_filed_statements {e : RoomEvent} {x : ConceptContribution}
    (hx : x ∈ (filed (statements h e) .empty).values) : x.eventId = e.eventId := by
  obtain ⟨key, hget⟩ := Dict.mem_values.mp hx
  unfold statements at hget
  cases halone : alone h e with
  | none =>
    rw [halone] at hget
    cases hget
  | some c =>
    rw [halone] at hget
    obtain ⟨-, -, hxe, -⟩ := statedOf_spec hget
    unfold alone at halone
    obtain ⟨ingest, -, halone⟩ := Option.bind_eq_some_iff.mp halone
    cases hc : (do
        let composite ← buildCompositeArtifact h e .empty
        ChatEvent.create (chatFields e (effectiveTime e ingest) ingest
          (composite.getD emptyComposite) ⟨none, none⟩) : Except String ChatEvent) with
    | error message => rw [hc] at halone; cases halone
    | ok created =>
      rw [hc] at halone
      cases halone
      obtain ⟨composite, -, hcreate⟩ := bind_eq_ok.mp hc
      have hid : c.eventId = e.eventId :=
        congrArg ChatEventFields.eventId (ChatEvent.create_ok hcreate)
      exact hxe.trans hid

theorem exists_filed_statements {e : RoomEvent} (hs : statements h e ≠ []) :
    ∃ x, x ∈ (filed (statements h e) .empty).values := by
  unfold statements at hs ⊢
  cases halone : alone h e with
  | none =>
    rw [halone] at hs
    exact absurd rfl hs
  | some c =>
    rw [halone] at hs
    obtain ⟨s, hmem⟩ := List.exists_mem_of_ne_nil _ hs
    obtain ⟨x, hget⟩ := statedOf_of_mem hmem
    exact ⟨x, Dict.mem_values.mpr ⟨_, hget⟩⟩

theorem ne_nil_of_mem_filed {staged : List ConceptContribution} {x : ConceptContribution}
    (hx : x ∈ (filed staged .empty).values) : staged ≠ [] := by
  rintro rfl
  cases hx

end Compare

/-- On time, a suppression is contained exactly when every other event that states something
speaks for its message under it if and only if it does without it. -/
theorem suppression_contained_iff (h : Host) (hn : KeepsText h) (L : RoomLedger)
    (htalk : Talk [] L.events) (corrected : Dict String String) (S : List String)
    (hids : StreamingConceptMap.Distinguished h (chatsOf h L ⟨[], corrected⟩ L.events.length))
    (htime : lateEvents h L ⟨[], corrected⟩ L.events.length = []) :
    ∃ p q, buildProjector h L.roomId false (effectiveEvents ⟨[], corrected⟩ L.events) = .ok p ∧
      buildProjector h L.roomId false (effectiveEvents ⟨S, corrected⟩ L.events) = .ok q ∧
      (Contained p.state.echo q.state.echo S ↔
        ∀ e ∈ L.events, e.eventId ∉ S → statements h (effectiveEvent ⟨[], corrected⟩ e) ≠ [] →
          (Stands [] L.events e ↔ Stands S L.events e)) := by
  have hbuild (o : Overlay) : buildProjector h L.roomId false (effectiveEvents o L.events) =
      .ok (onlineProjector h L o L.events.length) := by
    have := buildProjector_online h L o L.events.length
    rwa [List.take_length] at this
  obtain ⟨-, htimeA⟩ := suppressed_run (S := []) hn htalk hids htime
  obtain ⟨hidsS, htimeS⟩ := suppressed_run (S := S) hn htalk hids htime
  have hA := onlineProjector_contributions hn htalk hids htimeA
  have hS := onlineProjector_contributions hn htalk hidsS htimeS
  have hsame : ∀ e, e.eventId ∉ S →
      effectiveEvent ⟨S, corrected⟩ e = effectiveEvent ⟨[], corrected⟩ e := by
    intro e hne
    simp [effectiveEvent, hne]
  refine ⟨_, _, hbuild _, hbuild _, ?_⟩
  unfold Contained
  simp only [hA, hS]
  constructor
  · intro hcontained e he hne hstates
    obtain ⟨x, hx⟩ := exists_filed_statements hstates
    have hxe : x.eventId = e.eventId := by
      rw [mem_filed_statements hx, effectiveEvent_eventId]
    -- whoever else could have stated `x` is the event itself
    have hsole {o : Overlay} {f : RoomEvent} (hf : f ∈ L.events)
        (hxf : x ∈ (filed (statements h (effectiveEvent o f)) .empty).values) : f = e :=
      L.eq_of_eventId hf he (by rw [← hxe, mem_filed_statements hxf, effectiveEvent_eventId])
    constructor
    · intro hstands
      obtain ⟨f, hf, hstandsS, hxf⟩ := (hcontained x).mpr ⟨⟨e, he, hstands, hx⟩, hxe ▸ hne⟩
      rwa [hsole hf hxf] at hstandsS
    · intro hstands
      obtain ⟨⟨f, hf, hstandsA, hxf⟩, -⟩ :=
        (hcontained x).mp ⟨e, he, hstands, by rwa [hsame e hne]⟩
      rwa [hsole hf hxf] at hstandsA
  · intro hcond x
    constructor
    · rintro ⟨e, he, hstands, hx⟩
      have hne : e.eventId ∉ S := hstands.kept.unsuppressed
      have hxe : x.eventId = e.eventId := by
        rw [mem_filed_statements hx, effectiveEvent_eventId]
      rw [hsame e hne] at hx
      exact ⟨⟨e, he, (hcond e he hne (ne_nil_of_mem_filed hx)).mpr hstands, hx⟩, hxe ▸ hne⟩
    · rintro ⟨⟨e, he, hstands, hx⟩, hxS⟩
      have hxe : x.eventId = e.eventId := by
        rw [mem_filed_statements hx, effectiveEvent_eventId]
      have hne : e.eventId ∉ S := hxe ▸ hxS
      exact ⟨e, he, (hcond e he hne (ne_nil_of_mem_filed hx)).mp hstands, by rwa [hsame e hne]⟩

/-! ## A reply to a suppressed message -/

/-- A message of a learner, possibly in reply to another. -/
def turn (seq : Nat) (id message text : String) (replyTo : Option String) : RoomEvent :=
  { eventId := id, roomId := "00000000-0000-4000-8000-000000000000", roomSeq := seq
    type := .messageAdded, operation := .add
    actorId := "00000000-0000-4000-8000-0000000000a1", actorKind := .human
    actorRole := some .student, revision := 1, eventTime := some (seconds seq)
    ingestTime := some (seconds seq), correlationId := "00000000-0000-4000-8000-0000000000c1"
    payload := ⟨some message, text, replyTo, [], []⟩ }

/-- One learner asks, another answers. -/
def answeredRoom : RoomLedger where
  roomId := "00000000-0000-4000-8000-000000000000"
  events :=
    [ turn 1 "00000000-0000-4000-8000-000000000001" "00000000-0000-4000-8000-0000000000b1"
        "what feeds plants" none,
      turn 2 "00000000-0000-4000-8000-000000000002" "00000000-0000-4000-8000-0000000000b2"
        "sun gives energy to producers" (some "00000000-0000-4000-8000-0000000000b1") ]
  contiguous := by decide
  distinct := by decide
  room := by decide
  wellFormed := by
    simp only [List.mem_cons, List.not_mem_nil, or_false, forall_eq_or_imp, forall_eq]
    exact ⟨⟨by decide, by decide, by decide, by decide, by decide, by decide⟩,
      ⟨by decide, by decide, by decide, by decide, by decide, by decide⟩⟩
  ingestParses := by decide
  eventParses := by decide

/-- The source events and activity of the contributions a projector holds. -/
def held (events : List RoomEvent) : Option (List (String × Bool)) :=
  (buildProjector .ascii answeredRoom.roomId false events).toOption.map fun p =>
    p.state.echo.contributions.entries.map fun kv => (kv.2.eventId, kv.2.active)

theorem answeredRoom_held :
    held (effectiveEvents ⟨[], .empty⟩ answeredRoom.events) =
        some [("00000000-0000-4000-8000-000000000002", true)] ∧
      held (effectiveEvents ⟨["00000000-0000-4000-8000-000000000001"], .empty⟩
        answeredRoom.events) = some [] := by
  decide +kernel

/-- Suppressing the question takes the answer with it. -/
theorem answer_lost :
    lateEvents .ascii answeredRoom ⟨[], .empty⟩ answeredRoom.events.length = [] ∧
    ∃ p q,
      buildProjector .ascii answeredRoom.roomId false
        (effectiveEvents ⟨[], .empty⟩ answeredRoom.events) = .ok p ∧
      buildProjector .ascii answeredRoom.roomId false
        (effectiveEvents ⟨["00000000-0000-4000-8000-000000000001"], .empty⟩
          answeredRoom.events) = .ok q ∧
      ¬ Contained p.state.echo q.state.echo ["00000000-0000-4000-8000-000000000001"] := by
  obtain ⟨hwithout, hunder⟩ := answeredRoom_held
  unfold held at hwithout hunder
  obtain ⟨p, hp, hpc⟩ := Option.map_eq_some_iff.mp hwithout
  obtain ⟨q, hq, hqc⟩ := Option.map_eq_some_iff.mp hunder
  have built {r : Except String StreamingProjector} {t : StreamingProjector}
      (hr : r.toOption = some t) : r = .ok t := by
    cases r with
    | error e => cases hr
    | ok u => cases hr; rfl
  refine ⟨by decide +kernel, p, q, built hp, built hq, fun hcontained => ?_⟩
  obtain ⟨⟨key, x⟩, hx, hxo⟩ : ∃ kv ∈ p.state.echo.contributions.entries,
      (kv.2.eventId, kv.2.active) = ("00000000-0000-4000-8000-000000000002", true) := by
    apply List.mem_map.mp
    rw [hpc]
    exact List.mem_singleton_self _
  obtain ⟨hid, hactive⟩ := Prod.mk.inj hxo
  have hstated : x ∈ p.state.echo.contributions.values := List.mem_map.mpr ⟨_, hx, rfl⟩
  have hother : x.eventId ∉ ["00000000-0000-4000-8000-000000000001"] := by
    rw [show x.eventId = _ from hid]
    decide
  obtain ⟨hkept, -⟩ := (hcontained x).mpr ⟨⟨hstated, hactive⟩, hother⟩
  unfold Dict.values at hkept
  rw [List.map_eq_nil_iff.mp hqc] at hkept
  cases hkept

theorem answeredRoom_talk : Talk [] answeredRoom.events := by
  refine ⟨fun _ => ?_, fun _ => ?_, trivial⟩
  · refine ⟨rfl, ⟨_, rfl, by decide, fun hne => absurd rfl hne⟩, fun _ d hd => ?_,
      fun root hr => ?_, by decide, fun _ _ => by decide⟩
    · cases hd
    · cases hr
  · refine ⟨rfl, ⟨_, rfl, by decide, fun hne => absurd rfl hne⟩, fun _ d hd => ?_,
      fun root hr => ?_, by decide, fun _ _ => by decide⟩
    · rw [List.mem_singleton.mp hd]
      decide
    · have hroot : "00000000-0000-4000-8000-0000000000b1" = root :=
        Option.some.inj ((by decide : truthy _ = some _).symm.trans hr)
      subst hroot
      refine ⟨⟨_, List.mem_singleton_self _, rfl, rfl⟩, fun d hd _ => ?_⟩
      rw [List.mem_singleton.mp hd]
      decide

theorem suppression_contained_iff_answeredRoom :
    ∃ p q,
      buildProjector .ascii answeredRoom.roomId false
        (effectiveEvents ⟨[], .empty⟩ answeredRoom.events) = .ok p ∧
      buildProjector .ascii answeredRoom.roomId false
        (effectiveEvents ⟨["00000000-0000-4000-8000-000000000002"], .empty⟩
          answeredRoom.events) = .ok q ∧
      (Contained p.state.echo q.state.echo ["00000000-0000-4000-8000-000000000002"] ↔
        ∀ e ∈ answeredRoom.events, e.eventId ∉ ["00000000-0000-4000-8000-000000000002"] →
          statements .ascii (effectiveEvent ⟨[], .empty⟩ e) ≠ [] →
          (Stands [] answeredRoom.events e ↔
            Stands ["00000000-0000-4000-8000-000000000002"] answeredRoom.events e)) :=
  suppression_contained_iff .ascii (fun _ hs => hs) answeredRoom answeredRoom_talk .empty _
    (by unfold StreamingConceptMap.Distinguished; decide +kernel) (by decide +kernel)

end LearningOrbit.Worker
