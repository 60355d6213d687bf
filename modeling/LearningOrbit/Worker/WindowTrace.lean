import LearningOrbit.Reference.Replay

/-!
# TRACE over a time window

`_window_trace_reference` selects the recorded history by event time and replays
what is inside the window in a fresh network. A message and the operation that
withdraws it carry their own client times, so the window may keep one of them.
-/

namespace LearningOrbit.Reference.StreamingInteractionNetwork

open LearningOrbit (Host Dict)
open LearningOrbit.Journal (refeed)

/-- The recorded inputs whose event time lies in the window, both ends included. -/
def inWindow (start stop : Int) (history : List NetworkInput) : List NetworkInput :=
  history.filter fun item => start ≤ item.event.eventTime && item.event.eventTime ≤ stop

/-- `_window_trace_reference`, up to the snapshots: the network its three views are taken of.
Actor kinds and agent roles are those of the room. -/
def windowTraceReference (h : Host) (extractor : Option RelationExtractor)
    (n : StreamingInteractionNetwork) (start stop : Int) :
    Except String StreamingInteractionNetwork :=
  if stop < start then .error "TRACE_WINDOW_INVALID"
  else
    match (fresh n.allowedLateness).replay h extractor (some (inWindow start stop n.history)) with
    | (_, .error e) => .error e
    | (clone, .ok _) => .ok { clone with
        actorKinds := clone.actorKinds.update n.actorKinds
        agentRoles := clone.agentRoles.update n.agentRoles }

/-- No contribution of the event is active. -/
def Silent (n : StreamingInteractionNetwork) (id : String) : Prop :=
  ∀ c ∈ n.contributions.values, c.eventId = id → c.active = false

instance (n : StreamingInteractionNetwork) (id : String) : Decidable (n.Silent id) :=
  inferInstanceAs (Decidable (∀ c ∈ n.contributions.values, _))

/-- An operation that states contributions of its own under this event id. -/
def Speaks (item : NetworkInput) (id : String) : Prop :=
  item.event.eventId = id ∧ item.event.operation ≠ .retract ∧ item.event.operation ≠ .delete

/-- An operation that takes this event back and does not state it anew. -/
def TakesBack (item : NetworkInput) (id : String) : Prop :=
  item.event.operation ≠ .add ∧ item.event.target = id ∧ ¬Speaks item id

instance (item : NetworkInput) (id : String) : Decidable (Speaks item id) :=
  inferInstanceAs (Decidable (_ ∧ _))

instance (item : NetworkInput) (id : String) : Decidable (TakesBack item id) :=
  inferInstanceAs (Decidable (_ ∧ _))

/-- Every operation that states the event is followed by one that takes it back. -/
def Followed : List NetworkInput → String → Prop
  | [], _ => True
  | item :: items, id =>
    (Speaks item id → ∃ later ∈ items, TakesBack later id) ∧ Followed items id

instance decidableFollowed : ∀ items id, Decidable (Followed items id)
  | [], _ => .isTrue trivial
  | _ :: items, id =>
    have := decidableFollowed items id
    inferInstanceAs (Decidable (_ ∧ _))

/-! ## One recorded input -/

section Step

variable {h : Host} {extractor : Option RelationExtractor} {n : StreamingInteractionNetwork}
  {event : ChatEvent} {args : Supplied} {id : String}

/-- An active contribution after an accepted operation is the operation's own, or an old one
that was not its target. -/
theorem applyAccepted_active {live : Dict String ChatEvent} {d : Bool} {c : NetworkContribution}
    (hd : event.operation ≠ .add → d = true)
    {p : MapPatch} (hp : (n.applyAccepted h extractor event args live d).2 = .ok p)
    (hc : c ∈ (n.applyAccepted h extractor event args live d).1.contributions.values)
    (ha : c.active = true) :
    (c.eventId = event.eventId ∧ event.operation ≠ .retract ∧ event.operation ≠ .delete) ∨
      (c ∈ n.contributions.values ∧ (event.operation ≠ .add → c.eventId ≠ event.target)) := by
  unfold applyAccepted at hp hc
  split at hc
  · obtain ⟨hold, hne⟩ := mem_deactivate hc ha
    exact .inr ⟨hold, fun _ => hne⟩
  · rename_i hop
    rw [if_neg hop] at hp
    obtain ⟨hdelete, hretract⟩ := not_or.mp hop
    split at hc
    · rename_i hraise
      rw [hraise] at hp
      cases hp
    · rcases Dict.mem_values_foldl_set hc with ⟨s, hs, rfl⟩ | hold
      · obtain ⟨⟨item, index⟩, -, rfl⟩ := List.mem_map.mp hs
        exact .inl ⟨rfl, hretract, hdelete⟩
      · cases d with
        | true =>
          obtain ⟨hold, hne⟩ := mem_deactivate hold ha
          exact .inr ⟨hold, fun _ => hne⟩
        | false => exact .inr ⟨hold, fun hadd => absurd (hd hadd) (by simp)⟩

/-- One round of the replay loop on an input that was not seen: what the input says last. -/
theorem redo_silent {item : NetworkInput} {p : MapPatch} {m : StreamingInteractionNetwork}
    (hr : n.redo h extractor item = (m, .ok p)) (hseen : item.event.key ∉ n.seen)
    (hlate : n.allowedLateness = .inf) (hnot : ¬Speaks item id)
    (hback : TakesBack item id ∨ n.Silent id) : m.Silent id := by
  have hgate : tooLate n.watermark n.allowedLateness item.event.eventTime = false := by
    rw [hlate]
    exact tooLate_inf ..
  unfold redo at hr
  rw [apply_eq hseen hgate] at hr
  split at hr
  · -- a stale revision touches no contribution, and it is no withdrawal
    rename_i hstale
    cases hr
    rcases hback with hback | hsilent
    · simp [stale, hback.1] at hstale
    · exact hsilent
  · intro c hc hid
    have hreplaces : item.event.operation ≠ .add → n.replaces item.event = true := by
      intro hop
      simp [replaces, hop]
    rw [Prod.ext_iff] at hr
    obtain ⟨hm, hp⟩ := hr
    subst hm
    cases ha : c.active with
    | false => rfl
    | true =>
      exfalso
      rcases applyAccepted_active hreplaces hp hc ha with ⟨hown, hops⟩ | ⟨hold, htarget⟩
      · exact hnot ⟨hown.symm.trans hid, hops⟩
      · rcases hback with hback | hsilent
        · exact htarget hback.1 (hid.trans hback.2.1.symm)
        · have := hsilent c hold hid
          rw [ha] at this
          cases this

/-- An operation leaves the journal as it is, or notes its key and, when recording, itself. -/
theorem apply_notes :
    ((n.apply h extractor event args).1.seen = n.seen ∧
      (n.apply h extractor event args).1.history = n.history) ∨
    (event.key ∉ n.seen ∧ (n.apply h extractor event args).1.seen = n.seen ++ [event.key] ∧
      ∃ r : NetworkInput, r.event = event ∧ (n.apply h extractor event args).1.history =
        if args.recordHistory then n.history ++ [r] else n.history) := by
  by_cases hseen : event.key ∈ n.seen
  · simp [StreamingInteractionNetwork.apply, hseen]
  cases hlate : tooLate n.watermark n.allowedLateness event.eventTime with
  | true =>
    right
    simp only [StreamingInteractionNetwork.apply, hseen, hlate, ↓reduceIte]
    exact ⟨not_false, rfl, _, rfl, rfl⟩
  | false =>
    rw [apply_eq hseen hlate]
    split
    · exact .inr ⟨hseen, rfl, _, rfl, rfl⟩
    unfold applyAccepted
    split
    · exact .inr ⟨hseen, rfl, _, rfl, rfl⟩
    cases n.relations h extractor event args (n.prospective event) >>=
      normalizeEvidence event with
    | error e => exact .inl ⟨rfl, rfl⟩
    | ok result => cases n.replaces event <;> exact .inr ⟨hseen, rfl, _, rfl, rfl⟩

end Step

/-! ## The selected history -/

/-- The journal holds one input for each key that was seen. -/
structure Journaled (n : StreamingInteractionNetwork) : Prop where
  seen : n.history.map (·.event.key) = n.seen
  nodup : n.seen.Nodup

theorem Journaled.calls (h : Host) (extractor : Option RelationExtractor)
    {n : StreamingInteractionNetwork} (hn : Journaled n) (calls : List NetworkInput) :
    Journaled (calls.foldl (call h extractor) n) := by
  induction calls generalizing n with
  | nil => exact hn
  | cons input calls ih =>
    refine ih ?_
    unfold call
    rcases @apply_notes h extractor n input.event (supplied input true) with
      ⟨hseen, hhistory⟩ | ⟨hnew, hseen, r, hr, hhistory⟩
    · exact ⟨by rw [hhistory, hseen, hn.seen], hseen ▸ hn.nodup⟩
    · constructor
      · rw [hhistory, hseen]
        simp [supplied, hn.seen, hr]
      · rw [hseen]
        exact List.nodup_append.mpr ⟨hn.nodup, List.nodup_singleton _, fun a ha b hb => by
          rw [List.mem_singleton.mp hb]
          exact fun heq => hnew (heq ▸ ha)⟩

/-- Replaying inputs in which the event never has the last word ends with it silent. -/
theorem refeed_silent {h : Host} {extractor : Option RelationExtractor} {id : String}
    {n m : StreamingInteractionNetwork} {items : List NetworkInput}
    (hr : refeed (redo h extractor) n items = (m, .ok ())) (hlate : n.allowedLateness = .inf)
    (hkeys : (items.map (·.event.key)).Nodup) (hseen : ∀ item ∈ items, item.event.key ∉ n.seen)
    (hback : n.Silent id ∨ ∃ later ∈ items, TakesBack later id) (hf : Followed items id) :
    m.Silent id := by
  induction items generalizing n with
  | nil =>
    cases hr
    rcases hback with hsilent | ⟨later, hmem, -⟩
    · exact hsilent
    · cases hmem
  | cons item items ih =>
    simp only [refeed] at hr
    split at hr
    · cases hr
    rename_i next p hredo
    rw [List.map_cons, List.nodup_cons] at hkeys
    have hnext : next = (n.apply h extractor item.event (supplied item false)).1 :=
      (congrArg Prod.fst hredo).symm
    refine ih hr ?_ hkeys.2 (fun later hmem => ?_) ?_ hf.2
    · rw [hnext]
      exact apply_allowedLateness.trans hlate
    · have hold : later.event.key ∉ n.seen := hseen later (List.mem_cons_of_mem _ hmem)
      have hother : later.event.key ≠ item.event.key := by
        intro heq
        exact hkeys.1 (List.mem_map.mpr ⟨later, hmem, heq⟩)
      rcases @apply_notes h extractor n item.event (supplied item false) with
        ⟨hs, -⟩ | ⟨-, hs, -⟩
      · rw [hnext, hs]
        exact hold
      · rw [hnext, hs]
        simp [hold, hother]
    · by_cases hspeaks : Speaks item id
      · exact .inr (hf.1 hspeaks)
      · by_cases hnow : TakesBack item id ∨ n.Silent id
        · exact .inl (redo_silent hredo (hseen item (List.mem_cons_self ..)) hlate hspeaks hnow)
        · obtain ⟨hnot, hloud⟩ := not_or.mp hnow
          obtain ⟨later, hmem, hl⟩ := hback.resolve_left hloud
          rcases List.mem_cons.mp hmem with rfl | hmem
          · exact absurd hl hnot
          · exact .inr ⟨later, hmem, hl⟩

/-! ## Withdrawn events -/

section Withdrawn

variable (h : Host) (extractor : Option RelationExtractor) (allowed : Lateness)
  (calls : List NetworkInput)

/-- The network a sequence of calls of `apply` builds. -/
def built : StreamingInteractionNetwork := calls.foldl (call h extractor) (fresh allowed)

/-- A control operation the network accepts, with an active contribution of this event to
deactivate. -/
structure Withdraws (n : StreamingInteractionNetwork) (input : NetworkInput) (id : String) :
    Prop where
  control : input.event.operation ≠ .add
  target : input.event.target = id
  accepted : ∃ patch, (n.apply h extractor input.event (supplied input true)).2 = .ok patch ∧
    patch.accepted = true ∧ patch.duplicate = false
  contribution : ¬n.Silent id

/-- The event's contributions are inactive since an accepted operation deactivated them. -/
def Withdrawn (id : String) : Prop :=
  (∃ before input after, calls = before ++ input :: after ∧
    Withdraws h extractor (built h extractor allowed before) input id) ∧
  (built h extractor allowed calls).Silent id

/-- The window shows no contribution of a withdrawn event. -/
def WindowHides (start stop : Int) : Prop :=
  ∀ w, (built h extractor allowed calls).windowTraceReference h extractor start stop = .ok w →
    ∀ id, Withdrawn h extractor allowed calls id → w.Silent id

end Withdrawn

/-- A window hides what was withdrawn when it holds, after every operation that states a
withdrawn event, one that takes it back. -/
theorem window_hides (h : Host) (extractor : Option RelationExtractor) (allowed : Lateness)
    (calls : List NetworkInput) (start stop : Int)
    (hwindow : ∀ id, Withdrawn h extractor allowed calls id →
      Followed (inWindow start stop (built h extractor allowed calls).history) id) :
    WindowHides h extractor allowed calls start stop := by
  intro w hw id hid
  have hjournal : Journaled (built h extractor allowed calls) :=
    Journaled.calls h extractor ⟨rfl, List.nodup_nil⟩ calls
  unfold windowTraceReference at hw
  split at hw
  · cases hw
  split at hw
  · cases hw
  rename_i clone u hreplay
  cases hw
  simp only [replay, Option.getD_some] at hreplay
  obtain ⟨hclone, hok⟩ := Prod.ext_iff.mp hreplay
  have hsilent := @refeed_silent h extractor id _ _ _ (Prod.ext rfl hok) rfl
    (List.Nodup.sublist (List.Sublist.map _ List.filter_sublist)
      (hjournal.seen ▸ hjournal.nodup)) (fun item _ hmem => by cases hmem)
    (.inl fun c hc => by cases hc) (hwindow id hid)
  change clone.Silent id
  rw [show clone = _ from hclone.symm]
  exact hsilent

/-- A network input the worker would record: relations come as supplied evidence. -/
def remark (event : ChatEvent) (evidence : List EdgeEvidence) : NetworkInput :=
  ⟨event, evidence, [], none, false⟩

def greeting : List EdgeEvidence :=
  [{ sourceId := "ana", targetId := "ben", layer := .communication, polarity := .positive
     magnitude := 1, confidence := 1, basis := "mention", objectId := "e1", provenance := [] }]

def sentAt (event : ChatEvent) (sent : Int) : ChatEvent :=
  { event with eventTime := seconds sent }

/-- A remark, its withdrawal, sent from a clock that runs a few seconds behind, and a turn
ten minutes later. -/
def withdrawnTalk (sent withdrawn : Int) : List NetworkInput :=
  [ remark (sentAt sunRemark sent) greeting,
    remark (sentAt sunWithdrawal withdrawn) [],
    remark { sentAt sunRemark 609 with
      eventId := "e3"
      required := by decide } [] ]

/-- The last ten minutes hold the remark but not its withdrawal. -/
theorem withdrawal_outside :
    ¬WindowHides .ascii none (.within (seconds 5)) (withdrawnTalk 10 8) (seconds 9)
      (seconds 609) := by
  obtain ⟨hshown, haccepted, hstated, hsilent⟩ :
      ((built .ascii none (.within (seconds 5)) (withdrawnTalk 10 8)).windowTraceReference
          .ascii none (seconds 9) (seconds 609)).toOption.any (fun w => ¬w.Silent "e1") = true ∧
      ((built .ascii none (.within (seconds 5)) ((withdrawnTalk 10 8).take 1)).apply .ascii none
          (sentAt sunWithdrawal 8) (supplied (remark (sentAt sunWithdrawal 8) []) true)).2.toOption.any
        (fun patch => patch.accepted = true ∧ patch.duplicate = false) = true ∧
      ¬(built .ascii none (.within (seconds 5)) ((withdrawnTalk 10 8).take 1)).Silent "e1" ∧
      (built .ascii none (.within (seconds 5)) (withdrawnTalk 10 8)).Silent "e1" := by
    decide +kernel
  intro hides
  have hwithdrawn : Withdrawn .ascii none (.within (seconds 5)) (withdrawnTalk 10 8) "e1" := by
    refine ⟨⟨_, _, _, rfl, ?_, ?_, ?_, hstated⟩, hsilent⟩
    · decide
    · decide
    · obtain ⟨patch, hpatch, hok⟩ := (Option.any_eq_true ..).mp haccepted
      exact ⟨patch, toOption_eq_some hpatch, by simpa using hok⟩
  obtain ⟨w, hw, hloud⟩ := (Option.any_eq_true ..).mp hshown
  simp only [decide_not, Bool.not_eq_true', decide_eq_false_iff_not] at hloud
  exact hloud (hides w (toOption_eq_some hw) "e1" hwithdrawn)

theorem window_hides_inside :
    WindowHides .ascii none (.within (seconds 5)) (withdrawnTalk 10 11) (seconds 9)
      (seconds 609) := by
  apply window_hides
  have hkept : Followed (inWindow (seconds 9) (seconds 609)
      (built .ascii none (.within (seconds 5)) (withdrawnTalk 10 11)).history) "e1" := by
    decide +kernel
  rintro id ⟨⟨before, input, after, heq, hw⟩, -⟩
  have hmem : input ∈ withdrawnTalk 10 11 := by
    rw [heq]
    simp
  have hcontrol : ∀ i ∈ withdrawnTalk 10 11, i.event.operation ≠ .add → i.event.target = "e1" := by
    decide
  rw [← hw.target, hcontrol input hmem hw.control]
  exact hkept

end LearningOrbit.Reference.StreamingInteractionNetwork
