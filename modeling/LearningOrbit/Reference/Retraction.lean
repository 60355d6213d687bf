import LearningOrbit.Reference.FailedReplay
import LearningOrbit.Runs

/-!
# Retractions over a run

Once a delete or retract of an event is accepted, no later state should show the event
again. The concept map keeps a tombstone that every branch of `apply` respects and every
replay that returns rebuilds. The network keeps none: it forgets the retraction when the
event arrives afterwards.
-/

namespace LearningOrbit.Reference

open LearningOrbit (Host Dict Along)
open LearningOrbit.Journal (refeed Feeds)

/-- A delete or retract of an event id. -/
def Withdraws (event : ChatEvent) (id : String) : Prop :=
  (event.operation = .delete ∨ event.operation = .retract) ∧ event.target = id

/-- An operation that states contributions of its own under an event id. -/
def States (event : ChatEvent) (id : String) : Prop :=
  ¬(event.operation = .delete ∨ event.operation = .retract) ∧ event.eventId = id

instance (event : ChatEvent) (id : String) : Decidable (Withdraws event id) :=
  inferInstanceAs (Decidable (_ ∧ _))

instance (event : ChatEvent) (id : String) : Decidable (States event id) :=
  inferInstanceAs (Decidable (_ ∧ _))

/-- No entry of the event is active in the ledger. -/
def Dormant (ledger : Ledger) (id : String) : Prop :=
  ∀ entry ∈ (ledger.get? id).getD [], entry.active = false

instance (ledger : Ledger) (id : String) : Decidable (Dormant ledger id) :=
  inferInstanceAs (Decidable (∀ entry ∈ _, _))

instance (ledger : Ledger) (event : ChatEvent) : Decidable (Outdated ledger event) :=
  decidable_of_iff (event.operation = .add ∧
      ((activeRevisions ledger event.eventId).max?.any (event.revision ≤ ·)) = true) (by
    simp [Outdated, Option.any_eq_true])

instance decidableRaises {α : Type} (x : Except String α) : Decidable (∃ e, x = .error e) :=
  match x with
  | .error e => isTrue ⟨e, rfl⟩
  | .ok _ => isFalse fun ⟨_, hx⟩ => by cases hx

instance decidableFeeds {S R P : Type} (Refuses : S → R → Prop) [∀ s r, Decidable (Refuses s r)]
    (redo : S → R → S × Except String P) : ∀ s records, Decidable (Feeds Refuses redo s records)
  | _, [] => isTrue trivial
  | s, r :: records =>
    have := decidableFeeds Refuses redo (redo s r).1 records
    inferInstanceAs (Decidable (¬Refuses s r ∧ Feeds Refuses redo (redo s r).1 records))

section Ledger

variable {ledger : Ledger} {id : String}

theorem Dormant.modify (hl : Dormant ledger id) {event : ChatEvent} {active requiresReplay : Bool}
    (hne : active = true → event.eventId ≠ id) :
    Dormant (ledger.modify event.eventId [] (· ++ [⟨event, active, requiresReplay⟩])) id := by
  unfold Dormant
  rw [Dict.get?_modify]
  split
  · rename_i heq
    intro entry hentry
    rcases List.mem_append.mp hentry with hold | hnew
    · exact hl entry (heq ▸ hold)
    · rw [List.mem_singleton.mp hnew]
      cases active with
      | false => rfl
      | true => exact absurd heq.symm (hne rfl)
  · exact hl

theorem Dormant.deactivate (target : String) (hl : target = id ∨ Dormant ledger id) :
    Dormant (ledger.mapValues fun key entries =>
      if key = target then entries.map ({ · with active := false }) else entries) id := by
  unfold Dormant
  rw [Dict.get?_mapValues]
  cases hget : ledger.get? id with
  | none => simp
  | some entries =>
    intro entry hentry
    simp only [Option.map_some, Option.getD_some] at hentry
    split at hentry
    · obtain ⟨old, -, rfl⟩ := List.mem_map.mp hentry
      rfl
    · rename_i hne
      rcases hl with rfl | hl
      · exact absurd rfl hne
      · refine hl entry ?_
        rw [hget]
        exact hentry

end Ledger

/-- One event in the journal for each key that was seen. -/
structure Noted (seen : List (String × Nat × Operation)) (events : List ChatEvent) : Prop where
  seen : ∀ key, key ∈ seen ↔ key ∈ events.map ChatEvent.key
  nodup : (events.map ChatEvent.key).Nodup

theorem Noted.snoc {seen : List (String × Nat × Operation)} {events : List ChatEvent}
    {event : ChatEvent} (hn : Noted seen events) (hnew : event.key ∉ seen) :
    Noted (seen ++ [event.key]) (events ++ [event]) := by
  refine ⟨fun key => by simp [hn.seen], ?_⟩
  rw [List.map_append]
  refine List.nodup_append.mpr ⟨hn.nodup, List.nodup_singleton _, ?_⟩
  rintro a ha b hb rfl
  rw [List.map_singleton, List.mem_singleton] at hb
  exact hnew ((hn.seen _).mpr (hb ▸ ha))

/-- In a journal without repeated keys the last event is new to what the others left. -/
theorem Recount.new {done : List ChatEvent} {event : ChatEvent}
    {s : List (String × Nat × Operation) × Ledger} (hs : Recount done s)
    (hnodup : ((done ++ [event]).map ChatEvent.key).Nodup) : event.key ∉ s.1 := by
  rw [List.map_append, List.map_singleton, List.nodup_append] at hnodup
  intro hseen
  exact hnodup.2.2 _ ((hs.seen _).mp hseen) _ (List.mem_singleton_self _) rfl

/-! ## The concept map -/

namespace StreamingConceptMap

/-- No contribution and no ledger entry of the event is active. -/
structure Quiet (m : StreamingConceptMap) (id : String) : Prop where
  contributions : ∀ c ∈ m.contributions.values, c.eventId = id → c.active = false
  ledger : Dormant m.eventLedger id

section Step

variable {h : Host} {extract : PropositionExtractor} {m : StreamingConceptMap}
  {event : ChatEvent} {context : List ChatEvent} {recordHistory : Bool} {id : String}

theorem Quiet.ledgered (hm : Quiet m id) {active requiresReplay : Bool}
    (hne : active = true → event.eventId ≠ id) :
    Quiet (m.ledger event active requiresReplay) id :=
  ⟨hm.contributions, hm.ledger.modify hne⟩

theorem Quiet.deactivated (target : String) (hm : target = id ∨ Quiet m id) :
    Quiet (m.deactivate target) id := by
  refine ⟨fun c hc hid => ?_, Dormant.deactivate target (hm.imp_right Quiet.ledger)⟩
  cases ha : c.active with
  | false => rfl
  | true =>
    obtain ⟨hold, hne⟩ := mem_deactivate hc ha
    rcases hm with heq | hm
    · exact absurd (hid.trans heq.symm) hne
    · rw [← ha]
      exact hm.contributions c hold hid

/-- The tombstones are honoured: what was withdrawn is quiet. -/
def Honours (m : StreamingConceptMap) : Prop := ∀ id ∈ m.retractedEventIds, Quiet m id

/-- Every branch of `apply` respects the tombstones and keeps them. -/
theorem Honours.apply (hm : Honours m) :
    Honours (m.apply h extract event context recordHistory).1 ∧
      ∀ id ∈ m.retractedEventIds,
        id ∈ (m.apply h extract event context recordHistory).1.retractedEventIds := by
  have hcase := apply_outcome h extract m event context recordHistory
  generalize m.apply h extract event context recordHistory = result at hcase
  cases hcase with
  | duplicate | raised => exact ⟨hm, fun _ hid => hid⟩
  | late =>
    refine ⟨fun id hid => ?_, fun _ hid => hid⟩
    have hq := hm id hid
    exact ⟨hq.contributions, hq.ledger.modify (by simp)⟩
  | stale => exact ⟨fun id hid => ⟨(hm id hid).contributions, (hm id hid).ledger⟩, fun _ hid => hid⟩
  | retracted =>
    refine ⟨fun id hid => ?_, fun _ hid => List.mem_cons_of_mem _ hid⟩
    have hq : Quiet (m.deactivate event.target) id := by
      apply Quiet.deactivated
      rcases List.mem_cons.mp hid with rfl | hid
      · exact .inl rfl
      · exact .inr (hm id hid)
    exact ⟨hq.contributions, hq.ledger.modify (by simp)⟩
  | tombstoned =>
    refine ⟨fun id hid => ?_, fun _ hid => hid⟩
    have hq := Quiet.deactivated event.eventId (.inr (hm id hid))
    exact ⟨hq.contributions, hq.ledger.modify (by simp)⟩
  | applied _ _ _ htomb replaces staged hstaged =>
    -- what is staged belongs to the event itself, which has no tombstone
    obtain ⟨_, -, hall⟩ := bind_eq_ok.mp hstaged
    have hown := stageAll_spec hall
    have hkept : ∀ base : StreamingConceptMap, ∀ id ∈ m.retractedEventIds, Quiet base id →
        Quiet ({ base with
          contributions := staged.foldl (fun d c => d.set c.contributionId c) base.contributions
          eventLedger := base.eventLedger.modify event.eventId [] (· ++ [⟨event, true, false⟩]) })
          id := by
      intro base id hid hq
      have hne : event.eventId ≠ id := fun heq => htomb (heq ▸ hid)
      refine ⟨fun c hc hcid => ?_, hq.ledger.modify fun _ => hne⟩
      rcases Dict.mem_values_foldl_set hc with ⟨c, hc, rfl⟩ | hold
      · exact absurd ((hown c hc).1.symm.trans hcid) hne
      · exact hq.contributions c hold hcid
    cases replaces with
    | true =>
      refine ⟨fun id hid => ?_, fun _ hid => hid⟩
      have hq := hkept _ id hid (Quiet.deactivated event.target (.inr (hm id hid)))
      exact ⟨hq.contributions, hq.ledger⟩
    | false =>
      refine ⟨fun id hid => ?_, fun _ hid => hid⟩
      have hq := hkept m id hid (hm id hid)
      exact ⟨hq.contributions, hq.ledger⟩

/-- An operation that is neither a duplicate nor late. -/
def Accepts (m : StreamingConceptMap) (event : ChatEvent) : Prop :=
  event.key ∉ m.seen ∧ tooLate m.watermark m.allowedLateness event.eventTime = false

instance : Decidable (m.Accepts event) := inferInstanceAs (Decidable (_ ∧ _))

/-- An accepted withdrawal leaves its tombstone and is recorded. -/
theorem apply_marks (hw : Withdraws event id) (ha : m.Accepts event) :
    id ∈ (m.apply h extract event context recordHistory).1.retractedEventIds ∧
      (recordHistory = true →
        ⟨event, context⟩ ∈ (m.apply h extract event context recordHistory).1.history) := by
  have hcase := apply_outcome h extract m event context recordHistory
  generalize m.apply h extract event context recordHistory = result at hcase
  cases hcase with
  | duplicate hseen => exact absurd hseen ha.1
  | late _ hlate =>
    rw [ha.2] at hlate
    cases hlate
  | stale _ _ hadd =>
    rcases hw.1 with hop | hop
    · rw [hadd] at hop
      cases hop
    · rw [hadd] at hop
      cases hop
  | tombstoned _ _ hop => exact absurd hw.1 hop
  | raised _ hop => exact absurd hw.1 hop
  | applied _ _ hop => exact absurd hw.1 hop
  | retracted =>
    refine ⟨hw.2 ▸ List.mem_cons_self .., ?_⟩
    rintro rfl
    exact List.mem_append_right _ (List.mem_singleton_self _)

/-- A public call leaves the map as it was, or notes its key and records itself. -/
theorem apply_noted :
    (m.apply h extract event context true).1 = m ∨
      (event.key ∉ m.seen ∧
        (m.apply h extract event context true).1.seen = m.seen ++ [event.key] ∧
        (m.apply h extract event context true).1.history = m.history ++ [⟨event, context⟩]) := by
  have hcase := apply_outcome h extract m event context true
  generalize m.apply h extract event context true = result at hcase
  cases hcase with
  | duplicate | raised => exact .inl rfl
  | late hnew => exact .inr ⟨hnew, rfl, rfl⟩
  | stale hnew => exact .inr ⟨hnew, rfl, rfl⟩
  | retracted hnew => exact .inr ⟨hnew, rfl, rfl⟩
  | tombstoned hnew => exact .inr ⟨hnew, rfl, rfl⟩
  | applied hnew _ _ _ replaces => cases replaces <;> exact .inr ⟨hnew, rfl, rfl⟩

/-- A recorded input the extractor or the validation refuses when a replay reaches it. -/
def Refuses (h : Host) (extract : PropositionExtractor) (m : StreamingConceptMap)
    (input : ConceptInput) : Prop :=
  input.event.key ∉ m.seen ∧
    ¬(input.event.operation = .delete ∨ input.event.operation = .retract) ∧
    input.event.eventId ∉ m.retractedEventIds ∧ ¬Outdated m.eventLedger input.event ∧
    ∃ e, extract input.event input.context >>= stageAll h input.event = .error e

instance (input : ConceptInput) : Decidable (Refuses h extract m input) :=
  inferInstanceAs (Decidable (_ ∧ _ ∧ _ ∧ _ ∧ _))

theorem apply_tombstoned (ht : event.eventId ∈ m.retractedEventIds) :
    ∃ p, (m.apply h extract event context recordHistory).2 = .ok p := by
  have haccepted : ∀ d, ∃ p,
      (m.applyAccepted h extract event context recordHistory d).2 = .ok p := by
    intro d
    unfold applyAccepted
    by_cases hop : event.operation = .delete ∨ event.operation = .retract
    · rw [if_pos hop]
      exact ⟨_, rfl⟩
    · rw [if_neg hop, if_pos ht]
      exact ⟨_, rfl⟩
  unfold StreamingConceptMap.apply
  split
  · exact ⟨_, rfl⟩
  split
  · exact ⟨_, rfl⟩
  split
  · split
    · split
      · exact ⟨_, rfl⟩
      · exact haccepted true
    · exact haccepted false
  · exact haccepted true

theorem redo_ok (h : Host) (extract : PropositionExtractor) (m : StreamingConceptMap)
    (input : ConceptInput) (hr : ¬Refuses h extract m input) :
    ∃ p, (m.redo h extract input).2 = .ok p := by
  by_cases ht : input.event.eventId ∈ m.retractedEventIds
  · exact apply_tombstoned ht
  have hcase := apply_outcome h extract m input.event input.context false
  unfold redo
  generalize m.apply h extract input.event input.context false = result at hcase
  cases hcase with
  | duplicate | late | stale | retracted | tombstoned | applied => exact ⟨_, rfl⟩
  | raised hnew hop hfresh e hraise =>
    refine absurd ⟨hnew, hop, ht, ?_, e, hraise⟩ hr
    rintro ⟨hadd, highest, hactive, hle⟩
    exact hfresh hadd highest hactive hle

end Step

/-! ## Runs of the concept map -/

/-- What a run without a failed replay keeps. -/
structure Kept (m : StreamingConceptMap) : Prop where
  noted : Noted m.seen (m.history.map (·.event))
  honours : Honours m

theorem Kept.call {h : Host} {extract : PropositionExtractor} {m : StreamingConceptMap}
    (hm : Kept m) (input : ConceptInput) : Kept (m.call h extract input) := by
  unfold StreamingConceptMap.call
  rcases @apply_noted h extract m input.event input.context with hsame | ⟨hnew, hseen, hhistory⟩
  · rw [hsame]
    exact hm
  · refine ⟨?_, hm.honours.apply.1⟩
    rw [hseen, hhistory, List.map_append]
    exact hm.noted.snoc hnew

/-- What the feed of a replay has rebuilt of the inputs `done`. -/
structure Rebuilds (history done : List ConceptInput) (m : StreamingConceptMap) : Prop where
  feeding : Feeding history done m
  gate : m.allowedLateness = .inf
  honours : Honours m
  marked : ((done.map (·.event)).map ChatEvent.key).Nodup → ∀ input ∈ done, ∀ id,
    Withdraws input.event id → id ∈ m.retractedEventIds

theorem Rebuilds.step {h : Host} {extract : PropositionExtractor} {history : List ConceptInput}
    (done : List ConceptInput) (m m' : StreamingConceptMap) (item : ConceptInput) (p : MapPatch)
    (hm : Rebuilds history done m) (hr : m.redo h extract item = (m', .ok p)) :
    Rebuilds history (done ++ [item]) m' := by
  have hm' : (m.apply h extract item.event item.context false).1 = m' := congrArg Prod.fst hr
  obtain ⟨hhonours, hgrows⟩ := @Honours.apply h extract m item.event item.context false hm.honours
  refine ⟨Feeding.step done m m' item p hm.feeding hr, ?_, hm' ▸ hhonours, ?_⟩
  · rw [← hm', apply_allowedLateness, hm.gate]
  · intro hnodup input hinput id hw
    rw [List.map_append, List.map_singleton] at hnodup
    rw [← hm']
    rcases List.mem_append.mp hinput with hold | hlast
    · refine hgrows id (hm.marked ?_ input hold id hw)
      rw [List.map_append] at hnodup
      exact (List.nodup_append.mp hnodup).1
    · rw [List.mem_singleton] at hlast
      subst hlast
      refine (apply_marks hw ⟨hm.feeding.1.new hnodup, ?_⟩).1
      rw [hm.gate]
      exact tooLate_inf ..

/-- A call of the map. -/
inductive Step
  | apply (input : ConceptInput)
  | replay

def step (h : Host) (extract : PropositionExtractor) (m : StreamingConceptMap) :
    Step → StreamingConceptMap
  | .apply input => m.call h extract input
  | .replay => (m.replay h extract none).1

/-- A replay finds no recorded input that is refused. -/
def Careful (h : Host) (extract : PropositionExtractor) (m : StreamingConceptMap) : Step → Prop
  | .apply _ => True
  | .replay => Feeds (Refuses h extract) (redo h extract) (m.resetRuntime.withLateness .inf)
      m.history

instance (h : Host) (extract : PropositionExtractor) (m : StreamingConceptMap) :
    ∀ c, Decidable (Careful h extract m c)
  | .apply _ => isTrue trivial
  | .replay => inferInstanceAs (Decidable (Feeds ..))

/-- A replay that refuses nothing keeps the journal and tombstones all it withdraws. -/
theorem Kept.replay {h : Host} {extract : PropositionExtractor} {m : StreamingConceptMap}
    (hm : Kept m) (hc : Careful h extract m .replay) :
    Kept (m.replay h extract none).1 ∧ (m.replay h extract none).1.history = m.history ∧
      ∀ input ∈ m.history, ∀ id, Withdraws input.event id →
        id ∈ (m.replay h extract none).1.retractedEventIds := by
  obtain ⟨u, hu⟩ := Journal.refeed_ok (redo_ok h extract) hc
  have hstart : Rebuilds m.history [] (m.resetRuntime.withLateness .inf) :=
    ⟨Feeding.reset m m.history, rfl, by simp [Honours, resetRuntime, withLateness, init],
      by simp⟩
  have hend := Journal.refeed_invariant Rebuilds.step hstart hu
  have hreplay : (m.replay h extract none).1 = u.withLateness m.allowedLateness :=
    congrArg (fun r => r.1.withLateness m.allowedLateness) hu
  rw [hreplay]
  have hhistory : (u.withLateness m.allowedLateness).history = m.history := hend.feeding.2
  refine ⟨⟨?_, fun id hid => ?_⟩, hhistory, hend.marked hm.noted.nodup⟩
  · rw [hhistory]
    exact ⟨hend.feeding.1.seen, hm.noted.nodup⟩
  · exact ⟨(hend.honours id hid).contributions, (hend.honours id hid).ledger⟩

/-- The event was withdrawn, and the journal says so. -/
structure Retired (m : StreamingConceptMap) (id : String) : Prop where
  marked : id ∈ m.retractedEventIds
  recorded : ∃ input ∈ m.history, Withdraws input.event id

theorem Kept.step {h : Host} {extract : PropositionExtractor} {m : StreamingConceptMap}
    (hm : Kept m) {c : Step} (hc : Careful h extract m c) : Kept (m.step h extract c) := by
  cases c with
  | apply input => exact hm.call input
  | replay => exact (hm.replay hc).1

theorem Retired.step {h : Host} {extract : PropositionExtractor} {m : StreamingConceptMap}
    {id : String} (hr : Retired m id) (hm : Kept m) {c : Step} (hc : Careful h extract m c) :
    Retired (m.step h extract c) id := by
  obtain ⟨input, hinput, hw⟩ := hr.recorded
  cases c with
  | apply next =>
    refine ⟨(hm.honours.apply).2 id hr.marked, input, ?_, hw⟩
    change input ∈ (m.apply h extract next.event next.context true).1.history
    rcases @apply_noted h extract m next.event next.context with hsame | ⟨-, -, hhistory⟩
    · rw [hsame]
      exact hinput
    · rw [hhistory]
      exact List.mem_append_left _ hinput
  | replay =>
    obtain ⟨-, hhistory, hmarked⟩ := hm.replay hc
    refine ⟨hmarked input hinput id hw, input, ?_, hw⟩
    change input ∈ (m.replay h extract none).1.history
    rw [hhistory]
    exact hinput

theorem Kept.fresh (allowed : Lateness) : Kept (fresh allowed) where
  noted := ⟨fun _ => Iff.rfl, List.nodup_nil⟩
  honours id hid := by cases hid

/-- After an accepted withdrawal the event stays quiet in every state of the run, whatever
arrives and whenever the history is replayed, as long as no replay meets an input it refuses. -/
theorem retraction_permanent (h : Host) (extract : PropositionExtractor) (allowed : Lateness)
    (before after : List Step) (input : ConceptInput) (id : String)
    (hc : Along (step h extract) (Careful h extract) (fresh allowed)
      (before ++ .apply input :: after))
    (hw : Withdraws input.event id)
    (ha : (before.foldl (step h extract) (fresh allowed)).Accepts input.event) (n : Nat) :
    Quiet ((after.take n).foldl (step h extract)
      ((before.foldl (step h extract) (fresh allowed)).step h extract (.apply input))) id := by
  obtain ⟨hbefore, -, hafter⟩ := Along.append.mp hc
  have hm := hbefore.invariant (fun _ _ hm => hm.step) (Kept.fresh allowed)
  obtain ⟨hmarked, hrecorded⟩ := @apply_marks h extract _ input.event input.context true id hw ha
  have hend := (hafter.take n).invariant
    (I := fun m => Kept m ∧ Retired m id)
    (fun _ _ hs hc => ⟨hs.1.step hc, hs.2.step hs.1 hc⟩)
    ⟨hm.call input, hmarked, input, hrecorded rfl, hw⟩
  exact hend.1.honours id hend.2.marked

/-- The remark again, as a later revision. -/
def sunRemarkAgain : ChatEvent :=
  { sunRemark with
    revision := 2
    revision_pos := by decide }

/-- The withdrawal comes first, then the remark twice, and then the history is replayed. -/
theorem retraction_permanent_sunRemark :
    Quiet (([Step.apply ⟨sunRemark, []⟩, .replay, .apply ⟨sunRemarkAgain, []⟩].take 3).foldl
      (step .ascii (DeterministicEcosystemExtractor.extract .ascii))
      (([] : List Step).foldl (step .ascii (DeterministicEcosystemExtractor.extract .ascii))
        (fresh (.within (seconds 5))) |>.step .ascii
          (DeterministicEcosystemExtractor.extract .ascii) (.apply ⟨sunWithdrawal, []⟩))) "e1" := by
  apply retraction_permanent
  · decide +kernel
  · decide
  · decide

/-- A remark, an unreadable turn that arrives ten minutes late, and the remark's withdrawal. -/
def beforeWithdrawal : List Step :=
  [ .apply ⟨sunRemark, []⟩,
    .apply ⟨{ sunRemark with
      eventId := "e3"
      eventTime := seconds 600
      required := by decide }, []⟩,
    .apply ⟨unreadable, []⟩ ]

def lateWithdrawal : ConceptInput := ⟨{ sunWithdrawal with eventTime := seconds 600 }, []⟩

/-- The late turn was recorded unread. The replay stops at it, and the withdrawn remark is
active again. -/
theorem failed_replay_revives :
    Withdraws lateWithdrawal.event "e1" ∧
      (beforeWithdrawal.foldl (step .ascii pickyExtractor)
        (fresh (.within (seconds 5)))).Accepts lateWithdrawal.event ∧
      ¬Quiet ([Step.replay].foldl (step .ascii pickyExtractor)
        ((beforeWithdrawal.foldl (step .ascii pickyExtractor) (fresh (.within (seconds 5)))).step
          .ascii pickyExtractor (.apply lateWithdrawal))) "e1" := by
  obtain ⟨haccepts, hactive⟩ :
      (beforeWithdrawal.foldl (step .ascii pickyExtractor)
        (fresh (.within (seconds 5)))).Accepts lateWithdrawal.event ∧
      ¬Dormant ([Step.replay].foldl (step .ascii pickyExtractor)
        ((beforeWithdrawal.foldl (step .ascii pickyExtractor) (fresh (.within (seconds 5)))).step
          .ascii pickyExtractor (.apply lateWithdrawal))).eventLedger "e1" := by
    decide +kernel
  exact ⟨by decide, haccepts, fun hquiet => hactive hquiet.ledger⟩

end StreamingConceptMap

/-! ## The interaction network -/

/-- The last word on an event is a withdrawal: nothing after it states the event. -/
def Settled (events : List ChatEvent) (id : String) : Prop :=
  ∃ before event after, events = before ++ event :: after ∧ Withdraws event id ∧
    ∀ later ∈ after, ¬States later id

theorem Settled.snoc {events : List ChatEvent} {event : ChatEvent} {id : String}
    (hs : Settled (events ++ [event]) id) :
    Withdraws event id ∨ (Settled events id ∧ ¬States event id) := by
  obtain ⟨before, first, after, heq, hw, hlater⟩ := hs
  rcases snoc_split heq with ⟨-, rfl, -⟩ | ⟨rest, rfl, hrest⟩
  · exact .inl hw
  · refine .inr ⟨⟨before, first, rest, hrest, hw, fun later hl => ?_⟩, ?_⟩
    · exact hlater later (List.mem_append_left _ hl)
    · exact hlater event (List.mem_append_right _ (List.mem_singleton_self _))

theorem Settled.concat {events : List ChatEvent} {event : ChatEvent} {id : String}
    (hs : Withdraws event id ∨ (Settled events id ∧ ¬States event id)) :
    Settled (events ++ [event]) id := by
  rcases hs with hw | ⟨⟨before, first, after, rfl, hw, hlater⟩, hnot⟩
  · exact ⟨events, event, [], rfl, hw, by simp⟩
  · refine ⟨before, first, after ++ [event], by simp, hw, fun later hl => ?_⟩
    rcases List.mem_append.mp hl with hl | hl
    · exact hlater later hl
    · rwa [List.mem_singleton.mp hl]

namespace StreamingInteractionNetwork

/-- No contribution and no ledger entry of the event is active, nor is the event itself. -/
structure Quiet (n : StreamingInteractionNetwork) (id : String) : Prop where
  contributions : ∀ c ∈ n.contributions.values, c.eventId = id → c.active = false
  activeEvents : n.activeEvents.get? id = none
  ledger : Dormant n.eventLedger id

section Step

variable {h : Host} {extractor : Option RelationExtractor} {n : StreamingInteractionNetwork}
  {event : ChatEvent} {args : Supplied} {id : String}

theorem Quiet.deactivated (target : String) (hn : target = id ∨ Quiet n id) :
    Quiet (n.deactivate target) id := by
  refine ⟨fun c hc hid => ?_, ?_, Dormant.deactivate target (hn.imp_right Quiet.ledger)⟩
  · cases ha : c.active with
    | false => rfl
    | true =>
      obtain ⟨hold, hne⟩ := mem_deactivate hc ha
      rcases hn with heq | hn
      · exact absurd (hid.trans heq.symm) hne
      · rw [← ha]
        exact hn.contributions c hold hid
  · change (n.activeEvents.erase target).get? id = none
    rw [Dict.get?_erase]
    rcases hn with rfl | hn
    · rw [if_pos rfl]
    · split
      · rfl
      · exact hn.activeEvents

/-- An operation that is neither a duplicate nor late. -/
def Accepts (n : StreamingInteractionNetwork) (event : ChatEvent) : Prop :=
  event.key ∉ n.seen ∧ tooLate n.watermark n.allowedLateness event.eventTime = false

instance : Decidable (n.Accepts event) := inferInstanceAs (Decidable (_ ∧ _))

theorem apply_withdraws (hw : Withdraws event id) (ha : n.Accepts event) :
    Quiet (n.apply h extractor event args).1 id := by
  have hcase := apply_outcome h extractor n event args
  generalize n.apply h extractor event args = result at hcase
  cases hcase with
  | duplicate hseen => exact absurd hseen ha.1
  | late _ hlate =>
    rw [ha.2] at hlate
    cases hlate
  | stale _ _ hstale =>
    obtain ⟨hadd, -⟩ := stale_iff.mp hstale
    rcases hw.1 with hop | hop
    · rw [hadd] at hop
      cases hop
    · rw [hadd] at hop
      cases hop
  | raised _ hop => exact absurd hw.1 hop
  | applied _ _ hop => exact absurd hw.1 hop
  | retracted =>
    have hq := Quiet.deactivated (n := n) event.target (.inl hw.2)
    exact ⟨hq.contributions, hq.activeEvents, hq.ledger.modify (by simp)⟩

theorem Quiet.staged (items : List EdgeEvidence) (hn : Quiet n id) (hne : event.eventId ≠ id) :
    Quiet ({ n with
      contributions := (items.zipIdx.map fun (item, index) =>
        stage h event index item).foldl (fun d c => d.set c.contributionId c) n.contributions
      activeEvents := n.activeEvents.set event.eventId event
      eventLedger := n.eventLedger.modify event.eventId [] (· ++ [⟨event, true, false⟩]) }) id := by
  refine ⟨fun c hc hcid => ?_, ?_, hn.ledger.modify fun _ => hne⟩
  · rcases Dict.mem_values_foldl_set hc with ⟨c, hc, rfl⟩ | hold
    · exact absurd ((mem_staged hc).symm.trans hcid) hne
    · exact hn.contributions c hold hcid
  · change (n.activeEvents.set event.eventId event).get? id = none
    rw [Dict.get?_set_of_ne _ _ hne.symm]
    exact hn.activeEvents

/-- Only a new operation that states the event can bring it back. -/
theorem Quiet.apply (hn : Quiet n id) (hnot : States event id → event.key ∈ n.seen) :
    Quiet (n.apply h extractor event args).1 id := by
  have hcase := apply_outcome h extractor n event args
  generalize n.apply h extractor event args = result at hcase
  cases hcase with
  | duplicate | raised => exact hn
  | late => exact ⟨hn.contributions, hn.activeEvents, hn.ledger.modify (by simp)⟩
  | stale => exact ⟨hn.contributions, hn.activeEvents, hn.ledger⟩
  | retracted =>
    have hq := Quiet.deactivated event.target (.inr hn)
    exact ⟨hq.contributions, hq.activeEvents, hq.ledger.modify (by simp)⟩
  | applied hnew _ hop normalized =>
    have hne : event.eventId ≠ id := fun heq => hnew (hnot ⟨hop, heq⟩)
    cases hreplaces : n.replaces event with
    | true =>
      have hq := (Quiet.deactivated event.target (.inr hn)).staged (h := h) normalized hne
      exact ⟨hq.contributions, hq.activeEvents, hq.ledger⟩
    | false =>
      have hq := hn.staged (h := h) normalized hne
      exact ⟨hq.contributions, hq.activeEvents, hq.ledger⟩

/-- A public call leaves the network as it was, or notes its key and records its event. -/
theorem apply_noted (hrec : args.recordHistory = true) :
    (n.apply h extractor event args).1 = n ∨
      (event.key ∉ n.seen ∧ (n.apply h extractor event args).1.seen = n.seen ++ [event.key] ∧
        (n.apply h extractor event args).1.history.map (·.event) =
          n.history.map (·.event) ++ [event]) := by
  have hcase := apply_outcome h extractor n event args
  generalize n.apply h extractor event args = result at hcase
  have hcommit : ∀ context, (n.commitIdentity event args context).history.map (·.event) =
      n.history.map (·.event) ++ [event] := by
    intro context
    simp [commitIdentity, hrec]
  cases hcase with
  | duplicate | raised => exact .inl rfl
  | late hnew => exact .inr ⟨hnew, rfl, hcommit _⟩
  | stale hnew => exact .inr ⟨hnew, rfl, hcommit _⟩
  | retracted hnew => exact .inr ⟨hnew, rfl, hcommit _⟩
  | applied hnew => cases n.replaces event <;> exact .inr ⟨hnew, rfl, hcommit _⟩

theorem withdrawal_recorded (hw : Withdraws event id) (ha : n.Accepts event)
    (hrec : args.recordHistory = true) :
    (n.apply h extractor event args).1.history.map (·.event) =
      n.history.map (·.event) ++ [event] := by
  have hcase := apply_outcome h extractor n event args
  generalize n.apply h extractor event args = result at hcase
  cases hcase with
  | duplicate hseen => exact absurd hseen ha.1
  | raised _ hop => exact absurd hw.1 hop
  | late | stale | retracted =>
    simp [applyLate, StreamingInteractionNetwork.ledger, advance, deactivate, commitIdentity, hrec]
  | applied _ _ hop => exact absurd hw.1 hop

/-- A recorded input whose relations are refused when a replay reaches it. -/
def Refuses (h : Host) (extractor : Option RelationExtractor) (n : StreamingInteractionNetwork)
    (item : NetworkInput) : Prop :=
  item.event.key ∉ n.seen ∧
    ¬(item.event.operation = .delete ∨ item.event.operation = .retract) ∧
    ¬Outdated n.eventLedger item.event ∧
    ∃ e, n.relations h extractor item.event (supplied item false) (n.prospective item.event) >>=
      normalizeEvidence item.event = .error e

instance (item : NetworkInput) : Decidable (Refuses h extractor n item) :=
  inferInstanceAs (Decidable (_ ∧ _ ∧ _ ∧ _))

theorem redo_ok (h : Host) (extractor : Option RelationExtractor)
    (n : StreamingInteractionNetwork) (item : NetworkInput) (hr : ¬Refuses h extractor n item) :
    ∃ p, (n.redo h extractor item).2 = .ok p := by
  have hcase := apply_outcome h extractor n item.event (supplied item false)
  unfold redo
  generalize n.apply h extractor item.event (supplied item false) = result at hcase
  cases hcase with
  | duplicate | late | stale | retracted | applied => exact ⟨_, rfl⟩
  | raised hnew hop hfresh e hraise =>
    refine absurd ⟨hnew, hop, fun ho => ?_, e, hraise⟩ hr
    rw [← stale_iff, hfresh] at ho
    cases ho

end Step

/-! ## Runs of the network -/

/-- What the feed of a replay has rebuilt of the inputs `done`. -/
structure Rebuilds (history done : List NetworkInput) (n : StreamingInteractionNetwork) : Prop where
  feeding : Feeding history done n
  gate : n.allowedLateness = .inf
  quiet : ((done.map (·.event)).map ChatEvent.key).Nodup → ∀ id, Settled (done.map (·.event)) id →
    Quiet n id

theorem Rebuilds.step {h : Host} {extractor : Option RelationExtractor}
    {history : List NetworkInput} (done : List NetworkInput)
    (n n' : StreamingInteractionNetwork) (item : NetworkInput) (p : MapPatch)
    (hn : Rebuilds history done n) (hr : n.redo h extractor item = (n', .ok p)) :
    Rebuilds history (done ++ [item]) n' := by
  have hn' : (n.apply h extractor item.event (supplied item false)).1 = n' := congrArg Prod.fst hr
  refine ⟨Feeding.step done n n' item p hn.feeding hr, ?_, ?_⟩
  · rw [← hn', apply_allowedLateness, hn.gate]
  · intro hnodup id hs
    rw [List.map_append, List.map_singleton] at hnodup hs
    rw [← hn']
    have hnew := hn.feeding.1.new hnodup
    rcases hs.snoc with hw | ⟨hold, hnot⟩
    · refine apply_withdraws hw ⟨hnew, ?_⟩
      rw [hn.gate]
      exact tooLate_inf ..
    · refine Quiet.apply (hn.quiet ?_ id hold) fun hstates => absurd hstates hnot
      rw [List.map_append] at hnodup
      exact (List.nodup_append.mp hnodup).1

/-- A call of the network. -/
inductive Step
  | apply (input : NetworkInput)
  | replay

def step (h : Host) (extractor : Option RelationExtractor) (n : StreamingInteractionNetwork) :
    Step → StreamingInteractionNetwork
  | .apply input => n.call h extractor input
  | .replay => (n.replay h extractor none).1

/-- A replay finds no recorded input that is refused. -/
def Careful (h : Host) (extractor : Option RelationExtractor) (n : StreamingInteractionNetwork) :
    Step → Prop
  | .apply _ => True
  | .replay => Feeds (Refuses h extractor) (redo h extractor) (n.resetRuntime.withLateness .inf)
      n.history

/-- No new operation states the event. -/
def Spares (n : StreamingInteractionNetwork) (id : String) : Step → Prop
  | .apply input => States input.event id → input.event.key ∈ n.seen
  | .replay => True

instance (h : Host) (extractor : Option RelationExtractor) (n : StreamingInteractionNetwork) :
    ∀ c, Decidable (Careful h extractor n c)
  | .apply _ => isTrue trivial
  | .replay => inferInstanceAs (Decidable (Feeds ..))

instance (n : StreamingInteractionNetwork) (id : String) : ∀ c, Decidable (Spares n id c)
  | .apply _ => inferInstanceAs (Decidable (_ → _))
  | .replay => isTrue trivial

/-- What a run without a failed replay keeps. -/
def Kept (n : StreamingInteractionNetwork) : Prop := Noted n.seen (n.history.map (·.event))

theorem Kept.call {h : Host} {extractor : Option RelationExtractor}
    {n : StreamingInteractionNetwork} (hn : Kept n) (input : NetworkInput) :
    Kept (n.call h extractor input) := by
  unfold StreamingInteractionNetwork.call
  rcases @apply_noted h extractor n input.event (supplied input true) rfl with
    hsame | ⟨hnew, hseen, hhistory⟩
  · rw [hsame]
    exact hn
  · unfold Kept
    rw [hseen, hhistory]
    exact Noted.snoc hn hnew

theorem Kept.replay {h : Host} {extractor : Option RelationExtractor}
    {n : StreamingInteractionNetwork} (hn : Kept n) (hc : Careful h extractor n .replay) :
    Kept (n.replay h extractor none).1 ∧ (n.replay h extractor none).1.history = n.history ∧
      ∀ id, Settled (n.history.map (·.event)) id → Quiet (n.replay h extractor none).1 id := by
  obtain ⟨u, hu⟩ := Journal.refeed_ok (redo_ok h extractor) hc
  have hstart : Rebuilds n.history [] (n.resetRuntime.withLateness .inf) := by
    refine ⟨Feeding.reset n n.history, rfl, ?_⟩
    rintro - id ⟨before, event, after, heq, -⟩
    simp at heq
  have hend := Journal.refeed_invariant Rebuilds.step hstart hu
  have hreplay : (n.replay h extractor none).1 = u.withLateness n.allowedLateness :=
    congrArg (fun r => r.1.withLateness n.allowedLateness) hu
  rw [hreplay]
  have hhistory : (u.withLateness n.allowedLateness).history = n.history := hend.feeding.2
  refine ⟨?_, hhistory, fun id hs => ?_⟩
  · unfold Kept
    rw [hhistory]
    exact ⟨hend.feeding.1.seen, hn.nodup⟩
  · have hq := hend.quiet hn.nodup id hs
    exact ⟨hq.contributions, hq.activeEvents, hq.ledger⟩

theorem Kept.step {h : Host} {extractor : Option RelationExtractor}
    {n : StreamingInteractionNetwork} (hn : Kept n) {c : Step} (hc : Careful h extractor n c) :
    Kept (n.step h extractor c) := by
  cases c with
  | apply input => exact hn.call input
  | replay => exact (hn.replay hc).1

/-- The event was withdrawn, and in the journal the withdrawal has the last word. -/
structure Retired (n : StreamingInteractionNetwork) (id : String) : Prop where
  quiet : Quiet n id
  settled : Settled (n.history.map (·.event)) id

theorem Retired.step {h : Host} {extractor : Option RelationExtractor}
    {n : StreamingInteractionNetwork} {id : String} (hr : Retired n id) (hn : Kept n) {c : Step}
    (hc : Careful h extractor n c) (hs : Spares n id c) : Retired (n.step h extractor c) id := by
  cases c with
  | apply input =>
    refine ⟨hr.quiet.apply hs, ?_⟩
    change Settled ((n.apply h extractor input.event (supplied input true)).1.history.map _) id
    rcases @apply_noted h extractor n input.event (supplied input true) rfl with
      hsame | ⟨hnew, -, hhistory⟩
    · rw [hsame]
      exact hr.settled
    · rw [hhistory]
      exact Settled.concat (.inr ⟨hr.settled, fun hstates => hnew (hs hstates)⟩)
  | replay =>
    obtain ⟨-, hhistory, hquiet⟩ := hn.replay hc
    refine ⟨hquiet id hr.settled, ?_⟩
    change Settled ((n.replay h extractor none).1.history.map _) id
    rw [hhistory]
    exact hr.settled

/-- After an accepted withdrawal the event stays quiet in every state of the run, as long as
no new operation states the event and no replay meets an input it refuses. -/
theorem retraction_kept (h : Host) (extractor : Option RelationExtractor) (allowed : Lateness)
    (before after : List Step) (input : NetworkInput) (id : String)
    (hc : Along (step h extractor) (Careful h extractor) (fresh allowed)
      (before ++ .apply input :: after))
    (hw : Withdraws input.event id)
    (ha : (before.foldl (step h extractor) (fresh allowed)).Accepts input.event)
    (hs : Along (step h extractor) (Spares · id)
      ((before.foldl (step h extractor) (fresh allowed)).step h extractor (.apply input)) after)
    (n : Nat) :
    Quiet ((after.take n).foldl (step h extractor)
      ((before.foldl (step h extractor) (fresh allowed)).step h extractor (.apply input))) id := by
  obtain ⟨hbefore, -, hafter⟩ := Along.append.mp hc
  have hn := hbefore.invariant (fun _ _ hn => hn.step)
    (show Kept (fresh allowed) from ⟨fun _ => Iff.rfl, List.nodup_nil⟩)
  have hretired : Retired ((before.foldl (step h extractor) (fresh allowed)).step h extractor
      (.apply input)) id := by
    refine ⟨apply_withdraws hw ha, ?_⟩
    rw [show (step h extractor _ (.apply input)).history.map (·.event) = _ from
      withdrawal_recorded hw ha rfl]
    exact Settled.concat (.inl hw)
  have hend := ((hafter.and hs).take n).invariant
    (I := fun n => Kept n ∧ Retired n id)
    (fun _ _ hn hc => ⟨hn.1.step hc.1, hn.2.step hn.1 hc.1 hc.2⟩) ⟨hn.call input, hretired⟩
  exact hend.2.quiet

/-- The remark and its withdrawal as the network is handed them. -/
def sunRemarkInput : NetworkInput := ⟨sunRemark, [], [], none, true⟩

def sunWithdrawalInput : NetworkInput := ⟨sunWithdrawal, [], [], none, true⟩

theorem retraction_kept_sunRemark :
    Quiet (([Step.replay, .apply sunRemarkInput].take 2).foldl (step .ascii none)
      (([Step.apply sunRemarkInput].foldl (step .ascii none) (fresh (.within (seconds 5)))).step
        .ascii none (.apply sunWithdrawalInput))) "e1" := by
  apply retraction_kept
  · decide +kernel
  · decide
  · decide +kernel
  · decide +kernel

/-- The remark that arrives after its withdrawal is active, for the network has no
tombstone. -/
theorem remark_after_withdrawal :
    Withdraws sunWithdrawalInput.event "e1" ∧
      (fresh (.within (seconds 5))).Accepts sunWithdrawalInput.event ∧
      ¬Quiet ([Step.apply sunRemarkInput].foldl (step .ascii none)
        ((fresh (.within (seconds 5))).step .ascii none (.apply sunWithdrawalInput))) "e1" := by
  refine ⟨by decide, by decide, fun hquiet => ?_⟩
  have hactive : ([Step.apply sunRemarkInput].foldl (step .ascii none)
      ((fresh (.within (seconds 5))).step .ascii none
        (.apply sunWithdrawalInput))).activeEvents.get? "e1" ≠ none := by
    decide +kernel
  exact hactive hquiet.activeEvents

end StreamingInteractionNetwork

end LearningOrbit.Reference
