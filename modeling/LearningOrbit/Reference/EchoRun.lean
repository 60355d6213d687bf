import LearningOrbit.Reference.LedgerView

/-!
# Runs of the concept map

What a concept map holds after a whole sequence of chat events, under the
online lateness gate or with the gate lifted: which events are late, which are
active, and which contributions they left.
-/

namespace LearningOrbit.Reference

open LearningOrbit (Host Dict)

/-- `chats` can follow `done`: every event id is new, and a revision or withdrawal targets
an event that came before. -/
def Follows : List ChatEvent → List ChatEvent → Prop
  | _, [] => True
  | done, c :: cs =>
    (∀ d ∈ done, d.eventId ≠ c.eventId) ∧
    (c.operation ≠ .add → ∃ d ∈ done, d.eventId = c.target) ∧
    Follows (c :: done) cs

/-- The event revises or withdraws the given one. -/
def Supersedes (c : ChatEvent) (id : String) : Prop := c.operation ≠ .add ∧ c.target = id

instance (c : ChatEvent) (id : String) : Decidable (Supersedes c id) :=
  inferInstanceAs (Decidable (_ ∧ _))

/-- The events that arrive beyond the allowed lateness. A late event does not move the
watermark. -/
def lateFrom (allowed : Lateness) : Option Int → List ChatEvent → List ChatEvent
  | _, [] => []
  | w, c :: cs =>
    if tooLate w allowed c.eventTime then c :: lateFrom allowed w cs
    else lateFrom allowed (raiseWatermark w c.eventTime) cs

/-- The events that arrive in time. -/
def onTimeFrom (allowed : Lateness) : Option Int → List ChatEvent → List ChatEvent
  | _, [] => []
  | w, c :: cs =>
    if tooLate w allowed c.eventTime then onTimeFrom allowed w cs
    else c :: onTimeFrom allowed (raiseWatermark w c.eventTime) cs

theorem onTimeFrom_subset {allowed : Lateness} {w : Option Int} {chats : List ChatEvent}
    {c : ChatEvent} (hc : c ∈ onTimeFrom allowed w chats) : c ∈ chats := by
  induction chats generalizing w with
  | nil => cases hc
  | cons d ds ih =>
    simp only [onTimeFrom] at hc
    split at hc
    · exact List.mem_cons_of_mem _ (ih hc)
    · rcases List.mem_cons.mp hc with rfl | hc
      · exact List.mem_cons_self ..
      · exact List.mem_cons_of_mem _ (ih hc)

theorem lateFrom_subset {allowed : Lateness} {w : Option Int} {chats : List ChatEvent}
    {c : ChatEvent} (hc : c ∈ lateFrom allowed w chats) : c ∈ chats := by
  induction chats generalizing w with
  | nil => cases hc
  | cons d ds ih =>
    simp only [lateFrom] at hc
    split at hc
    · rcases List.mem_cons.mp hc with rfl | hc
      · exact List.mem_cons_self ..
      · exact List.mem_cons_of_mem _ (ih hc)
    · exact List.mem_cons_of_mem _ (ih hc)

/-- With the gate lifted nothing is late. -/
theorem onTimeFrom_inf (w : Option Int) (chats : List ChatEvent) :
    onTimeFrom .inf w chats = chats := by
  induction chats generalizing w with
  | nil => rfl
  | cons c cs ih =>
    have hn : tooLate w .inf c.eventTime = false := by cases w <;> rfl
    simp only [onTimeFrom, hn, Bool.false_eq_true, ↓reduceIte]
    rw [ih]

/-- What was on time does not depend on what comes later. -/
theorem onTimeFrom_append (allowed : Lateness) (w : Option Int) (xs ys : List ChatEvent) :
    ∃ zs, onTimeFrom allowed w (xs ++ ys) = onTimeFrom allowed w xs ++ zs ∧ ∀ z ∈ zs, z ∈ ys := by
  induction xs generalizing w with
  | nil => exact ⟨_, rfl, fun z => onTimeFrom_subset⟩
  | cons c cs ih =>
    simp only [List.cons_append, onTimeFrom]
    split
    · exact ih w
    · obtain ⟨zs, hz, hsub⟩ := ih (raiseWatermark w c.eventTime)
      exact ⟨zs, by rw [hz, List.cons_append], hsub⟩

theorem Follows.fresh {done chats : List ChatEvent} (hf : Follows done chats) {c : ChatEvent}
    (hc : c ∈ chats) : ∀ d ∈ done, d.eventId ≠ c.eventId := by
  induction chats generalizing done with
  | nil => cases hc
  | cons x xs ih =>
    obtain ⟨hx, -, hxs⟩ := hf
    rcases List.mem_cons.mp hc with rfl | hc
    · exact hx
    · exact fun d hd => ih hxs hc d (List.mem_cons_of_mem _ hd)

theorem Follows.eq_of_eventId {done chats : List ChatEvent} (hf : Follows done chats)
    {a b : ChatEvent} (ha : a ∈ chats) (hb : b ∈ chats) (hid : a.eventId = b.eventId) : a = b := by
  induction chats generalizing done with
  | nil => cases ha
  | cons c cs ih =>
    obtain ⟨-, -, hcs⟩ := hf
    rcases List.mem_cons.mp ha with hac | ha <;> rcases List.mem_cons.mp hb with hbc | hb
    · exact hac.trans hbc.symm
    · exact absurd (hac ▸ hid) (hcs.fresh hb c (List.mem_cons_self ..))
    · exact absurd (hbc ▸ hid.symm) (hcs.fresh ha c (List.mem_cons_self ..))
    · exact ih hcs ha hb

/-! ## The ledger view of a run -/

namespace LedgerView

/-- Everything the ledger knows belongs to the events applied so far, and none of the late
ones is active. -/
structure Tracked (done : List ChatEvent) (v : LedgerView) : Prop where
  ledgered : ∀ id ∈ v.eventLedger.keys, ∃ d ∈ done, d.eventId = id
  seen : ∀ key ∈ v.seen, ∃ d ∈ done, d.eventId = key.1
  late : ∀ id ∈ v.requiresReplay, (∃ d ∈ done, d.eventId = id) ∧ ¬ v.Active id

theorem Tracked.fresh {done : List ChatEvent} {v : LedgerView} (hv : v.Tracked done)
    {c : ChatEvent} (hc : ∀ d ∈ done, d.eventId ≠ c.eventId) : v.Fresh c where
  key hk := by
    obtain ⟨d, hd, hid⟩ := hv.seen _ hk
    exact hc d hd hid
  ledger := Dict.get?_eq_none.mpr fun hk => by
    obtain ⟨d, hd, hid⟩ := hv.ledgered _ hk
    exact hc d hd hid

theorem step_requiresReplay_eq {v : LedgerView} {c : ChatEvent} :
    (v.step c).requiresReplay =
      if tooLate v.watermark v.allowedLateness c.eventTime then
        if c.eventId ∈ v.requiresReplay then v.requiresReplay else v.requiresReplay ++ [c.eventId]
      else v.requiresReplay := by
  unfold step
  split
  · rfl
  · by_cases hadd : c.operation = .add <;> simp [hadd, record, deactivate]

theorem step_watermark {v : LedgerView} {c : ChatEvent} :
    (v.step c).watermark =
      if tooLate v.watermark v.allowedLateness c.eventTime then v.watermark
      else raiseWatermark v.watermark c.eventTime := by
  unfold step
  split
  · rfl
  · by_cases hadd : c.operation = .add <;> simp [hadd, record, deactivate]

theorem Tracked.step {done : List ChatEvent} {v : LedgerView} (hv : v.Tracked done)
    {c : ChatEvent} (hc : ∀ d ∈ done, d.eventId ≠ c.eventId) :
    (v.step c).Tracked (c :: done) := by
  have hf := hv.fresh hc
  have more {P : ChatEvent → Prop} (h : ∃ d ∈ done, P d) : ∃ d ∈ c :: done, P d := by
    obtain ⟨d, hd, hP⟩ := h
    exact ⟨d, List.mem_cons_of_mem _ hd, hP⟩
  refine ⟨fun id hid => ?_, fun key hk => ?_, fun id hid => ?_⟩
  · rcases step_keys hid with rfl | hid
    · exact ⟨c, List.mem_cons_self .., rfl⟩
    · exact more (hv.ledgered id hid)
  · rw [step_seen] at hk
    rcases List.mem_append.mp hk with hk | hk
    · exact more (hv.seen key hk)
    · rw [List.mem_singleton.mp hk]
      exact ⟨c, List.mem_cons_self .., rfl⟩
  · rw [step_requiresReplay_eq] at hid
    have hold (hid : id ∈ v.requiresReplay) :
        (∃ d ∈ c :: done, d.eventId = id) ∧ ¬ (v.step c).Active id := by
      obtain ⟨hd, hna⟩ := hv.late id hid
      refine ⟨more hd, fun ha => ?_⟩
      cases hl : tooLate v.watermark v.allowedLateness c.eventTime with
      | true => exact hna ((step_late_active hf hl id).mp ha)
      | false =>
        rcases (step_active hf hl id).mp ha with ⟨rfl, -⟩ | ⟨ha, -⟩
        · obtain ⟨d, hd, hid⟩ := hd
          exact hc d hd hid
        · exact hna ha
    split at hid
    · rename_i hl
      split at hid
      · exact hold hid
      · rcases List.mem_append.mp hid with hid | hid
        · exact hold hid
        · rw [List.mem_singleton.mp hid]
          exact ⟨⟨c, List.mem_cons_self .., rfl⟩,
            fun ha => hf.not_active ((step_late_active hf hl _).mp ha)⟩
    · exact hold hid

theorem Tracked.run {done : List ChatEvent} {v : LedgerView} (hv : v.Tracked done)
    {chats : List ChatEvent} (hf : Follows done chats) :
    (chats.foldl LedgerView.step v).Tracked (chats.reverse ++ done) := by
  induction chats generalizing done v with
  | nil => exact hv
  | cons c cs ih =>
    obtain ⟨hc, -, hcs⟩ := hf
    simpa using ih (hv.step hc) hcs

/-- The replay requests of a run are its late events, in order. -/
theorem Tracked.run_requiresReplay {done : List ChatEvent} {v : LedgerView}
    (hv : v.Tracked done) {chats : List ChatEvent} (hf : Follows done chats) :
    (chats.foldl LedgerView.step v).requiresReplay =
      v.requiresReplay ++ (lateFrom v.allowedLateness v.watermark chats).map (·.eventId) := by
  induction chats generalizing done v with
  | nil => simp [lateFrom]
  | cons c cs ih =>
    obtain ⟨hc, -, hcs⟩ := hf
    have hnew : c.eventId ∉ v.requiresReplay := fun hid => by
      obtain ⟨⟨d, hd, hde⟩, -⟩ := hv.late _ hid
      exact hc d hd hde
    simp only [List.foldl_cons, ih (hv.step hc) hcs, step_requiresReplay_eq, step_watermark,
      step_allowedLateness, lateFrom, hnew, ↓reduceIte]
    split
    · simp
    · rfl

/-- The event opens or revises a message. -/
def Speaks (c : ChatEvent) : Prop := c.operation = .add ∨ c.operation = .revise

/-- Who is active after a run: whoever was active or spoke in time, and was superseded by
nothing that came in time. -/
theorem Tracked.run_active {done : List ChatEvent} {v : LedgerView} (hv : v.Tracked done)
    {chats : List ChatEvent} (hf : Follows done chats) (id : String) :
    (chats.foldl LedgerView.step v).Active id ↔
      (v.Active id ∨ ∃ d ∈ onTimeFrom v.allowedLateness v.watermark chats,
        d.eventId = id ∧ Speaks d) ∧
      ∀ c ∈ onTimeFrom v.allowedLateness v.watermark chats, ¬ Supersedes c id := by
  induction chats generalizing done v with
  | nil => simp [onTimeFrom]
  | cons c cs ih =>
    obtain ⟨hc, htarget, hcs⟩ := hf
    have hfresh := hv.fresh hc
    rw [List.foldl_cons, ih (hv.step hc) hcs, step_allowedLateness, step_watermark]
    cases hl : tooLate v.watermark v.allowedLateness c.eventTime with
    | true => simp only [onTimeFrom, hl, ↓reduceIte, step_late_active hfresh hl id]
    | false =>
      simp only [onTimeFrom, hl, Bool.false_eq_true, ↓reduceIte, List.mem_cons,
        exists_eq_or_imp, forall_eq_or_imp, step_active hfresh hl id]
      -- an event that comes after `c` is not what `c` supersedes
      have hlater {d : ChatEvent} (hd : d ∈ c :: cs) : ¬ Supersedes c d.eventId := by
        rintro ⟨hop, he⟩
        obtain ⟨t, ht, hte⟩ := htarget hop
        rcases List.mem_cons.mp hd with rfl | hd
        · exact hc t ht (hte.trans he)
        · exact hcs.fresh hd t (List.mem_cons_of_mem _ ht) (hte.trans he)
      constructor
      · rintro ⟨(⟨rfl, hop⟩ | ⟨ha, hk⟩) | ⟨d, hd, rfl, hop⟩, hs⟩
        · exact ⟨.inr (.inl ⟨rfl, hop⟩), hlater (List.mem_cons_self ..), hs⟩
        · exact ⟨.inl ha, fun ⟨hop, he⟩ => hk.elim hop fun hne => hne he.symm, hs⟩
        · exact ⟨.inr (.inr ⟨d, hd, rfl, hop⟩),
            hlater (List.mem_cons_of_mem _ (onTimeFrom_subset hd)), hs⟩
      · rintro ⟨ha | ⟨rfl, hop⟩ | hd, hn, hs⟩
        · refine ⟨.inl (.inr ⟨ha, ?_⟩), hs⟩
          by_cases hadd : c.operation = .add
          · exact .inl hadd
          · exact .inr fun he => hn ⟨hadd, he.symm⟩
        · exact ⟨.inl (.inl ⟨rfl, hop⟩), hs⟩
        · exact ⟨.inr hd, hs⟩

end LedgerView

/-! ## The concept map over a run -/

namespace StreamingConceptMap

/-- One recorded application with the deterministic extractor. -/
def next (h : Host) (m : StreamingConceptMap) (c : ChatEvent) : StreamingConceptMap :=
  (m.apply h (DeterministicEcosystemExtractor.extract h) c [] true).1

/-- No two events of the run share a contribution id. -/
def Distinguished (h : Host) (chats : List ChatEvent) : Prop :=
  ∀ a ∈ chats, ∀ b ∈ chats, a.eventId ≠ b.eventId →
    ∀ s ∈ stagedOf h a, ∀ t ∈ stagedOf h b, s.contributionId ≠ t.contributionId

/-- The ledger and the tombstones of the map speak only of the events applied so far. -/
structure Known (done : List ChatEvent) (m : StreamingConceptMap) : Prop where
  view : m.view.Tracked done
  tombstones : ∀ id ∈ m.retractedEventIds, ∃ d ∈ done, d.eventId = id

/-- Everything the map knows belongs to the events applied so far, and an active event has
all its contributions, active. -/
structure Tracked (h : Host) (done : List ChatEvent) (m : StreamingConceptMap) : Prop
    extends Known done m where
  backed : m.Backed
  origin : ∀ key c, m.contributions.get? key = some c →
    ∃ d ∈ done, c.eventId = d.eventId ∧ ∃ s ∈ stagedOf h d, s.contributionId = key
  complete : ∀ d ∈ done, m.view.Active d.eventId → ∀ s ∈ stagedOf h d,
    ∃ c, m.contributions.get? s.contributionId = some c ∧ c.active = true ∧
      c.eventId = d.eventId

theorem Known.init (allowed : Lateness) :
    Known [] (StreamingConceptMap.init.withLateness allowed) where
  view := ⟨fun id hid => (by cases hid), fun key hk => (by cases hk), fun id hid => (by cases hid)⟩
  tombstones id hid := by cases hid

theorem Tracked.init (h : Host) (allowed : Lateness) :
    Tracked h [] (StreamingConceptMap.init.withLateness allowed) where
  toKnown := Known.init allowed
  backed c hc := by cases hc
  origin key c hc := by cases hc
  complete d hd := by cases hd

theorem get?_deactivate (m : StreamingConceptMap) (target key : String) :
    (m.deactivate target).contributions.get? key =
      (m.contributions.get? key).map fun c =>
        if c.eventId = target then { c with active := false } else c :=
  Dict.get?_mapValues ..

section Step

variable {h : Host} {done : List ChatEvent} {m : StreamingConceptMap} {c : ChatEvent}

theorem Known.fresh (hm : m.Known done) (hc : ∀ d ∈ done, d.eventId ≠ c.eventId) :
    m.view.Fresh c ∧ c.eventId ∉ m.retractedEventIds := by
  refine ⟨hm.view.fresh hc, fun ht => ?_⟩
  obtain ⟨d, hd, hid⟩ := hm.tombstones _ ht
  exact hc d hd hid

/-- After an operation a stored contribution was staged by it or was stored before. -/
theorem Tracked.next_origin (hm : m.Tracked h done) (hc : ∀ d ∈ done, d.eventId ≠ c.eventId)
    {key : String} {x : ConceptContribution} (hx : (m.next h c).contributions.get? key = some x) :
    ∃ d ∈ c :: done, x.eventId = d.eventId ∧ ∃ s ∈ stagedOf h d, s.contributionId = key := by
  obtain ⟨hf, ht⟩ := hm.fresh hc
  have hold {base : Dict String ConceptContribution}
      (hb : ∀ y, base.get? key = some y → ∃ z, m.contributions.get? key = some z ∧
        y.eventId = z.eventId) (hx : base.get? key = some x) :
      ∃ d ∈ c :: done, x.eventId = d.eventId ∧ ∃ s ∈ stagedOf h d, s.contributionId = key := by
    obtain ⟨z, hz, he⟩ := hb x hx
    obtain ⟨d, hd, hid, hs⟩ := hm.origin key z hz
    exact ⟨d, List.mem_cons_of_mem _ hd, he.trans hid, hs⟩
  have hnew {base : Dict String ConceptContribution}
      (hb : ∀ y, base.get? key = some y → ∃ z, m.contributions.get? key = some z ∧
        y.eventId = z.eventId)
      (hx : ((stagedOf h c).foldl (fun d s => d.set s.contributionId s) base).get? key = some x) :
      ∃ d ∈ c :: done, x.eventId = d.eventId ∧ ∃ s ∈ stagedOf h d, s.contributionId = key := by
    by_cases hk : key ∈ (stagedOf h c).map (·.contributionId)
    · obtain ⟨s, hs, hsk, hget⟩ := Dict.get?_foldl_set_of_mem
        ConceptContribution.contributionId id base hk
      have hxs : x = s := Option.some.inj (hx.symm.trans hget)
      exact ⟨c, List.mem_cons_self .., hxs ▸ (stagedOf_spec s hs).1, s, hs, hsk⟩
    · rw [Dict.get?_foldl_set_of_not_mem hk] at hx
      exact hold hb hx
  have hsame : ∀ y, m.contributions.get? key = some y → ∃ z, m.contributions.get? key = some z ∧
      y.eventId = z.eventId := fun y hy => ⟨y, hy, rfl⟩
  have hdeact : ∀ y, (m.deactivate c.target).contributions.get? key = some y →
      ∃ z, m.contributions.get? key = some z ∧ y.eventId = z.eventId := by
    intro y hy
    rw [get?_deactivate] at hy
    obtain ⟨z, hz, rfl⟩ := Option.map_eq_some_iff.mp hy
    exact ⟨z, hz, by split <;> rfl⟩
  unfold StreamingConceptMap.next at hx
  rw [apply_contributions h [] true hf ht] at hx
  split at hx
  · exact hold hsame hx
  · split at hx
    · exact hnew hsame hx
    · split at hx
      · exact hnew hdeact hx
      · exact hold hdeact hx

/-- After an operation every active event still has all its contributions. -/
theorem Tracked.next_complete (hm : m.Tracked h done) (hc : ∀ d ∈ done, d.eventId ≠ c.eventId)
    (hd : Distinguished h (c :: done)) {d : ChatEvent} (hmem : d ∈ c :: done)
    (ha : (m.view.step c).Active d.eventId) {s : ConceptContribution} (hs : s ∈ stagedOf h d) :
    ∃ x, (m.next h c).contributions.get? s.contributionId = some x ∧ x.active = true ∧
      x.eventId = d.eventId := by
  obtain ⟨hf, ht⟩ := hm.fresh hc
  have hcontrib := apply_contributions h [] true hf ht
  unfold StreamingConceptMap.next
  rw [hcontrib]
  rcases List.mem_cons.mp hmem with rfl | hmem
  · -- the new event itself: it was accepted and its contributions were just written
    have hontime : tooLate m.watermark m.allowedLateness d.eventTime = false := by
      cases hl : tooLate m.watermark m.allowedLateness d.eventTime with
      | false => rfl
      | true => exact absurd ((LedgerView.step_late_active hf hl _).mp ha) hf.not_active
    have hop : d.operation = .add ∨ d.operation = .revise := by
      rcases (LedgerView.step_active hf hontime _).mp ha with ⟨-, ho⟩ | ⟨ha, -⟩
      · exact ho
      · exact absurd ha hf.not_active
    have hwritten (base : Dict String ConceptContribution) :
        ∃ x, ((stagedOf h d).foldl (fun e t => e.set t.contributionId t) base).get?
          s.contributionId = some x ∧ x.active = true ∧ x.eventId = d.eventId := by
      obtain ⟨t, ht, -, hget⟩ := Dict.get?_foldl_set_of_mem ConceptContribution.contributionId
        id base (List.mem_map_of_mem hs)
      exact ⟨t, hget, (stagedOf_spec t ht).2, (stagedOf_spec t ht).1⟩
    rw [if_neg (by simp [hontime])]
    split
    · exact hwritten _
    · rename_i hadd
      rw [if_pos (hop.resolve_left hadd)]
      exact hwritten _
  · -- an earlier event: its contributions are neither overwritten nor deactivated
    have hne := hc d hmem
    have hkey : s.contributionId ∉ (stagedOf h c).map (·.contributionId) := by
      intro hk
      obtain ⟨t, ht, hte⟩ := List.mem_map.mp hk
      exact hd d (List.mem_cons_of_mem _ hmem) c (List.mem_cons_self ..) hne s hs t ht hte.symm
    split
    · rename_i hl
      exact hm.complete d hmem ((LedgerView.step_late_active hf hl _).mp ha) s hs
    · rename_i hl
      have hontime : tooLate m.watermark m.allowedLateness c.eventTime = false := by simpa using hl
      obtain ⟨hold, hkeep⟩ : m.view.Active d.eventId ∧
          (c.operation = .add ∨ d.eventId ≠ c.target) := by
        rcases (LedgerView.step_active hf hontime _).mp ha with ⟨he, -⟩ | h
        · exact absurd he hne
        · exact h
      obtain ⟨x, hx, hxa, hxe⟩ := hm.complete d hmem hold s hs
      have hdeact (hadd : c.operation ≠ .add) :
          (m.deactivate c.target).contributions.get? s.contributionId = some x := by
        have : x.eventId ≠ c.target := hxe ▸ hkeep.resolve_left hadd
        rw [get?_deactivate, hx, Option.map_some, if_neg this]
      split
      · exact ⟨x, by rw [Dict.get?_foldl_set_of_not_mem hkey, hx], hxa, hxe⟩
      · rename_i hadd
        split
        · exact ⟨x, by rw [Dict.get?_foldl_set_of_not_mem hkey, hdeact hadd], hxa, hxe⟩
        · exact ⟨x, hdeact hadd, hxa, hxe⟩

theorem Known.next (hm : m.Known done) (hc : ∀ d ∈ done, d.eventId ≠ c.eventId)
    (ht : c.operation ≠ .add → ∃ d ∈ done, d.eventId = c.target) :
    (m.next h c).view = m.view.step c ∧ (m.next h c).Known (c :: done) := by
  obtain ⟨hf, htomb⟩ := hm.fresh hc
  have hview : (m.next h c).view = m.view.step c := apply_view h m [] true hf htomb
  refine ⟨hview, hview ▸ hm.view.step hc, fun id hid => ?_⟩
  rcases apply_retracted h hf htomb hid with hid | ⟨hop, rfl⟩
  · obtain ⟨d, hmem, he⟩ := hm.tombstones id hid
    exact ⟨d, List.mem_cons_of_mem _ hmem, he⟩
  · obtain ⟨d, hmem, he⟩ := ht (by rcases hop with hop | hop <;> simp [hop])
    exact ⟨d, List.mem_cons_of_mem _ hmem, he⟩

theorem Tracked.next (hm : m.Tracked h done) (hc : ∀ d ∈ done, d.eventId ≠ c.eventId)
    (ht : c.operation ≠ .add → ∃ d ∈ done, d.eventId = c.target)
    (hd : Distinguished h (c :: done)) : (m.next h c).Tracked h (c :: done) := by
  obtain ⟨hf, htomb⟩ := hm.fresh hc
  obtain ⟨hview, hknown⟩ := hm.toKnown.next (h := h) hc ht
  exact ⟨hknown, apply_backed h [] true hf htomb hm.backed, fun key x hx => hm.next_origin hc hx,
    fun d hmem ha s hs => hm.next_complete hc hd hmem (hview ▸ ha) hs⟩

theorem Distinguished.mono {xs ys : List ChatEvent} (hd : Distinguished h ys)
    (hs : ∀ x ∈ xs, x ∈ ys) : Distinguished h xs :=
  fun a ha b hb => hd a (hs a ha) b (hs b hb)

/-- The ledger of a run is the run of its ledger. -/
theorem Known.run (hm : m.Known done) {chats : List ChatEvent} (hf : Follows done chats) :
    (chats.foldl (StreamingConceptMap.next h) m).view = chats.foldl LedgerView.step m.view := by
  induction chats generalizing done m with
  | nil => rfl
  | cons c cs ih =>
    obtain ⟨hc, ht, hcs⟩ := hf
    obtain ⟨hview, hknown⟩ := hm.next (h := h) hc ht
    rw [List.foldl_cons, ih hknown hcs, hview, List.foldl_cons]

theorem Tracked.run (hm : m.Tracked h done) {chats : List ChatEvent}
    (hf : Follows done chats) (hd : Distinguished h (chats.reverse ++ done)) :
    (chats.foldl (StreamingConceptMap.next h) m).Tracked h (chats.reverse ++ done) := by
  induction chats generalizing done m with
  | nil => exact hm
  | cons c cs ih =>
    obtain ⟨hc, ht, hcs⟩ := hf
    have hd' : Distinguished h (cs.reverse ++ c :: done) := by simpa using hd
    have hn := hm.next hc ht (hd'.mono fun x hx => List.mem_append_right _ hx)
    simpa using ih hn hcs hd'

end Step

end StreamingConceptMap

end LearningOrbit.Reference
