import LearningOrbit.Reference.Validity

/-!
# One ledger behind two reducers

Both references keep a ledger of operations, the keys they have seen, the
events that need a replay and a watermark. `LedgerView` is that common part
and `LedgerView.step` what an operation new to the ledger does to it; each
reducer refines it.
-/

namespace LearningOrbit.Reference

open LearningOrbit (Host Dict)

structure LedgerView where
  allowedLateness : Lateness
  eventLedger : Dict String (List EventLedgerEntry)
  seen : List (String × Nat × Operation)
  requiresReplay : List String
  watermark : Option Int

def StreamingConceptMap.view (m : StreamingConceptMap) : LedgerView :=
  ⟨m.allowedLateness, m.eventLedger, m.seen, m.requiresReplay, m.watermark⟩

def StreamingInteractionNetwork.view (n : StreamingInteractionNetwork) : LedgerView :=
  ⟨n.allowedLateness, n.eventLedger, n.seen, n.requiresReplay, n.watermark⟩

namespace LedgerView

def record (v : LedgerView) (event : ChatEvent) (active requiresReplay : Bool) : LedgerView :=
  { v with
    seen := v.seen ++ [event.key]
    eventLedger := v.eventLedger.modify event.eventId [] (· ++ [⟨event, active, requiresReplay⟩]) }

def deactivate (v : LedgerView) (target : String) : LedgerView :=
  { v with eventLedger := v.eventLedger.mapValues fun id entries =>
      if id = target then entries.map ({ · with active := false }) else entries }

/-- A late operation is recorded inactive and asks for a replay; an accepted one advances the
watermark, deactivates what it replaces, and is recorded active unless it withdraws. -/
def step (v : LedgerView) (event : ChatEvent) : LedgerView :=
  if tooLate v.watermark v.allowedLateness event.eventTime then
    { v.record event false true with
      requiresReplay := if event.eventId ∈ v.requiresReplay then v.requiresReplay
        else v.requiresReplay ++ [event.eventId] }
  else
    let v := { v with watermark := raiseWatermark v.watermark event.eventTime }
    let v := if event.operation = .add then v else v.deactivate event.target
    v.record event (event.operation = .add ∨ event.operation = .revise) false

/-- An event id with an active ledger entry. -/
def Active (v : LedgerView) (id : String) : Prop :=
  ∃ entries, v.eventLedger.get? id = some entries ∧ ∃ entry ∈ entries, entry.active = true

/-- The operation is new: neither its key nor its event id is known. -/
structure Fresh (v : LedgerView) (event : ChatEvent) : Prop where
  key : event.key ∉ v.seen
  ledger : v.eventLedger.get? event.eventId = none

theorem Active.mem_keys {v : LedgerView} {id : String} (ha : v.Active id) :
    id ∈ v.eventLedger.keys := by
  obtain ⟨entries, he, -⟩ := ha
  exact Dict.mem_keys.mpr ⟨entries, he⟩

theorem Fresh.not_active {v : LedgerView} {event : ChatEvent} (hf : v.Fresh event) :
    ¬ v.Active event.eventId := by
  rintro ⟨entries, he, -⟩
  rw [hf.ledger] at he
  cases he

theorem record_active {v : LedgerView} {event : ChatEvent} (hf : v.eventLedger.get? event.eventId = none)
    (active requiresReplay : Bool) (id : String) :
    (v.record event active requiresReplay).Active id ↔
      (id = event.eventId ∧ active = true) ∨ (id ≠ event.eventId ∧ v.Active id) := by
  unfold Active record
  simp only [Dict.get?_modify, hf]
  by_cases hid : id = event.eventId
  · simp [hid]
  · simp [hid]

theorem deactivate_active (v : LedgerView) (target id : String) :
    (v.deactivate target).Active id ↔ v.Active id ∧ id ≠ target := by
  unfold Active deactivate
  simp only [Dict.get?_mapValues, Option.map_eq_some_iff]
  by_cases hid : id = target
  · subst hid
    simp
  · simp [hid]

theorem step_late_active {v : LedgerView} {event : ChatEvent} (hf : v.Fresh event)
    (hl : tooLate v.watermark v.allowedLateness event.eventTime = true) (id : String) :
    (v.step event).Active id ↔ v.Active id := by
  have hr := record_active hf.ledger false true id
  unfold step
  rw [if_pos hl]
  constructor
  · intro ha
    rcases hr.mp ha with ⟨-, hc⟩ | ⟨-, hv⟩
    · cases hc
    · exact hv
  · intro hv
    exact hr.mpr (.inr ⟨fun he => hf.not_active (he ▸ hv), hv⟩)

/-- Who is active after an accepted operation. -/
theorem step_active {v : LedgerView} {event : ChatEvent} (hf : v.Fresh event)
    (hl : tooLate v.watermark v.allowedLateness event.eventTime = false) (id : String) :
    (v.step event).Active id ↔
      (id = event.eventId ∧ (event.operation = .add ∨ event.operation = .revise)) ∨
      (v.Active id ∧ (event.operation = .add ∨ id ≠ event.target)) := by
  unfold step
  simp only [hl, Bool.false_eq_true, ↓reduceIte]
  by_cases hadd : event.operation = .add
  · simp only [hadd, ↓reduceIte, true_or, decide_true, and_true]
    rw [record_active (by exact hf.ledger)]
    constructor
    · rintro (⟨h, -⟩ | ⟨-, h⟩)
      · exact .inl h
      · exact .inr h
    · rintro (h | h)
      · exact .inl ⟨h, rfl⟩
      · exact .inr ⟨fun he => hf.not_active (he ▸ h), h⟩
  · have hnone : (v.deactivate event.target).eventLedger.get? event.eventId = none := by
      simp [deactivate, Dict.get?_mapValues, hf.ledger]
    simp only [hadd, ↓reduceIte, false_or]
    rw [record_active (by exact hnone), decide_eq_true_eq]
    have hd := deactivate_active v event.target id
    constructor
    · rintro (⟨h, ho⟩ | ⟨-, h⟩)
      · exact .inl ⟨h, ho⟩
      · exact .inr (hd.mp h)
    · rintro (⟨h, ho⟩ | h)
      · exact .inl ⟨h, ho⟩
      · exact .inr ⟨fun he => hf.not_active (he ▸ h.1), hd.mpr h⟩

/-- A replay request is never taken back by a later operation. -/
theorem step_requiresReplay {v : LedgerView} {event : ChatEvent}
    (hr : (v.step event).requiresReplay = []) :
    v.requiresReplay = [] ∧ tooLate v.watermark v.allowedLateness event.eventTime = false := by
  unfold step at hr
  split at hr
  · split at hr
    · rename_i hmem
      rw [hr] at hmem
      cases hmem
    · simp at hr
  · rename_i hl
    refine ⟨?_, by simpa using hl⟩
    by_cases hadd : event.operation = .add
    · simpa [hadd, record] using hr
    · simpa [hadd, record, deactivate] using hr

theorem step_keys {v : LedgerView} {event : ChatEvent} {id : String}
    (hk : id ∈ (v.step event).eventLedger.keys) : id = event.eventId ∨ id ∈ v.eventLedger.keys := by
  have hm : ∀ d : Dict String (List EventLedgerEntry), ∀ f,
      id ∈ (d.modify event.eventId [] f).keys → id = event.eventId ∨ id ∈ d.keys :=
    fun d f h => Dict.mem_keys_set.mp h
  unfold step at hk
  split at hk
  · exact hm _ _ hk
  · by_cases hadd : event.operation = .add
    · simp only [hadd, ↓reduceIte] at hk
      exact hm _ _ hk
    · simp only [hadd, ↓reduceIte] at hk
      rcases hm _ _ hk with h | h
      · exact .inl h
      · right
        simpa [deactivate] using h

theorem step_allowedLateness (v : LedgerView) (event : ChatEvent) :
    (v.step event).allowedLateness = v.allowedLateness := by
  unfold step
  split
  · rfl
  · by_cases hadd : event.operation = .add <;> simp [hadd, record, deactivate]

theorem step_seen {v : LedgerView} (event : ChatEvent) :
    (v.step event).seen = v.seen ++ [event.key] := by
  unfold step
  split
  · rfl
  · by_cases hadd : event.operation = .add <;> simp [hadd, record, deactivate]

end LedgerView

theorem StreamingConceptMap.apply_view (h : Host) (m : StreamingConceptMap) {event : ChatEvent}
    (context : List ChatEvent) (recordHistory : Bool) (hf : m.view.Fresh event)
    (ht : event.eventId ∉ m.retractedEventIds) :
    (m.apply h (DeterministicEcosystemExtractor.extract h) event context recordHistory).1.view =
      m.view.step event := by
  obtain ⟨staged, hs⟩ := extract_staged h event context
  have hk : event.key ∉ m.seen := hf.key
  have hl : m.highestActive event.eventId = none := by
    have : m.eventLedger.get? event.eventId = none := hf.ledger
    simp [highestActive, activeEntries, this]
  unfold StreamingConceptMap.apply LedgerView.step
  by_cases hlate : tooLate m.watermark m.allowedLateness event.eventTime = true
  · simp only [hk, hlate, view, applyLate, ledger, commitIdentity, LedgerView.record, ↓reduceIte]
    rfl
  · cases hop : event.operation <;>
      simp [hk, hlate, hl, hop, applyAccepted, ht, hs, view, applyStaged, applyRetraction, ledger,
        commitIdentity, advance, deactivate, LedgerView.record, LedgerView.deactivate]

theorem StreamingInteractionNetwork.apply_view (h : Host) (n : StreamingInteractionNetwork)
    {event : ChatEvent} (args : Supplied) (hd : args.deriveEventRelations = false)
    (hv : ∀ e ∈ args.evidence, e.Valid) (hf : n.view.Fresh event) :
    (n.apply h none event args).1.view = n.view.step event := by
  obtain ⟨⟨normalized, audits⟩, hn⟩ := normalizeEvidence_ok event hv
  have hr : ∀ prospective, (n.relations h none event args prospective >>= normalizeEvidence event)
      = .ok (normalized, audits) := fun prospective =>
    bind_eq_ok.mpr ⟨args.evidence, by simp [relations, hd, pure, Except.pure], hn⟩
  have hk : event.key ∉ n.seen := hf.key
  have hl : n.highestActive event.eventId = none := by
    have : n.eventLedger.get? event.eventId = none := hf.ledger
    simp [highestActive, activeEntries, this]
  unfold StreamingInteractionNetwork.apply LedgerView.step
  by_cases hlate : tooLate n.watermark n.allowedLateness event.eventTime = true
  · simp only [hk, hlate, view, applyLate, ledger, commitIdentity, LedgerView.record, ↓reduceIte]
    rfl
  · cases hop : event.operation <;>
      simp [hk, hlate, hl, hop, applyAccepted, hr, view, applyStaged, ledger, commitIdentity,
        advance, deactivate, LedgerView.record, LedgerView.deactivate]

theorem StreamingConceptMap.apply_allowedLateness (h : Host) (extract : PropositionExtractor)
    (m : StreamingConceptMap) (event : ChatEvent) (context : List ChatEvent)
    (recordHistory : Bool) :
    (m.apply h extract event context recordHistory).1.allowedLateness = m.allowedLateness := by
  have haccepted : ∀ d, (m.applyAccepted h extract event context recordHistory d).1.allowedLateness
      = m.allowedLateness := by
    intro d
    unfold applyAccepted
    split
    · rfl
    split
    · rfl
    split
    · rfl
    · cases d <;> rfl
  unfold StreamingConceptMap.apply
  split
  · rfl
  split
  · rfl
  split
  · split
    · split
      · rfl
      · exact haccepted true
    · exact haccepted false
  · exact haccepted true

/-! ## Contributions are backed by the ledger -/

theorem stage_spec {h : Host} {event : ChatEvent} {index : Nat} {c : CandidateProposition}
    {r : ConceptContribution} (hs : StreamingConceptMap.stage h event index c = .ok (some r)) :
    r.eventId = event.eventId ∧ r.active = true := by
  obtain ⟨refs, -, hs⟩ := bind_eq_ok.mp hs
  dsimp only at hs
  split at hs
  · cases hs
  · cases hs; exact ⟨rfl, rfl⟩

theorem stageAll_spec {h : Host} {event : ChatEvent} {propositions : List CandidateProposition}
    {staged : List ConceptContribution}
    (hs : StreamingConceptMap.stageAll h event propositions = .ok staged) :
    ∀ c ∈ staged, c.eventId = event.eventId ∧ c.active = true := by
  obtain ⟨rs, hrs, hs⟩ := bind_eq_ok.mp hs
  cases hs
  intro c hc
  obtain ⟨r, hr, hrc⟩ := List.mem_filterMap.mp hc
  obtain ⟨a, -, ha⟩ := mem_of_mapM_ok hrs r hr
  rw [show r = some c from hrc] at ha
  exact stage_spec ha

/-- Every active contribution belongs to an event with an active ledger entry. -/
def StreamingConceptMap.Backed (m : StreamingConceptMap) : Prop :=
  ∀ c ∈ m.contributions.values, c.active = true → m.view.Active c.eventId

def StreamingInteractionNetwork.Backed (n : StreamingInteractionNetwork) : Prop :=
  ∀ c ∈ n.contributions.values, c.active = true → n.view.Active c.eventId

/-- What survives `_deactivate` was active and does not belong to its target. -/
theorem StreamingConceptMap.mem_deactivate {m : StreamingConceptMap} {target : String}
    {c : ConceptContribution} (hc : c ∈ (m.deactivate target).contributions.values)
    (ha : c.active = true) : c ∈ m.contributions.values ∧ c.eventId ≠ target := by
  obtain ⟨k, d, hd, rfl⟩ := Dict.mem_values_mapValues.mp hc
  split at ha
  · cases ha
  · rename_i hne
    simp only [hne, ↓reduceIte, ne_eq, not_false_eq_true, and_true]
    exact Dict.mem_values.mpr ⟨k, hd⟩

theorem StreamingInteractionNetwork.mem_deactivate {n : StreamingInteractionNetwork}
    {target : String} {c : NetworkContribution}
    (hc : c ∈ (n.deactivate target).contributions.values)
    (ha : c.active = true) : c ∈ n.contributions.values ∧ c.eventId ≠ target := by
  obtain ⟨k, d, hd, rfl⟩ := Dict.mem_values_mapValues.mp hc
  split at ha
  · cases ha
  · rename_i hne
    simp only [hne, ↓reduceIte, ne_eq, not_false_eq_true, and_true]
    exact Dict.mem_values.mpr ⟨k, hd⟩

/-- The contributions one chat event states. -/
def stagedOf (h : Host) (event : ChatEvent) : List ConceptContribution :=
  match DeterministicEcosystemExtractor.extract h event [] >>=
    StreamingConceptMap.stageAll h event with
  | .ok staged => staged
  | .error _ => []

theorem stagedOf_eq (h : Host) (event : ChatEvent) (context : List ChatEvent) :
    (DeterministicEcosystemExtractor.extract h event context >>=
      StreamingConceptMap.stageAll h event) = .ok (stagedOf h event) := by
  obtain ⟨staged, hs⟩ := extract_staged h event []
  have : stagedOf h event = staged := by
    unfold stagedOf
    rw [hs]
  rw [this]
  exact hs

theorem stagedOf_spec {h : Host} {event : ChatEvent} :
    ∀ c ∈ stagedOf h event, c.eventId = event.eventId ∧ c.active = true := by
  obtain ⟨_, -, hs⟩ := bind_eq_ok.mp (stagedOf_eq h event [])
  exact stageAll_spec hs

/-- The contributions of the concept map after a new operation. -/
theorem StreamingConceptMap.apply_contributions (h : Host) {m : StreamingConceptMap}
    {event : ChatEvent} (context : List ChatEvent) (recordHistory : Bool)
    (hf : m.view.Fresh event) (ht : event.eventId ∉ m.retractedEventIds) :
    (m.apply h (DeterministicEcosystemExtractor.extract h) event context
        recordHistory).1.contributions =
      if tooLate m.watermark m.allowedLateness event.eventTime then m.contributions
      else if event.operation = .add then
        (stagedOf h event).foldl (fun d c => d.set c.contributionId c) m.contributions
      else if event.operation = .revise then
        (stagedOf h event).foldl (fun d c => d.set c.contributionId c)
          (m.deactivate event.target).contributions
      else (m.deactivate event.target).contributions := by
  have hs := stagedOf_eq h event context
  have hk : event.key ∉ m.seen := hf.key
  have hl : m.highestActive event.eventId = none := by
    have : m.eventLedger.get? event.eventId = none := hf.ledger
    simp [highestActive, activeEntries, this]
  unfold StreamingConceptMap.apply
  by_cases hlate : tooLate m.watermark m.allowedLateness event.eventTime = true
  · simp only [hk, hlate, ↓reduceIte]
    rfl
  · cases hop : event.operation <;>
      simp [hk, hlate, hl, hop, applyAccepted, ht, hs, applyStaged, applyRetraction, ledger,
        commitIdentity, advance, deactivate]

/-- Where an active contribution of the concept map comes from. -/
theorem StreamingConceptMap.apply_contribution (h : Host) {m : StreamingConceptMap}
    {event : ChatEvent} {context : List ChatEvent} {recordHistory : Bool}
    (hf : m.view.Fresh event) (ht : event.eventId ∉ m.retractedEventIds)
    {c : ConceptContribution}
    (hc : c ∈ (m.apply h (DeterministicEcosystemExtractor.extract h) event context
      recordHistory).1.contributions.values) (ha : c.active = true) :
    (tooLate m.watermark m.allowedLateness event.eventTime = true ∧ c ∈ m.contributions.values) ∨
    (tooLate m.watermark m.allowedLateness event.eventTime = false ∧
      ((c.eventId = event.eventId ∧ (event.operation = .add ∨ event.operation = .revise)) ∨
       (c ∈ m.contributions.values ∧ (event.operation = .add ∨ c.eventId ≠ event.target)))) := by
  rw [apply_contributions h context recordHistory hf ht] at hc
  split at hc
  · rename_i hlate
    exact .inl ⟨hlate, hc⟩
  · rename_i hlate
    refine .inr ⟨by simpa using hlate, ?_⟩
    split at hc
    · rename_i hadd
      rcases Dict.mem_values_foldl_set hc with ⟨d, hd, rfl⟩ | hold
      · exact .inl ⟨(stagedOf_spec _ hd).1, .inl hadd⟩
      · exact .inr ⟨hold, .inl hadd⟩
    · split at hc
      · rename_i hrev
        rcases Dict.mem_values_foldl_set hc with ⟨d, hd, rfl⟩ | hold
        · exact .inl ⟨(stagedOf_spec _ hd).1, .inr hrev⟩
        · obtain ⟨h1, h2⟩ := mem_deactivate hold ha
          exact .inr ⟨h1, .inr h2⟩
      · obtain ⟨h1, h2⟩ := mem_deactivate hc ha
        exact .inr ⟨h1, .inr h2⟩

theorem StreamingInteractionNetwork.mem_staged {h : Host} {event : ChatEvent}
    {items : List EdgeEvidence} {d : NetworkContribution}
    (hd : d ∈ items.zipIdx.map fun (item, index) => stage h event index item) :
    d.eventId = event.eventId := by
  obtain ⟨⟨item, index⟩, -, rfl⟩ := List.mem_map.mp hd
  rfl

/-- Where an active contribution of the interaction network comes from. -/
theorem StreamingInteractionNetwork.apply_contribution (h : Host)
    {n : StreamingInteractionNetwork} {event : ChatEvent} {args : Supplied}
    (hd : args.deriveEventRelations = false) (hv : ∀ e ∈ args.evidence, e.Valid)
    (hf : n.view.Fresh event) {c : NetworkContribution}
    (hc : c ∈ (n.apply h none event args).1.contributions.values) (ha : c.active = true) :
    (tooLate n.watermark n.allowedLateness event.eventTime = true ∧ c ∈ n.contributions.values) ∨
    (tooLate n.watermark n.allowedLateness event.eventTime = false ∧
      ((c.eventId = event.eventId ∧ (event.operation = .add ∨ event.operation = .revise)) ∨
       (c ∈ n.contributions.values ∧ (event.operation = .add ∨ c.eventId ≠ event.target)))) := by
  obtain ⟨⟨normalized, audits⟩, hn⟩ := normalizeEvidence_ok event hv
  have hr : ∀ prospective, (n.relations h none event args prospective >>= normalizeEvidence event)
      = .ok (normalized, audits) := fun prospective =>
    bind_eq_ok.mpr ⟨args.evidence, by simp [relations, hd, pure, Except.pure], hn⟩
  have hk : event.key ∉ n.seen := hf.key
  have hl : n.highestActive event.eventId = none := by
    have : n.eventLedger.get? event.eventId = none := hf.ledger
    simp [highestActive, activeEntries, this]
  unfold StreamingInteractionNetwork.apply at hc
  by_cases hlate : tooLate n.watermark n.allowedLateness event.eventTime = true
  · simp only [hk, hlate, ↓reduceIte] at hc
    exact .inl ⟨hlate, hc⟩
  · refine .inr ⟨by simpa using hlate, ?_⟩
    simp only [hk, hlate, hl, ↓reduceIte, Bool.false_eq_true] at hc
    have hdeact {k : StreamingInteractionNetwork} (hkc : k.contributions = n.contributions)
        (target : String) (hcd : c ∈ (k.deactivate target).contributions.values) :
        c ∈ n.contributions.values ∧ c.eventId ≠ target := by
      have := mem_deactivate hcd ha
      rwa [hkc] at this
    cases hop : event.operation with
    | add =>
      simp only [hop, ↓reduceIte, applyAccepted, reduceCtorEq, or_self, hr, applyStaged,
        Bool.false_eq_true] at hc
      rcases Dict.mem_values_foldl_set hc with ⟨d, hd, rfl⟩ | hold
      · exact .inl ⟨mem_staged hd, .inl rfl⟩
      · exact .inr ⟨hold, .inl rfl⟩
    | revise =>
      simp only [hop, ↓reduceIte, applyAccepted, reduceCtorEq, or_self, hr, applyStaged] at hc
      rcases Dict.mem_values_foldl_set hc with ⟨d, hd, rfl⟩ | hold
      · exact .inl ⟨mem_staged hd, .inr rfl⟩
      · obtain ⟨h1, h2⟩ := hdeact (by simp [advance, commitIdentity]) _ hold
        exact .inr ⟨h1, .inr h2⟩
    | retract =>
      simp only [hop, ↓reduceIte, applyAccepted, reduceCtorEq, or_true] at hc
      obtain ⟨h1, h2⟩ := hdeact (by simp [advance, commitIdentity]) _ hc
      exact .inr ⟨h1, .inr h2⟩
    | delete =>
      simp only [hop, ↓reduceIte, applyAccepted, reduceCtorEq, true_or] at hc
      obtain ⟨h1, h2⟩ := hdeact (by simp [advance, commitIdentity]) _ hc
      exact .inr ⟨h1, .inr h2⟩

theorem StreamingConceptMap.apply_backed (h : Host) {m : StreamingConceptMap} {event : ChatEvent}
    (context : List ChatEvent) (recordHistory : Bool) (hf : m.view.Fresh event)
    (ht : event.eventId ∉ m.retractedEventIds) (hb : m.Backed) :
    (m.apply h (DeterministicEcosystemExtractor.extract h) event context recordHistory).1.Backed := by
  intro c hc ha
  rw [apply_view h m context recordHistory hf ht]
  rcases apply_contribution h hf ht hc ha with ⟨hl, hold⟩ | ⟨hl, horigin⟩
  · exact (LedgerView.step_late_active hf hl _).mpr (hb c hold ha)
  · rw [LedgerView.step_active hf hl]
    exact horigin.imp id fun ⟨hold, ho⟩ => ⟨hb c hold ha, ho⟩

theorem StreamingInteractionNetwork.apply_backed (h : Host) {n : StreamingInteractionNetwork}
    {event : ChatEvent} {args : Supplied} (hd : args.deriveEventRelations = false)
    (hv : ∀ e ∈ args.evidence, e.Valid) (hf : n.view.Fresh event) (hb : n.Backed) :
    (n.apply h none event args).1.Backed := by
  intro c hc ha
  rw [apply_view h n args hd hv hf]
  rcases apply_contribution h hd hv hf hc ha with ⟨hl, hold⟩ | ⟨hl, horigin⟩
  · exact (LedgerView.step_late_active hf hl _).mpr (hb c hold ha)
  · rw [LedgerView.step_active hf hl]
    exact horigin.imp id fun ⟨hold, ho⟩ => ⟨hb c hold ha, ho⟩

/-- Only a retraction adds a tombstone, and only for its target. -/
theorem StreamingConceptMap.apply_retracted (h : Host) {m : StreamingConceptMap}
    {event : ChatEvent} {context : List ChatEvent} {recordHistory : Bool}
    (hf : m.view.Fresh event) (ht : event.eventId ∉ m.retractedEventIds) {id : String}
    (hid : id ∈ (m.apply h (DeterministicEcosystemExtractor.extract h) event context
      recordHistory).1.retractedEventIds) :
    id ∈ m.retractedEventIds ∨
      ((event.operation = .retract ∨ event.operation = .delete) ∧ id = event.target) := by
  obtain ⟨staged, hs⟩ := extract_staged h event context
  have hk : event.key ∉ m.seen := hf.key
  have hl : m.highestActive event.eventId = none := by
    have : m.eventLedger.get? event.eventId = none := hf.ledger
    simp [highestActive, activeEntries, this]
  unfold StreamingConceptMap.apply at hid
  by_cases hlate : tooLate m.watermark m.allowedLateness event.eventTime = true
  · simp only [hk, hlate, ↓reduceIte] at hid
    exact .inl hid
  · simp only [hk, hlate, hl, ↓reduceIte, Bool.false_eq_true] at hid
    cases hop : event.operation <;>
      simp [hop, applyAccepted, ht, hs, applyStaged, applyRetraction, ledger, commitIdentity,
        advance, deactivate] at hid ⊢
    all_goals tauto

end LearningOrbit.Reference
