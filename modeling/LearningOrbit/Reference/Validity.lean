import Mathlib.Tactic.NormNum
import Mathlib.Tactic.Positivity
import LearningOrbit.Raise
import LearningOrbit.Reference.ConceptMap
import LearningOrbit.Reference.InteractionNetwork

/-!
# When the reference constructors do not raise

Validation is reflected into predicates once; the rest of the development
argues about the predicates.
-/

namespace LearningOrbit.Reference

open LearningOrbit (Host Dict)

theorem requireNonemptyString_eq_ok {name value : String} :
    requireNonemptyString name value = .ok () ↔ value ≠ "" := by
  unfold requireNonemptyString; split <;> simp_all

theorem requireProbability_eq_ok {name : String} {value : ℚ} :
    requireProbability name value = .ok () ↔ 0 ≤ value ∧ value ≤ 1 := by
  unfold requireProbability; split <;> simp_all

theorem requireNonnegativeNumber_eq_ok {name : String} {value : ℚ} :
    requireNonnegativeNumber name value = .ok () ↔ 0 ≤ value := by
  unfold requireNonnegativeNumber; split <;> simp_all

structure SourceRef.Valid (s : SourceRef) : Prop where
  sourceId : s.sourceId ≠ ""
  eventId : s.eventId ≠ ""
  actorId : s.actorId ≠ ""
  actorKind : s.actorKind ≠ .system
  confidence : 0 ≤ s.confidence ∧ s.confidence ≤ 1

structure EdgeEvidence.Valid (e : EdgeEvidence) : Prop where
  sourceId : e.sourceId ≠ ""
  targetId : e.targetId ≠ ""
  objectId : e.objectId ≠ ""
  basis : e.basis ≠ ""
  magnitude : 0 ≤ e.magnitude
  confidence : 0 ≤ e.confidence ∧ e.confidence ≤ 1
  provenance : ∀ s ∈ e.provenance, s.Valid

theorem validateSourceRef_ok {s : SourceRef} (h : s.Valid) : validateSourceRef s = .ok () := by
  simp [validateSourceRef, requireNonemptyString_eq_ok.mpr h.sourceId,
    requireNonemptyString_eq_ok.mpr h.eventId, requireNonemptyString_eq_ok.mpr h.actorId,
    requireProbability_eq_ok.mpr h.confidence, h.actorKind, bind, Except.bind]

theorem validateEdgeEvidence_ok {e : EdgeEvidence} (h : e.Valid) :
    validateEdgeEvidence e = .ok () := by
  have hp : e.provenance.forM validateSourceRef = .ok () :=
    forM_eq_ok.mpr fun s hs => validateSourceRef_ok (h.provenance s hs)
  simp [validateEdgeEvidence, requireNonemptyString_eq_ok.mpr h.sourceId,
    requireNonemptyString_eq_ok.mpr h.targetId, requireNonemptyString_eq_ok.mpr h.objectId,
    requireNonemptyString_eq_ok.mpr h.basis, requireNonnegativeNumber_eq_ok.mpr h.magnitude,
    requireProbability_eq_ok.mpr h.confidence, hp, bind, Except.bind]

theorem EdgeEvidence.create_ok {e : EdgeEvidence} (h : e.Valid) : e.create = .ok e := by
  simp [EdgeEvidence.create, validateEdgeEvidence_ok h, bind, Except.bind, pure, Except.pure]

theorem createAll_ok {l : List EdgeEvidence} (h : ∀ e ∈ l, e.Valid) :
    l.mapM EdgeEvidence.create = .ok l := by
  simpa using mapM_eq_ok (g := id) fun e he => EdgeEvidence.create_ok (h e he)

theorem sourceOf_valid (parent : ChatEvent) {kind : ActorKind} (hk : kind ≠ .system) :
    (StreamingInteractionNetwork.sourceOf parent kind).Valid where
  sourceId := by simp [StreamingInteractionNetwork.sourceOf]
  eventId := parent.required.1
  actorId := parent.required.2.2
  actorKind := hk
  confidence := parent.probability

/-! ## ECHO with the deterministic extractor -/

theorem candidate_valid {h : Host} {event : ChatEvent} {pattern} {index : Nat}
    {c : CandidateProposition}
    (hc : DeterministicEcosystemExtractor.candidate h event pattern index = some c) :
    validateCandidateProposition c = .ok c.evidence := by
  unfold DeterministicEcosystemExtractor.candidate at hc
  obtain ⟨span, -, rfl⟩ := Option.map_eq_some_iff.mp hc
  have hid : DeterministicEcosystemExtractor.evidenceId h event index ≠ "" := by
    simp [DeterministicEcosystemExtractor.evidenceId]
  refine bind_eq_ok.mpr ⟨(), requireProbability_eq_ok.mpr (by norm_num), ?_⟩
  refine bind_eq_ok.mpr ⟨(), forM_eq_ok.mpr fun ref href => ?_, rfl⟩
  rw [List.mem_singleton.mp href]
  exact bind_eq_ok.mpr ⟨(), requireNonemptyString_eq_ok.mpr hid,
    requireNonemptyString_eq_ok.mpr event.required.1⟩

theorem stage_ok {h : Host} {event : ChatEvent} {index : Nat} {c : CandidateProposition}
    (hc : validateCandidateProposition c = .ok c.evidence) :
    ∃ r, StreamingConceptMap.stage h event index c = .ok r := by
  by_cases hk : Text.strip c.linkPhrase = "" ∨ c.evidence = []
  · exact ⟨none, by simp [StreamingConceptMap.stage, hc, hk, bind, Except.bind, pure, Except.pure]⟩
  · exact ⟨_, by
      simp only [StreamingConceptMap.stage, hc, hk, bind, Except.bind, pure, Except.pure,
        ↓reduceIte]
      rfl⟩

theorem extract_valid (h : Host) (event : ChatEvent) (context : List ChatEvent) :
    ∃ candidates, DeterministicEcosystemExtractor.extract h event context = .ok candidates ∧
      ∀ c ∈ candidates, validateCandidateProposition c = .ok c.evidence := by
  refine ⟨_, rfl, fun c hc => ?_⟩
  obtain ⟨⟨pattern, index⟩, -, hcand⟩ := List.mem_filterMap.mp hc
  exact candidate_valid hcand

/-- The deterministic extractor only yields propositions that pass validation. -/
theorem extract_staged (h : Host) (event : ChatEvent) (context : List ChatEvent) :
    ∃ staged, (DeterministicEcosystemExtractor.extract h event context >>=
      StreamingConceptMap.stageAll h event) = .ok staged := by
  obtain ⟨candidates, hextract, hvalid⟩ := extract_valid h event context
  obtain ⟨rs, hrs⟩ := mapM_ok (f := fun (x : CandidateProposition × Nat) =>
    StreamingConceptMap.stage h event x.2 x.1) (l := candidates.zipIdx)
    fun x hx => stage_ok (hvalid x.1 (List.fst_mem_of_mem_zipIdx hx))
  refine ⟨rs.filterMap id, bind_eq_ok.mpr ⟨candidates, hextract, ?_⟩⟩
  exact bind_eq_ok.mpr ⟨rs, hrs, rfl⟩

theorem StreamingConceptMap.apply_ok (h : Host) (m : StreamingConceptMap) (event : ChatEvent)
    (context : List ChatEvent) (recordHistory : Bool) :
    ∃ p, (m.apply h (DeterministicEcosystemExtractor.extract h) event context recordHistory).2
      = .ok p := by
  obtain ⟨staged, hs⟩ := extract_staged h event context
  have haccepted : ∀ d, ∃ p, (m.applyAccepted h (DeterministicEcosystemExtractor.extract h) event
      context recordHistory d).2 = .ok p := by
    intro d
    unfold StreamingConceptMap.applyAccepted
    rw [hs]
    split_ifs <;> exact ⟨_, rfl⟩
  unfold StreamingConceptMap.apply
  split
  · exact ⟨_, rfl⟩
  split
  · exact ⟨_, rfl⟩
  split
  · split
    · split
      · exact ⟨_, rfl⟩
      · exact haccepted true
    · exact haccepted false
  · exact haccepted true

/-! ## TRACE with validated evidence -/

/-- Every target has a nonempty name and a nonempty basis. -/
def NamedTargets (targets : Dict String String) : Prop :=
  ∀ target basis, targets.get? target = some basis → target ≠ "" ∧ basis ≠ ""

theorem NamedTargets.set {targets : Dict String String} (ht : NamedTargets targets)
    {target basis : String} (hn : target ≠ "") (hb : basis ≠ "") :
    NamedTargets (targets.set target basis) := by
  intro t b htb
  rw [Dict.get?_set] at htb
  split at htb
  · rename_i heq
    cases htb
    exact ⟨heq ▸ hn, hb⟩
  · exact ht t b htb

theorem NamedTargets.mentions {targets : Dict String String} (ht : NamedTargets targets)
    {mentions : List String} (hm : "" ∉ mentions) :
    NamedTargets (mentions.foldl (fun ts mention => ts.setDefault mention "mention") targets) := by
  induction mentions generalizing targets with
  | nil => exact ht
  | cons mention mentions ih =>
    obtain ⟨hne, hl⟩ : "" ≠ mention ∧ "" ∉ mentions := by simpa using hm
    refine ih ?_ hl
    dsimp only [Dict.setDefault]
    split
    · exact ht
    · exact ht.set hne.symm (by decide)

theorem communicationTargets_named (parent : Option ChatEvent) {mentions : List String}
    (hm : "" ∉ mentions) : NamedTargets (communicationTargets parent mentions) := by
  have hempty : NamedTargets Dict.empty := fun t b htb => by simp at htb
  cases parent with
  | none => exact hempty.mentions hm
  | some p => exact (hempty.set p.required.2.2 (by decide)).mentions hm

theorem communicationEvidence_ok {event : ChatEvent} (parent : Option ChatEvent)
    (hm : "" ∉ event.mentions) :
    ∃ l, communicationEvidence event parent = .ok l ∧ ∀ e ∈ l, e.Valid := by
  unfold communicationEvidence
  dsimp only
  split
  · refine ⟨_, createAll_ok ?_, ?_⟩ <;>
    · intro e he
      rw [List.mem_singleton.mp he]
      exact ⟨event.required.2.2, by simp, event.required.1, by simp, by norm_num,
        event.probability, by simp⟩
  · have hv : ∀ target ∈ (communicationTargets parent event.mentions).keys.insertionSort (· ≤ ·),
        EdgeEvidence.Valid
          { sourceId := event.actorId, targetId := target, layer := .communication
            polarity := .positive
            magnitude := 1 / ((communicationTargets parent event.mentions).size : ℚ)
            confidence := event.sourceConfidence
            basis := ((communicationTargets parent event.mentions).get? target).getD ""
            objectId := event.eventId, provenance := [] } := by
      intro target ht
      rw [List.mem_insertionSort] at ht
      obtain ⟨basis, hb⟩ := Dict.mem_keys.mp ht
      obtain ⟨hne, hbne⟩ := communicationTargets_named parent hm target basis hb
      refine ⟨event.required.2.2, hne, event.required.1, ?_, ?_, event.probability, by simp⟩
      · simpa [hb] using hbne
      · positivity
    refine ⟨_, mapM_eq_ok fun target ht => EdgeEvidence.create_ok (hv target ht), ?_⟩
    intro e he
    obtain ⟨target, ht, rfl⟩ := List.mem_map.mp he
    exact hv target ht

theorem normalizeEvidence_ok (event : ChatEvent) {items : List EdgeEvidence}
    (hv : ∀ e ∈ items, e.Valid) :
    ∃ r, StreamingInteractionNetwork.normalizeEvidence event items = .ok r :=
  ⟨_, bind_eq_ok.mpr ⟨(), forM_eq_ok.mpr fun e he => validateEdgeEvidence_ok (hv e he), rfl⟩⟩

/-- Supplied evidence that is valid never makes TRACE raise. -/
theorem StreamingInteractionNetwork.apply_ok (h : Host) (n : StreamingInteractionNetwork)
    (event : ChatEvent) (args : Supplied) (hd : args.deriveEventRelations = false)
    (hv : ∀ e ∈ args.evidence, e.Valid) : ∃ p, (n.apply h none event args).2 = .ok p := by
  obtain ⟨⟨normalized, audits⟩, hn⟩ := normalizeEvidence_ok event hv
  have haccepted : ∀ prospective d, ∃ p,
      (n.applyAccepted h none event args prospective d).2 = .ok p := by
    intro prospective d
    have hr : (n.relations h none event args prospective >>= normalizeEvidence event)
        = .ok (normalized, audits) :=
      bind_eq_ok.mpr ⟨args.evidence, by simp [relations, hd, pure, Except.pure], hn⟩
    unfold applyAccepted
    rw [hr]
    split_ifs <;> exact ⟨_, rfl⟩
  unfold StreamingInteractionNetwork.apply
  split
  · exact ⟨_, rfl⟩
  split
  · exact ⟨_, rfl⟩
  split
  · split
    · split
      · exact ⟨_, rfl⟩
      · exact haccepted _ true
    · exact haccepted _ false
  · exact haccepted _ true

end LearningOrbit.Reference
