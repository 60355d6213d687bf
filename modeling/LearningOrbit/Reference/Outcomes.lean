import LearningOrbit.Reference.Replay

/-!
# What one operation can do

Every branch of the two `apply` functions, once: which checks lead to it, the state it
leaves and whether it raises. A raise comes before the first write of its branch, so it
leaves the reducer as it was.
-/

namespace LearningOrbit.Reference

open LearningOrbit (Host Dict)

namespace StreamingConceptMap

/-- The branches of `apply`. -/
inductive Outcome (h : Host) (extract : PropositionExtractor) (m : StreamingConceptMap)
    (event : ChatEvent) (context : List ChatEvent) (recordHistory : Bool) :
    StreamingConceptMap × Except String MapPatch → Prop
  | duplicate (hseen : event.key ∈ m.seen) (p : MapPatch) (hp : p.duplicate = true) :
    Outcome h extract m event context recordHistory (m, .ok p)
  | late (hnew : event.key ∉ m.seen)
      (hlate : tooLate m.watermark m.allowedLateness event.eventTime = true) (p : MapPatch)
      (hp : p.accepted = false) :
    Outcome h extract m event context recordHistory
      (m.applyLate event context recordHistory, .ok p)
  | stale (hnew : event.key ∉ m.seen)
      (hontime : tooLate m.watermark m.allowedLateness event.eventTime = false)
      (hadd : event.operation = .add) (highest : Nat)
      (hactive : m.highestActive event.eventId = some highest) (hle : event.revision ≤ highest)
      (p : MapPatch) (hp : p.duplicate = true) :
    Outcome h extract m event context recordHistory
      ((m.commitIdentity event context recordHistory).advance event.eventTime, .ok p)
  | retracted (hnew : event.key ∉ m.seen)
      (hontime : tooLate m.watermark m.allowedLateness event.eventTime = false)
      (hop : event.operation = .delete ∨ event.operation = .retract) (p : MapPatch) :
    Outcome h extract m event context recordHistory
      (m.applyRetraction event context recordHistory, .ok p)
  | tombstoned (hnew : event.key ∉ m.seen)
      (hontime : tooLate m.watermark m.allowedLateness event.eventTime = false)
      (hop : ¬(event.operation = .delete ∨ event.operation = .retract))
      (htomb : event.eventId ∈ m.retractedEventIds) (p : MapPatch) :
    Outcome h extract m event context recordHistory
      ((((m.commitIdentity event context recordHistory).advance event.eventTime).deactivate
        event.eventId).ledger event false false, .ok p)
  | raised (hnew : event.key ∉ m.seen)
      (hop : ¬(event.operation = .delete ∨ event.operation = .retract))
      (hfresh : event.operation = .add →
        ∀ highest, m.highestActive event.eventId = some highest → ¬event.revision ≤ highest)
      (e : String) (hraise : extract event context >>= stageAll h event = .error e) :
    Outcome h extract m event context recordHistory (m, .error e)
  | applied (hnew : event.key ∉ m.seen)
      (hontime : tooLate m.watermark m.allowedLateness event.eventTime = false)
      (hop : ¬(event.operation = .delete ∨ event.operation = .retract))
      (htomb : event.eventId ∉ m.retractedEventIds) (replaces : Bool)
      (staged : List ConceptContribution)
      (hstaged : extract event context >>= stageAll h event = .ok staged) (p : MapPatch) :
    Outcome h extract m event context recordHistory
      (m.applyStaged event context recordHistory replaces staged, .ok p)

theorem apply_outcome (h : Host) (extract : PropositionExtractor) (m : StreamingConceptMap)
    (event : ChatEvent) (context : List ChatEvent) (recordHistory : Bool) :
    Outcome h extract m event context recordHistory
      (m.apply h extract event context recordHistory) := by
  unfold apply
  split
  · rename_i hseen
    exact .duplicate hseen _ rfl
  rename_i hnew
  split
  · rename_i hlate
    exact .late hnew hlate _ rfl
  rename_i hontime
  rw [Bool.not_eq_true] at hontime
  have haccepted : ∀ d, (event.operation = .add →
        ∀ highest, m.highestActive event.eventId = some highest → ¬event.revision ≤ highest) →
      Outcome h extract m event context recordHistory
        (m.applyAccepted h extract event context recordHistory d) := by
    intro d hfresh
    unfold applyAccepted
    split
    · rename_i hop
      exact .retracted hnew hontime hop _
    rename_i hop
    split
    · rename_i htomb
      exact .tombstoned hnew hontime hop htomb _
    rename_i htomb
    cases hx : extract event context >>= stageAll h event with
    | error e => exact .raised hnew hop hfresh e hx
    | ok staged => exact .applied hnew hontime hop htomb d staged hx _
  split
  · rename_i hadd
    split
    · rename_i highest hactive
      split
      · rename_i hle
        exact .stale hnew hontime hadd highest hactive hle _ rfl
      · rename_i hnot
        refine haccepted true fun _ other hother => ?_
        rw [hactive] at hother
        cases hother
        exact hnot
    · rename_i hactive
      refine haccepted false fun _ other hother => ?_
      rw [hactive] at hother
      cases hother
  · rename_i hadd
    exact haccepted true fun hop => absurd hop hadd

end StreamingConceptMap

namespace StreamingInteractionNetwork

/-- The branches of `apply`. -/
inductive Outcome (h : Host) (extractor : Option RelationExtractor)
    (n : StreamingInteractionNetwork) (event : ChatEvent) (args : Supplied) :
    StreamingInteractionNetwork × Except String MapPatch → Prop
  | duplicate (hseen : event.key ∈ n.seen) (p : MapPatch) (hp : p.duplicate = true) :
    Outcome h extractor n event args (n, .ok p)
  | late (hnew : event.key ∉ n.seen)
      (hlate : tooLate n.watermark n.allowedLateness event.eventTime = true) (p : MapPatch)
      (hp : p.accepted = false) :
    Outcome h extractor n event args (n.applyLate event args, .ok p)
  | stale (hnew : event.key ∉ n.seen)
      (hontime : tooLate n.watermark n.allowedLateness event.eventTime = false)
      (hstale : n.stale event = true) (p : MapPatch) (hp : p.duplicate = true) :
    Outcome h extractor n event args
      ((n.commitIdentity event args (some (contextOf args (n.prospective event)))).advance
        event.eventTime, .ok p)
  | retracted (hnew : event.key ∉ n.seen)
      (hontime : tooLate n.watermark n.allowedLateness event.eventTime = false)
      (hop : event.operation = .delete ∨ event.operation = .retract) (p : MapPatch) :
    Outcome h extractor n event args
      ((((n.commitIdentity event args (some (contextOf args (n.prospective event)))).advance
        event.eventTime).deactivate event.target).ledger event false false, .ok p)
  | raised (hnew : event.key ∉ n.seen)
      (hop : ¬(event.operation = .delete ∨ event.operation = .retract))
      (hfresh : n.stale event = false) (e : String)
      (hraise : n.relations h extractor event args (n.prospective event) >>=
        normalizeEvidence event = .error e) :
    Outcome h extractor n event args (n, .error e)
  | applied (hnew : event.key ∉ n.seen)
      (hontime : tooLate n.watermark n.allowedLateness event.eventTime = false)
      (hop : ¬(event.operation = .delete ∨ event.operation = .retract))
      (normalized : List EdgeEvidence) (audits : List SelfLoopAudit) (p : MapPatch) :
    Outcome h extractor n event args
      (n.applyStaged event args (contextOf args (n.prospective event)) (n.replaces event) audits
        (summarySourcesForEvent event args.sources (n.prospective event))
        (normalized.zipIdx.map fun (item, index) => stage h event index item), .ok p)

theorem apply_outcome (h : Host) (extractor : Option RelationExtractor)
    (n : StreamingInteractionNetwork) (event : ChatEvent) (args : Supplied) :
    Outcome h extractor n event args (n.apply h extractor event args) := by
  by_cases hnew : event.key ∈ n.seen
  · have heq : n.apply h extractor event args =
        (n, .ok (patch h event [] [] [] true false true "duplicate")) := by
      simp only [apply, hnew, ↓reduceIte]
    rw [heq]
    exact .duplicate hnew _ rfl
  cases hontime : tooLate n.watermark n.allowedLateness event.eventTime with
  | true =>
    have heq : n.apply h extractor event args = (n.applyLate event args,
        .ok (patch h event [] [] [] false true false "beyond_allowed_lateness")) := by
      simp only [apply, hnew, hontime, ↓reduceIte]
    rw [heq]
    exact .late hnew hontime _ rfl
  | false =>
    rw [apply_eq hnew hontime]
    split
    · rename_i hstale
      exact .stale hnew hontime hstale _ rfl
    rename_i hfresh
    rw [Bool.not_eq_true] at hfresh
    unfold applyAccepted
    split
    · rename_i hop
      exact .retracted hnew hontime hop _
    rename_i hop
    cases hx : n.relations h extractor event args (n.prospective event) >>=
      normalizeEvidence event with
    | error e => exact .raised hnew hop hfresh e hx
    | ok result => exact .applied hnew hontime hop result.1 result.2 _

end StreamingInteractionNetwork

/-- A call of `apply` that raises has changed nothing, so every later call finds the reducer
as if it had not been made. -/
theorem raised_apply_unchanged (h : Host) :
    (∀ (extract : PropositionExtractor) (m : StreamingConceptMap) (event : ChatEvent)
        (context : List ChatEvent) (recordHistory : Bool) (e : String),
      (m.apply h extract event context recordHistory).2 = .error e →
        (m.apply h extract event context recordHistory).1 = m ∧
        ∀ calls : List ConceptInput,
          calls.foldl (StreamingConceptMap.call h extract)
              (m.apply h extract event context recordHistory).1 =
            calls.foldl (StreamingConceptMap.call h extract) m) ∧
    (∀ (extractor : Option RelationExtractor) (n : StreamingInteractionNetwork)
        (event : ChatEvent) (args : StreamingInteractionNetwork.Supplied) (e : String),
      (n.apply h extractor event args).2 = .error e →
        (n.apply h extractor event args).1 = n ∧
        ∀ calls : List NetworkInput,
          calls.foldl (StreamingInteractionNetwork.call h extractor)
              (n.apply h extractor event args).1 =
            calls.foldl (StreamingInteractionNetwork.call h extractor) n) := by
  constructor
  · intro extract m event context recordHistory e he
    have hsame : (m.apply h extract event context recordHistory).1 = m := by
      have hcase := StreamingConceptMap.apply_outcome h extract m event context recordHistory
      generalize m.apply h extract event context recordHistory = result at hcase he
      cases hcase with
      | raised => rfl
      | duplicate | late | stale | retracted | tombstoned | applied => cases he
    exact ⟨hsame, fun calls => by rw [hsame]⟩
  · intro extractor n event args e he
    have hsame : (n.apply h extractor event args).1 = n := by
      have hcase := StreamingInteractionNetwork.apply_outcome h extractor n event args
      generalize n.apply h extractor event args = result at hcase he
      cases hcase with
      | raised => rfl
      | duplicate | late | stale | retracted | applied => cases he
    exact ⟨hsame, fun calls => by rw [hsame]⟩

/-- An extractor that is down. -/
def failingExtractor : PropositionExtractor := fun _ _ => .error "extractor unavailable"

theorem raised_apply_unchanged_sunRemark :
    ((StreamingConceptMap.init.apply .ascii failingExtractor sunRemark [] true).2 =
        .error "extractor unavailable" ∧
      (StreamingConceptMap.init.apply .ascii failingExtractor sunRemark [] true).1 = .init) ∧
    ((StreamingInteractionNetwork.init.apply .ascii (some fun _ _ => .error "down") sunRemark
          ⟨[], [], none, true, true⟩).2 = .error "down" ∧
      (StreamingInteractionNetwork.init.apply .ascii (some fun _ _ => .error "down") sunRemark
          ⟨[], [], none, true, true⟩).1 = .init) := by
  have hmap : (StreamingConceptMap.init.apply .ascii failingExtractor sunRemark [] true).2 =
      .error "extractor unavailable" := by decide +kernel
  have hnetwork : (StreamingInteractionNetwork.init.apply .ascii (some fun _ _ => .error "down")
      sunRemark ⟨[], [], none, true, true⟩).2 = .error "down" := by decide +kernel
  exact ⟨⟨hmap, ((raised_apply_unchanged .ascii).1 _ _ _ _ _ _ hmap).1⟩,
    hnetwork, ((raised_apply_unchanged .ascii).2 _ _ _ _ _ hnetwork).1⟩

end LearningOrbit.Reference
