import LearningOrbit.Journal
import LearningOrbit.Reference.LedgerView

/-!
# Replay of the recorded history

`replay` resets a reducer and feeds its own history back with the lateness gate
lifted and history recording off. When no operation was ever late this rebuilds the
reducer exactly: the recorded context stands in for the live one, and every branch of
`apply` is taken again.
-/

namespace LearningOrbit.Reference

open LearningOrbit (Host Dict)
open LearningOrbit.Journal (refeed Faithful)

theorem tooLate_inf (watermark : Option Int) (eventTime : Int) :
    tooLate watermark .inf eventTime = false := by
  cases watermark <;> rfl

namespace StreamingConceptMap

/-- A map as its constructor leaves it, with the lateness it was configured with. -/
def fresh (allowed : Lateness) : StreamingConceptMap := init.withLateness allowed

/-- `_reset_runtime`: aliases, configuration and history survive. -/
def resetRuntime (m : StreamingConceptMap) : StreamingConceptMap :=
  { init with allowedLateness := m.allowedLateness, aliases := m.aliases, history := m.history }

/-- One round of the loop of `replay`. -/
def redo (h : Host) (extract : PropositionExtractor) (m : StreamingConceptMap)
    (item : ConceptInput) : StreamingConceptMap × Except String MapPatch :=
  m.apply h extract item.event item.context false

/-- `replay`, up to the snapshot it returns. -/
def replay (h : Host) (extract : PropositionExtractor) (m : StreamingConceptMap)
    (events : Option (List ChatEvent)) : StreamingConceptMap × Except String Unit :=
  let history := match events with
    | none => m.history
    | some events => events.map fun event => ⟨event, []⟩
  let result := refeed (redo h extract)
    (({ m with history } : StreamingConceptMap).resetRuntime.withLateness .inf) history
  (result.1.withLateness m.allowedLateness, result.2)

/-- A public call of `apply`, which records its history. -/
def call (h : Host) (extract : PropositionExtractor) (m : StreamingConceptMap)
    (input : ConceptInput) : StreamingConceptMap :=
  (m.apply h extract input.event input.context true).1

/-- A map with the gate lifted and a history that no longer grows. -/
def replaying (history : List ConceptInput) (m : StreamingConceptMap) : StreamingConceptMap :=
  { m with allowedLateness := .inf, history }

section Step

variable {h : Host} {extract : PropositionExtractor} {m : StreamingConceptMap}
  {event : ChatEvent} {context : List ChatEvent}

theorem applyLate_requiresReplay (recordHistory : Bool) :
    (m.applyLate event context recordHistory).requiresReplay ≠ [] := by
  unfold applyLate
  dsimp only [ledger, commitIdentity]
  split
  · rename_i hmem
    exact List.ne_nil_of_mem hmem
  · simp

theorem applyAccepted_replaying (history : List ConceptInput) (d : Bool) :
    (replaying history m).applyAccepted h extract event context false d =
      (replaying history (m.applyAccepted h extract event context true d).1,
        (m.applyAccepted h extract event context true d).2) := by
  have htomb : (replaying history m).retractedEventIds = m.retractedEventIds := rfl
  unfold applyAccepted
  rw [htomb]
  split
  · rfl
  split
  · rfl
  cases extract event context >>= stageAll h event with
  | error e => rfl
  | ok staged => cases d <;> rfl

/-- An operation within the lateness of the map is treated as with the gate lifted. -/
theorem apply_replaying (history : List ConceptInput)
    (hlate : tooLate m.watermark m.allowedLateness event.eventTime = false) :
    (replaying history m).apply h extract event context false =
      (replaying history (m.apply h extract event context true).1,
        (m.apply h extract event context true).2) := by
  have hseen : (replaying history m).seen = m.seen := rfl
  have hinf : tooLate (replaying history m).watermark (replaying history m).allowedLateness
      event.eventTime = false := tooLate_inf ..
  have hhigh : (replaying history m).highestActive event.eventId =
      m.highestActive event.eventId := rfl
  unfold apply
  rw [hseen, hinf, hlate, hhigh]
  split
  · rfl
  simp only [Bool.false_eq_true, ↓reduceIte]
  split
  · split
    · split
      · rfl
      · exact applyAccepted_replaying history true
    · exact applyAccepted_replaying history false
  · exact applyAccepted_replaying history true

/-- An operation is recorded, or raised and left no trace. -/
def Recorded (m : StreamingConceptMap) (input : ConceptInput)
    (result : StreamingConceptMap × Except String MapPatch) : Prop :=
  result.1 = m ∨ (result.1.history = m.history ++ [input] ∧ ∃ p, result.2 = .ok p)

theorem applyAccepted_recorded (d : Bool) :
    Recorded m ⟨event, context⟩ (m.applyAccepted h extract event context true d) := by
  unfold applyAccepted
  split
  · exact .inr ⟨rfl, _, rfl⟩
  split
  · exact .inr ⟨rfl, _, rfl⟩
  cases extract event context >>= stageAll h event with
  | error e => exact .inl rfl
  | ok staged => cases d <;> exact .inr ⟨rfl, _, rfl⟩

theorem apply_recorded :
    Recorded m ⟨event, context⟩ (m.apply h extract event context true) := by
  unfold apply
  split
  · exact .inl rfl
  split
  · exact .inr ⟨rfl, _, rfl⟩
  split
  · split
    · split
      · exact .inr ⟨rfl, _, rfl⟩
      · exact applyAccepted_recorded true
    · exact applyAccepted_recorded false
  · exact applyAccepted_recorded true

theorem apply_requiresReplay (hr : (m.apply h extract event context true).1.requiresReplay = []) :
    m.requiresReplay = [] ∧
      (event.key ∈ m.seen ∨ tooLate m.watermark m.allowedLateness event.eventTime = false) := by
  have haccepted : ∀ d, (m.applyAccepted h extract event context true d).1.requiresReplay =
      m.requiresReplay := by
    intro d
    unfold applyAccepted
    split
    · rfl
    split
    · rfl
    cases extract event context >>= stageAll h event with
    | error e => rfl
    | ok staged => cases d <;> rfl
  unfold apply at hr
  split at hr
  · rename_i hseen
    exact ⟨hr, .inl hseen⟩
  split at hr
  · exact absurd hr (applyLate_requiresReplay true)
  · rename_i hlate
    refine ⟨?_, .inr (by simpa using hlate)⟩
    split at hr
    · split at hr
      · split at hr
        · exact hr
        · rwa [haccepted] at hr
      · rwa [haccepted] at hr
    · rwa [haccepted] at hr

/-- A call after which no replay is required can be fed back. -/
theorem call_faithful (history : List ConceptInput) {input : ConceptInput}
    (hr : (m.call h extract input).requiresReplay = []) :
    Faithful (·.history) (redo h extract) (replaying history) m (m.call h extract input) := by
  by_cases hseen : input.event.key ∈ m.seen
  · left
    simp only [call, apply, hseen, ↓reduceIte]
  · have hlate := (apply_requiresReplay hr).2.resolve_left hseen
    rcases @apply_recorded h extract m input.event input.context with heq | ⟨hhist, p, hp⟩
    · exact .inl heq
    · refine .inr ⟨input, p, hhist, ?_⟩
      unfold redo
      rw [apply_replaying history hlate, hp]
      rfl

end Step

/-- Calls leave the configuration and the aliases alone. -/
theorem call_configuration (h : Host) (extract : PropositionExtractor) (m : StreamingConceptMap)
    (input : ConceptInput) :
    (m.call h extract input).allowedLateness = m.allowedLateness ∧
      (m.call h extract input).aliases = m.aliases := by
  have haccepted : ∀ d, (m.applyAccepted h extract input.event input.context true d).1.aliases =
      m.aliases := by
    intro d
    unfold applyAccepted
    split
    · rfl
    split
    · rfl
    cases extract input.event input.context >>= stageAll h input.event with
    | error e => rfl
    | ok staged => cases d <;> rfl
  refine ⟨apply_allowedLateness .., ?_⟩
  unfold call apply
  split
  · rfl
  split
  · rfl
  split
  · split
    · split
      · rfl
      · exact haccepted true
    · exact haccepted false
  · exact haccepted true

theorem calls_configuration (h : Host) (extract : PropositionExtractor) (m : StreamingConceptMap)
    (calls : List ConceptInput) :
    (calls.foldl (call h extract) m).allowedLateness = m.allowedLateness ∧
      (calls.foldl (call h extract) m).aliases = m.aliases := by
  induction calls generalizing m with
  | nil => exact ⟨rfl, rfl⟩
  | cons input calls ih =>
    obtain ⟨hl, ha⟩ := call_configuration h extract m input
    obtain ⟨hls, has⟩ := ih (m.call h extract input)
    exact ⟨hls.trans hl, has.trans ha⟩

/-- A map no operation was late for is what replay makes of its history. -/
theorem replay_calls (h : Host) (extract : PropositionExtractor) (allowed : Lateness)
    (calls : List ConceptInput)
    (hr : (calls.foldl (call h extract) (fresh allowed)).requiresReplay = []) :
    (calls.foldl (call h extract) (fresh allowed)).replay h extract none =
      (calls.foldl (call h extract) (fresh allowed), .ok ()) := by
  obtain ⟨hl, ha⟩ := calls_configuration h extract (fresh allowed) calls
  have hrun := Journal.refeed_run (call h extract) (·.history) (redo h extract)
    (replaying (calls.foldl (call h extract) (fresh allowed)).history)
    (fun m => m.requiresReplay = [])
    (fun m input hm => (apply_requiresReplay hm).1) (fun m input hm => call_faithful _ hm)
    (show refeed (redo h extract) (replaying _ (fresh allowed)) [] = _ from rfl) hr
  generalize calls.foldl (call h extract) (fresh allowed) = m at hl ha hr hrun
  have hreset : m.resetRuntime.withLateness .inf = replaying m.history (fresh allowed) := by
    unfold resetRuntime replaying
    rw [ha]
    rfl
  have hend : (replaying m.history m).withLateness m.allowedLateness = m := rfl
  unfold replay
  dsimp only
  rw [hreset, hrun, hend]

end StreamingConceptMap

namespace StreamingInteractionNetwork

/-- A network as its constructor leaves it, with the lateness it was configured with. -/
def fresh (allowed : Lateness) : StreamingInteractionNetwork := init.withLateness allowed

/-- `_reset_runtime`: configuration and history survive. -/
def resetRuntime (n : StreamingInteractionNetwork) : StreamingInteractionNetwork :=
  { init with allowedLateness := n.allowedLateness, history := n.history }

/-- The arguments of a call of `apply`, or of a recorded input fed back. -/
def supplied (item : NetworkInput) (recordHistory : Bool) : Supplied :=
  { evidence := item.evidence, sources := item.sources, context := item.context
    deriveEventRelations := item.deriveEventRelations, recordHistory }

/-- One round of the loop of `replay`. -/
def redo (h : Host) (extractor : Option RelationExtractor) (n : StreamingInteractionNetwork)
    (item : NetworkInput) : StreamingInteractionNetwork × Except String MapPatch :=
  n.apply h extractor item.event (supplied item false)

/-- `replay`, up to the snapshot it returns. -/
def replay (h : Host) (extractor : Option RelationExtractor) (n : StreamingInteractionNetwork)
    (inputs : Option (List NetworkInput)) : StreamingInteractionNetwork × Except String Unit :=
  let history := inputs.getD n.history
  let result := refeed (redo h extractor)
    (({ n with history } : StreamingInteractionNetwork).resetRuntime.withLateness .inf) history
  (result.1.withLateness n.allowedLateness, result.2)

/-- A public call of `apply`, which records its history. -/
def call (h : Host) (extractor : Option RelationExtractor) (n : StreamingInteractionNetwork)
    (input : NetworkInput) : StreamingInteractionNetwork :=
  (n.apply h extractor input.event (supplied input true)).1

/-- A network with the gate lifted and a history that no longer grows. -/
def replaying (history : List NetworkInput) (n : StreamingInteractionNetwork) :
    StreamingInteractionNetwork :=
  { n with allowedLateness := .inf, history }

/-- An added event whose id is already active with at least its revision. -/
def stale (n : StreamingInteractionNetwork) (event : ChatEvent) : Bool :=
  event.operation = .add && match n.highestActive event.eventId with
    | some highest => event.revision ≤ highest
    | none => false

/-- An accepted operation takes the place of an active one. -/
def replaces (n : StreamingInteractionNetwork) (event : ChatEvent) : Bool :=
  event.operation ≠ .add || (n.highestActive event.eventId).isSome

/-- The live events an operation is read against. -/
def prospective (n : StreamingInteractionNetwork) (event : ChatEvent) : Dict String ChatEvent :=
  if event.operation ≠ .add then n.activeEvents.erase event.target
  else if n.stale event || !n.replaces event then n.activeEvents
  else n.activeEvents.erase event.eventId

section Step

variable {h : Host} {extractor : Option RelationExtractor} {n : StreamingInteractionNetwork}
  {event : ChatEvent} {args : Supplied}

/-- The record of an operation: the live context is written down with it. -/
def record (event : ChatEvent) (args : Supplied) (live : Dict String ChatEvent) : NetworkInput :=
  { event, evidence := args.evidence, sources := args.sources
    context := some (contextOf args live), deriveEventRelations := args.deriveEventRelations }

theorem applyLate_requiresReplay : (n.applyLate event args).requiresReplay ≠ [] := by
  unfold applyLate
  dsimp only [ledger, commitIdentity]
  split
  · rename_i hmem
    exact List.ne_nil_of_mem hmem
  · simp

/-- The written-down context stands in for the live one. -/
theorem relations_record (history : List NetworkInput) (live : Dict String ChatEvent) :
    (replaying history n).relations h extractor event (supplied (record event args live) false) live =
      n.relations h extractor event args live := rfl

theorem applyAccepted_replaying (history : List NetworkInput) (live : Dict String ChatEvent)
    (d : Bool) :
    (replaying history n).applyAccepted h extractor event (supplied (record event args live) false)
        live d =
      (replaying history (n.applyAccepted h extractor event args live d).1,
        (n.applyAccepted h extractor event args live d).2) := by
  unfold applyAccepted
  rw [relations_record]
  split
  · rfl
  cases n.relations h extractor event args live >>= normalizeEvidence event with
  | error e => rfl
  | ok result => cases d <;> rfl

/-- What `apply` does with an operation that is new and not late. -/
theorem apply_eq (hseen : event.key ∉ n.seen)
    (hlate : tooLate n.watermark n.allowedLateness event.eventTime = false) :
    n.apply h extractor event args =
      if n.stale event then
        ((n.commitIdentity event args (some (contextOf args (n.prospective event)))).advance
            event.eventTime,
          .ok (patch h event [] [] [] true false true "stale_revision"))
      else n.applyAccepted h extractor event args (n.prospective event) (n.replaces event) := by
  by_cases hadd : event.operation = .add
  · cases hact : n.highestActive event.eventId with
    | none =>
      simp [apply, prospective, stale, replaces, hseen, hlate, hadd, hact]
    | some highest =>
      by_cases hle : event.revision ≤ highest
      · simp [apply, prospective, stale, replaces, hseen, hlate, hadd, hact, hle]
      · simp [apply, prospective, stale, replaces, hseen, hlate, hadd, hact, hle]
  · simp [apply, prospective, stale, replaces, hseen, hlate, hadd]

/-- An operation within the lateness of the network is treated as with the gate lifted. -/
theorem apply_replaying (history : List NetworkInput) (hseen : event.key ∉ n.seen)
    (hlate : tooLate n.watermark n.allowedLateness event.eventTime = false) :
    (replaying history n).apply h extractor event
        (supplied (record event args (n.prospective event)) false) =
      (replaying history (n.apply h extractor event args).1,
        (n.apply h extractor event args).2) := by
  have hseen' : event.key ∉ (replaying history n).seen := hseen
  have hstale : (replaying history n).stale event = n.stale event := rfl
  have hlive : (replaying history n).prospective event = n.prospective event := rfl
  have hreplaces : (replaying history n).replaces event = n.replaces event := rfl
  rw [apply_eq hseen hlate, apply_eq hseen' (tooLate_inf ..), hstale, hlive, hreplaces]
  split
  · rfl
  · exact applyAccepted_replaying history _ _

/-- An operation is recorded with the context it was read in, or raised and left no trace. -/
def Recorded (n : StreamingInteractionNetwork) (item : NetworkInput)
    (result : StreamingInteractionNetwork × Except String MapPatch) : Prop :=
  result.1 = n ∨ (result.1.history = n.history ++ [item] ∧ ∃ p, result.2 = .ok p)

theorem applyAccepted_recorded (hrec : args.recordHistory = true) (live : Dict String ChatEvent)
    (d : Bool) :
    Recorded n (record event args live) (n.applyAccepted h extractor event args live d) := by
  have hcommit : (n.commitIdentity event args (some (contextOf args live))).history =
      n.history ++ [record event args live] := by
    simp only [commitIdentity, hrec, ↓reduceIte, record]
  unfold applyAccepted
  split
  · exact .inr ⟨hcommit, _, rfl⟩
  cases n.relations h extractor event args live >>= normalizeEvidence event with
  | error e => exact .inl rfl
  | ok result => cases d <;> exact .inr ⟨hcommit, _, rfl⟩

theorem apply_recorded (hrec : args.recordHistory = true) (hseen : event.key ∉ n.seen)
    (hlate : tooLate n.watermark n.allowedLateness event.eventTime = false) :
    Recorded n (record event args (n.prospective event)) (n.apply h extractor event args) := by
  rw [apply_eq hseen hlate]
  split
  · refine .inr ⟨?_, _, rfl⟩
    simp only [advance, commitIdentity, hrec, ↓reduceIte, record]
  · exact applyAccepted_recorded hrec _ _

theorem applyAccepted_requiresReplay (live : Dict String ChatEvent) (d : Bool) :
    (n.applyAccepted h extractor event args live d).1.requiresReplay = n.requiresReplay ∧
      (n.applyAccepted h extractor event args live d).1.allowedLateness = n.allowedLateness := by
  unfold applyAccepted
  split
  · exact ⟨rfl, rfl⟩
  cases n.relations h extractor event args live >>= normalizeEvidence event with
  | error e => exact ⟨rfl, rfl⟩
  | ok result => cases d <;> exact ⟨rfl, rfl⟩

theorem apply_requiresReplay (hr : (n.apply h extractor event args).1.requiresReplay = []) :
    n.requiresReplay = [] ∧
      (event.key ∈ n.seen ∨ tooLate n.watermark n.allowedLateness event.eventTime = false) := by
  unfold apply at hr
  split at hr
  · rename_i hseen
    exact ⟨hr, .inl hseen⟩
  split at hr
  · exact absurd hr applyLate_requiresReplay
  · rename_i hlate
    refine ⟨?_, .inr (by simpa using hlate)⟩
    split at hr
    · split at hr
      · split at hr
        · exact hr
        · rwa [(applyAccepted_requiresReplay _ _).1] at hr
      · rwa [(applyAccepted_requiresReplay _ _).1] at hr
    · rwa [(applyAccepted_requiresReplay _ _).1] at hr

theorem apply_allowedLateness :
    (n.apply h extractor event args).1.allowedLateness = n.allowedLateness := by
  unfold apply
  split
  · rfl
  split
  · rfl
  split
  · split
    · split
      · rfl
      · exact (applyAccepted_requiresReplay _ _).2
    · exact (applyAccepted_requiresReplay _ _).2
  · exact (applyAccepted_requiresReplay _ _).2

/-- A call after which no replay is required can be fed back. -/
theorem call_faithful (history : List NetworkInput) {input : NetworkInput}
    (hr : (n.call h extractor input).requiresReplay = []) :
    Faithful (·.history) (redo h extractor) (replaying history) n (n.call h extractor input) := by
  by_cases hseen : input.event.key ∈ n.seen
  · left
    simp only [call, apply, hseen, ↓reduceIte]
  · have hlate := (apply_requiresReplay hr).2.resolve_left hseen
    rcases @apply_recorded h extractor n input.event (supplied input true) rfl hseen hlate with
      heq | ⟨hhist, p, hp⟩
    · exact .inl heq
    · refine .inr ⟨_, p, hhist, ?_⟩
      unfold redo
      change (replaying history n).apply h extractor input.event _ = _
      rw [apply_replaying history hseen hlate, hp]
      rfl

end Step

theorem calls_allowedLateness (h : Host) (extractor : Option RelationExtractor)
    (n : StreamingInteractionNetwork) (calls : List NetworkInput) :
    (calls.foldl (call h extractor) n).allowedLateness = n.allowedLateness := by
  induction calls generalizing n with
  | nil => rfl
  | cons input calls ih =>
    rw [List.foldl_cons, ih]
    exact apply_allowedLateness

/-- A network no operation was late for is what replay makes of its history. -/
theorem replay_calls (h : Host) (extractor : Option RelationExtractor) (allowed : Lateness)
    (calls : List NetworkInput)
    (hr : (calls.foldl (call h extractor) (fresh allowed)).requiresReplay = []) :
    (calls.foldl (call h extractor) (fresh allowed)).replay h extractor none =
      (calls.foldl (call h extractor) (fresh allowed), .ok ()) := by
  have hrun := Journal.refeed_run (call h extractor) (·.history) (redo h extractor)
    (replaying (calls.foldl (call h extractor) (fresh allowed)).history)
    (fun n => n.requiresReplay = [])
    (fun n input hn => (apply_requiresReplay hn).1) (fun n input hn => call_faithful _ hn)
    (show refeed (redo h extractor) (replaying _ (fresh allowed)) [] = _ from rfl) hr
  generalize calls.foldl (call h extractor) (fresh allowed) = n at hr hrun
  have hreset : n.resetRuntime.withLateness .inf = replaying n.history (fresh allowed) := rfl
  have hend : (replaying n.history n).withLateness n.allowedLateness = n := rfl
  unfold replay
  dsimp only [Option.getD_none]
  rw [hreset, hrun, hend]

end StreamingInteractionNetwork

/-- When no call was late, replay rebuilds each reducer as the calls left it, its lateness
included. -/
theorem replay_rebuilds (h : Host) (allowed : Lateness) :
    (∀ (extract : PropositionExtractor) (calls : List ConceptInput),
      let m := calls.foldl (StreamingConceptMap.call h extract) (.fresh allowed)
      m.requiresReplay = [] →
        m.replay h extract none = (m, .ok ()) ∧ m.allowedLateness = allowed) ∧
    (∀ (extractor : Option RelationExtractor) (calls : List NetworkInput),
      let n := calls.foldl (StreamingInteractionNetwork.call h extractor) (.fresh allowed)
      n.requiresReplay = [] →
        n.replay h extractor none = (n, .ok ()) ∧ n.allowedLateness = allowed) := by
  constructor
  · intro extract calls m hr
    exact ⟨StreamingConceptMap.replay_calls h extract allowed calls hr,
      (StreamingConceptMap.calls_configuration h extract _ calls).1⟩
  · intro extractor calls n hr
    exact ⟨StreamingInteractionNetwork.replay_calls h extractor allowed calls hr,
      StreamingInteractionNetwork.calls_allowedLateness h extractor _ calls⟩

/-- A remark of one learner about the sun. -/
def sunRemark : ChatEvent :=
  { eventId := "e1", sessionId := "room", eventTime := 0, ingestTime := 0, actorId := "ana"
    actorKind := .human, modality := .text, text := "The sun gives energy to producers."
    sourceConfidence := 1, revision := 1, operation := .add, replyTo := none
    mentions := ["ben"], supersedes := none, retracts := none, agentRole := none
    speaker := by decide
    required := by decide
    probability := by decide
    revision_pos := by decide }

/-- Its withdrawal. -/
def sunWithdrawal : ChatEvent :=
  { sunRemark with
    eventId := "e2", eventTime := seconds 1, ingestTime := seconds 1, text := ""
    operation := .retract, mentions := [], retracts := some "e1"
    required := by decide }

/-- The map that sees the withdrawal before the remark it withdraws. -/
def withdrawnMap : StreamingConceptMap :=
  [⟨sunWithdrawal, []⟩, ⟨sunRemark, []⟩].foldl
    (StreamingConceptMap.call .ascii (DeterministicEcosystemExtractor.extract .ascii))
    (.fresh (.within (seconds 5)))

/-- The network that sees the same. -/
def withdrawnNetwork : StreamingInteractionNetwork :=
  [⟨sunWithdrawal, [], [], none, true⟩, ⟨sunRemark, [], [], none, true⟩].foldl
    (StreamingInteractionNetwork.call .ascii none) (.fresh (.within (seconds 5)))

theorem replay_rebuilds_withdrawn :
    (withdrawnMap.replay .ascii (DeterministicEcosystemExtractor.extract .ascii) none =
        (withdrawnMap, .ok ()) ∧ withdrawnMap.allowedLateness = .within (seconds 5)) ∧
    (withdrawnNetwork.replay .ascii none none = (withdrawnNetwork, .ok ()) ∧
      withdrawnNetwork.allowedLateness = .within (seconds 5)) :=
  ⟨(replay_rebuilds .ascii (.within (seconds 5))).1 _ _
      (show withdrawnMap.requiresReplay = [] by decide +kernel),
    (replay_rebuilds .ascii (.within (seconds 5))).2 _ _
      (show withdrawnNetwork.requiresReplay = [] by decide +kernel)⟩

end LearningOrbit.Reference
