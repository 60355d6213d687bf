import LearningOrbit.Shadow.Runner

/-!
# What the runner reports

The runner reports the state it asks the coordinator for, and does not look at the one the
coordinator took. The two differ exactly if another caller has ended the run another way.
-/

namespace LearningOrbit.Shadow

open LearningOrbit (Dict Host)
open AgentTriggerCoordinator (Sound Quiet Evolves Effect)

/-- The trigger an event asks a run for. -/
def Event.asks : Event → Option (String × String)
  | .call made => made.asks
  | _ => none

namespace World

/-- The last call of an execution on the coordinator: the state it asks for, the code, and the
result it settles on. -/
def exit (h : Host) (w : World) (e : Execution) :
    Phase → Option (AgentRunState × Option String × CandidateResult)
  | .abandoning => some (.cancelled, some "CANCEL_REQUESTED",
      .bare .cancelled (some "CANCEL_REQUESTED"))
  | .interrupted code => some (.cancelled, some code, .bare .cancelled (some code))
  | .broken code => some (.failed, some code, .bare .failed (some code))
  | .spoken text => some (w.verdict h e text)
  | _ => none

/-- A result the runner keeps for a run, or returns. -/
def Reports (w : World) (agentRunId : String) (result : CandidateResult) : Prop :=
  w.results.get? agentRunId = some result ∨
    ∃ e, w.thread = some (e, .returning result) ∧ e.agentRunId = agentRunId

/-- Every result agrees with the coordinator, and has text only if the run is completed. -/
def Honest (w : World) : Prop :=
  ∀ id result, w.Reports id result → ∃ run, w.coordinator.get id = .ok run ∧
    result.state = run.state ∧ (result.text ≠ "" → run.state = .completed)

/-- At the last call of an execution its run is still going, or has ended the way it is asked to. -/
def Undecided (h : Host) (w : World) : Event → Prop
  | .advance =>
    match w.thread with
    | some (e, phase) =>
      match w.exit h e phase, w.coordinator.runs.get? e.agentRunId with
      | some exit, some run => run.active = true ∨ run.state = exit.1
      | _, _ => True
    | none => True
  | _ => True

instance (h : Host) (w : World) : ∀ event, Decidable (w.Undecided h event)
  | .advance =>
    match ht : w.thread with
    | some (e, phase) =>
      match hx : w.exit h e phase, hr : w.coordinator.runs.get? e.agentRunId with
      | some exit, some run => decidable_of_iff (run.active = true ∨ run.state = exit.1)
          (by simp only [Undecided, ht, hx, hr])
      | some _, none => isTrue (by simp only [Undecided, ht, hx, hr])
      | none, _ => isTrue (by simp only [Undecided, ht, hx])
    | none => isTrue (by simp only [Undecided, ht])
  | .call _ | .execute _ | .answered _ | .prepared | .chunk _ | .ended | .providerCancelled _
  | .providerError _ | .crashed => isTrue trivial

/-- The coordinator is sound, and every result is of a final state. -/
structure Kept (h : Host) (K : String × String → Prop) (w : World) : Prop where
  sound : Sound h K w.coordinator
  quiet : Quiet w.coordinator
  final : ∀ id result, w.Reports id result → result.state.active = false ∧
    (result.text ≠ "" → result.state = .completed)

variable {h : Host} {K : String × String → Prop} {w : World} {e : Execution}

theorem verdict_final (text : String) :
    (w.verdict h e text).2.2.state = (w.verdict h e text).1 ∧
      (w.verdict h e text).1.active = false ∧
      ((w.verdict h e text).2.2.text ≠ "" → (w.verdict h e text).1 = .completed) := by
  unfold verdict
  dsimp only
  split
  · exact ⟨rfl, rfl, fun hne => absurd rfl hne⟩
  · exact ⟨rfl, rfl, fun _ => rfl⟩

theorem exit_final {phase : Phase} {exit : AgentRunState × Option String × CandidateResult}
    (hexit : w.exit h e phase = some exit) :
    exit.2.2.state = exit.1 ∧ exit.1.active = false ∧ (exit.2.2.text ≠ "" → exit.1 = .completed) := by
  cases phase with
  | abandoning =>
    cases hexit
    exact ⟨rfl, rfl, fun hne => absurd rfl hne⟩
  | interrupted code =>
    cases hexit
    exact ⟨rfl, rfl, fun hne => absurd rfl hne⟩
  | broken code =>
    cases hexit
    exact ⟨rfl, rfl, fun hne => absurd rfl hne⟩
  | spoken text =>
    have hverdict : w.verdict h e text = exit := Option.some.inj hexit
    rw [← hverdict]
    exact verdict_final text
  | looking | asking | starting | preparing | opening | streaming | returning => cases hexit

/-- The last step of an execution is a transition and its result. -/
theorem progress_exit {phase : Phase} {exit : AgentRunState × Option String × CandidateResult}
    (hexit : w.exit h e phase = some exit) :
    w.progress h e phase .advance =
      w.afterCall (w.coordinator.transition e.agentRunId exit.1 exit.2.1) fun w =>
        w.settle e exit.2.2 := by
  cases phase with
  | abandoning =>
    cases hexit
    rw [← AgentTriggerCoordinator.cancel_eq]
    rfl
  | interrupted code =>
    cases hexit
    rw [← AgentTriggerCoordinator.cancel_eq]
    rfl
  | broken code =>
    cases hexit
    rfl
  | spoken text =>
    have hverdict : w.verdict h e text = exit := Option.some.inj hexit
    rw [← hverdict]
    rfl
  | looking | asking | starting | preparing | opening | streaming | returning => cases hexit

/-- The call a step makes on the coordinator. -/
inductive Outcome (h : Host) (w : World) (event : Event) : World → Prop
  /-- No new result. -/
  | plain {w'} (undecided : w.Undecided h event)
      (coordinator : w'.coordinator = w.coordinator ∨ ∃ call, w'.coordinator =
        w.coordinator.after h call ∧ ∀ key, call.asks = some key → event = .call call)
      (reports : ∀ id result, w'.Reports id result → w.Reports id result) : Outcome h w event w'
  /-- The result of a run that had ended before. -/
  | found {run} (e) (undecided : w.Undecided h event) (get : w.coordinator.get e.agentRunId = .ok run)
      (ended : run.active = false) :
      Outcome h w event (w.settle e (.bare run.state run.failureCode))
  /-- The last call of an execution. -/
  | exited {phase result} (e) (exit) (thread : w.thread = some (e, phase))
      (last : w.exit h e phase = some exit) (advance : event = .advance)
      (call : w.coordinator.transition e.agentRunId exit.1 exit.2.1 = .ok result) :
      Outcome h w event ({ w with coordinator := result.1 }.settle e exit.2.2)

theorem reports_moveTo {phase : Phase} (hphase : ∀ result, phase ≠ .returning result) {w' : World}
    (hresults : w'.results = w.results) {id : String} {result : CandidateResult}
    (hreports : (w'.moveTo e phase).Reports id result) : w.Reports id result := by
  cases hreports with
  | inl hkept => exact .inl (hresults ▸ hkept)
  | inr hreturning =>
    obtain ⟨e', hthread, -⟩ := hreturning
    cases hthread
    exact absurd rfl (hphase result)

theorem reports_release {w' : World} (hresults : w'.results = w.results) {id : String}
    {result : CandidateResult} (hreports : w'.release.Reports id result) : w.Reports id result := by
  cases hreports with
  | inl hkept => exact .inl (hresults ▸ hkept)
  | inr hreturning =>
    obtain ⟨e', hthread, -⟩ := hreturning
    cases hthread

theorem reports_settle {r result : CandidateResult} {id : String}
    (hreports : (w.settle e r).Reports id result) :
    id = e.agentRunId ∧ result = r ∨ w.Reports id result := by
  cases hreports with
  | inl hkept =>
    have hget : (w.results.set e.agentRunId r).get? id = some result := hkept
    rw [Dict.get?_set] at hget
    split at hget
    · rename_i heq
      cases hget
      exact .inl ⟨heq, rfl⟩
    · exact .inr (.inl hget)
  | inr hreturning =>
    obtain ⟨e', hthread, rfl⟩ := hreturning
    cases hthread
    exact .inl ⟨rfl, rfl⟩

theorem undecided_of_no_exit {event : Event}
    (hexit : ∀ e phase, w.thread = some (e, phase) → w.exit h e phase = none) :
    w.Undecided h event := by
  cases event with
  | advance =>
    unfold Undecided
    dsimp only
    split
    · rename_i e phase hthread
      rw [hexit e phase hthread]
      trivial
    · trivial
  | call | execute | answered | prepared | chunk | ended | providerCancelled | providerError
  | crashed => trivial

theorem outcome_same {event : Event} (hundecided : w.Undecided h event) : Outcome h w event w :=
  .plain hundecided (.inl rfl) fun _ _ hreports => hreports

theorem outcome_moveTo {event : Event} (hundecided : w.Undecided h event) {phase : Phase}
    (hphase : ∀ result, phase ≠ .returning result) : Outcome h w event (w.moveTo e phase) :=
  .plain hundecided (.inl rfl) fun _ _ hreports => reports_moveTo hphase rfl hreports

theorem outcome_release {event : Event} (hundecided : w.Undecided h event) :
    Outcome h w event w.release :=
  .plain hundecided (.inl rfl) fun _ _ hreports => reports_release rfl hreports

/-- A transition that is not the last call. -/
theorem outcome_transition {event : Event} (hundecided : w.Undecided h event)
    (state : AgentRunState) (phase : World → Phase)
    (hphase : ∀ w result, phase w ≠ .returning result) :
    Outcome h w event (w.afterCall (w.coordinator.transition e.agentRunId state none) fun w =>
      w.moveTo e (phase w)) := by
  cases hcall : w.coordinator.transition e.agentRunId state none with
  | error error => exact outcome_release hundecided
  | ok result =>
    refine .plain hundecided (.inr ⟨.transition e.agentRunId state none, ?_, ?_⟩) ?_
    · change result.1 = (((w.coordinator.transition e.agentRunId state none).toOption).map
        (·.1)).getD w.coordinator
      rw [hcall]
      rfl
    · intro key hkey
      cases hkey
    · intro id kept hreports
      have hresults : ({ w with coordinator := result.1 } : World).results = w.results := rfl
      exact reports_moveTo (hphase _) hresults hreports

theorem outcome_exit {phase : Phase} (hthread : w.thread = some (e, phase))
    {exit : AgentRunState × Option String × CandidateResult}
    (hexit : w.exit h e phase = some exit) :
    Outcome h w .advance (w.progress h e phase .advance) := by
  rw [progress_exit hexit]
  cases hcall : w.coordinator.transition e.agentRunId exit.1 exit.2.1 with
  | error error =>
    refine outcome_release ?_
    have hnone : w.coordinator.runs.get? e.agentRunId = none := by
      unfold AgentTriggerCoordinator.transition at hcall
      split at hcall
      · assumption
      · split at hcall
        · cases hcall
        · cases hcall
    unfold Undecided
    rw [hthread]
    dsimp only
    rw [hexit, hnone]
    trivial
  | ok result => exact .exited e exit hthread hexit rfl hcall

theorem outcome_looking (hthread : w.thread = some (e, .looking)) :
    Outcome h w .advance (w.progress h e .looking .advance) := by
  have hundecided : w.Undecided h .advance := undecided_of_no_exit fun e' phase hthread' => by
    rw [hthread] at hthread'
    cases hthread'
    rfl
  unfold progress
  cases hget : w.coordinator.get e.agentRunId with
  | error error => exact outcome_release hundecided
  | ok current =>
    dsimp only
    split
    · rename_i hended
      refine .found e hundecided hget (AgentRunState.not_active_iff.mpr ?_)
      revert hended
      cases current.state <;> decide
    · exact outcome_moveTo hundecided (fun _ heq => by cases heq)

theorem outcome_progress {phase : Phase} (hthread : w.thread = some (e, phase)) (event : Event) :
    Outcome h w event (w.progress h e phase event) := by
  cases hexit : w.exit h e phase with
  | some exit =>
    have hother : ∀ event, event ≠ .advance → w.Undecided h event := by
      intro event hne
      cases event with
      | advance => exact absurd rfl hne
      | call | execute | answered | prepared | chunk | ended | providerCancelled | providerError
      | crashed => trivial
    by_cases hadvance : event = .advance
    · rw [hadvance]
      exact outcome_exit hthread hexit
    · have hstays : w.progress h e phase event = w := by
        cases phase with
        | abandoning | interrupted | broken | spoken =>
          cases event with
          | advance => exact absurd rfl hadvance
          | call | execute | answered | prepared | chunk | ended | providerCancelled
          | providerError | crashed => rfl
        | looking | asking | starting | preparing | opening | streaming | returning => cases hexit
      rw [hstays]
      exact outcome_same (hother event hadvance)
  | none =>
    have hundecided : w.Undecided h event := undecided_of_no_exit fun e' phase' hthread' => by
      rw [hthread] at hthread'
      cases hthread'
      exact hexit
    cases phase with
    | looking =>
      cases event with
      | advance => exact outcome_looking hthread
      | call | execute | answered | prepared | chunk | ended | providerCancelled | providerError
      | crashed => exact outcome_same hundecided
    | asking =>
      cases event with
      | answered cancelled =>
        refine outcome_moveTo hundecided fun result heq => ?_
        split at heq
        · cases heq
        · cases heq
      | crashed => exact outcome_release hundecided
      | call | execute | advance | prepared | chunk | ended | providerCancelled | providerError =>
        exact outcome_same hundecided
    | starting =>
      cases event with
      | advance =>
        exact outcome_transition hundecided .running (fun w => .preparing (w.request e))
          fun _ _ heq => by cases heq
      | call | execute | answered | prepared | chunk | ended | providerCancelled | providerError
      | crashed => exact outcome_same hundecided
    | preparing request =>
      cases event with
      | prepared | providerCancelled | providerError =>
        exact outcome_moveTo hundecided fun _ heq => by cases heq
      | crashed => exact outcome_release hundecided
      | call | execute | advance | answered | chunk | ended => exact outcome_same hundecided
    | opening =>
      cases event with
      | advance =>
        exact outcome_transition hundecided .streaming (fun _ => .streaming [])
          fun _ _ heq => by cases heq
      | call | execute | answered | prepared | chunk | ended | providerCancelled | providerError
      | crashed => exact outcome_same hundecided
    | streaming chunks =>
      cases event with
      | chunk | ended | providerCancelled | providerError =>
        exact outcome_moveTo hundecided fun _ heq => by cases heq
      | crashed => exact outcome_release hundecided
      | call | execute | advance | answered | prepared => exact outcome_same hundecided
    | returning result =>
      cases event with
      | advance => exact outcome_release hundecided
      | call | execute | answered | prepared | chunk | ended | providerCancelled | providerError
      | crashed => exact outcome_same hundecided
    | abandoning | interrupted | broken | spoken => cases hexit

/-- What any event does. -/
theorem outcome (h : Host) (w : World) (event : Event) : Outcome h w event (w.step h event) := by
  cases event with
  | call call =>
    refine .plain trivial (.inr ⟨call, rfl, fun _ _ => rfl⟩) fun _ _ hreports => ?_
    exact hreports
  | execute e =>
    unfold step
    cases hthread : w.thread with
    | some held => exact outcome_same trivial
    | none =>
      dsimp only
      cases hkept : w.results.get? e.agentRunId with
      | some existing =>
        refine .plain trivial (.inl rfl) fun id result hreports => ?_
        cases hreports with
        | inl hresults => exact .inl hresults
        | inr hreturning =>
          obtain ⟨e', heq, rfl⟩ := hreturning
          cases heq
          exact .inl hkept
      | none =>
        refine outcome_moveTo ?_ fun _ heq => by cases heq
        trivial
  | advance | answered | prepared | chunk | ended | providerCancelled | providerError | crashed =>
    unfold step
    cases hthread : w.thread with
    | some held => exact outcome_progress hthread _
    | none =>
      refine outcome_same (undecided_of_no_exit fun e phase hheld => ?_)
      rw [hthread] at hheld
      cases hheld

/-! ## Honest worlds -/

theorem get_eq_ok {c : AgentTriggerCoordinator} {id : String} {run : AgentRun} :
    c.get id = .ok run ↔ c.runs.get? id = some run := by
  unfold AgentTriggerCoordinator.get
  cases c.runs.get? id with
  | none =>
    constructor
    · intro heq
      cases heq
    · intro heq
      cases heq
  | some found =>
    constructor
    · intro heq
      cases heq
      rfl
    · intro heq
      cases heq
      rfl

theorem keep_called (hK : Distinct h K) (hw : w.Kept h K) (call : Call)
    (hcall : ∀ key, call.asks = some key → K key) :
    Sound h K (w.coordinator.after h call) ∧ Quiet (w.coordinator.after h call) ∧
      Evolves w.coordinator (w.coordinator.after h call) := by
  have he := AgentTriggerCoordinator.effect hw.sound hcall
  exact ⟨he.sound hK hw.sound, he.quiet hw.sound hw.quiet, he.evolves hw.sound hK⟩

theorem after_transition {c : AgentTriggerCoordinator} {id : String} {state : AgentRunState}
    {failureCode : Option String} {result : AgentTriggerCoordinator × AgentRun}
    (hcall : c.transition id state failureCode = .ok result) :
    c.after h (.transition id state failureCode) = result.1 := by
  change (((c.transition id state failureCode).toOption).map (·.1)).getD c = _
  rw [hcall]
  rfl

/-- What an event leaves of the coordinator. -/
theorem Outcome.coordinator_kept {event : Event} {w' : World} (ho : Outcome h w event w')
    (hK : Distinct h K) (hw : w.Kept h K) (hevent : ∀ key, event.asks = some key → K key) :
    Sound h K w'.coordinator ∧ Quiet w'.coordinator ∧ Evolves w.coordinator w'.coordinator := by
  cases ho with
  | plain undecided coordinator reports =>
    cases coordinator with
    | inl hsame =>
      rw [hsame]
      exact ⟨hw.sound, hw.quiet, Evolves.refl _⟩
    | inr hcalled =>
      obtain ⟨call, hcoordinator, hasks⟩ := hcalled
      rw [hcoordinator]
      refine keep_called hK hw call fun key hkey => hevent key ?_
      rw [hasks key hkey]
      exact hkey
  | found e undecided get ended => exact ⟨hw.sound, hw.quiet, Evolves.refl _⟩
  | exited e exit thread last advance call =>
    have hkeep := keep_called hK hw (.transition e.agentRunId exit.1 exit.2.1)
      fun key hkey => by cases hkey
    rw [after_transition call] at hkeep
    exact hkeep

theorem Outcome.kept {event : Event} {w' : World} (ho : Outcome h w event w')
    (hK : Distinct h K) (hw : w.Kept h K) (hevent : ∀ key, event.asks = some key → K key) :
    w'.Kept h K := by
  obtain ⟨hsound, hquiet, -⟩ := ho.coordinator_kept hK hw hevent
  refine ⟨hsound, hquiet, fun id result hreports => ?_⟩
  cases ho with
  | plain undecided coordinator reports => exact hw.final id result (reports id result hreports)
  | found e undecided get ended =>
    cases reports_settle hreports with
    | inl hnew =>
      rw [hnew.2]
      exact ⟨ended, fun hne => absurd rfl hne⟩
    | inr hold => exact hw.final id result hold
  | exited e exit thread last advance call =>
    cases reports_settle hreports with
    | inl hnew =>
      obtain ⟨hstate, hfinal, htext⟩ := exit_final last
      rw [hnew.2, hstate]
      exact ⟨hfinal, htext⟩
    | inr hold => exact hw.final id result hold

/-- What was honest stays honest while the coordinator goes on. -/
theorem honest_evolves (hw : w.Kept h K) (hhonest : w.Honest) {c : AgentTriggerCoordinator}
    (hevolves : Evolves w.coordinator c) {id : String} {result : CandidateResult}
    (hreports : w.Reports id result) :
    ∃ run, c.get id = .ok run ∧ result.state = run.state ∧
      (result.text ≠ "" → run.state = .completed) := by
  obtain ⟨run, hget, hstate, htext⟩ := hhonest id result hreports
  have hended : run.active = false := by
    unfold AgentRun.active
    rw [← hstate]
    exact (hw.final id result hreports).1
  obtain ⟨run', hget', -, -, hsame⟩ := hevolves id run (get_eq_ok.mp hget)
  have heq := hsame hended
  subst heq
  exact ⟨run', get_eq_ok.mpr hget', hstate, htext⟩

/-- A last call leaves an honest world exactly if the run was undecided. -/
theorem honest_exit_iff (hK : Distinct h K) (hw : w.Kept h K) (hhonest : w.Honest) {phase : Phase}
    {exit : AgentRunState × Option String × CandidateResult}
    {result : AgentTriggerCoordinator × AgentRun} (hthread : w.thread = some (e, phase))
    (hlast : w.exit h e phase = some exit)
    (hcall : w.coordinator.transition e.agentRunId exit.1 exit.2.1 = .ok result) :
    ({ w with coordinator := result.1 }.settle e exit.2.2).Honest ↔ w.Undecided h .advance := by
  obtain ⟨run, hrun, hcases⟩ := AgentTriggerCoordinator.transition_cases hw.sound hcall
  obtain ⟨hstate, -, htext⟩ := exit_final hlast
  have hundecided : w.Undecided h .advance ↔ run.active = true ∨ run.state = exit.1 := by
    simp only [Undecided, hthread, hlast, hrun]
  have hevolves : Evolves w.coordinator result.1 := by
    have hkeep := keep_called hK hw (.transition e.agentRunId exit.1 exit.2.1)
      fun key hkey => by cases hkey
    rw [after_transition hcall] at hkeep
    exact hkeep.2.2
  -- the older results stay honest, so only the new one counts
  have honest_iff : ({ w with coordinator := result.1 }.settle e exit.2.2).Honest ↔
      ∃ run', result.1.get e.agentRunId = .ok run' ∧ exit.1 = run'.state := by
    constructor
    · intro hall
      obtain ⟨run', hget, hsame, -⟩ := hall e.agentRunId exit.2.2 (.inr ⟨e, rfl, rfl⟩)
      exact ⟨run', hget, hstate.symm.trans hsame⟩
    · rintro ⟨run', hget, hsame⟩ id reported hreports
      cases reports_settle hreports with
      | inl hnew =>
        obtain ⟨rfl, rfl⟩ := hnew
        exact ⟨run', hget, hstate.trans hsame, fun hne => hsame ▸ htext hne⟩
      | inr hold => exact honest_evolves hw hhonest hevolves hold
  rw [honest_iff, hundecided]
  cases hcases with
  | inl hended =>
    obtain ⟨hended, rfl⟩ := hended
    have hget : w.coordinator.get e.agentRunId = .ok run := get_eq_ok.mpr hrun
    constructor
    · rintro ⟨run', hget', hsame⟩
      rw [hget] at hget'
      cases hget'
      exact .inr hsame.symm
    · intro hor
      cases hor with
      | inl hactive =>
        rw [hended] at hactive
        cases hactive
      | inr hsame => exact ⟨run, hget, hsame.symm⟩
  | inr hmoved =>
    obtain ⟨hactive, state', failureCode', rfl, hwhich, -⟩ := hmoved
    refine iff_of_true ⟨run.moved state' failureCode', ?_, ?_⟩ (.inl hactive)
    · rw [get_eq_ok, AgentTriggerCoordinator.runs_store]
      exact if_pos (hw.sound.named _ run hrun).2.1.symm
    · cases hwhich with
      | inl hasked => exact hasked.symm
      | inr hdisabled =>
        have hended := hw.quiet _ run hrun hdisabled.1
        rw [hactive] at hended
        cases hended

theorem Outcome.honest_iff {event : Event} {w' : World} (ho : Outcome h w event w')
    (hK : Distinct h K) (hw : w.Kept h K) (hevent : ∀ key, event.asks = some key → K key)
    (hhonest : w.Honest) : w'.Honest ↔ w.Undecided h event := by
  obtain ⟨-, -, hevolves⟩ := ho.coordinator_kept hK hw hevent
  cases ho with
  | plain undecided coordinator reports =>
    refine iff_of_true (fun id result hreports => ?_) undecided
    exact honest_evolves hw hhonest hevolves (reports id result hreports)
  | @found run e undecided get ended =>
    refine iff_of_true (fun id result hreports => ?_) undecided
    cases reports_settle hreports with
    | inl hnew =>
      obtain ⟨rfl, rfl⟩ := hnew
      exact ⟨run, get, rfl, fun hne => absurd rfl hne⟩
    | inr hold => exact hhonest id result hold
  | exited e exit thread last advance call =>
    rw [advance]
    exact honest_exit_iff hK hw hhonest thread last call

/-- The results are honest in every state of a run exactly if no execution makes its last call on
a run that has ended another way. -/
theorem candidates_honest_iff (h : Host) (novaActorId modelId policyVersion : String) (events : List Event)
    (hdistinct : ∀ key ∈ events.filterMap Event.asks, ∀ key' ∈ events.filterMap Event.asks,
      runId h key = runId h key' → key = key') :
    (∀ n, ((events.take n).foldl (step h) (init novaActorId modelId policyVersion)).Honest) ↔
      Along (step h) (Undecided h) (init novaActorId modelId policyVersion) events := by
  have hK : Distinct h (· ∈ events.filterMap Event.asks) :=
    fun key key' hkey hkey' heq => hdistinct key hkey key' hkey' heq
  have hasks : ∀ event ∈ events, ∀ key, event.asks = some key →
      key ∈ events.filterMap Event.asks :=
    fun event hevent key hkey => List.mem_filterMap.mpr ⟨event, hevent, hkey⟩
  have hnone : ∀ id result, ¬(init novaActorId modelId policyVersion).Reports id result := by
    intro id result hreports
    cases hreports with
    | inl hkept => cases hkept
    | inr hreturning =>
      obtain ⟨e, heq, -⟩ := hreturning
      cases heq
  apply Along.always_iff (I := Kept h (· ∈ events.filterMap Event.asks))
  · exact fun w event hevent hw => (outcome h w event).kept hK hw (hasks event hevent)
  · intro w event hevent hw hhonest
    exact (outcome h w event).honest_iff hK hw (hasks event hevent) hhonest
  · obtain ⟨hsound, hquiet⟩ :=
      @AgentTriggerCoordinator.sound_init h (· ∈ events.filterMap Event.asks) novaActorId
    exact ⟨hsound, hquiet, fun id result hreports => absurd hreports (hnone id result)⟩
  · exact fun id result hreports => absurd hreports (hnone id result)

def lessonRun : String :=
  runId .ascii (AgentTriggerCoordinator.lessonRoom, "0b3d6ad8-53a0-4c0c-8f57-6a6d6c1d1a01")

/-- A learner asks the agent, and the provider begins to answer. -/
def answering : List Event :=
  [ .call (.registerEvent (AgentTriggerCoordinator.lessonEvent
      "0b3d6ad8-53a0-4c0c-8f57-6a6d6c1d1a01" 4)),
    .call (.request (AgentTriggerCoordinator.lessonTrigger "0b3d6ad8-53a0-4c0c-8f57-6a6d6c1d1a01")),
    .execute ⟨lessonRun, ⟨AgentTriggerCoordinator.lessonRoom, (4, 4), [], []⟩, false⟩,
    .advance, .answered false, .advance, .prepared, .advance, .chunk "Which evidence?" ]

/-- The provider ends, and the candidate is returned. -/
def returned : List Event := [.ended, .advance, .advance]

theorem candidates_honest_answering :
    ((answering ++ returned).foldl (step .ascii)
      (init "nova" "fixture-socratic-v1" "socratic-policy-v1")).Honest :=
  (candidates_honest_iff .ascii "nova" "fixture-socratic-v1" "socratic-policy-v1"
    (answering ++ returned) (by decide +kernel)).mpr (by decide +kernel)
    (answering ++ returned).length

/-- The teacher disables the agent while the provider is streaming, and the provider ends. -/
def disabledAnswer : World :=
  (answering ++ .call (.setEnabled AgentTriggerCoordinator.lessonRoom false) ::
    returned.take 2).foldl (step .ascii) (init "nova" "fixture-socratic-v1" "socratic-policy-v1")

/-- The coordinator has cancelled the run, and the runner still returns the text as a completed
candidate. -/
theorem disabled_run_completes : ¬disabledAnswer.Honest := by
  intro hhonest
  obtain ⟨hresult, hstate⟩ :
      (disabledAnswer.results.get? lessonRun).map
          (fun result : CandidateResult => (result.state, result.text)) =
        some (.completed, "Which evidence?") ∧
      (disabledAnswer.coordinator.get lessonRun).map (fun run : AgentRun => run.state) =
        .ok .cancelled := by
    decide +kernel
  obtain ⟨result, hget, hpair⟩ := Option.map_eq_some_iff.mp hresult
  obtain ⟨run, hrun, hsame, -⟩ := hhonest lessonRun result (.inl hget)
  rw [hrun] at hstate
  have hcancelled : run.state = .cancelled := Except.ok.inj hstate
  have hcompleted : result.state = .completed := congrArg Prod.fst hpair
  rw [hcompleted, hcancelled] at hsame
  cases hsame

end World

end LearningOrbit.Shadow
