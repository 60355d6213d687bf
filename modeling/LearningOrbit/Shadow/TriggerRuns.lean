import LearningOrbit.Shadow.Trigger
import LearningOrbit.Uuid

/-!
# Runs of the coordinator

Both indexes hold the same runs, a room has at most one active run, and none while its agent is
disabled, whatever the calls. A run keeps what it was requested for, and stays in a final state.
-/

namespace LearningOrbit.Shadow

open LearningOrbit (Dict Host)

theorem AgentRunState.not_active_iff {s : AgentRunState} :
    s.active = false ↔ s ∈ [.completed, .blockedByPolicy, .cancelled, .failed] := by
  cases s <;> decide

/-- The ids of the runs tell the triggers apart. -/
def Distinct (h : Host) (K : String × String → Prop) : Prop :=
  ∀ key key', K key → K key' → runId h key = runId h key' → key = key'

namespace AgentTriggerCoordinator

/-- The runs of requested triggers, the same in both indexes. -/
structure Sound (h : Host) (K : String × String → Prop) (c : AgentTriggerCoordinator) : Prop where
  events : ∀ id event, c.events.get? id = some event → event.eventId = id
  named : ∀ id run, c.runs.get? id = some run →
    K run.key ∧ run.agentRunId = id ∧ id = runId h run.key
  listed : ∀ id run, c.runs.get? id = some run → c.runsByTrigger.get? run.key = some run
  found : ∀ key run, c.runsByTrigger.get? key = some run →
    run.key = key ∧ c.runs.get? run.agentRunId = some run
  oneActive : ∀ id id' run run', c.runs.get? id = some run → c.runs.get? id' = some run' →
    run.roomId = run'.roomId → run.active = true → run'.active = true → id = id'

/-- A room whose agent is disabled has no active run. -/
def Quiet (c : AgentTriggerCoordinator) : Prop :=
  ∀ id run, c.runs.get? id = some run → c.isEnabled run.roomId = false → run.active = false

/-- Every run is still there, no version is lower, and a run in a final state is as it was. -/
def Evolves (c c' : AgentTriggerCoordinator) : Prop :=
  ∀ id run, c.runs.get? id = some run → ∃ run', c'.runs.get? id = some run' ∧
    run'.key = run.key ∧ run.version ≤ run'.version ∧ (run.active = false → run' = run)

theorem Evolves.refl (c : AgentTriggerCoordinator) : Evolves c c :=
  fun _ run hrun => ⟨run, hrun, rfl, Nat.le_refl _, fun _ => rfl⟩

theorem Evolves.trans {c c' c'' : AgentTriggerCoordinator} (hc : Evolves c c')
    (hc' : Evolves c' c'') : Evolves c c'' := by
  intro id run hrun
  obtain ⟨run', hrun', hkey, hversion, hfinal⟩ := hc id run hrun
  obtain ⟨run'', hrun'', hkey', hversion', hfinal'⟩ := hc' id run' hrun'
  refine ⟨run'', hrun'', hkey'.trans hkey, Nat.le_trans hversion hversion', fun hactive => ?_⟩
  have hsame := hfinal hactive
  subst hsame
  exact hfinal' hactive

variable {h : Host} {K : String × String → Prop} {c : AgentTriggerCoordinator}

theorem runs_store (run : AgentRun) (id : String) :
    (c.store run).runs.get? id = if id = run.agentRunId then some run else c.runs.get? id :=
  Dict.get?_set ..

theorem runsByTrigger_store (run : AgentRun) (key : String × String) :
    (c.store run).runsByTrigger.get? key =
      if key = run.key then some run else c.runsByTrigger.get? key :=
  Dict.get?_set ..

/-- A requested run may be stored if no other run of its room is active with it. -/
theorem Sound.store (hK : Distinct h K) (hc : Sound h K c) {run : AgentRun} (hkey : K run.key)
    (hid : run.agentRunId = runId h run.key)
    (hone : run.active = true → ∀ id other, c.runs.get? id = some other →
      other.roomId = run.roomId → other.active = true → id = run.agentRunId) :
    Sound h K (c.store run) := by
  constructor
  · exact hc.events
  · intro id other hother
    rw [runs_store] at hother
    split at hother
    · rename_i heq
      cases hother
      exact ⟨hkey, heq.symm, heq.trans hid⟩
    · exact hc.named id other hother
  · intro id other hother
    rw [runs_store] at hother
    rw [runsByTrigger_store]
    split at hother
    · cases hother
      exact if_pos rfl
    · rename_i hne
      obtain ⟨hother_key, -, hother_id⟩ := hc.named id other hother
      rw [if_neg (fun heq => hne (by rw [hother_id, hid, heq]))]
      exact hc.listed id other hother
  · intro key other hother
    rw [runsByTrigger_store] at hother
    rw [runs_store]
    split at hother
    · rename_i heq
      cases hother
      exact ⟨heq.symm, if_pos rfl⟩
    · rename_i hne
      obtain ⟨hother_key, hget⟩ := hc.found key other hother
      obtain ⟨hother_K, -, hother_id⟩ := hc.named _ other hget
      refine ⟨hother_key, ?_⟩
      rw [if_neg (fun heq => hne ?_)]
      · exact hget
      · rw [← hother_key]
        exact hK _ _ hother_K hkey (by rw [← hother_id, heq, hid])
  · intro id id' first second hfirst hsecond hroom hactive hactive'
    rw [runs_store] at hfirst hsecond
    split at hfirst
    · rename_i heq
      cases hfirst
      split at hsecond
      · rename_i heq'
        rw [heq, heq']
      · rw [heq]
        exact (hone hactive id' second hsecond hroom.symm hactive').symm
    · split at hsecond
      · rename_i heq'
        cases hsecond
        rw [heq']
        exact hone hactive' id first hfirst hroom hactive
      · exact hc.oneActive id id' first second hfirst hsecond hroom hactive hactive'

theorem Evolves.store {run : AgentRun} (hrun : ∀ old, c.runs.get? run.agentRunId = some old →
    run.key = old.key ∧ old.version ≤ run.version ∧ old.active = true) :
    Evolves c (c.store run) := by
  intro id old hold
  rw [runs_store]
  by_cases heq : id = run.agentRunId
  · subst heq
    obtain ⟨hkey, hversion, hactive⟩ := hrun old hold
    refine ⟨run, if_pos rfl, hkey, hversion, fun hfinal => ?_⟩
    rw [hactive] at hfinal
    cases hfinal
  · exact ⟨old, by rw [if_neg heq, hold], rfl, Nat.le_refl _, fun _ => rfl⟩

/-! ## One run moves -/

/-- What a transition does: nothing to a run in a final state, else it stores the moved run. -/
theorem transition_cases (hc : Sound h K c) {id : String} {state : AgentRunState}
    {failureCode : Option String} {result : AgentTriggerCoordinator × AgentRun}
    (h' : c.transition id state failureCode = .ok result) :
    ∃ run, c.runs.get? id = some run ∧ ((run.active = false ∧ result = (c, run)) ∨
      (run.active = true ∧ ∃ state' failureCode', result =
          (c.store (run.moved state' failureCode'), run.moved state' failureCode') ∧
        (state' = state ∨ c.isEnabled run.roomId = false ∧ state' = .cancelled) ∧
        (c.isEnabled run.roomId = false → state' ≠ .completed))) := by
  unfold transition at h'
  cases hrun : c.runs.get? id with
  | none =>
    rw [hrun] at h'
    cases h'
  | some run =>
    rw [hrun] at h'
    dsimp only at h'
    refine ⟨run, rfl, ?_⟩
    cases hactive : run.active with
    | false =>
      rw [if_pos (AgentRunState.not_active_iff.mp hactive)] at h'
      cases h'
      exact .inl ⟨rfl, rfl⟩
    | true =>
      have hgoing : run.state ∉ [.completed, .blockedByPolicy, .cancelled, .failed] := by
        intro hfinal
        rw [AgentRun.active, AgentRunState.not_active_iff.mpr hfinal] at hactive
        cases hactive
      rw [if_neg hgoing] at h'
      obtain ⟨-, hid, -⟩ := hc.named id run hrun
      subst hid
      by_cases hdisabled : state = .completed ∧ c.isEnabled run.roomId = false
      · rw [if_pos hdisabled] at h'
        cases h'
        exact .inr ⟨rfl, .cancelled, some "AGENT_DISABLED", rfl, .inr ⟨hdisabled.2, rfl⟩, by simp⟩
      · rw [if_neg hdisabled] at h'
        cases h'
        exact .inr ⟨rfl, state, failureCode, rfl, .inl rfl, fun hroom heq => hdisabled ⟨heq, hroom⟩⟩

theorem cancel_eq (c : AgentTriggerCoordinator) (id reason : String) :
    c.cancel id reason = c.transition id .cancelled (some reason) := by
  unfold cancel
  cases hrun : c.runs.get? id with
  | none =>
    unfold transition
    rw [hrun]
  | some run =>
    dsimp only
    by_cases hfinal : run.state ∈ [.completed, .blockedByPolicy, .failed]
    · have hfinal' : run.state ∈ [.completed, .blockedByPolicy, .cancelled, .failed] := by
        revert hfinal
        cases run.state <;> decide
      unfold transition
      rw [if_pos hfinal, hrun]
      exact (if_pos hfinal').symm
    · rw [if_neg hfinal]

/-- What a call does to the runs. -/
inductive Effect (h : Host) (K : String × String → Prop) (c : AgentTriggerCoordinator) :
    Call → AgentTriggerCoordinator → Prop
  | none {call c'} (runs : c'.runs = c.runs) (runsByTrigger : c'.runsByTrigger = c.runsByTrigger)
      (enabled : c'.enabled = c.enabled)
      (events : ∀ id event, c'.events.get? id = some event → event.eventId = id) : Effect h K c call c'
  | enabled (roomId) :
      Effect h K c (.setEnabled roomId true) { c with enabled := c.enabled.set roomId true }
  | disabled (roomId) : Effect h K c (.setEnabled roomId false) (c.setEnabled roomId false).1
  | moved {call run} (id) (state failureCode) (found : c.runs.get? id = some run)
      (active : run.active = true) (allowed : c.isEnabled run.roomId = false → state ≠ .completed) :
      Effect h K c call (c.store (run.moved state failureCode))
  | fresh {call run} (key : K run.key) (id : run.agentRunId = runId h run.key)
      (enabled : c.isEnabled run.roomId = true) (unclaimed : c.runsByTrigger.get? run.key = .none)
      (alone : c.activeRuns run.roomId = []) : Effect h K c call (c.store run)

theorem effect_same (hc : Sound h K c) (call : Call) : Effect h K c call c :=
  .none rfl rfl rfl hc.events

theorem effect_transition (hc : Sound h K c) (call : Call) (id : String) (state : AgentRunState)
    (failureCode : Option String) :
    Effect h K c call ((((c.transition id state failureCode).toOption).map (·.1)).getD c) := by
  cases h' : c.transition id state failureCode with
  | error e => exact effect_same hc call
  | ok result =>
    obtain ⟨run, hrun, hcases⟩ := transition_cases hc h'
    cases hcases with
    | inl hfinal =>
      rw [hfinal.2]
      exact effect_same hc call
    | inr hmoved =>
      obtain ⟨hactive, state', failureCode', rfl, -, hallowed⟩ := hmoved
      exact .moved id state' failureCode' hrun hactive hallowed

/-- A trigger that is let through is about an event registered under its id, in an enabled room. -/
theorem triggerEvent_ok (hc : Sound h K c) {trigger : AgentTrigger} {event : TriggerEvent}
    (h' : c.triggerEvent trigger = .ok event) :
    event.eventId = trigger.triggerEventId ∧ c.isEnabled trigger.roomId = true := by
  unfold triggerEvent at h'
  cases hget : c.events.get? trigger.triggerEventId with
  | none =>
    rw [hget] at h'
    cases h'
  | some registered =>
    have hid := hc.events _ registered hget
    rw [hget] at h'
    dsimp only at h'
    split at h'
    · cases h'
    split at h'
    · cases h'
    split at h'
    · cases h'
    by_cases hdisabled : c.isEnabled trigger.roomId = false
    · rw [if_pos hdisabled] at h'
      cases h'
    rw [if_neg hdisabled] at h'
    split at h'
    · cases h'
    cases h'
    exact ⟨hid, by simpa using hdisabled⟩

theorem effect_request (hc : Sound h K c) (call : Call) {trigger : AgentTrigger}
    (hkey : K trigger.key) :
    Effect h K c call ((((c.request h trigger).toOption).map (·.1)).getD c) := by
  cases h' : c.request h trigger with
  | error e => exact effect_same hc call
  | ok result =>
    obtain ⟨event, hevent, h'⟩ := bind_eq_ok.mp h'
    obtain ⟨hid, henabled⟩ := triggerEvent_ok hc hevent
    cases hexisting : c.runsByTrigger.get? trigger.key with
    | some existing =>
      rw [hexisting] at h'
      cases h'
      exact effect_same hc call
    | none =>
      rw [hexisting] at h'
      dsimp only at h'
      by_cases hactive : c.activeRuns trigger.roomId ≠ []
      · rw [if_pos hactive] at h'
        cases h'
      rw [if_neg hactive] at h'
      cases h'
      have hrun : (newRun h trigger event).key = trigger.key :=
        congrArg (Prod.mk trigger.roomId) hid
      have hstore : c.store (newRun h trigger event) = { c with
          runsByTrigger := c.runsByTrigger.set trigger.key (newRun h trigger event)
          runs := c.runs.set (runId h trigger.key) (newRun h trigger event) } := by
        unfold store
        rw [hrun]
        rfl
      have hfresh : Effect h K c call (c.store (newRun h trigger event)) := by
        refine .fresh (hrun ▸ hkey) ?_ henabled (hrun ▸ hexisting) (not_not.mp hactive)
        rw [hrun]
        rfl
      rw [hstore] at hfresh
      exact hfresh

theorem effect (hc : Sound h K c) {call : Call} (hcall : ∀ key, call.asks = some key → K key) :
    Effect h K c call (c.after h call) := by
  cases call with
  | registerEvent event =>
    refine .none rfl rfl rfl fun id other hother => ?_
    have hget : (c.events.set event.eventId event).get? id = some other := hother
    rw [Dict.get?_set] at hget
    split at hget
    · rename_i heq
      cases hget
      exact heq.symm
    · exact hc.events id other hget
  | setEnabled roomId enabled =>
    cases enabled with
    | true => exact .enabled roomId
    | false => exact .disabled roomId
  | setRoomStatus roomId status =>
    change Effect h K c _ (((c.setRoomStatus roomId status).toOption).getD c)
    unfold setRoomStatus
    split
    · exact .none rfl rfl rfl hc.events
    · exact effect_same hc _
  | request trigger => exact effect_request hc _ (hcall trigger.key rfl)
  | transition id state failureCode => exact effect_transition hc _ id state failureCode
  | cancel id reason =>
    change Effect h K c _ ((((c.cancel id reason).toOption).map (·.1)).getD c)
    rw [cancel_eq]
    exact effect_transition hc _ id .cancelled (some reason)

/-! ## What every call keeps -/

theorem mem_activeRuns {roomId : String} {run : AgentRun} :
    run ∈ c.activeRuns roomId ↔
      (∃ id, c.runs.get? id = some run) ∧ run.roomId = roomId ∧ run.active = true := by
  unfold activeRuns
  rw [List.mem_filter, Dict.mem_values, Bool.and_eq_true, decide_eq_true_eq]

theorem foldl_store (l : List AgentRun) (f : AgentRun → AgentRun) (c : AgentTriggerCoordinator) :
    (l.foldl (fun c run => c.store (f run)) c).runs =
        l.foldl (fun d run => d.set (f run).agentRunId (f run)) c.runs ∧
      (l.foldl (fun c run => c.store (f run)) c).enabled = c.enabled := by
  induction l generalizing c with
  | nil => exact ⟨rfl, rfl⟩
  | cons run l ih => exact ih (c.store (f run))

/-- Disabling moves the active runs of the room and no others. -/
theorem runs_disabled (hc : Sound h K c) {roomId id : String} {run : AgentRun}
    (hrun : c.runs.get? id = some run) :
    (c.setEnabled roomId false).1.runs.get? id =
      some (if run.roomId = roomId ∧ run.active = true then
        run.moved .cancelled (some "AGENT_DISABLED") else run) := by
  obtain ⟨-, hid, -⟩ := hc.named id run hrun
  have hruns : (c.setEnabled roomId false).1.runs = (c.activeRuns roomId).foldl
      (fun d run => d.set run.agentRunId (run.moved .cancelled (some "AGENT_DISABLED"))) c.runs :=
    (foldl_store _ _ _).1
  rw [hruns]
  by_cases hmoves : run.roomId = roomId ∧ run.active = true
  · have hmem : id ∈ (c.activeRuns roomId).map (·.agentRunId) :=
      List.mem_map.mpr ⟨run, mem_activeRuns.mpr ⟨⟨id, hrun⟩, hmoves⟩, hid⟩
    obtain ⟨other, hother, hother_id, hget⟩ := Dict.get?_foldl_set_of_mem
      (fun run : AgentRun => run.agentRunId)
      (fun run => run.moved .cancelled (some "AGENT_DISABLED")) c.runs hmem
    obtain ⟨⟨id', hother⟩, -⟩ := mem_activeRuns.mp hother
    have hsame : id' = id := (hc.named id' other hother).2.1.symm.trans hother_id
    rw [hsame, hrun] at hother
    cases hother
    rw [hget, if_pos hmoves]
  · have hnot : id ∉ (c.activeRuns roomId).map (·.agentRunId) := by
      intro hmem
      obtain ⟨other, hother, hother_id⟩ := List.mem_map.mp hmem
      obtain ⟨⟨id', hget⟩, hactive⟩ := mem_activeRuns.mp hother
      have hsame : id' = id := (hc.named id' other hget).2.1.symm.trans hother_id
      rw [hsame, hrun] at hget
      cases hget
      exact hmoves hactive
    rw [Dict.get?_foldl_set_of_not_mem hnot, hrun, if_neg hmoves]

/-- No run comes with disabling. -/
theorem runs_disabled_none (hc : Sound h K c) {roomId id : String} (hrun : c.runs.get? id = none) :
    (c.setEnabled roomId false).1.runs.get? id = none := by
  have hruns : (c.setEnabled roomId false).1.runs = (c.activeRuns roomId).foldl
      (fun d run => d.set run.agentRunId (run.moved .cancelled (some "AGENT_DISABLED"))) c.runs :=
    (foldl_store _ _ _).1
  rw [hruns, Dict.get?_foldl_set_of_not_mem ?_, hrun]
  intro hmem
  obtain ⟨other, hother, hother_id⟩ := List.mem_map.mp hmem
  obtain ⟨⟨id', hget⟩, -⟩ := mem_activeRuns.mp hother
  have hsame : id' = id := (hc.named id' other hget).2.1.symm.trans hother_id
  rw [hsame, hrun] at hget
  cases hget

theorem Sound.moved (hK : Distinct h K) (hc : Sound h K c) {id : String} {run : AgentRun}
    (hrun : c.runs.get? id = some run) (hactive : run.active = true) (state : AgentRunState)
    (failureCode : Option String) : Sound h K (c.store (run.moved state failureCode)) := by
  obtain ⟨hkey, hid, hname⟩ := hc.named id run hrun
  refine hc.store hK hkey (hid.trans hname) fun _ id' other hother hroom hother_active => ?_
  exact (hc.oneActive id' id other run hother hrun hroom hother_active hactive).trans hid.symm

theorem Sound.disabled (hK : Distinct h K) (hc : Sound h K c) (roomId : String) :
    Sound h K (c.setEnabled roomId false).1 := by
  have hstart : Sound h K { c with enabled := c.enabled.set roomId false } :=
    ⟨hc.events, hc.named, hc.listed, hc.found, hc.oneActive⟩
  have hlist : ∀ run ∈ c.activeRuns roomId, K run.key ∧ run.agentRunId = runId h run.key := by
    intro run hrun
    obtain ⟨⟨id, hget⟩, -⟩ := mem_activeRuns.mp hrun
    obtain ⟨hkey, hid, hname⟩ := hc.named id run hget
    exact ⟨hkey, hid.trans hname⟩
  change Sound h K ((c.activeRuns roomId).foldl
    (fun c run => c.store (run.moved .cancelled (some "AGENT_DISABLED")))
    { c with enabled := c.enabled.set roomId false })
  generalize c.activeRuns roomId = l at hlist
  generalize ({ c with enabled := c.enabled.set roomId false } : AgentTriggerCoordinator) = d
    at hstart
  induction l generalizing d with
  | nil => exact hstart
  | cons run l ih =>
    obtain ⟨hkey, hname⟩ := hlist run List.mem_cons_self
    refine ih (fun other hother => hlist other (List.mem_cons_of_mem run hother)) _ ?_
    exact hstart.store hK hkey hname fun hactive => by cases hactive

variable {call : Call} {c' : AgentTriggerCoordinator}

theorem Effect.sound (hK : Distinct h K) (hc : Sound h K c) (he : Effect h K c call c') :
    Sound h K c' := by
  cases he with
  | none runs runsByTrigger enabled events =>
    refine ⟨events, ?_, ?_, ?_, ?_⟩
    · rw [runs]
      exact hc.named
    · rw [runs, runsByTrigger]
      exact hc.listed
    · rw [runs, runsByTrigger]
      exact hc.found
    · rw [runs]
      exact hc.oneActive
  | enabled roomId => exact ⟨hc.events, hc.named, hc.listed, hc.found, hc.oneActive⟩
  | disabled roomId => exact hc.disabled hK roomId
  | moved id state failureCode found active allowed => exact hc.moved hK found active _ _
  | fresh key id enabled unclaimed alone =>
    refine hc.store hK key id fun _ id' other hother hroom hactive => ?_
    have hmem := mem_activeRuns.mpr ⟨⟨id', hother⟩, hroom, hactive⟩
    rw [alone] at hmem
    cases hmem

theorem isEnabled_disabled (roomId room : String) :
    (c.setEnabled roomId false).1.isEnabled room =
      if room = roomId then false else c.isEnabled room := by
  have henabled : (c.setEnabled roomId false).1.enabled = c.enabled.set roomId false :=
    (foldl_store _ _ _).2
  unfold isEnabled
  rw [henabled, Dict.get?_set]
  split
  · rfl
  · rfl

theorem Effect.quiet (hc : Sound h K c) (hq : Quiet c) (he : Effect h K c call c') : Quiet c' := by
  intro id run hrun hdisabled
  cases he with
  | none runs runsByTrigger enabled events =>
    unfold isEnabled at hdisabled
    rw [runs] at hrun
    rw [enabled] at hdisabled
    exact hq id run hrun hdisabled
  | enabled roomId =>
    refine hq id run hrun ?_
    have hget : ((c.enabled.set roomId true).get? run.roomId).getD true = false := hdisabled
    rw [Dict.get?_set] at hget
    split at hget
    · cases hget
    · exact hget
  | disabled roomId =>
    rw [isEnabled_disabled] at hdisabled
    cases hold : c.runs.get? id with
    | none =>
      rw [runs_disabled_none hc hold] at hrun
      cases hrun
    | some old =>
      rw [runs_disabled hc hold] at hrun
      cases hrun
      split
      · rfl
      · rename_i hstays
        rw [if_neg hstays] at hdisabled
        cases hactive : old.active with
        | false => rfl
        | true =>
          have hroom : old.roomId ≠ roomId := fun heq => hstays ⟨heq, hactive⟩
          rw [if_neg hroom] at hdisabled
          rw [hq id old hold hdisabled] at hactive
          cases hactive
  | @moved _ old id' state failureCode found active allowed =>
    rw [runs_store] at hrun
    split at hrun
    · cases hrun
      have hold := hq id' old found hdisabled
      rw [active] at hold
      cases hold
    · exact hq id run hrun hdisabled
  | @fresh _ new key id' enabled unclaimed alone =>
    rw [runs_store] at hrun
    split at hrun
    · cases hrun
      have hroom : c.isEnabled run.roomId = false := hdisabled
      rw [enabled] at hroom
      cases hroom
    · exact hq id run hrun hdisabled

theorem Effect.evolves (hc : Sound h K c) (hK : Distinct h K) (he : Effect h K c call c') :
    Evolves c c' := by
  cases he with
  | none runs runsByTrigger enabled events =>
    unfold Evolves
    rw [runs]
    exact Evolves.refl c
  | enabled roomId => exact Evolves.refl c
  | disabled roomId =>
    intro id run hrun
    refine ⟨_, runs_disabled hc hrun, ?_⟩
    split
    · rename_i hmoves
      refine ⟨rfl, Nat.le_succ _, fun hfinal => ?_⟩
      rw [hmoves.2] at hfinal
      cases hfinal
    · exact ⟨rfl, Nat.le_refl _, fun _ => rfl⟩
  | @moved _ run id state failureCode found active allowed =>
    refine Evolves.store fun old hold => ?_
    have hid : (run.moved state failureCode).agentRunId = id := (hc.named id run found).2.1
    rw [hid, found] at hold
    cases hold
    exact ⟨rfl, Nat.le_succ _, active⟩
  | @fresh _ run key id enabled unclaimed alone =>
    refine Evolves.store fun old hold => ?_
    obtain ⟨hold_key, -, hold_id⟩ := hc.named _ old hold
    have hsame : run.key = old.key := hK _ _ key hold_key (id.symm.trans hold_id)
    have hlisted := hc.listed _ old hold
    rw [← hsame, unclaimed] at hlisted
    cases hlisted

/-- While its agent is disabled, a room has the runs it had. -/
theorem Effect.frozen (hc : Sound h K c) (hq : Quiet c) (he : Effect h K c call c') {room : String}
    (hdisabled : c.isEnabled room = false) (hcall : call ≠ .setEnabled room true) :
    c'.isEnabled room = false ∧
      ∀ id run, c'.runs.get? id = some run → run.roomId = room → c.runs.get? id = some run := by
  cases he with
  | none runs runsByTrigger enabled events =>
    unfold isEnabled
    rw [enabled, runs]
    exact ⟨hdisabled, fun _ _ hrun _ => hrun⟩
  | enabled roomId =>
    refine ⟨?_, fun _ _ hrun _ => hrun⟩
    have hne : room ≠ roomId := fun heq => hcall (by rw [heq])
    unfold isEnabled
    rw [Dict.get?_set_of_ne _ _ hne]
    exact hdisabled
  | disabled roomId =>
    rw [isEnabled_disabled, hdisabled, ite_self]
    refine ⟨rfl, fun id run hrun hroom => ?_⟩
    cases hold : c.runs.get? id with
    | none =>
      rw [runs_disabled_none hc hold] at hrun
      cases hrun
    | some old =>
      rw [runs_disabled hc hold] at hrun
      cases hrun
      split at hroom
      · rename_i hmoves
        have hactive := hq id old hold (hroom ▸ hdisabled)
        rw [hmoves.2] at hactive
        cases hactive
      · rename_i hstays
        rw [if_neg hstays]
  | @moved _ old id' state failureCode found active allowed =>
    refine ⟨hdisabled, fun id run hrun hroom => ?_⟩
    rw [runs_store] at hrun
    split at hrun
    · cases hrun
      have hactive := hq id' old found (hroom ▸ hdisabled)
      rw [active] at hactive
      cases hactive
    · exact hrun
  | @fresh _ new key id' enabled unclaimed alone =>
    refine ⟨hdisabled, fun id run hrun hroom => ?_⟩
    rw [runs_store] at hrun
    split at hrun
    · cases hrun
      rw [hroom, hdisabled] at enabled
      cases enabled
    · exact hrun

/-! ## Runs -/

/-- The coordinator after some calls. -/
def run (h : Host) (novaActorId : String) (calls : List Call) : AgentTriggerCoordinator :=
  calls.foldl (after h) (init novaActorId)

theorem sound_init (novaActorId : String) : Sound h K (init novaActorId) ∧ Quiet (init novaActorId) := by
  refine ⟨⟨?_, ?_, ?_, ?_, ?_⟩, ?_⟩
  · intro _ _ hget
    cases hget
  · intro _ _ hget
    cases hget
  · intro _ _ hget
    cases hget
  · intro _ _ hget
    cases hget
  · intro _ _ _ _ hget
    cases hget
  · intro _ _ hget
    cases hget

theorem calls_keep (hK : Distinct h K) (hc : Sound h K c) (hq : Quiet c) {calls : List Call}
    (hcalls : ∀ key ∈ calls.filterMap Call.asks, K key) :
    Sound h K (calls.foldl (after h) c) ∧ Quiet (calls.foldl (after h) c) ∧
      Evolves c (calls.foldl (after h) c) := by
  induction calls generalizing c with
  | nil => exact ⟨hc, hq, Evolves.refl c⟩
  | cons call calls ih =>
    have he := effect hc fun key hkey => hcalls key (List.mem_filterMap.mpr ⟨call, by simp, hkey⟩)
    obtain ⟨hsound, hquiet, hevolves⟩ := ih (he.sound hK hc) (he.quiet hc hq) fun key hkey => by
      obtain ⟨other, hother, hasks⟩ := List.mem_filterMap.mp hkey
      exact hcalls key (List.mem_filterMap.mpr ⟨other, List.mem_cons_of_mem call hother, hasks⟩)
    exact ⟨hsound, hquiet, (he.evolves hc hK).trans hevolves⟩

theorem calls_frozen (hK : Distinct h K) (hc : Sound h K c) (hq : Quiet c) {calls : List Call}
    (hcalls : ∀ key ∈ calls.filterMap Call.asks, K key) {room : String}
    (hdisabled : c.isEnabled room = false) (hnever : .setEnabled room true ∉ calls) :
    (calls.foldl (after h) c).isEnabled room = false ∧
      ∀ id run, (calls.foldl (after h) c).runs.get? id = some run → run.roomId = room →
        c.runs.get? id = some run := by
  induction calls generalizing c with
  | nil => exact ⟨hdisabled, fun _ _ hrun _ => hrun⟩
  | cons call calls ih =>
    have he := effect hc fun key hkey => hcalls key (List.mem_filterMap.mpr ⟨call, by simp, hkey⟩)
    obtain ⟨hnext, hfrozen⟩ := he.frozen hc hq hdisabled fun heq => hnever (by simp [heq])
    obtain ⟨hlast, hrest⟩ := ih (he.sound hK hc) (he.quiet hc hq)
      (fun key hkey => by
        obtain ⟨other, hother, hasks⟩ := List.mem_filterMap.mp hkey
        exact hcalls key (List.mem_filterMap.mpr ⟨other, List.mem_cons_of_mem call hother, hasks⟩))
      hnext fun hmem => hnever (List.mem_cons_of_mem call hmem)
    exact ⟨hlast, fun id run hrun hroom => hfrozen id run (hrest id run hrun hroom) hroom⟩

/-- Both indexes hold the same runs, at most one of a trigger and at most one active of a room. -/
structure Mirrors (c : AgentTriggerCoordinator) : Prop where
  oneActive : ∀ id id' run run', c.runs.get? id = some run → c.runs.get? id' = some run' →
    run.roomId = run'.roomId → run.active = true → run'.active = true → id = id'
  oneRun : ∀ id id' run run', c.runs.get? id = some run → c.runs.get? id' = some run' →
    run.key = run'.key → id = id'
  byId : ∀ id run, c.runs.get? id = some run →
    run.agentRunId = id ∧ c.runsByTrigger.get? run.key = some run
  byTrigger : ∀ key run, c.runsByTrigger.get? key = some run →
    run.key = key ∧ c.runs.get? run.agentRunId = some run

theorem Sound.mirrors (hc : Sound h K c) : Mirrors c := by
  constructor
  · exact hc.oneActive
  · intro id id' run run' hrun hrun' hkey
    rw [(hc.named id run hrun).2.2, (hc.named id' run' hrun').2.2, hkey]
  · intro id run hrun
    exact ⟨(hc.named id run hrun).2.1, hc.listed id run hrun⟩
  · exact hc.found

/-- The room has no active run, and the completed ones were completed before. -/
def Silenced (room : String) (c c' : AgentTriggerCoordinator) : Prop :=
  ∀ id run, c'.runs.get? id = some run → run.roomId = room →
    run.active = false ∧ (run.state = .completed → c.runs.get? id = some run)

theorem silenced (hK : Distinct h K) (hc : Sound h K c) (hq : Quiet c) {since : List Call}
    (hsince : ∀ key ∈ since.filterMap Call.asks, K key) {room : String}
    (hnever : .setEnabled room true ∉ since) :
    Silenced room c ((Call.setEnabled room false :: since).foldl (after h) c) := by
  have he : Effect h K c (.setEnabled room false) (c.setEnabled room false).1 := .disabled room
  have hdisabled : (c.setEnabled room false).1.isEnabled room = false := by
    rw [isEnabled_disabled, if_pos rfl]
  have hsound := he.sound hK hc
  have hquiet := he.quiet hc hq
  obtain ⟨hstays, hfrozen⟩ := calls_frozen hK hsound hquiet hsince hdisabled hnever
  intro id run hrun hroom
  have hthen : (c.setEnabled room false).1.runs.get? id = some run := hfrozen id run hrun hroom
  refine ⟨hquiet id run hthen (hroom ▸ hdisabled), fun hcompleted => ?_⟩
  cases hold : c.runs.get? id with
  | none =>
    rw [runs_disabled_none hc hold] at hthen
    cases hthen
  | some old =>
    rw [runs_disabled hc hold] at hthen
    cases hthen
    split at hcompleted
    · cases hcompleted
    · rename_i hkept
      rw [if_neg hkept]

/-! ## Identifiers -/

theorem colon_not_mem {id : String} (hid : (Uuid.canonical id).isSome = true) : ':' ∉ id.toList := by
  intro hmem
  unfold Uuid.canonical at hid
  dsimp only at hid
  split at hid
  · rename_i hdigits
    have hlower : ':'.toLower ∈ (id.toList.filter (· ≠ '-')).map Char.toLower :=
      List.mem_map_of_mem (List.mem_filter.mpr ⟨hmem, by decide⟩)
    have hhex := List.all_eq_true.mp hdigits.2 _ hlower
    revert hhex
    decide
  · cases hid

/-- The name of a run says which room and which event it is about. -/
theorem runName_inj {key key' : String × String}
    (hkey : (Uuid.canonical key.1).isSome = true ∧ (Uuid.canonical key.2).isSome = true)
    (h' : runName key = runName key') : key = key' := by
  unfold runName at h'
  generalize "learning-orbit:agent:" = start at h'
  have hcolon : ":".toList = [':'] := by decide
  have hlist := congrArg String.toList h'
  rw [String.toList_append, String.toList_append, String.toList_append, String.toList_append,
    String.toList_append, String.toList_append, hcolon, List.append_assoc, List.append_assoc,
    List.append_assoc, List.append_assoc] at hlist
  have hsplit := List.append_cancel_left hlist
  rw [List.singleton_append, List.singleton_append,
    List.append_cons_inj_of_notMem (colon_not_mem hkey.1) (colon_not_mem hkey.2)] at hsplit
  exact Prod.ext (String.toList_injective hsplit.1) (String.toList_injective hsplit.2.2)

/-- For uuids, and as long as `uuid5` tells the names apart that it hashes, the coordinator keeps
one active run a room and one run a trigger, never goes back on a run, and lets no run of a
disabled room go on. -/
theorem coordinator_mirrors (h : Host) (novaActorId : String) (before later : List Call)
    (hids : ∀ key ∈ (before ++ later).filterMap Call.asks,
      (Uuid.canonical key.1).isSome = true ∧ (Uuid.canonical key.2).isSome = true)
    (hhash : ∀ key ∈ (before ++ later).filterMap Call.asks,
      ∀ key' ∈ (before ++ later).filterMap Call.asks,
        h.uuid5 NAMESPACE_URL (runName key) = h.uuid5 NAMESPACE_URL (runName key') →
          runName key = runName key') :
    Mirrors (run h novaActorId before) ∧
      Evolves (run h novaActorId before) (run h novaActorId (before ++ later)) ∧
      ∀ room earlier since, before = earlier ++ .setEnabled room false :: since →
        .setEnabled room true ∉ since →
          Silenced room (run h novaActorId earlier) (run h novaActorId before) := by
  have hK : Distinct h (· ∈ (before ++ later).filterMap Call.asks) := by
    intro key key' hkey hkey' heq
    exact runName_inj (hids key hkey) (hhash key hkey key' hkey' heq)
  obtain ⟨hinit, hquiet⟩ := @sound_init h (· ∈ (before ++ later).filterMap Call.asks) novaActorId
  have hbefore : ∀ key ∈ before.filterMap Call.asks, key ∈ (before ++ later).filterMap Call.asks := by
    intro key hkey
    rw [List.filterMap_append]
    exact List.mem_append_left _ hkey
  have hlater : ∀ key ∈ later.filterMap Call.asks, key ∈ (before ++ later).filterMap Call.asks := by
    intro key hkey
    rw [List.filterMap_append]
    exact List.mem_append_right _ hkey
  obtain ⟨hsound, hquiet', -⟩ := calls_keep hK hinit hquiet hbefore
  refine ⟨hsound.mirrors, ?_, ?_⟩
  · unfold run
    rw [List.foldl_append]
    exact (calls_keep hK hsound hquiet' hlater).2.2
  · rintro room earlier since rfl hnever
    rw [List.filterMap_append] at hbefore
    obtain ⟨hearlier, hquiet_earlier, -⟩ := calls_keep hK hinit hquiet fun key hkey =>
      hbefore key (List.mem_append_left _ hkey)
    unfold run
    rw [List.foldl_append]
    refine silenced hK hearlier hquiet_earlier (fun key hkey => ?_) hnever
    exact hbefore key (List.mem_append_right _ hkey)

def lessonRoom : String := "5a0a8a2e-8f0f-4a56-9d0e-0c9c9a3f6b11"

/-- A message of a learner that mentions the agent. -/
def lessonEvent (eventId : String) (roomSeq : Int) : TriggerEvent where
  eventId
  roomId := lessonRoom
  roomSeq
  actorId := "ana"
  actorKind := "human"
  mentions := ["nova"]
  active := true

def lessonTrigger (triggerEventId : String) : AgentTrigger :=
  ⟨lessonRoom, triggerEventId, "ana", "student"⟩

/-- A run is requested and begins. -/
def lessonCalls : List Call :=
  [ .registerEvent (lessonEvent "0b3d6ad8-53a0-4c0c-8f57-6a6d6c1d1a01" 4),
    .registerEvent (lessonEvent "0b3d6ad8-53a0-4c0c-8f57-6a6d6c1d1a02" 5),
    .request (lessonTrigger "0b3d6ad8-53a0-4c0c-8f57-6a6d6c1d1a01") ]

/-- The agent is disabled, the run is reported complete, and another is requested. -/
def disabledCalls : List Call :=
  [ .setEnabled lessonRoom false,
    .transition (runId .ascii (lessonRoom, "0b3d6ad8-53a0-4c0c-8f57-6a6d6c1d1a01")) .completed none,
    .request (lessonTrigger "0b3d6ad8-53a0-4c0c-8f57-6a6d6c1d1a02") ]

theorem coordinator_mirrors_lesson :
    Mirrors (run .ascii "nova" (lessonCalls ++ disabledCalls)) ∧
      Evolves (run .ascii "nova" (lessonCalls ++ disabledCalls))
        (run .ascii "nova" (lessonCalls ++ disabledCalls ++ [.setEnabled lessonRoom true])) ∧
      Silenced lessonRoom (run .ascii "nova" lessonCalls)
        (run .ascii "nova" (lessonCalls ++ disabledCalls)) := by
  obtain ⟨hmirrors, hevolves, hsilenced⟩ := coordinator_mirrors .ascii "nova"
    (lessonCalls ++ disabledCalls) [.setEnabled lessonRoom true] (by decide +kernel)
    (by decide +kernel)
  exact ⟨hmirrors, hevolves, hsilenced lessonRoom lessonCalls _ rfl (by decide +kernel)⟩

end AgentTriggerCoordinator

end LearningOrbit.Shadow
