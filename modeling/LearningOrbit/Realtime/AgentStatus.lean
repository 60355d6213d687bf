import Mathlib.Data.List.Basic

/-!
# The agent's status in the browser

`HydratedSessionState` merges the `agent_status` frames of the socket with the answers of the
agent's current state. The run goes by its own clock, the health and the switch by another.
A report that throws changes nothing.
-/

namespace LearningOrbit.Realtime

inductive AgentState
  | idle | queued | running | streaming | completed | blockedByPolicy | cancelled | failed
  deriving DecidableEq

inductive ServiceHealth
  | healthy | degraded | unavailable
  deriving DecidableEq

/-- A status; `updatedAt` is what `Date.parse` makes of the text, with `none` for `NaN`. -/
structure AgentStatusFrame where
  roomId : String
  agentRunId : Option String
  state : AgentState
  serviceHealth : ServiceHealth
  agentEnabled : Bool
  updatedAt : Option Int
  failureCode : Option String
  deriving DecidableEq

structure AgentRun where
  agentRunId : String
  state : AgentState
  failureCode : Option String
  updatedAt : Option Int

structure AgentCurrentState where
  roomId : String
  run : Option AgentRun
  serviceHealth : ServiceHealth
  agentEnabled : Bool
  updatedAt : Option Int

/-- `TERMINAL_AGENT_STATES`. -/
def AgentState.terminal : AgentState → Bool
  | .completed | .blockedByPolicy | .cancelled | .failed => true
  | _ => false

/-- `AGENT_PROGRESS_RANK`, with -1 where it has none. -/
def AgentState.progressRank : AgentState → Int
  | .queued => 0
  | .running => 1
  | .streaming => 2
  | _ => -1

/-- `AGENT_HEALTH_RANK`. -/
def ServiceHealth.rank : ServiceHealth → Nat
  | .healthy => 0
  | .degraded => 1
  | .unavailable => 2

def agentFrameIdentityIsValid (frame : AgentStatusFrame) : Bool :=
  if frame.state = .idle then frame.agentRunId = none && frame.failureCode = none
  else frame.agentRunId ≠ none

def acceptAgentRunTransition (previous next : AgentStatusFrame) (previousTime : Option Int)
    (nextTime : Int) (authoritativeReplacement : Bool) : Bool :=
  match previous.agentRunId, next.agentRunId, previousTime with
  | none, some _, some previousTime => previousTime < nextTime
  | none, _, _ => false
  | some _, none, _ => false
  | some _, _, none => false
  | some previousRun, some nextRun, some previousTime =>
    if nextTime < previousTime then false
    else if previousRun ≠ nextRun then
      previousTime < nextTime && (authoritativeReplacement || previous.state.terminal)
    else if previous.state = next.state then previousTime < nextTime
    else if previous.state.terminal then false
    else if next.state.terminal then true
    else previous.state.progressRank < next.state.progressRank

/-- The part of the session the agent's status is kept in. -/
structure AgentView where
  agentStatus : Option AgentStatusFrame
  agentRunUpdatedAt : Option Int
  agentMetaUpdatedAt : Option Int
  deriving DecidableEq

/-- A report whose frame and times have been read. -/
structure AgentReading where
  frame : AgentStatusFrame
  runTime : Int
  metaTime : Int
  authoritativeReplacement : Bool

namespace AgentView

def start : AgentView := ⟨none, none, none⟩

/-- `#mergeAgentFrame` of a frame and times that are valid. -/
def merge (v : AgentView) (r : AgentReading) : AgentView :=
  match v.agentStatus with
  | none =>
    ⟨some { r.frame with updatedAt := some (max r.runTime r.metaTime) }, some r.runTime,
      some r.metaTime⟩
  | some previous =>
    let acceptRun := acceptAgentRunTransition previous r.frame v.agentRunUpdatedAt r.runTime
      r.authoritativeReplacement
    let newerMeta := v.agentMetaUpdatedAt.all (· < r.metaTime)
    let sameMeta := v.agentMetaUpdatedAt = some r.metaTime
    let acceptHealth := newerMeta ||
      (sameMeta && previous.serviceHealth.rank < r.frame.serviceHealth.rank)
    let acceptEnabled := newerMeta || (sameMeta && previous.agentEnabled && !r.frame.agentEnabled)
    let runUpdatedAt := if acceptRun then some r.runTime else v.agentRunUpdatedAt
    let metaUpdatedAt := if newerMeta then some r.metaTime else v.agentMetaUpdatedAt
    -- a time that is missing counts for nothing in the maximum
    let combinedTime := (runUpdatedAt.merge max metaUpdatedAt)
    ⟨some
      { roomId := previous.roomId
        agentRunId := if acceptRun then r.frame.agentRunId else previous.agentRunId
        state := if acceptRun then r.frame.state else previous.state
        serviceHealth := if acceptHealth then r.frame.serviceHealth else previous.serviceHealth
        agentEnabled := if acceptEnabled then r.frame.agentEnabled else previous.agentEnabled
        updatedAt := combinedTime
        failureCode := if acceptRun then r.frame.failureCode else previous.failureCode },
      runUpdatedAt, metaUpdatedAt⟩

end AgentView

/-- What reaches the session about the agent. -/
inductive AgentReport
  | frame (frame : AgentStatusFrame)
  | current (current : AgentCurrentState)

/-- The frame that `#mergeAgentCurrent` makes of an answer. -/
def frameOf (current : AgentCurrentState) : AgentStatusFrame where
  roomId := current.roomId
  agentRunId := current.run.map (·.agentRunId)
  state := (current.run.map (·.state)).getD .idle
  serviceHealth := current.serviceHealth
  agentEnabled := current.agentEnabled
  updatedAt := current.updatedAt
  failureCode := current.run.bind (·.failureCode)

/-- `requireAgentStatusIdentity` holds of the frame. -/
def identified (frame : AgentStatusFrame) : Bool :=
  !((frame.state = .idle && (frame.agentRunId ≠ none || frame.failureCode ≠ none)) ||
    (frame.state ≠ .idle && frame.agentRunId = none))

/-- The checks of `#mergeAgentFrame`. -/
def reading (frame : AgentStatusFrame) (runTime metaTime : Option Int)
    (authoritativeReplacement : Bool) : Except String AgentReading :=
  if agentFrameIdentityIsValid frame then
    match runTime, metaTime with
    | some runTime, some metaTime => .ok ⟨frame, runTime, metaTime, authoritativeReplacement⟩
    | _, _ => .error "AGENT_STATUS_INVALID"
  else .error "AGENT_STATUS_INVALID"

/-- Read a report for the room; `schema` is the validator of server frames. -/
def readReport (schema : AgentStatusFrame → Bool) (roomId : String) :
    AgentReport → Except String AgentReading
  | .frame frame =>
    if frame.roomId ≠ roomId then .error "AGENT_STATUS_ROOM_MISMATCH"
    else reading frame frame.updatedAt frame.updatedAt false
  | .current current =>
    if current.roomId ≠ roomId then .error "AGENT_CURRENT_ROOM_MISMATCH"
    else if schema (frameOf current) && identified (frameOf current) then
      reading (frameOf current)
        (match current.run with
          | some run => run.updatedAt
          | none => current.updatedAt)
        current.updatedAt true
    else .error "INVALID_SERVER_FRAME"

/-- The view after a report, which stays as it was when the report throws. -/
def AgentView.receive (schema : AgentStatusFrame → Bool) (roomId : String) (v : AgentView)
    (report : AgentReport) : AgentView :=
  match readReport schema roomId report with
  | .error _ => v
  | .ok r => v.merge r

/-! ## What one report can do -/

/-- A run in the one state may come to be in the other. -/
def AgentState.Reaches (s s' : AgentState) : Prop :=
  s' = s ∨ s.terminal = false ∧ (s'.terminal = true ∨ s.progressRank < s'.progressRank)

theorem AgentState.Reaches.trans {a b c : AgentState} (h : a.Reaches b) (h' : b.Reaches c) :
    a.Reaches c := by
  rcases h with rfl | ⟨ha, hb⟩
  · exact h'
  · rcases h' with rfl | ⟨hb', hc⟩
    · exact .inr ⟨ha, hb⟩
    · rcases hb with hb | hlt
      · rw [hb] at hb'
        cases hb'
      · refine .inr ⟨ha, hc.imp_right fun hlt' => ?_⟩
        omega

/-- A terminal state stays, and streaming does not go back. -/
theorem AgentState.Reaches.spec {s s' : AgentState} (h : s.Reaches s') :
    (s.terminal = true → s' = s) ∧ (s = .streaming → s' ≠ .running ∧ s' ≠ .queued) := by
  constructor
  · intro hs
    rcases h with h | ⟨hnot, -⟩
    · exact h
    · rw [hs] at hnot
      cases hnot
  · rintro rfl
    rcases h with rfl | ⟨-, hs'⟩
    · decide
    · cases s' <;> simp_all [terminal, progressRank]

section

variable {previous next : AgentStatusFrame} {previousTime : Option Int} {nextTime : Int}
  {authoritative : Bool}

/-- A transition that is accepted is to a run, no earlier, and a step forward for the same run. -/
theorem accepted_cases
    (h : acceptAgentRunTransition previous next previousTime nextTime authoritative = true) :
    ∃ run time, next.agentRunId = some run ∧ previousTime = some time ∧ time ≤ nextTime ∧
      (previous.agentRunId = some run → previous.state.Reaches next.state) := by
  unfold acceptAgentRunTransition at h
  cases hnext : next.agentRunId with
  | none => cases hprev : previous.agentRunId <;> simp [hprev, hnext] at h
  | some run =>
    cases htime : previousTime with
    | none => cases hprev : previous.agentRunId <;> simp [hprev, hnext, htime] at h
    | some time =>
      cases hprev : previous.agentRunId with
      | none =>
        simp only [hprev, hnext, htime, decide_eq_true_eq] at h
        exact ⟨run, time, rfl, rfl, by omega, fun hrun => by cases hrun⟩
      | some previousRun =>
        simp only [hprev, hnext, htime] at h
        by_cases hold : nextTime < time
        · simp [hold] at h
        · refine ⟨run, time, rfl, rfl, by omega, fun hrun => ?_⟩
          have hsame : ¬previousRun ≠ run := by
            simpa using hrun
          rw [if_neg hold, if_neg hsame] at h
          by_cases heq : previous.state = next.state
          · exact .inl heq.symm
          · rw [if_neg heq] at h
            by_cases hterminal : previous.state.terminal = true
            · simp [hterminal] at h
            · rw [if_neg hterminal] at h
              refine .inr ⟨by simpa using hterminal, ?_⟩
              by_cases hdone : next.state.terminal = true
              · exact .inl hdone
              · rw [if_neg hdone] at h
                exact .inr (by simpa using h)

end

namespace AgentView

/-- The status and its two times come together, and an idle status names no run. -/
structure Whole (v : AgentView) : Prop where
  runTime : v.agentRunUpdatedAt.isSome = v.agentStatus.isSome
  metaTime : v.agentMetaUpdatedAt.isSome = v.agentStatus.isSome
  named : ∀ s, v.agentStatus = some s → (s.state = .idle ↔ s.agentRunId = none)

/-- What stands in a view stands in a later one, or has been replaced by something newer. -/
structure Later (v v' : AgentView) : Prop where
  runTime : ∀ t, v.agentRunUpdatedAt = some t → ∃ t', v'.agentRunUpdatedAt = some t' ∧ t ≤ t'
  metaTime : ∀ t, v.agentMetaUpdatedAt = some t → ∃ t', v'.agentMetaUpdatedAt = some t' ∧ t ≤ t'
  run : ∀ s, v.agentStatus = some s → ∃ s', v'.agentStatus = some s' ∧
    (s.agentRunId ≠ none → s'.agentRunId ≠ none)
  worse : ∀ s s', v.agentStatus = some s → v'.agentStatus = some s' →
    v.agentMetaUpdatedAt = v'.agentMetaUpdatedAt →
      s.serviceHealth.rank ≤ s'.serviceHealth.rank ∧
        (s'.agentEnabled = true → s.agentEnabled = true)

theorem Later.refl (v : AgentView) : Later v v where
  runTime t ht := ⟨t, ht, Int.le_refl t⟩
  metaTime t ht := ⟨t, ht, Int.le_refl t⟩
  run s hs := ⟨s, hs, id⟩
  worse s s' hs hs' _ := by
    rw [hs] at hs'
    cases hs'
    exact ⟨Nat.le_refl _, id⟩

/-- The time of the health is the same all along when it is the same at both ends. -/
theorem Later.trans {v v' v'' : AgentView} (hv : Whole v) (h : Later v v') (h' : Later v' v'') :
    Later v v'' where
  runTime t ht := by
    obtain ⟨t', ht', hle⟩ := h.runTime t ht
    obtain ⟨t'', ht'', hle'⟩ := h'.runTime t' ht'
    exact ⟨t'', ht'', by omega⟩
  metaTime t ht := by
    obtain ⟨t', ht', hle⟩ := h.metaTime t ht
    obtain ⟨t'', ht'', hle'⟩ := h'.metaTime t' ht'
    exact ⟨t'', ht'', by omega⟩
  run s hs := by
    obtain ⟨s', hs', hrun⟩ := h.run s hs
    obtain ⟨s'', hs'', hrun'⟩ := h'.run s' hs'
    exact ⟨s'', hs'', hrun' ∘ hrun⟩
  worse s s'' hs hs'' hmeta := by
    obtain ⟨s', hs', -⟩ := h.run s hs
    have hsome := hv.metaTime
    rw [hs, Option.isSome_some, Option.isSome_iff_exists] at hsome
    obtain ⟨t, ht⟩ := hsome
    obtain ⟨t', ht', hle⟩ := h.metaTime t ht
    obtain ⟨t'', ht'', hle'⟩ := h'.metaTime t' ht'
    have hend : t'' = t := by
      rw [ht, ht''] at hmeta
      exact (Option.some.inj hmeta).symm
    have hfirst := h.worse s s' hs hs' (by rw [ht, ht']; congr 1; omega)
    have hsecond := h'.worse s' s'' hs' hs'' (by rw [ht', ht'']; congr 1; omega)
    exact ⟨Nat.le_trans hfirst.1 hsecond.1, hfirst.2 ∘ hsecond.2⟩

section

variable {v : AgentView} {r : AgentReading}

theorem named_of_valid {frame : AgentStatusFrame} (h : agentFrameIdentityIsValid frame = true) :
    frame.state = .idle ↔ frame.agentRunId = none := by
  unfold agentFrameIdentityIsValid at h
  by_cases hidle : frame.state = .idle
  · simp_all
  · simp_all

theorem Whole.merge (hv : Whole v) (hr : agentFrameIdentityIsValid r.frame = true) :
    Whole (v.merge r) := by
  unfold AgentView.merge
  cases hs : v.agentStatus with
  | none =>
    refine ⟨rfl, rfl, fun s hs' => ?_⟩
    cases hs'
    exact named_of_valid hr
  | some previous =>
    have hrun := hv.runTime
    have hmeta := hv.metaTime
    rw [hs, Option.isSome_some] at hrun hmeta
    refine ⟨?_, ?_, fun s hs' => ?_⟩
    · dsimp only
      by_cases haccept : acceptAgentRunTransition previous r.frame v.agentRunUpdatedAt r.runTime
        r.authoritativeReplacement = true <;> simp [haccept, hrun]
    · dsimp only
      by_cases hnewer : v.agentMetaUpdatedAt.all (· < r.metaTime) = true <;> simp [hnewer, hmeta]
    · cases hs'
      dsimp only
      by_cases haccept : acceptAgentRunTransition previous r.frame v.agentRunUpdatedAt r.runTime
        r.authoritativeReplacement = true
      · simpa [haccept] using named_of_valid hr
      · simpa [haccept] using hv.named previous hs

theorem later_merge (hv : Whole v) : Later v (v.merge r) := by
  cases hs : v.agentStatus with
  | none =>
    have hrun := hv.runTime
    have hmeta := hv.metaTime
    rw [hs, Option.isSome_none, Option.isSome_eq_false_iff, Option.isNone_iff_eq_none]
      at hrun hmeta
    constructor <;> simp [hrun, hmeta, hs]
  | some previous =>
    have hmeta := hv.metaTime
    rw [hs, Option.isSome_some, Option.isSome_iff_exists] at hmeta
    obtain ⟨time, htime⟩ := hmeta
    constructor
    · intro t ht
      simp only [AgentView.merge, hs]
      by_cases haccept : acceptAgentRunTransition previous r.frame v.agentRunUpdatedAt r.runTime
        r.authoritativeReplacement = true
      · obtain ⟨run, time', -, htime', hle, -⟩ := accepted_cases haccept
        rw [ht] at htime'
        cases htime'
        exact ⟨r.runTime, by simp [haccept], hle⟩
      · exact ⟨t, by simpa [haccept] using ht, Int.le_refl t⟩
    · intro t ht
      simp only [AgentView.merge, hs, ht, Option.all_some, decide_eq_true_eq]
      by_cases hnewer : t < r.metaTime
      · exact ⟨r.metaTime, by simp [hnewer], by omega⟩
      · exact ⟨t, by simp [hnewer], Int.le_refl t⟩
    · intro s hs'
      rw [hs] at hs'
      cases hs'
      simp only [AgentView.merge, hs]
      refine ⟨_, rfl, fun hrun => ?_⟩
      by_cases haccept : acceptAgentRunTransition previous r.frame v.agentRunUpdatedAt r.runTime
        r.authoritativeReplacement = true
      · obtain ⟨run, -, hnext, -⟩ := accepted_cases haccept
        simp [haccept, hnext]
      · simpa [haccept] using hrun
    · intro s s' hs₁ hs' hsame
      rw [hs] at hs₁
      cases hs₁
      simp only [AgentView.merge, hs, htime, Option.all_some, decide_eq_true_eq] at hs' hsame
      by_cases hnewer : time < r.metaTime
      · simp only [hnewer, ↓reduceIte, Option.some.injEq] at hsame
        omega
      · cases hs'
        simp only [hnewer, decide_false, Bool.false_or]
        constructor
        · by_cases hworse : (decide (some time = some r.metaTime) &&
            decide (previous.serviceHealth.rank < r.frame.serviceHealth.rank)) = true
          · rw [if_pos hworse]
            simp only [Bool.and_eq_true, decide_eq_true_eq] at hworse
            omega
          · simp only [if_neg hworse, Nat.le_refl]
        · by_cases hoff : (decide (some time = some r.metaTime) && previous.agentEnabled &&
            !r.frame.agentEnabled) = true
          · rw [if_pos hoff]
            simp only [Bool.and_eq_true] at hoff
            exact fun _ => hoff.1.2
          · rw [if_neg hoff]
            exact id

/-- While a run stays, its state only goes forward. -/
theorem reaches_merge {s s' : AgentStatusFrame} {run : String} (hs : v.agentStatus = some s)
    (hs' : (v.merge r).agentStatus = some s') (hrun : s.agentRunId = some run)
    (hrun' : s'.agentRunId = some run) : s.state.Reaches s'.state := by
  simp only [AgentView.merge, hs, Option.some.injEq] at hs'
  subst hs'
  dsimp only at hrun' ⊢
  by_cases haccept : acceptAgentRunTransition s r.frame v.agentRunUpdatedAt r.runTime
    r.authoritativeReplacement = true
  · obtain ⟨next, -, hnext, -, -, hreaches⟩ := accepted_cases haccept
    rw [if_pos haccept] at hrun' ⊢
    rw [hnext] at hrun'
    cases hrun'
    exact hreaches hrun
  · rw [if_neg haccept]
    exact .inl rfl

end

/-! ## The health and the switch -/

/-- The health and the switch with the time they are from. -/
structure Meta where
  time : Int
  health : ServiceHealth
  enabled : Bool

def meta? (v : AgentView) : Option Meta :=
  match v.agentStatus, v.agentMetaUpdatedAt with
  | some s, some time => some ⟨time, s.serviceHealth, s.agentEnabled⟩
  | _, _ => none

def worseHealth (a b : ServiceHealth) : ServiceHealth := if a.rank < b.rank then b else a

theorem worseHealth_right_comm (a b c : ServiceHealth) :
    worseHealth (worseHealth a b) c = worseHealth (worseHealth a c) b := by
  cases a <;> cases b <;> cases c <;> rfl

theorem worseHealth_comm (a b : ServiceHealth) : worseHealth a b = worseHealth b a := by
  cases a <;> cases b <;> rfl

/-- The later of two, and of two at one time the worse. -/
def Meta.join (a b : Meta) : Meta :=
  if a.time < b.time then b
  else if a.time = b.time then
    ⟨a.time, worseHealth a.health b.health, a.enabled && b.enabled⟩
  else a

theorem Meta.join_comm (a b : Meta) : a.join b = b.join a := by
  unfold Meta.join
  by_cases hlt : a.time < b.time
  · rw [if_pos hlt, if_neg (by omega), if_neg (by omega)]
  · by_cases heq : a.time = b.time
    · rw [if_neg hlt, if_pos heq, if_neg (by omega), if_pos heq.symm, worseHealth_comm,
        Bool.and_comm, heq]
    · rw [if_neg hlt, if_neg heq, if_pos (by omega)]

theorem Meta.join_right_comm (m a b : Meta) : (m.join a).join b = (m.join b).join a := by
  obtain ⟨t, h, e⟩ := m
  obtain ⟨ta, ha, ea⟩ := a
  obtain ⟨tb, hb, eb⟩ := b
  have hcomm := worseHealth_right_comm h ha hb
  have hswap := worseHealth_comm ha hb
  simp only [Meta.join]
  grind

def Meta.ofReading (r : AgentReading) : Meta :=
  ⟨r.metaTime, r.frame.serviceHealth, r.frame.agentEnabled⟩

theorem meta?_merge {v : AgentView} (hv : Whole v) (r : AgentReading) :
    (v.merge r).meta? = some ((v.meta?.map (·.join (.ofReading r))).getD (.ofReading r)) := by
  cases hs : v.agentStatus with
  | none => simp [meta?, AgentView.merge, hs, Meta.ofReading]
  | some previous =>
    have hmeta := hv.metaTime
    rw [hs, Option.isSome_some, Option.isSome_iff_exists] at hmeta
    obtain ⟨time, htime⟩ := hmeta
    simp only [meta?, AgentView.merge, hs, htime, Option.all_some, Option.map_some,
      Option.getD_some, Meta.join, Meta.ofReading, worseHealth, Option.some.injEq]
    grind

/-! ## Whole runs -/

section

variable {schema : AgentStatusFrame → Bool} {roomId : String} {v : AgentView}
  {report : AgentReport}

theorem readReport_valid {r : AgentReading} (h : readReport schema roomId report = .ok r) :
    agentFrameIdentityIsValid r.frame = true := by
  have hreading : ∀ frame runTime metaTime authoritative,
      reading frame runTime metaTime authoritative = .ok r →
        agentFrameIdentityIsValid r.frame = true := by
    intro frame runTime metaTime authoritative hr
    unfold reading at hr
    by_cases hvalid : agentFrameIdentityIsValid frame = true
    · rw [if_pos hvalid] at hr
      cases runTime <;> cases metaTime <;> cases hr
      exact hvalid
    · rw [if_neg hvalid] at hr
      cases hr
  cases report with
  | frame frame =>
    rw [readReport] at h
    by_cases hroom : frame.roomId ≠ roomId
    · rw [if_pos hroom] at h
      cases h
    · rw [if_neg hroom] at h
      exact hreading _ _ _ _ h
  | current current =>
    rw [readReport] at h
    by_cases hroom : current.roomId ≠ roomId
    · rw [if_pos hroom] at h
      cases h
    · rw [if_neg hroom] at h
      by_cases hframe : (schema (frameOf current) && identified (frameOf current)) = true
      · rw [if_pos hframe] at h
        exact hreading _ _ _ _ h
      · rw [if_neg hframe] at h
        cases h

/-- A report either changes nothing or merges a reading. -/
theorem receive_cases (schema : AgentStatusFrame → Bool) (roomId : String) (v : AgentView)
    (report : AgentReport) : v.receive schema roomId report = v ∨
      ∃ r, agentFrameIdentityIsValid r.frame = true ∧
        v.receive schema roomId report = v.merge r := by
  cases hr : readReport schema roomId report with
  | error e => exact .inl (by simp [receive, hr])
  | ok r => exact .inr ⟨r, readReport_valid hr, by simp [receive, hr]⟩

theorem Whole.receive (hv : Whole v) : Whole (v.receive schema roomId report) := by
  rcases receive_cases schema roomId v report with h | ⟨r, hr, h⟩
  · rwa [h]
  · rw [h]
    exact hv.merge hr

theorem Whole.start : Whole AgentView.start := ⟨rfl, rfl, fun s hs => by cases hs⟩

theorem Whole.receiveAll (hv : Whole v) (reports : List AgentReport) :
    Whole (reports.foldl (AgentView.receive schema roomId) v) := by
  induction reports generalizing v with
  | nil => exact hv
  | cons report reports ih => exact ih hv.receive

theorem later_receiveAll (hv : Whole v) (reports : List AgentReport) :
    Later v (reports.foldl (receive schema roomId) v) := by
  induction reports generalizing v with
  | nil => exact Later.refl v
  | cons report reports ih =>
    have hstep : Later v (v.receive schema roomId report) := by
      rcases receive_cases schema roomId v report with h | ⟨r, -, h⟩
      · rw [h]
        exact Later.refl v
      · rw [h]
        exact later_merge hv
    exact hstep.trans hv (ih hv.receive)

/-- The run the view shows. -/
def run? (v : AgentView) : Option String := v.agentStatus.bind (·.agentRunId)

theorem reaches_receiveAll {run : String} {reports : List AgentReport} {s s' : AgentStatusFrame}
    (hs : v.agentStatus = some s)
    (hs' : (reports.foldl (receive schema roomId) v).agentStatus = some s')
    (hrun : ∀ part, part <+: reports → (part.foldl (receive schema roomId) v).run? = some run) :
    s.state.Reaches s'.state := by
  induction reports generalizing v s with
  | nil =>
    rw [List.foldl_nil, hs] at hs'
    cases hs'
    exact .inl rfl
  | cons report reports ih =>
    have hfirst : v.run? = some run := hrun [] List.nil_prefix
    have hnext : (v.receive schema roomId report).run? = some run :=
      hrun [report] (by simp)
    obtain ⟨next, hn, hnrun⟩ := Option.bind_eq_some_iff.mp hnext
    have hsrun : s.agentRunId = some run := by
      rw [run?, hs] at hfirst
      exact hfirst
    have hstep : s.state.Reaches next.state := by
      rcases receive_cases schema roomId v report with h | ⟨r, -, h⟩
      · rw [h, hs] at hn
        cases hn
        exact .inl rfl
      · rw [h] at hn
        exact reaches_merge hs hn hsrun hnrun
    refine hstep.trans (ih hn hs' fun part hpart => ?_)
    exact hrun (report :: part) (List.cons_prefix_cons.mpr ⟨rfl, hpart⟩)

/-- The health and the switch after a report. -/
def joinReport (schema : AgentStatusFrame → Bool) (roomId : String) (m : Option Meta)
    (report : AgentReport) : Option Meta :=
  match readReport schema roomId report with
  | .error _ => m
  | .ok r => some ((m.map (·.join (.ofReading r))).getD (.ofReading r))

theorem meta?_receiveAll (hv : Whole v) (reports : List AgentReport) :
    (reports.foldl (receive schema roomId) v).meta? =
      reports.foldl (joinReport schema roomId) v.meta? := by
  induction reports generalizing v with
  | nil => rfl
  | cons report reports ih =>
    have hstep : (v.receive schema roomId report).meta? =
        joinReport schema roomId v.meta? report := by
      unfold receive joinReport
      cases readReport schema roomId report with
      | error e => rfl
      | ok r => exact meta?_merge hv r
    rw [List.foldl_cons, List.foldl_cons, ih hv.receive, hstep]

theorem joinReport_right_comm (m : Option Meta) (a b : AgentReport) :
    joinReport schema roomId (joinReport schema roomId m a) b =
      joinReport schema roomId (joinReport schema roomId m b) a := by
  unfold joinReport
  cases readReport schema roomId a with
  | error e => rfl
  | ok ra =>
    cases readReport schema roomId b with
    | error e => rfl
    | ok rb =>
      cases m with
      | none => exact congrArg some (Meta.join_comm ..)
      | some m => exact congrArg some (Meta.join_right_comm ..)

theorem healthAndSwitch_eq (hv : Whole v) :
    (v.agentStatus.map fun s => (s.serviceHealth, s.agentEnabled)) =
      v.meta?.map fun m => (m.health, m.enabled) := by
  have hmeta := hv.metaTime
  cases hs : v.agentStatus with
  | none => simp [meta?, hs]
  | some s =>
    rw [hs, Option.isSome_some, Option.isSome_iff_exists] at hmeta
    obtain ⟨time, htime⟩ := hmeta
    simp [meta?, hs, htime]

end

/-- From any report on, through any further reports: the two times never decrease, a run is never
replaced by idle, at one time of the health it only worsens and the agent is only switched off,
and as long as a run stays its terminal state stays and it does not go back from streaming.
The health and the switch at the end are the same in whatever order the reports come. -/
theorem agent_status_monotone (schema : AgentStatusFrame → Bool) (roomId : String)
    (before during : List AgentReport) :
    Later (before.foldl (receive schema roomId) start)
      ((before ++ during).foldl (receive schema roomId) start) ∧
    (∀ s, ((before ++ during).foldl (receive schema roomId) start).agentStatus = some s →
      (s.state = .idle ↔ s.agentRunId = none)) ∧
    (∀ run s s', (before.foldl (receive schema roomId) start).agentStatus = some s →
      ((before ++ during).foldl (receive schema roomId) start).agentStatus = some s' →
      (∀ part, part <+: during →
        ((before ++ part).foldl (receive schema roomId) start).run? = some run) →
      (s.state.terminal = true → s'.state = s.state) ∧
        (s.state = .streaming → s'.state ≠ .running ∧ s'.state ≠ .queued)) ∧
    ∀ reports : List AgentReport, reports.Perm (before ++ during) →
      ((reports.foldl (receive schema roomId) start).agentStatus.map
        fun s => (s.serviceHealth, s.agentEnabled)) =
      (((before ++ during).foldl (receive schema roomId) start).agentStatus.map
        fun s => (s.serviceHealth, s.agentEnabled)) := by
  have hwhole : ∀ reports : List AgentReport,
      Whole (reports.foldl (receive schema roomId) start) := Whole.start.receiveAll
  refine ⟨?_, (hwhole (before ++ during)).named, ?_, ?_⟩
  · rw [List.foldl_append]
    exact later_receiveAll (hwhole before) during
  · intro run s s' hs hs' hrun
    rw [List.foldl_append] at hs'
    have hstays : ∀ part, part <+: during →
        (part.foldl (receive schema roomId) (before.foldl (receive schema roomId) start)).run? =
          some run := by
      intro part hpart
      rw [← List.foldl_append]
      exact hrun part hpart
    exact (reaches_receiveAll hs hs' hstays).spec
  · intro reports hperm
    rw [healthAndSwitch_eq (hwhole reports), healthAndSwitch_eq (hwhole _),
      meta?_receiveAll Whole.start, meta?_receiveAll Whole.start,
      hperm.foldl_eq' fun a _ b _ m => joinReport_right_comm m a b]

end AgentView

end LearningOrbit.Realtime
