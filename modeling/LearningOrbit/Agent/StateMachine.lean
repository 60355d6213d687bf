import LearningOrbit.Totals
import LearningOrbit.Agent.Audit
import LearningOrbit.Rooms.LedgerInvariant

/-!
# The state machine of the runs

Every writer looks at the run again under the lock of its room, and two unique indexes stand
behind the checks of a trigger. So a run is ended once, by the message that completes it or
without one, whatever order the writers come in and however old the batch of a reconciler is.
-/

namespace LearningOrbit.Agent

open LearningOrbit (Dict Along)
open Media (Assertion)
open Rooms (Drawn Envelope Tx column)

/-! ## The property -/

/-- A message of the agent that carries this run. -/
def carries (agentRunId : String) (e : Envelope Payload) : Bool :=
  e.type = "message.added" && e.actorKind = .agent &&
    e.payload.spoken.any (·.agentRunId = agentRunId)

def Room.said (agentRunId : String) (room : Room) : Nat := room.events.countP (carries agentRunId)

/-- The messages of the agent that carry this run, in all rooms. -/
def AgentDb.said (db : AgentDb) (agentRunId : String) : Nat := db.rooms.total (Room.said agentRunId)

structure StateMachine (db : AgentDb) : Prop where
  /-- A room has at most one active run. -/
  single : ∀ id run id' run', db.runs.get? id = some run → db.runs.get? id' = some run' →
    run.roomId = run'.roomId → run.state.active = true → run'.state.active = true → id = id'
  /-- A trigger has at most one run. -/
  once : ∀ id run id' run', db.runs.get? id = some run → db.runs.get? id' = some run' →
    run.roomId = run'.roomId → run.triggerEventId = run'.triggerEventId → id = id'
  /-- A run is completed exactly if one message carries it, and no message carries any other. -/
  heard : ∀ id run, db.runs.get? id = some run →
    (run.state = .completed ↔ db.said id = 1) ∧ (run.state ≠ .completed → db.said id = 0)

/-! ## The other writers -/

/-- A writer that is not the agent's leaves the switch, and appends no message of the agent. -/
def Undisturbed : Option Room → Room → Prop
  | some room, room' => room'.agentEnabled = room.agentEnabled ∧
    ∃ new, room'.events = room.events ++ new ∧ ∀ e ∈ new, e.actorKind ≠ .agent
  | none, room' => ∀ e ∈ room'.events, e.actorKind ≠ .agent

/-- The other writers write to one room at a time. -/
def Aside (s : System) : Call → Prop
  | .elsewhere rooms _ _ => rooms = s.db.rooms ∨
    ∃ key room, rooms = s.db.rooms.set key room ∧ Undisturbed (s.db.rooms.get? key) room
  | _ => True

/-- The switch that a call sets. -/
def Call.switches : Call → Option (String × Bool)
  | .setEnabled roomId _ enabled _ _ _ _ => (uuid roomId).toOption.map (·, enabled)
  | _ => none

/-! ## The invariant -/

/-- Whether the agent is enabled in a room. -/
def AgentDb.enabled (db : AgentDb) (key : String) : Option Bool :=
  (db.rooms.get? key).map (·.agentEnabled)

def AgentDb.completed (db : AgentDb) (agentRunId : String) : Nat :=
  if (db.runs.get? agentRunId).any (·.state = .completed) then 1 else 0

/-- Every run is of a room of its own, and one with the agent disabled has no active run. -/
structure Sound (db : AgentDb) : Prop where
  single : ∀ id run id' run', db.runs.get? id = some run → db.runs.get? id' = some run' →
    run.roomId = run'.roomId → run.state.active = true → run'.state.active = true → id = id'
  once : ∀ id run id' run', db.runs.get? id = some run → db.runs.get? id' = some run' →
    run.roomId = run'.roomId → run.triggerEventId = run'.triggerEventId → id = id'
  heard : ∀ id, db.said id = db.completed id
  housed : ∀ id run, db.runs.get? id = some run → (db.enabled run.roomId).isSome = true
  silent : ∀ id run, db.runs.get? id = some run → db.enabled run.roomId = some false →
    run.state.active = false

theorem Sound.stateMachine {db : AgentDb} (hs : Sound db) : StateMachine db where
  single := hs.single
  once := hs.once
  heard := by
    intro id run hrun
    rw [hs.heard id, AgentDb.completed, hrun]
    by_cases hstate : run.state = .completed <;> simp [hstate]

theorem Sound.congr {db db' : AgentDb} (hs : Sound db) (hrooms : db'.rooms = db.rooms)
    (hruns : db'.runs = db.runs) : Sound db' where
  single := by rw [hruns]; exact hs.single
  once := by rw [hruns]; exact hs.once
  heard := by
    intro id
    unfold AgentDb.said AgentDb.completed
    rw [hrooms, hruns]
    exact hs.heard id
  housed := by
    unfold AgentDb.enabled
    rw [hruns, hrooms]
    exact hs.housed
  silent := by
    unfold AgentDb.enabled
    rw [hruns, hrooms]
    exact hs.silent

section Writers

variable {db : AgentDb} {id key : String} {run run' : AgentRun} {room room' : Room}

theorem completed_set (id' : String) :
    AgentDb.completed { db with runs := db.runs.set id run } id' =
      if id' = id then if run.state = .completed then 1 else 0 else db.completed id' := by
  unfold AgentDb.completed
  dsimp only
  rw [Dict.get?_set]
  by_cases hid : id' = id
  · simp [hid]
  · simp [hid]

theorem completed_of_active (hrun : db.runs.get? id = some run) (hactive : run.state.active = true) :
    db.completed id = 0 := by
  unfold AgentDb.completed
  rw [hrun]
  cases hstate : run.state <;> simp [hstate, RunState.active] at hactive ⊢

/-- Rows of which one is replaced by one of the same room and trigger that is not active. -/
theorem get?_ended (hrun : db.runs.get? id = some run) (hroom : run'.roomId = run.roomId)
    (htrigger : run'.triggerEventId = run.triggerEventId) (hfinal : run'.state.active = false)
    {id' : String} {found : AgentRun} (hfound : (db.runs.set id run').get? id' = some found) :
    ∃ before, db.runs.get? id' = some before ∧ found.roomId = before.roomId ∧
      found.triggerEventId = before.triggerEventId ∧
      (found.state.active = true → before.state.active = true) := by
  rw [Dict.get?_set] at hfound
  split at hfound
  · rename_i hid
    cases hfound
    refine ⟨run, by rw [hid, hrun], hroom, htrigger, fun hactive => ?_⟩
    rw [hfinal] at hactive
    cases hactive
  · exact ⟨found, hfound, rfl, rfl, fun hactive => hactive⟩

/-- A new run of a room that admits it. -/
theorem Sound.created (hs : Sound db) (hnew : db.runs.get? id = none)
    (hqueued : run.state = .queued) (henabled : db.enabled run.roomId = some true)
    (hadmits : ∀ id' other, db.runs.get? id' = some other → other.roomId = run.roomId →
      other.state.active = false ∧ other.triggerEventId ≠ run.triggerEventId) :
    Sound { db with runs := db.runs.set id run } := by
  have hold : ∀ id' found, (db.runs.set id run).get? id' = some found →
      id' = id ∧ found = run ∨ db.runs.get? id' = some found := by
    intro id' found hfound
    rw [Dict.get?_set] at hfound
    split at hfound
    · rename_i hid
      cases hfound
      exact .inl ⟨hid, rfl⟩
    · exact .inr hfound
  constructor
  · intro id₁ run₁ id₂ run₂ h₁ h₂ hroom hactive₁ hactive₂
    rcases hold id₁ run₁ h₁ with ⟨rfl, rfl⟩ | hbefore₁
    · rcases hold id₂ run₂ h₂ with ⟨rfl, rfl⟩ | hbefore₂
      · rfl
      · rw [(hadmits id₂ run₂ hbefore₂ hroom.symm).1] at hactive₂
        cases hactive₂
    · rcases hold id₂ run₂ h₂ with ⟨rfl, rfl⟩ | hbefore₂
      · rw [(hadmits id₁ run₁ hbefore₁ hroom).1] at hactive₁
        cases hactive₁
      · exact hs.single id₁ run₁ id₂ run₂ hbefore₁ hbefore₂ hroom hactive₁ hactive₂
  · intro id₁ run₁ id₂ run₂ h₁ h₂ hroom htrigger
    rcases hold id₁ run₁ h₁ with ⟨rfl, rfl⟩ | hbefore₁
    · rcases hold id₂ run₂ h₂ with ⟨rfl, rfl⟩ | hbefore₂
      · rfl
      · exact absurd htrigger.symm (hadmits id₂ run₂ hbefore₂ hroom.symm).2
    · rcases hold id₂ run₂ h₂ with ⟨rfl, rfl⟩ | hbefore₂
      · exact absurd htrigger (hadmits id₁ run₁ hbefore₁ hroom).2
      · exact hs.once id₁ run₁ id₂ run₂ hbefore₁ hbefore₂ hroom htrigger
  · intro id'
    rw [completed_set]
    split
    · rename_i hid
      have hnone : db.completed id = 0 := by
        unfold AgentDb.completed
        rw [hnew]
        rfl
      rw [if_neg (by rw [hqueued]; decide), hid]
      exact (hs.heard id).trans hnone
    · exact hs.heard id'
  · intro id' found hfound
    rcases hold id' found hfound with ⟨rfl, rfl⟩ | hfound
    · exact Option.isSome_iff_exists.mpr ⟨true, henabled⟩
    · exact hs.housed id' found hfound
  · intro id' found hfound hoff
    rcases hold id' found hfound with ⟨rfl, rfl⟩ | hfound
    · cases henabled.symm.trans hoff
    · exact hs.silent id' found hfound hoff

/-- A run ends; a message goes out with it if it is completed. -/
theorem Sound.ended (hs : Sound db) (hrun : db.runs.get? id = some run)
    (hactive : run.state.active = true) (hroom : run'.roomId = run.roomId)
    (htrigger : run'.triggerEventId = run.triggerEventId) (hfinal : run'.state.active = false)
    {rooms : Dict String Room}
    (hsaid : ∀ id', rooms.total (Room.said id') =
      db.said id' + if id' = id ∧ run'.state = .completed then 1 else 0)
    (henabled : ∀ key, (rooms.get? key).map (·.agentEnabled) = db.enabled key) :
    Sound { db with rooms, runs := db.runs.set id run' } := by
  have hold : ∀ id' found, (db.runs.set id run').get? id' = some found →
      ∃ before, db.runs.get? id' = some before ∧ found.roomId = before.roomId ∧
        found.triggerEventId = before.triggerEventId ∧
        (found.state.active = true → before.state.active = true) :=
    fun _ _ => get?_ended hrun hroom htrigger hfinal
  constructor
  · intro id₁ run₁ id₂ run₂ h₁ h₂ hsame hactive₁ hactive₂
    obtain ⟨before₁, hbefore₁, hroom₁, -, hwas₁⟩ := hold id₁ run₁ h₁
    obtain ⟨before₂, hbefore₂, hroom₂, -, hwas₂⟩ := hold id₂ run₂ h₂
    rw [hroom₁, hroom₂] at hsame
    exact hs.single id₁ before₁ id₂ before₂ hbefore₁ hbefore₂ hsame (hwas₁ hactive₁) (hwas₂ hactive₂)
  · intro id₁ run₁ id₂ run₂ h₁ h₂ hsame hasked
    obtain ⟨before₁, hbefore₁, hroom₁, htrigger₁, -⟩ := hold id₁ run₁ h₁
    obtain ⟨before₂, hbefore₂, hroom₂, htrigger₂, -⟩ := hold id₂ run₂ h₂
    rw [hroom₁, hroom₂] at hsame
    rw [htrigger₁, htrigger₂] at hasked
    exact hs.once id₁ before₁ id₂ before₂ hbefore₁ hbefore₂ hsame hasked
  · intro id'
    refine (hsaid id').trans ?_
    refine Eq.trans ?_ (completed_set id').symm
    by_cases hid : id' = id
    · subst hid
      rw [hs.heard id', completed_of_active hrun hactive, if_pos rfl]
      simp
    · rw [if_neg hid, if_neg (fun h => hid h.1), hs.heard id']
      rfl
  · intro id' found hfound
    obtain ⟨before, hbefore, hplace, -, -⟩ := hold id' found hfound
    have hhoused := hs.housed id' before hbefore
    rw [← hplace, ← henabled] at hhoused
    exact hhoused
  · intro id' found hfound hoff
    obtain ⟨before, hbefore, hplace, -, hwas⟩ := hold id' found hfound
    have hbeforeOff : db.enabled before.roomId = some false := by
      rw [← hplace, ← henabled]
      exact hoff
    have hquiet := hs.silent id' before hbefore hbeforeOff
    cases hbusy : found.state.active with
    | false => rfl
    | true =>
      rw [hwas hbusy] at hquiet
      cases hquiet

/-- The rooms change, and no message of the agent comes or goes. -/
theorem Sound.moved (hs : Sound db) {rooms : Dict String Room}
    (hsaid : ∀ id', rooms.total (Room.said id') = db.said id')
    (hhoused : ∀ key, (db.enabled key).isSome = true → (rooms.get? key).isSome = true)
    (hsilent : ∀ id run, db.runs.get? id = some run →
      (rooms.get? run.roomId).map (·.agentEnabled) = some false → run.state.active = false) :
    Sound { db with rooms } where
  single := hs.single
  once := hs.once
  heard := fun id' => (hsaid id').trans (hs.heard id')
  housed := by
    intro id' found hfound
    change ((rooms.get? found.roomId).map (·.agentEnabled)).isSome = true
    rw [Option.isSome_map]
    exact hhoused _ (hs.housed id' found hfound)
  silent := hsilent

/-- What one room adds to the messages of a run. -/
theorem said_set (hroom : db.rooms.get? key = some room) {n : Nat}
    (hadded : room'.said id = room.said id + n) :
    (db.rooms.set key room').total (Room.said id) = db.said id + n := by
  have hset := Dict.total_set_of_some (v := room') (g := Room.said id) hroom
  rw [hadded, ← add_assoc, add_right_comm] at hset
  exact add_right_cancel hset

theorem enabled_set (hroom : db.rooms.get? key = some room)
    (hsame : room'.agentEnabled = room.agentEnabled) (key' : String) :
    ((db.rooms.set key room').get? key').map (·.agentEnabled) = db.enabled key' := by
  unfold AgentDb.enabled
  rw [Dict.get?_set]
  split
  · rename_i hkey
    rw [hkey, hroom]
    exact congrArg some hsame
  · rfl

/-! ## One call -/

theorem insertRun_admits {runs runs' : Dict String AgentRun} (hqueued : run.state = .queued)
    (h : insertRun runs id run = .ok runs') {id' : String} {other : AgentRun}
    (hother : runs.get? id' = some other) (hroom : other.roomId = run.roomId) :
    other.state.active = false ∧ other.triggerEventId ≠ run.triggerEventId := by
  have hvalue : other ∈ runs.values := Dict.mem_values.mpr ⟨id', hother⟩
  unfold insertRun at h
  split at h
  · cases h
  split at h
  · cases h
  split at h
  · cases h
  split at h
  · cases h
  rename_i hvacant
  split at h
  · cases h
  rename_i hunasked
  constructor
  · refine Bool.eq_false_iff.mpr fun hbusy => hvacant ?_
    rw [hqueued]
    exact List.any_eq_true.mpr ⟨other, hvalue, by simp [hroom, hbusy]⟩
  · intro htrigger
    exact hunasked (List.any_eq_true.mpr ⟨other, hvalue, by simp [hroom, htrigger]⟩)

variable {db' : AgentDb}

theorem getOrCreateRunAndJob_sound (hs : Sound db) {request : AgentRunRequest}
    {drawn again : RunDrawn} {creation : AgentRunCreation}
    (h : getOrCreateRunAndJob db request drawn again = .ok (creation, db')) :
    Sound db' ∧ db'.rooms = db.rooms := by
  obtain ⟨last, h⟩ := getOrCreateRunAndJob_eq h
  rcases createInTransaction_eq h with rfl | ⟨run, room, hroom, henabled, hqueued, hinsert⟩
  · exact ⟨hs, rfl⟩
  · obtain ⟨runs, hruns, hinsert⟩ := bind_eq_ok.mp hinsert
    obtain ⟨queue, -, hinsert⟩ := bind_eq_ok.mp hinsert
    obtain ⟨transitions, -, hinsert⟩ := bind_eq_ok.mp hinsert
    cases hinsert
    obtain ⟨hnew, rfl⟩ := insertRun_ok hruns
    have hon : db.enabled run.roomId = some true := by
      unfold AgentDb.enabled
      rw [hroom, Option.map_some, henabled]
    exact ⟨(hs.created hnew hqueued hon fun _ _ => insertRun_admits hqueued hruns).congr rfl rfl,
      rfl⟩

/-- A run ends without a message. -/
theorem Sound.silenced (hs : Sound db) (hrun : db.runs.get? id = some run)
    (hactive : run.state.active = true) {toState : RunState} {failureCode : Option String}
    (hfinal : toState.active = false) (hsilent : toState ≠ .completed)
    (hrooms : db'.rooms = db.rooms)
    (hruns : db'.runs = db.runs.set id { run with state := toState, failureCode }) :
    Sound db' := by
  have hended : Sound { db with
      rooms := db.rooms, runs := db.runs.set id { run with state := toState, failureCode } } := by
    have hroom : ({ run with state := toState, failureCode } : AgentRun).roomId = run.roomId := rfl
    refine hs.ended hrun hactive hroom rfl hfinal (fun id' => ?_) fun key => rfl
    rw [if_neg fun h => hsilent h.2]
    rfl
  exact hended.congr hrooms hruns

theorem cancelRun_sound (hs : Sound db) {roomId runId teacherId causationId : String}
    {session : Session} {transitionId : String} {cancelled : Option AgentRun}
    (h : cancelRun db roomId runId teacherId causationId session transitionId =
      .ok (cancelled, db')) : Sound db' ∧ db'.rooms = db.rooms := by
  obtain ⟨found, hfound, h⟩ := bind_eq_ok.mp h
  obtain ⟨db₁, hcancel, h⟩ := bind_eq_ok.mp h
  cases h
  obtain ⟨hrun, hactive⟩ := cancellable_run hfound
  obtain ⟨hrooms, hruns⟩ := cancelLocked_eq hcancel
  exact ⟨hs.silenced hrun hactive rfl (by decide) hrooms hruns, hrooms⟩

theorem OrphanReason.terminal_silent (reason : OrphanReason) :
    reason.terminal.active = false ∧ reason.terminal ≠ .completed := by
  cases reason <;> decide

theorem settle_sound (hs : Sound db) {orphan : OrphanRun} {transitionId : String}
    {terminal : Option RunState} (h : settle db orphan transitionId = .ok (terminal, db')) :
    Sound db' ∧ db'.rooms = db.rooms := by
  rcases settle_eq h with rfl | ⟨run, causation, hrun, hactive, -, hend⟩
  · exact ⟨hs, rfl⟩
  · obtain ⟨hrooms, hruns⟩ := endRun_eq hend
    obtain ⟨hfinal, hsilent⟩ := orphan.reason.terminal_silent
    exact ⟨hs.silenced hrun hactive hfinal hsilent hrooms hruns, hrooms⟩

/-- The switch of a room that has no active run, or is switched on. -/
theorem Sound.switched (hs : Sound db) (hroom : db.rooms.get? key = some room) (enabled : Bool)
    (hquiet : enabled = false → ∀ id run, db.runs.get? id = some run → run.roomId = key →
      run.state.active = false) :
    Sound { db with rooms := db.rooms.set key { room with agentEnabled := enabled } } := by
  refine hs.moved (fun id' => said_set (n := 0) hroom rfl) (fun key' hkey => ?_)
    fun id run hrun hoff => ?_
  · rw [Dict.get?_set]
    split
    · rfl
    · unfold AgentDb.enabled at hkey
      rwa [Option.isSome_map] at hkey
  · rw [Dict.get?_set] at hoff
    split at hoff
    · rename_i hplace
      exact hquiet (Option.some.inj hoff) id run hrun hplace
    · exact hs.silent id run hrun hoff

theorem activeRun_none (h : db.activeRun key = none) (hrun : db.runs.get? id = some run)
    (hroom : run.roomId = key) : run.state.active = false := by
  refine Bool.eq_false_iff.mpr fun hactive => ?_
  have hempty := List.head?_eq_none_iff.mp h
  refine List.not_mem_nil (a := (id, run)) ?_
  rw [← hempty]
  exact (List.mem_insertionSort _).mpr
    (List.mem_filter.mpr ⟨Dict.get?_eq_some.mp hrun, by simp [hroom, hactive]⟩)

/-- `setEnabled` leaves no active run in a room that it disables. -/
theorem setEnabled_sound (hs : Sound db) {roomId teacherId causationId : String} {enabled : Bool}
    {session : Session} {transitionId controlEventId : String} {response : AgentSettingsResponse}
    (h : setEnabled db roomId teacherId enabled causationId session transitionId controlEventId =
      .ok (response, db')) :
    Sound db' ∧ ∃ key, uuid roomId = .ok key ∧ db'.enabled key = some enabled ∧
      ∀ key', key' ≠ key → db'.enabled key' = db.enabled key' := by
  obtain ⟨key, room, active, hfound, hrooms, hruns⟩ := setEnabled_eq h
  obtain ⟨hkey, hroom, hactive⟩ := settable_eq hfound
  refine ⟨?_, key, hkey, ?_, fun key' hne => ?_⟩
  · rcases hruns with ⟨hnone, hruns, -⟩ | ⟨found, db₁, hsome, hcancel, hruns, -⟩
    · refine (hs.switched hroom enabled fun hoff id run hrun hplace => ?_).congr hrooms hruns
      rw [hoff, if_neg (by decide)] at hactive
      exact activeRun_none (hactive.symm.trans hnone) hrun hplace
    · -- The active run ends first, and then nothing is left to silence.
      have hactive' : db.activeRun key = some found := by
        rw [hsome] at hactive
        split at hactive
        · cases hactive
        · exact hactive.symm
      obtain ⟨hrun, hplace, hbusy⟩ := activeRun_run hactive'
      obtain ⟨-, hset⟩ := cancelLocked_eq hcancel
      let cancelled : AgentRun :=
        { found.2 with state := .cancelled, failureCode := some "AGENT_DISABLED" }
      have hended : Sound { db with runs := db.runs.set found.1 cancelled } :=
        hs.silenced hrun hbusy rfl (by decide) rfl rfl
      refine (hended.switched hroom enabled fun _ id run hafter hsame => ?_).congr hrooms
        (hruns.trans hset)
      rw [Dict.get?_set] at hafter
      split at hafter
      · cases hafter
        rfl
      · rename_i hne
        refine Bool.eq_false_iff.mpr fun hother => hne ?_
        exact hs.single id run found.1 found.2 hafter hrun (hsame.trans hplace.symm) hother hbusy
  · unfold AgentDb.enabled
    rw [hrooms, Dict.get?_set_self, Option.map_some]
  · unfold AgentDb.enabled
    rw [hrooms, Dict.get?_set_of_ne _ _ hne]

/-- The message of a run that may speak. -/
theorem appendOne_carries {r : CompleteRequest} {clock now : Int} {drawn : Drawn}
    {t t' : Tx Payload} {appended : Envelope Payload}
    (hnone : Rooms.findOneByCausation payloads t.db r.claim.jobId = .ok none)
    (h : Rooms.appendOne payloads now drawn none (some (completeDraft r t.room.novaActorId clock)) t =
      .ok (appended, t')) (id' : String) :
    t'.db.events.countP (carries id') =
      t.db.events.countP (carries id') + if id' = r.agentRunId then 1 else 0 := by
  obtain ⟨candidate, hvalid, hcases⟩ := Rooms.appendOne_eq h
  obtain ⟨d, ingestTime, hd, hcandidate, -, -⟩ := Rooms.validateDraft_eq hvalid
  cases hd
  have hcause : candidate.causationId = r.claim.jobId := by
    rw [hcandidate]
    rfl
  rcases hcases with ⟨hfound, -, -⟩ | ⟨-, -, hwrite⟩
  · rw [hcause, hnone] at hfound
    cases hfound
  · obtain ⟨-, -, -, queue, -, rfl⟩ := Rooms.write_eq hwrite
    change (t.db.events ++ [candidate.columns]).countP (carries id') = _
    rw [List.countP_append, List.countP_singleton]
    have hcarries : carries id' candidate.columns = decide (id' = r.agentRunId) := by
      rw [hcandidate]
      simp only [carries, Rooms.Envelope.columns, Rooms.Draft.envelope, completeDraft, decide_true,
        Bool.true_and, Option.any_some]
      exact decide_eq_decide.mpr eq_comm
    rw [hcarries]
    simp

/-- The route ends a run with its message, or moves no run. -/
theorem handleComplete_sound (hs : Sound db) {assertion : Assertion} {r : CompleteRequest}
    {clock now : Int} {drawn : Drawn} {response : CompleteResponse}
    (h : handleComplete db assertion r clock now drawn = .ok (response, db')) :
    Sound db' ∧ ∀ key, db'.enabled key = db.enabled key := by
  rcases handleComplete_eq h with rfl | ⟨room, t, t', db₁, -, hroom, hbegin, hwork, rfl⟩
  · exact ⟨hs, fun _ => rfl⟩
  let written : Room := { room with row := t'.db.room, events := t'.db.events, outbox := t'.db.outbox }
  have hkept : ∀ key, ((db.rooms.set (column r.roomId) written).get? key).map (·.agentEnabled) =
      db.enabled key := enabled_set hroom rfl
  have hevents : t.db.events = room.events := by
    obtain ⟨-, -, -, rfl⟩ := Rooms.beginRoom_eq hbegin
    rfl
  rcases completeInContext_eq hwork with ⟨rfl, hsame⟩ |
    ⟨run, appended, t₁, causation, hexamine, happend, -, hend, hsame⟩
  · have hsaid : ∀ id', written.said id' = room.said id' + 0 := by
      intro id'
      change t'.db.events.countP (carries id') = room.events.countP (carries id') + 0
      rw [hsame, hevents, add_zero]
    have hmoved : Sound { db₁ with rooms := db₁.rooms.set (column r.roomId) written } := by
      refine hs.moved (fun id' => said_set hroom (hsaid id')) (fun key hkey => ?_)
        fun id run hrun hoff => ?_
      · rw [← Option.isSome_map, hkept]
        exact hkey
      · exact hs.silent id run hrun ((hkept run.roomId).symm.trans hoff)
    exact ⟨hmoved.congr rfl rfl, hkept⟩
  · obtain ⟨hrun, hactive, hnone⟩ := examine_run hexamine
    obtain ⟨hrooms, hruns⟩ := endRun_eq hend
    let spoken : AgentRun := { run with state := .completed, failureCode := none }
    have hplace : spoken.roomId = run.roomId := rfl
    have hsaid : ∀ id', written.said id' = room.said id' +
        if id' = r.agentRunId ∧ spoken.state = .completed then 1 else 0 := by
      intro id'
      change t'.db.events.countP (carries id') = room.events.countP (carries id') + _
      rw [hsame, appendOne_carries hnone happend, hevents]
      simp [spoken]
    have hended : Sound { db with
        rooms := db.rooms.set (column r.roomId) written, runs := db.runs.set r.agentRunId spoken } :=
      hs.ended hrun hactive hplace rfl rfl (fun id' => said_set hroom (hsaid id')) hkept
    have hwritten : (db₁.withDatabase (column r.roomId) room t'.db).rooms =
        db.rooms.set (column r.roomId) written := congrArg (·.set (column r.roomId) written) hrooms
    refine ⟨hended.congr hwritten hruns, fun key => ?_⟩
    unfold AgentDb.enabled
    rw [hwritten]
    exact hkept key

/-- What the other writers leave. -/
theorem Sound.undisturbed (hs : Sound db) (h : Undisturbed (db.rooms.get? key) room') :
    Sound { db with rooms := db.rooms.set key room' } ∧ ∀ key', (db.enabled key').isSome = true →
      ((db.rooms.set key room').get? key').map (·.agentEnabled) = db.enabled key' := by
  have hnew : ∀ {new : List (Envelope Payload)}, (∀ e ∈ new, e.actorKind ≠ .agent) → ∀ id',
      new.countP (carries id') = 0 := by
    intro new hothers id'
    refine List.countP_eq_zero.mpr fun e he hcarries => ?_
    simp only [carries, Bool.and_eq_true, decide_eq_true_eq] at hcarries
    exact hothers e he hcarries.1.2
  cases hroom : db.rooms.get? key with
  | some room =>
    rw [hroom] at h
    obtain ⟨hswitch, new, hevents, hothers⟩ := h
    have hkept := enabled_set hroom hswitch
    have hsaid : ∀ id', room'.said id' = room.said id' + 0 := by
      intro id'
      unfold Room.said
      rw [hevents, List.countP_append, hnew hothers]
    refine ⟨hs.moved (fun id' => said_set hroom (hsaid id')) (fun key' hkey => ?_)
      fun id run hrun hoff => ?_, fun key' _ => hkept key'⟩
    · rw [← Option.isSome_map, hkept]
      exact hkey
    · exact hs.silent id run hrun ((hkept run.roomId).symm.trans hoff)
  | none =>
    rw [hroom] at h
    have hkept : ∀ key', (db.enabled key').isSome = true →
        ((db.rooms.set key room').get? key').map (·.agentEnabled) = db.enabled key' := by
      intro key' hkey
      have hne : key' ≠ key := by
        rintro rfl
        unfold AgentDb.enabled at hkey
        rw [hroom] at hkey
        cases hkey
      unfold AgentDb.enabled
      rw [Dict.get?_set_of_ne _ _ hne]
    refine ⟨hs.moved (fun id' => ?_) (fun key' hkey => ?_) fun id run hrun hoff => ?_, hkept⟩
    · rw [Dict.total_set_of_none hroom]
      exact congrArg _ (hnew h id')
    · rw [← Option.isSome_map, hkept key' hkey]
      exact hkey
    · exact hs.silent id run hrun
        ((hkept run.roomId (hs.housed id run hrun)).symm.trans hoff)

end Writers

/-! ## Every call -/

/-- What a call that commits does to the switches of the rooms that exist. -/
structure Switched (db db' : AgentDb) (switches : Option (String × Bool)) : Prop where
  sets : ∀ key enabled, switches = some (key, enabled) → db'.enabled key = some enabled
  keeps : ∀ key, (db.enabled key).isSome = true → (∀ enabled, switches ≠ some (key, enabled)) →
    db'.enabled key = db.enabled key

theorem Switched.of_same {db db' : AgentDb} (h : ∀ key, db'.enabled key = db.enabled key) :
    Switched db db' none where
  sets := fun _ _ hnone => by cases hnone
  keeps := fun key _ _ => h key

theorem Switched.of_rooms {db db' : AgentDb} (h : db'.rooms = db.rooms) : Switched db db' none :=
  .of_same fun key => by
    unfold AgentDb.enabled
    rw [h]

/-- A call that commits keeps the invariant, and moves no switch but the one it sets. -/
theorem run_sound {s s' : System} {call : Call} (hs : Sound s.db) (haside : Aside s call)
    (h : call.run s = .ok s') : Sound s'.db ∧ Switched s.db s'.db call.switches := by
  cases call with
  | create request drawn again =>
    obtain ⟨⟨creation, db⟩, hcreate, rfl⟩ := map_eq_ok.mp h
    obtain ⟨hsound, hrooms⟩ := getOrCreateRunAndJob_sound hs hcreate
    exact ⟨hsound, .of_rooms hrooms⟩
  | cancel roomId runId teacherId causationId session transitionId =>
    obtain ⟨⟨run, db⟩, hcancel, rfl⟩ := map_eq_ok.mp h
    obtain ⟨hsound, hrooms⟩ := cancelRun_sound hs hcancel
    exact ⟨hsound, .of_rooms hrooms⟩
  | setEnabled roomId teacherId enabled causationId session transitionId controlEventId =>
    obtain ⟨⟨response, db⟩, hset, rfl⟩ := map_eq_ok.mp h
    obtain ⟨hsound, key, hkey, hswitched, hothers⟩ := setEnabled_sound hs hset
    have hswitches : Call.switches (.setEnabled roomId teacherId enabled causationId session
        transitionId controlEventId) = some (key, enabled) := by
      simp only [Call.switches, hkey, Except.toOption, Option.map_some]
    rw [hswitches]
    refine ⟨hsound, fun key' enabled' hsets => ?_, fun key' _ hne => hothers key' ?_⟩
    · cases hsets
      exact hswitched
    · rintro rfl
      exact hne enabled rfl
  | complete assertion request clock now drawn =>
    obtain ⟨⟨response, db⟩, hcomplete, rfl⟩ := map_eq_ok.mp h
    obtain ⟨hsound, hsame⟩ := handleComplete_sound hs hcomplete
    exact ⟨hsound, .of_same hsame⟩
  | reconcile batchSize =>
    cases h
    exact ⟨hs, .of_rooms rfl⟩
  | settle k transitionId =>
    cases hk : s.pending[k]? with
    | none =>
      simp only [Call.run, hk] at h
      cases h
      exact ⟨hs, .of_rooms rfl⟩
    | some orphan =>
      simp only [Call.run, hk] at h
      obtain ⟨⟨terminal, db⟩, hsettle, rfl⟩ := map_eq_ok.mp h
      obtain ⟨hsound, hrooms⟩ := settle_sound hs hsettle
      exact ⟨hsound, .of_rooms hrooms⟩
  | elsewhere rooms deleting queue =>
    cases h
    rcases haside with rfl | ⟨key, room, rfl, hroom⟩
    · exact ⟨hs.congr rfl rfl, .of_rooms rfl⟩
    · obtain ⟨hsound, hsame⟩ := hs.undisturbed hroom
      refine ⟨hsound.congr rfl rfl, fun key' enabled hnone => ?_, fun key' hkey _ => hsame key' hkey⟩
      cases hnone

theorem System.step_sound (s : System) (call : Call) (hs : Sound s.db) (haside : Aside s call) :
    Sound (s.step call).db := by
  unfold System.step
  cases hrun : call.run s with
  | error error =>
    rw [commit_of_error hrun]
    exact hs
  | ok s' =>
    rw [commit_of_ok hrun]
    exact (run_sound hs haside hrun).1

/-- A room stays switched off, unless a call that switches it on commits. -/
theorem System.step_off {s : System} {call : Call} (hs : Sound s.db) (haside : Aside s call)
    {key : String} (hoff : s.db.enabled key = some false)
    (hnot : ∀ s', call.run s = .ok s' → call.switches ≠ some (key, true)) :
    (s.step call).db.enabled key = some false := by
  unfold System.step
  cases hrun : call.run s with
  | error error =>
    rw [commit_of_error hrun]
    exact hoff
  | ok s' =>
    rw [commit_of_ok hrun]
    obtain ⟨-, hswitched⟩ := run_sound hs haside hrun
    by_cases hsets : call.switches = some (key, false)
    · exact hswitched.sets key false hsets
    · rw [hswitched.keeps key (by rw [hoff]; rfl)]
      · exact hoff
      · intro enabled
        cases enabled with
        | false => exact hsets
        | true => exact hnot s' hrun

/-- The row of a run that has ended stays as it is. -/
theorem System.step_ended {s : System} {call : Call} {id : String} {run : AgentRun}
    (hrun : s.db.runs.get? id = some run) (hended : run.state.active = false) :
    (s.step call).db.runs.get? id = some run := by
  unfold System.step
  cases hcall : call.run s with
  | error error =>
    rw [commit_of_error hcall]
    exact hrun
  | ok s' =>
    rw [commit_of_ok hcall]
    cases run_moves hcall with
    | stays runs transitions =>
      rw [runs]
      exact hrun
    | @creates id' run' t new queued runs transitions names starts goes =>
      rw [runs, Dict.get?_set, if_neg]
      · exact hrun
      · rintro rfl
        rw [new] at hrun
        cases hrun
    | @ends id' run₁ run₂ t old active runs brings names leaves goes records =>
      rw [runs, Dict.get?_set, if_neg]
      · exact hrun
      · rintro rfl
        rw [old] at hrun
        cases hrun
        rw [active] at hended
        cases hended

/-! ## Every run of the system -/

/-- The system after the first calls. -/
def System.after (s : System) (calls : List Call) (n : Nat) : System :=
  (calls.take n).foldl System.step s

theorem System.after_succ (s : System) (calls : List Call) (n : Nat) :
    s.after calls (n + 1) = (calls[n]?.toList).foldl System.step (s.after calls n) := by
  unfold System.after
  rw [List.take_add_one, List.foldl_append]

section Runs

variable {s : System} {calls : List Call}

theorem after_sound (hs : Sound s.db) (haside : Along System.step Aside s calls) (n : Nat) :
    Sound (s.after calls n).db :=
  Along.invariant (I := fun s => Sound s.db) System.step_sound hs (haside.take n)

theorem after_ended {n m : Nat} {id : String} {run : AgentRun} (hle : n ≤ m)
    (hrun : (s.after calls n).db.runs.get? id = some run) (hended : run.state.active = false) :
    (s.after calls m).db.runs.get? id = some run := by
  induction hle with
  | refl => exact hrun
  | @step m hle ih =>
    rw [System.after_succ]
    cases calls[m]? with
    | none => exact ih
    | some call => exact System.step_ended ih hended

/-- From the call that switches a room off, until one switches it on. -/
theorem after_off (hs : Sound s.db) (haside : Along System.step Aside s calls) {n m : Nat}
    {key : String} {call : Call} {s' : System} (hcall : calls[n]? = some call)
    (hswitches : call.switches = some (key, false)) (hcommits : call.run (s.after calls n) = .ok s')
    (hlt : n < m) (hnot : ∀ k call' s'', n < k → k < m → calls[k]? = some call' →
      call'.run (s.after calls k) = .ok s'' → call'.switches ≠ some (key, true)) :
    (s.after calls m).db.enabled key = some false := by
  induction hlt with
  | refl =>
    rw [System.after_succ, hcall]
    change ((s.after calls n).step call).db.enabled key = some false
    unfold System.step
    rw [commit_of_ok hcommits]
    exact (run_sound (after_sound hs haside n) (haside.get hcall) hcommits).2.sets key false hswitches
  | @step m hlt ih =>
    have hoff := ih fun k call' s'' hnk hkm => hnot k call' s'' hnk (Nat.lt_succ_of_lt hkm)
    rw [System.after_succ]
    cases hm : calls[m]? with
    | none => exact hoff
    | some call' =>
      exact System.step_off (after_sound hs haside m) (haside.get hm) hoff
        fun s'' hrun => hnot m call' s'' hlt (Nat.lt_succ_self m) hm hrun

end Runs

/-- From tables without a run and without a message of the agent, whatever the calls and their
order: the runs are a state machine after every call, a run that has ended stays as it is, and from
a call that disables the agent until one enables it no run of the room is active. -/
theorem agent_runs {s : System} (hruns : s.db.runs = .empty) (hsaid : ∀ id, s.db.said id = 0)
    {calls : List Call} (haside : Along System.step Aside s calls) :
    (∀ n, StateMachine (s.after calls n).db) ∧
    (∀ n m id run, n ≤ m → (s.after calls n).db.runs.get? id = some run →
      run.state.active = false → (s.after calls m).db.runs.get? id = some run) ∧
    ∀ n m key call s', calls[n]? = some call → call.switches = some (key, false) →
      call.run (s.after calls n) = .ok s' → n < m →
      (∀ k call' s'', n < k → k < m → calls[k]? = some call' →
        call'.run (s.after calls k) = .ok s'' → call'.switches ≠ some (key, true)) →
      ∀ id run, (s.after calls m).db.runs.get? id = some run → run.roomId = key →
        run.state.active = false := by
  have hnone : ∀ id run, s.db.runs.get? id ≠ some run := by
    intro id run hrun
    rw [hruns] at hrun
    cases hrun
  have hs : Sound s.db := by
    constructor
    · exact fun id run _ _ hrun => absurd hrun (hnone id run)
    · exact fun id run _ _ hrun => absurd hrun (hnone id run)
    · intro id
      rw [hsaid id, AgentDb.completed, hruns]
      rfl
    · exact fun id run hrun => absurd hrun (hnone id run)
    · exact fun id run hrun => absurd hrun (hnone id run)
  refine ⟨fun n => (after_sound hs haside n).stateMachine,
    fun n m id run hle hrun hended => after_ended hle hrun hended, ?_⟩
  intro n m key call s' hcall hswitches hcommits hlt hnot id run hrun hroom
  have hoff := after_off hs haside hcall hswitches hcommits hlt hnot
  exact (after_sound hs haside m).silent id run hrun (hroom ▸ hoff)

/-- The room once the teacher has disabled the agent and closed the room. -/
def closedRoom : Room where
  row := ⟨roomId, teacherId, novaActorId, .closed, some 0, some 2700000, some 1, 4⟩
  agentEnabled := false
  members := []
  events := [teacherMessage firstEventId 1, teacherMessage secondEventId 2] ++
    [{ teacherMessage causationB 3 with type := "room.closed", payload := ⟨.closed 1, none⟩ }]
  outbox := []

/-- The agent is asked and disabled, the room is closed, a reconciler looks for orphans, and the
agent is asked again. -/
def disablesAgent : List Call :=
  [ asks firstEventId firstRunId,
    .setEnabled roomId teacherId false causationA ⟨none, false⟩ causationB causationB,
    .elsewhere (twoMessages.db.rooms.set roomId closedRoom) [] .empty,
    .reconcile 10,
    asks secondEventId secondRunId ]

theorem agent_runs_disabled :
    (∀ n, StateMachine (twoMessages.after disablesAgent n).db) ∧
    ∀ id run, (twoMessages.after disablesAgent 5).db.runs.get? id = some run →
      run.roomId = roomId → run.state.active = false := by
  have haside : Along System.step Aside twoMessages disablesAgent := by
    refine ⟨trivial, trivial, .inr ⟨roomId, closedRoom, rfl, rfl, _, rfl, fun e he => ?_⟩, trivial,
      trivial, trivial⟩
    rw [List.mem_singleton.mp he]
    decide
  have hcommits : ((disablesAgent.getD 1 (.reconcile 0)).run
      (twoMessages.after disablesAgent 1)).toOption.isSome = true := by decide +kernel
  obtain ⟨s', hs'⟩ := Option.isSome_iff_exists.mp hcommits
  obtain ⟨hmachine, -, hquiet⟩ := agent_runs rfl (fun _ => rfl) haside
  refine ⟨hmachine, hquiet 1 5 roomId _ s' rfl ?_ (toOption_eq_some hs') (by decide) ?_⟩
  · decide +kernel
  · intro k call s'' hlow hhigh hcall _ hswitches
    obtain rfl | rfl | rfl : k = 2 ∨ k = 3 ∨ k = 4 := by omega
    · cases hcall
      cases hswitches
    · cases hcall
      cases hswitches
    · cases hcall
      cases hswitches

end LearningOrbit.Agent
