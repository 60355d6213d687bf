import Mathlib.Data.List.Chain
import LearningOrbit.Runs
import LearningOrbit.Agent.Runs

/-!
# The audit trail of the runs

Four writers move a run, and each inserts a transition beside its update. Three of the
inserts do nothing where the causation is in the table already, while the update stands, so
the trail of a run is complete as long as no call that ends a run brings a causation again.
-/

namespace LearningOrbit.Agent

open LearningOrbit (Dict)
open Jobs (Queue)
open Media (Assertion)
open Rooms (Drawn Envelope Tx column)

/-! ## Runs of the system -/

/-- The tables, and the orphans that reconcilers have read and not settled yet. -/
structure System where
  db : AgentDb
  pending : List OrphanRun

/-- One transaction, with what it draws. -/
inductive Call
  | create (request : AgentRunRequest) (drawn again : RunDrawn)
  | cancel (roomId runId teacherId causationId : String) (session : Session)
    (transitionId : String)
  | setEnabled (roomId teacherId : String) (enabled : Bool) (causationId : String)
    (session : Session) (transitionId controlEventId : String)
  | complete (assertion : Assertion) (request : CompleteRequest) (clock now : Int) (drawn : Drawn)
  /-- A reconciler reads its batch. -/
  | reconcile (batchSize : Nat)
  /-- A reconciler comes to an orphan it has read. -/
  | settle (k : Nat) (transitionId : String)
  /-- The other writers, which move no run. -/
  | elsewhere (rooms : Dict String Room) (deleting : List String) (queue : Queue)

def Call.run (s : System) : Call → Except String System
  | .create request drawn again =>
    (getOrCreateRunAndJob s.db request drawn again).map fun (_, db) => { s with db }
  | .cancel roomId runId teacherId causationId session transitionId =>
    (cancelRun s.db roomId runId teacherId causationId session transitionId).map
      fun (_, db) => { s with db }
  | .setEnabled roomId teacherId enabled causationId session transitionId controlEventId =>
    (Agent.setEnabled s.db roomId teacherId enabled causationId session transitionId
      controlEventId).map fun (_, db) => { s with db }
  | .complete assertion request clock now drawn =>
    (handleComplete s.db assertion request clock now drawn).map fun (_, db) => { s with db }
  | .reconcile batchSize => .ok { s with pending := s.pending ++ orphans s.db batchSize }
  | .settle k transitionId =>
    match s.pending[k]? with
    | none => .ok s
    | some orphan =>
      (Agent.settle s.db orphan transitionId).map fun (_, db) =>
        { db, pending := s.pending.eraseIdx k }
  | .elsewhere rooms deleting queue => .ok { s with db := { s.db with rooms, deleting, queue } }

/-- A call that throws is rolled back. -/
def System.step (s : System) (call : Call) : System := commit Call.run s call

/-! ## The property -/

def trail (db : AgentDb) (agentRunId : String) : List Transition :=
  db.transitions.filter (·.agentRunId = agentRunId)

/-- From NULL to queued, each transition from where the last one went, to the state of the run. -/
structure Complete (trail : List Transition) (state : RunState) : Prop where
  starts : ∃ t, trail.head? = some t ∧ t.fromState = none ∧ t.toState = .queued
  linked : trail.IsChain fun a b => b.fromState = some a.toState
  current : trail.getLast?.map (·.toState) = some state

/-- The trail of every run is complete. -/
def Audited (db : AgentDb) : Prop :=
  ∀ agentRunId run, db.runs.get? agentRunId = some run → Complete (trail db agentRunId) run.state

/-! ## The condition -/

def cancelEnds (db : AgentDb) (roomId runId teacherId causationId : String) (session : Session) :
    Option String :=
  match cancellable db roomId runId teacherId session with
  | .ok _ => (uuid causationId).toOption
  | .error _ => none

def settingEnds (db : AgentDb) (roomId teacherId : String) (enabled : Bool) (causationId : String)
    (session : Session) : Option String :=
  match settable db roomId teacherId enabled session with
  | .ok (_, _, some _) => (uuid causationId).toOption
  | _ => none

def completeEnds (db : AgentDb) (assertion : Assertion) (r : CompleteRequest) : Option String :=
  match r.refused assertion, db.rooms.get? (column r.roomId) with
  | none, some room =>
    match Rooms.beginRoom (room.database db.queue (column r.roomId ∈ db.deleting)) r.roomId with
    | .ok t =>
      match examine db r t with
      | .ok (.speaks _) => (uuid r.claim.jobId).toOption
      | _ => none
    | .error _ => none
  | _, _ => none

def settleEnds (db : AgentDb) (orphan : OrphanRun) : Option String :=
  match db.runs.get? orphan.agentRunId with
  | some run =>
    if run.state.active then
      (uuid (reconcileCausation orphan.agentRunId orphan.reason.terminalText)).toOption
    else none
  | none => none

/-- The causation a call brings if its checks find a run to end. -/
def Call.ends (s : System) : Call → Option String
  | .create .. => none
  | .cancel roomId runId teacherId causationId session _ =>
    cancelEnds s.db roomId runId teacherId causationId session
  | .setEnabled roomId teacherId enabled causationId session _ _ =>
    settingEnds s.db roomId teacherId enabled causationId session
  | .complete assertion request _ _ _ => completeEnds s.db assertion request
  | .reconcile _ => none
  | .settle k _ => s.pending[k]?.bind (settleEnds s.db)
  | .elsewhere .. => none

/-- A call that ends a run brings a causation that is in no transition. -/
def Fresh (s : System) (call : Call) : Prop :=
  ∀ causationId ∈ call.ends s, causationId ∉ s.db.transitions.map (·.causationId)

instance (s : System) (call : Call) : Decidable (Fresh s call) :=
  inferInstanceAs (Decidable (∀ _ ∈ _, _))

/-! ## What a call does to the runs -/

/-- What a call does to the runs and the transitions, `causation` being what it brings to end one. -/
inductive Moves (db db' : AgentDb) (causation : Option String) : Prop
  | stays (runs : db'.runs = db.runs) (transitions : db'.transitions = db.transitions)
  | creates {id : String} {run : AgentRun} {t : Transition} (new : db.runs.get? id = none)
    (queued : run.state = .queued) (runs : db'.runs = db.runs.set id run)
    (transitions : db'.transitions = db.transitions ++ [t]) (names : t.agentRunId = id)
    (starts : t.fromState = none) (goes : t.toState = .queued)
  | ends {id : String} {run run' : AgentRun} {t : Transition} (old : db.runs.get? id = some run)
    (active : run.state.active = true) (runs : db'.runs = db.runs.set id run')
    (brings : causation = some t.causationId)
    (names : t.agentRunId = id) (leaves : t.fromState = some run.state)
    (goes : t.toState = run'.state)
    (records : t.causationId ∉ db.transitions.map (·.causationId) →
      db'.transitions = db.transitions ++ [t])

theorem Moves.refl (db : AgentDb) (causation : Option String) : Moves db db causation :=
  .stays rfl rfl

theorem Moves.congr {db₁ db₂ db₁' db₂' : AgentDb} {causation : Option String}
    (h : Moves db₁ db₁' causation)
    (hbefore : (db₁.runs, db₁.transitions) = (db₂.runs, db₂.transitions))
    (hafter : (db₁'.runs, db₁'.transitions) = (db₂'.runs, db₂'.transitions)) :
    Moves db₂ db₂' causation := by
  obtain ⟨hr, ht⟩ := Prod.mk.inj hbefore
  obtain ⟨hr', ht'⟩ := Prod.mk.inj hafter
  cases h with
  | stays runs transitions =>
    rw [hr, hr'] at runs
    rw [ht, ht'] at transitions
    exact .stays runs transitions
  | creates new queued runs transitions names starts goes =>
    rw [hr] at new runs
    rw [hr'] at runs
    rw [ht, ht'] at transitions
    exact .creates new queued runs transitions names starts goes
  | ends old active runs brings names leaves goes records =>
    rw [hr] at old runs
    rw [hr'] at runs
    rw [ht, ht'] at records
    exact .ends old active runs brings names leaves goes records

theorem insertTransition_ok {transitions transitions' : List Transition} {t : Transition}
    (h : insertTransition transitions t = .ok transitions') : transitions' = transitions ++ [t] := by
  unfold insertTransition at h
  split at h
  · cases h
  · split at h <;> cases h
    rfl

theorem insertTransitionOnce_ok {transitions transitions' : List Transition} {t : Transition}
    (h : insertTransitionOnce transitions t = .ok transitions')
    (hnew : t.causationId ∉ transitions.map (·.causationId)) :
    transitions' = transitions ++ [t] := by
  rw [insertTransitionOnce, if_neg hnew] at h
  exact insertTransition_ok h

theorem endRun_moves {db db' : AgentDb} {id : String} {run : AgentRun} {toState : RunState}
    {failureCode : Option String} {reasonCode causationId transitionId : String}
    (hrun : db.runs.get? id = some run) (hactive : run.state.active = true)
    (h : endRun db id run toState failureCode reasonCode causationId transitionId = .ok db') :
    Moves db db' (some causationId) := by
  obtain ⟨transitions, ht, h⟩ := bind_eq_ok.mp h
  cases h
  exact .ends hrun hactive rfl rfl rfl rfl rfl (insertTransitionOnce_ok ht)

/-- A run that ends changes its row and no room. -/
theorem endRun_eq {db db' : AgentDb} {id : String} {run : AgentRun} {toState : RunState}
    {failureCode : Option String} {reasonCode causationId transitionId : String}
    (h : endRun db id run toState failureCode reasonCode causationId transitionId = .ok db') :
    db'.rooms = db.rooms ∧
      db'.runs = db.runs.set id { run with state := toState, failureCode } := by
  obtain ⟨transitions, -, h⟩ := bind_eq_ok.mp h
  cases h
  exact ⟨rfl, rfl⟩

theorem cancelLocked_moves {db db' : AgentDb} {id : String} {run : AgentRun}
    {causationId reasonCode transitionId : String} (hrun : db.runs.get? id = some run)
    (hactive : run.state.active = true)
    (h : cancelLocked db id run causationId reasonCode transitionId = .ok db') :
    Moves db db' (uuid causationId).toOption := by
  obtain ⟨causation, hcausation, h⟩ := bind_eq_ok.mp h
  rw [hcausation]
  exact (endRun_moves (by exact hrun) hactive h).congr rfl rfl

theorem cancelLocked_eq {db db' : AgentDb} {id : String} {run : AgentRun}
    {causationId reasonCode transitionId : String}
    (h : cancelLocked db id run causationId reasonCode transitionId = .ok db') :
    db'.rooms = db.rooms ∧
      db'.runs = db.runs.set id { run with state := .cancelled, failureCode := some reasonCode } := by
  obtain ⟨causation, -, h⟩ := bind_eq_ok.mp h
  have hend := endRun_eq h
  exact hend

theorem insertRun_ok {runs runs' : Dict String AgentRun} {id : String} {run : AgentRun}
    (h : insertRun runs id run = .ok runs') : runs.get? id = none ∧ runs' = runs.set id run := by
  unfold insertRun at h
  split at h
  · cases h
  split at h
  · cases h
  split at h
  · cases h
  · rename_i hnew
    split at h
    · cases h
    · split at h <;> cases h
      simpa [Dict.contains] using hnew

theorem insertRunAndJob_moves {db db' : AgentDb} {drawn : RunDrawn} {run : AgentRun}
    (hqueued : run.state = .queued) (h : insertRunAndJob db drawn run = .ok db') :
    Moves db db' none := by
  obtain ⟨runs, hruns, h⟩ := bind_eq_ok.mp h
  obtain ⟨queue, -, h⟩ := bind_eq_ok.mp h
  obtain ⟨transitions, ht, h⟩ := bind_eq_ok.mp h
  cases h
  obtain ⟨hnew, rfl⟩ := insertRun_ok hruns
  exact .creates hnew hqueued rfl (insertTransition_ok ht) rfl rfl rfl

/-- A trigger finds its run, or inserts one in a room with the agent enabled. -/
theorem createInTransaction_eq {db db' : AgentDb} {request : AgentRunRequest}
    {drawn : RunDrawn} {creation : AgentRunCreation}
    (h : createInTransaction db request drawn = .ok (creation, db')) :
    db' = db ∨ ∃ run room, db.rooms.get? run.roomId = some room ∧ room.agentEnabled = true ∧
      run.state = .queued ∧ insertRunAndJob db drawn run = .ok db' := by
  obtain ⟨roomId, -, h⟩ := bind_eq_ok.mp h
  obtain ⟨⟨⟩, -, h⟩ := bind_eq_ok.mp h
  cases hroom : db.rooms.get? roomId with
  | none =>
    rw [hroom] at h
    cases h
  | some room =>
    rw [hroom] at h
    obtain ⟨⟨⟩, -, h⟩ := bind_eq_ok.mp h
    obtain ⟨triggerEventId, -, h⟩ := bind_eq_ok.mp h
    dsimp only at h
    split at h
    · cases h
      exact .inl rfl
    split at h
    · cases h
    split at h
    · cases h
    rename_i henabled
    obtain ⟨⟨trigger, latest⟩, -, h⟩ := bind_eq_ok.mp h
    dsimp only at h
    split at h
    · cases h
    split at h
    · cases h
    cases hbefore : request.beforeCreate with
    | some error =>
      rw [hbefore] at h
      cases h
    | none =>
      rw [hbefore] at h
      obtain ⟨db₁, hinsert, h⟩ := bind_eq_ok.mp h
      cases h
      exact .inr ⟨_, room, hroom, by simpa using henabled, rfl, hinsert⟩

/-- The attempt that a request ends with. -/
theorem getOrCreateRunAndJob_eq {db db' : AgentDb} {request : AgentRunRequest}
    {drawn again : RunDrawn} {creation : AgentRunCreation}
    (h : getOrCreateRunAndJob db request drawn again = .ok (creation, db')) :
    ∃ last, createInTransaction db request last = .ok (creation, db') := by
  unfold getOrCreateRunAndJob at h
  split at h
  · rename_i result hfirst
    cases h
    exact ⟨drawn, hfirst⟩
  · split at h
    · cases hagain : createInTransaction db request again with
      | error error =>
        rw [hagain] at h
        cases h
      | ok result =>
        rw [hagain] at h
        cases h
        exact ⟨again, hagain⟩
    · cases h

theorem getOrCreateRunAndJob_moves {db db' : AgentDb} {request : AgentRunRequest}
    {drawn again : RunDrawn} {creation : AgentRunCreation}
    (h : getOrCreateRunAndJob db request drawn again = .ok (creation, db')) :
    Moves db db' none := by
  obtain ⟨last, h⟩ := getOrCreateRunAndJob_eq h
  obtain rfl | ⟨run, room, -, -, hqueued, hinsert⟩ := createInTransaction_eq h
  · exact .refl _ none
  · exact insertRunAndJob_moves hqueued hinsert

/-! ### Teachers -/

theorem cancellable_run {db : AgentDb} {roomId runId teacherId : String} {session : Session}
    {found : String × AgentRun} (h : cancellable db roomId runId teacherId session = .ok found) :
    db.runs.get? found.1 = some found.2 ∧ found.2.state.active = true := by
  obtain ⟨room, -, h⟩ := bind_eq_ok.mp h
  obtain ⟨⟨⟩, -, h⟩ := bind_eq_ok.mp h
  obtain ⟨⟨⟩, -, h⟩ := bind_eq_ok.mp h
  obtain ⟨id, -, h⟩ := bind_eq_ok.mp h
  obtain ⟨teacher, -, h⟩ := bind_eq_ok.mp h
  cases hrun : db.runs.get? id with
  | none =>
    rw [hrun] at h
    cases h
  | some run =>
    rw [hrun] at h
    dsimp only at h
    split at h
    · cases h
    · split at h
      · cases h
      · rename_i hactive
        cases h
        exact ⟨hrun, by simpa using hactive⟩

theorem cancelRun_moves {db db' : AgentDb} {roomId runId teacherId causationId : String}
    {session : Session} {transitionId : String} {run : Option AgentRun}
    (h : cancelRun db roomId runId teacherId causationId session transitionId = .ok (run, db')) :
    Moves db db' (cancelEnds db roomId runId teacherId causationId session) := by
  obtain ⟨found, hfound, h⟩ := bind_eq_ok.mp h
  obtain ⟨db₁, hcancel, h⟩ := bind_eq_ok.mp h
  cases h
  obtain ⟨hrun, hactive⟩ := cancellable_run hfound
  unfold cancelEnds
  rw [hfound]
  exact cancelLocked_moves hrun hactive hcancel

theorem activeRun_run {db : AgentDb} {roomId : String} {found : String × AgentRun}
    (h : db.activeRun roomId = some found) :
    db.runs.get? found.1 = some found.2 ∧ found.2.roomId = roomId ∧
      found.2.state.active = true := by
  obtain ⟨hmem, hactive⟩ := List.mem_filter.mp
    ((List.mem_insertionSort _).mp (List.mem_of_head? h))
  rw [Bool.and_eq_true, decide_eq_true_eq] at hactive
  exact ⟨Dict.get?_eq_some.mpr hmem, hactive.1, hactive.2⟩

/-- What `setEnabled` is about to change. -/
theorem settable_eq {db : AgentDb} {roomId teacherId key : String} {enabled : Bool}
    {session : Session} {room : Room} {active : Option (String × AgentRun)}
    (h : settable db roomId teacherId enabled session = .ok (key, room, active)) :
    uuid roomId = .ok key ∧ db.rooms.get? key = some room ∧
      active = if enabled then none else db.activeRun key := by
  obtain ⟨id, hid, h⟩ := bind_eq_ok.mp h
  obtain ⟨⟨⟩, -, h⟩ := bind_eq_ok.mp h
  obtain ⟨⟨⟩, -, h⟩ := bind_eq_ok.mp h
  obtain ⟨teacher, -, h⟩ := bind_eq_ok.mp h
  cases hroom : db.rooms.get? id with
  | none =>
    rw [hroom] at h
    cases h
  | some room' =>
    rw [hroom] at h
    dsimp only at h
    split at h
    · cases h
    · cases h
      exact ⟨hid, hroom, rfl⟩

/-- `setEnabled` switches one room, and ends the run it finds. -/
theorem setEnabled_eq {db db' : AgentDb} {roomId teacherId causationId : String}
    {enabled : Bool} {session : Session} {transitionId controlEventId : String}
    {response : AgentSettingsResponse}
    (h : setEnabled db roomId teacherId enabled causationId session transitionId controlEventId =
      .ok (response, db')) :
    ∃ key room active, settable db roomId teacherId enabled session = .ok (key, room, active) ∧
      db'.rooms = db.rooms.set key { room with agentEnabled := enabled } ∧
      (active = none ∧ db'.runs = db.runs ∧ db'.transitions = db.transitions ∨
        ∃ found db₁, active = some found ∧ cancelLocked
            { db with rooms := db.rooms.set key { room with agentEnabled := enabled } }
            found.1 found.2 causationId "AGENT_DISABLED" transitionId = .ok db₁ ∧
          db'.runs = db₁.runs ∧ db'.transitions = db₁.transitions) := by
  obtain ⟨⟨key, room, active⟩, hfound, h⟩ := bind_eq_ok.mp h
  refine ⟨key, room, active, hfound, ?_⟩
  cases active with
  | none =>
    dsimp only at h
    obtain ⟨db₁, hsame, h⟩ := bind_eq_ok.mp h
    obtain ⟨causation, -, h⟩ := bind_eq_ok.mp h
    obtain ⟨controls, -, h⟩ := bind_eq_ok.mp h
    cases hsame
    cases h
    exact ⟨rfl, .inl ⟨rfl, rfl, rfl⟩⟩
  | some found =>
    dsimp only at h
    obtain ⟨db₁, hcancel, h⟩ := bind_eq_ok.mp h
    obtain ⟨causation, -, h⟩ := bind_eq_ok.mp h
    obtain ⟨controls, -, h⟩ := bind_eq_ok.mp h
    cases h
    exact ⟨(cancelLocked_eq hcancel).1, .inr ⟨found, db₁, rfl, hcancel, rfl, rfl⟩⟩

theorem setEnabled_moves {db db' : AgentDb} {roomId teacherId causationId : String}
    {enabled : Bool} {session : Session} {transitionId controlEventId : String}
    {response : AgentSettingsResponse}
    (h : setEnabled db roomId teacherId enabled causationId session transitionId controlEventId =
      .ok (response, db')) :
    Moves db db' (settingEnds db roomId teacherId enabled causationId session) := by
  obtain ⟨key, room, active, hfound, -, hruns⟩ := setEnabled_eq h
  unfold settingEnds
  rw [hfound]
  rcases hruns with ⟨rfl, hruns, htransitions⟩ | ⟨found, db₁, rfl, hcancel, hruns, htransitions⟩
  · exact .stays hruns htransitions
  · obtain ⟨-, -, hactive⟩ := settable_eq hfound
    split at hactive
    · cases hactive
    · obtain ⟨hrun, -, hbusy⟩ := activeRun_run hactive.symm
      exact (cancelLocked_moves (by exact hrun) hbusy hcancel).congr rfl
        (Prod.ext hruns.symm htransitions.symm)

/-! ### The worker and the reconciler -/

theorem examine_run {db : AgentDb} {r : CompleteRequest} {t : Tx Payload} {run : AgentRun}
    (h : examine db r t = .ok (.speaks run)) :
    db.runs.get? r.agentRunId = some run ∧ run.state.active = true ∧
      Rooms.findOneByCausation payloads t.db r.claim.jobId = .ok none := by
  unfold examine at h
  split at h
  · cases h
  split at h
  · cases h
  split at h
  · cases h
  rename_i found hfound
  split at h
  · cases h
  obtain ⟨existing, hexisting, h⟩ := bind_eq_ok.mp h
  cases existing with
  | some existing => cases h
  | none =>
    dsimp only at h
    split at h
    · cases h
    · rename_i hactive
      split at h <;> cases h
      exact ⟨(Option.filter_eq_some_iff.mp hfound).1, by simpa using hactive, hexisting⟩

theorem completeClaim_events {t t' : Tx Payload} {claim : Jobs.JobClaim}
    (h : completeClaim t claim = .ok t') : t'.db.events = t.db.events := by
  obtain ⟨queue, -, h⟩ := bind_eq_ok.mp h
  cases h
  rfl

/-- The callback leaves the run and the events of the room alone, or the run speaks and ends. -/
theorem completeInContext_eq {db db' : AgentDb} {r : CompleteRequest} {clock now : Int}
    {drawn : Drawn} {t t' : Tx Payload} {response : CompleteResponse}
    (h : completeInContext db r clock now drawn t = .ok ((response, db'), t')) :
    db' = db ∧ t'.db.events = t.db.events ∨
      ∃ run appended t₁ causation, examine db r t = .ok (.speaks run) ∧
        Rooms.appendOne payloads now drawn none
          (some (completeDraft r t.room.novaActorId clock)) t = .ok (appended, t₁) ∧
        uuid r.claim.jobId = .ok causation ∧
        endRun db r.agentRunId run .completed none "AGENT_EXECUTION_TERMINAL" causation
          appended.eventId = .ok db' ∧ t'.db.events = t₁.db.events := by
  obtain ⟨admission, hexamine, h⟩ := bind_eq_ok.mp h
  cases admission with
  | rejected code =>
    cases h
    exact .inl ⟨rfl, rfl⟩
  | already eventId =>
    obtain ⟨t₁, hclaim, h⟩ := bind_eq_ok.mp h
    cases h
    exact .inl ⟨rfl, completeClaim_events hclaim⟩
  | speaks run =>
    obtain ⟨⟨appended, t₁⟩, happend, h⟩ := bind_eq_ok.mp h
    obtain ⟨causation, hcausation, h⟩ := bind_eq_ok.mp h
    obtain ⟨db₁, hend, h⟩ := bind_eq_ok.mp h
    obtain ⟨t₂, hclaim, h⟩ := bind_eq_ok.mp h
    cases h
    exact .inr ⟨run, appended, t₁, causation, hexamine, happend, hcausation, hend,
      completeClaim_events hclaim⟩

theorem completeInContext_moves {db db' : AgentDb} {r : CompleteRequest} {clock now : Int}
    {drawn : Drawn} {t t' : Tx Payload} {response : CompleteResponse}
    (h : completeInContext db r clock now drawn t = .ok ((response, db'), t')) :
    Moves db db' (match examine db r t with
      | .ok (.speaks _) => (uuid r.claim.jobId).toOption
      | _ => none) := by
  rcases completeInContext_eq h with ⟨rfl, -⟩ |
    ⟨run, appended, t₁, causation, hexamine, -, hcausation, hend, -⟩
  · exact .refl _ _
  · obtain ⟨hrun, hactive, -⟩ := examine_run hexamine
    rw [hexamine, hcausation]
    exact endRun_moves hrun hactive hend

/-- The route refuses without a change, or its callback returns. -/
theorem handleComplete_eq {db db' : AgentDb} {assertion : Assertion} {r : CompleteRequest}
    {clock now : Int} {drawn : Drawn} {response : CompleteResponse}
    (h : handleComplete db assertion r clock now drawn = .ok (response, db')) :
    db' = db ∨ ∃ room t t' db₁, r.refused assertion = none ∧
      db.rooms.get? (column r.roomId) = some room ∧
      Rooms.beginRoom (room.database db.queue (column r.roomId ∈ db.deleting)) r.roomId = .ok t ∧
      completeInContext db r clock now drawn t = .ok ((response, db₁), t') ∧
      db' = db₁.withDatabase (column r.roomId) room t'.db := by
  unfold handleComplete at h
  cases hrefused : r.refused assertion with
  | some code =>
    rw [hrefused] at h
    cases h
    exact .inl rfl
  | none =>
    rw [hrefused] at h
    cases hroom : db.rooms.get? (column r.roomId) with
    | none =>
      rw [hroom] at h
      cases h
    | some room =>
      rw [hroom] at h
      dsimp only at h
      split at h
      · cases h
        exact .inl rfl
      · cases h
      · rename_i result response' db₁ d hwork
        cases h
        obtain ⟨t, hbegin, hwork⟩ := bind_eq_ok.mp hwork
        obtain ⟨⟨value, t'⟩, hcallback, hwork⟩ := bind_eq_ok.mp hwork
        cases hwork
        exact .inr ⟨room, t, t', db₁, rfl, rfl, hbegin, hcallback, rfl⟩

theorem handleComplete_moves {db db' : AgentDb} {assertion : Assertion} {r : CompleteRequest}
    {clock now : Int} {drawn : Drawn} {response : CompleteResponse}
    (h : handleComplete db assertion r clock now drawn = .ok (response, db')) :
    Moves db db' (completeEnds db assertion r) := by
  rcases handleComplete_eq h with rfl | ⟨room, t, t', db₁, hrefused, hroom, hbegin, hwork, rfl⟩
  · exact .refl _ _
  · unfold completeEnds
    rw [hrefused, hroom]
    dsimp only
    rw [hbegin]
    exact (completeInContext_moves hwork).congr rfl rfl

/-- A reconciler leaves a run that has ended, or ends it. -/
theorem settle_eq {db db' : AgentDb} {orphan : OrphanRun} {transitionId : String}
    {terminal : Option RunState} (h : settle db orphan transitionId = .ok (terminal, db')) :
    db' = db ∨ ∃ run causation, db.runs.get? orphan.agentRunId = some run ∧
      run.state.active = true ∧
      uuid (reconcileCausation orphan.agentRunId orphan.reason.terminalText) = .ok causation ∧
      endRun db orphan.agentRunId run orphan.reason.terminal (some orphan.reason.code)
        orphan.reason.code causation transitionId = .ok db' := by
  unfold settle at h
  cases hrun : db.runs.get? orphan.agentRunId with
  | none =>
    rw [hrun] at h
    cases h
    exact .inl rfl
  | some run =>
    rw [hrun] at h
    dsimp only at h
    by_cases hactive : run.state.active = true
    · rw [hactive] at h
      obtain ⟨causation, hcausation, h⟩ := bind_eq_ok.mp h
      obtain ⟨db₁, hend, h⟩ := bind_eq_ok.mp h
      cases h
      exact .inr ⟨run, causation, rfl, hactive, hcausation, hend⟩
    · rw [Bool.eq_false_iff.mpr hactive] at h
      cases h
      exact .inl rfl

theorem settle_moves {db db' : AgentDb} {orphan : OrphanRun} {transitionId : String}
    {terminal : Option RunState} (h : settle db orphan transitionId = .ok (terminal, db')) :
    Moves db db' (settleEnds db orphan) := by
  rcases settle_eq h with rfl | ⟨run, causation, hrun, hactive, hcausation, hend⟩
  · exact .refl _ _
  · unfold settleEnds
    rw [hrun]
    dsimp only
    rw [if_pos hactive, hcausation]
    exact endRun_moves hrun hactive hend

/-- Each call leaves the runs as they are, creates one, or ends one with its causation. -/
theorem run_moves {s s' : System} {call : Call} (h : call.run s = .ok s') :
    Moves s.db s'.db (call.ends s) := by
  cases call with
  | create request drawn again =>
    obtain ⟨⟨creation, db⟩, hcreate, rfl⟩ := map_eq_ok.mp h
    exact getOrCreateRunAndJob_moves hcreate
  | cancel roomId runId teacherId causationId session transitionId =>
    obtain ⟨⟨run, db⟩, hcancel, rfl⟩ := map_eq_ok.mp h
    exact cancelRun_moves hcancel
  | setEnabled roomId teacherId enabled causationId session transitionId controlEventId =>
    obtain ⟨⟨response, db⟩, hset, rfl⟩ := map_eq_ok.mp h
    exact setEnabled_moves hset
  | complete assertion request clock now drawn =>
    obtain ⟨⟨response, db⟩, hcomplete, rfl⟩ := map_eq_ok.mp h
    exact handleComplete_moves hcomplete
  | reconcile batchSize =>
    cases h
    exact .refl s.db _
  | settle k transitionId =>
    cases hk : s.pending[k]? with
    | none =>
      simp only [Call.run, hk] at h
      cases h
      exact .refl s.db _
    | some orphan =>
      simp only [Call.run, hk] at h
      obtain ⟨⟨terminal, db⟩, hsettle, rfl⟩ := map_eq_ok.mp h
      simp only [Call.ends, hk]
      exact settle_moves hsettle
  | elsewhere rooms deleting queue =>
    cases h
    exact .stays rfl rfl

/-! ## Trails -/

theorem Complete.concat {trail : List Transition} {state : RunState} {t : Transition}
    (h : Complete trail state) (hfrom : t.fromState = some state) :
    Complete (trail ++ [t]) t.toState := by
  obtain ⟨first, hhead, hnull, hqueued⟩ := h.starts
  constructor
  · refine ⟨first, ?_, hnull, hqueued⟩
    rw [List.head?_append, hhead]
    rfl
  · rw [List.isChain_append]
    refine ⟨h.linked, List.isChain_singleton t, ?_⟩
    intro last hlast next hnext
    have hcurrent := h.current
    rw [Option.mem_def.mp hlast] at hcurrent
    cases hcurrent
    cases hnext
    exact hfrom
  · rw [List.getLast?_concat]
    rfl

theorem Complete.start {t : Transition} (hnull : t.fromState = none)
    (hqueued : t.toState = .queued) : Complete [t] .queued where
  starts := ⟨t, rfl, hnull, hqueued⟩
  linked := List.isChain_singleton t
  current := congrArg some hqueued

theorem trail_concat {db db' : AgentDb} {t : Transition}
    (h : db'.transitions = db.transitions ++ [t]) (id : String) :
    trail db' id = if t.agentRunId = id then trail db id ++ [t] else trail db id := by
  unfold trail
  rw [h, List.filter_append]
  by_cases ht : t.agentRunId = id
  · simp [ht]
  · simp [ht]

/-- Every trail is complete, and no transition is without its run. -/
structure Unbroken (db : AgentDb) : Prop where
  audited : Audited db
  owned : ∀ t ∈ db.transitions, (db.runs.get? t.agentRunId).isSome = true

/-- One call, whose causation is new. -/
theorem Moves.unbroken {db db' : AgentDb} {causation : Option String}
    (h : Moves db db' causation)
    (hnew : ∀ id ∈ causation, id ∉ db.transitions.map (·.causationId))
    (hunbroken : Unbroken db) : Unbroken db' := by
  cases h with
  | stays runs transitions =>
    constructor
    · intro id run hrun
      rw [runs] at hrun
      have hcomplete := hunbroken.audited id run hrun
      unfold trail at hcomplete ⊢
      rwa [transitions]
    · rw [runs, transitions]
      exact hunbroken.owned
  | @creates id run t new queued runs transitions names starts goes =>
    constructor
    · intro id' run' hrun
      rw [runs, Dict.get?_set] at hrun
      rw [trail_concat transitions]
      by_cases hid : id' = id
      · -- The run is new, so it has no transition yet.
        rw [if_pos hid] at hrun
        cases hrun
        subst hid
        have hempty : trail db id' = [] := by
          refine List.filter_eq_nil_iff.mpr fun u hu hrunId => ?_
          have howned := hunbroken.owned u hu
          rw [of_decide_eq_true hrunId, new] at howned
          cases howned
        rw [if_pos names, hempty, queued]
        exact Complete.start starts goes
      · rw [if_neg hid] at hrun
        rw [if_neg (by rw [names]; exact fun h => hid h.symm)]
        exact hunbroken.audited id' run' hrun
    · intro u hu
      rw [runs, Dict.get?_set]
      rw [transitions, List.mem_append, List.mem_singleton] at hu
      split
      · rfl
      · rename_i hother
        cases hu with
        | inl hold => exact hunbroken.owned u hold
        | inr hlast =>
          rw [hlast] at hother
          exact absurd names hother
  | @ends id run run' t old active runs brings names leaves goes records =>
    have transitions := records (hnew _ brings)
    constructor
    · intro id' found hrun
      rw [runs, Dict.get?_set] at hrun
      rw [trail_concat transitions]
      by_cases hid : id' = id
      · rw [if_pos hid] at hrun
        cases hrun
        subst hid
        rw [if_pos names, ← goes]
        exact (hunbroken.audited id' run old).concat leaves
      · rw [if_neg hid] at hrun
        rw [if_neg (by rw [names]; exact fun h => hid h.symm)]
        exact hunbroken.audited id' found hrun
    · intro u hu
      rw [runs, Dict.get?_set]
      rw [transitions, List.mem_append, List.mem_singleton] at hu
      split
      · rfl
      · rename_i hother
        cases hu with
        | inl hold => exact hunbroken.owned u hold
        | inr hlast =>
          rw [hlast] at hother
          exact absurd names hother

theorem System.step_unbroken (s : System) (call : Call) (hunbroken : Unbroken s.db)
    (hfresh : Fresh s call) : Unbroken (s.step call).db := by
  unfold System.step
  cases hrun : call.run s with
  | error error =>
    rw [commit_of_error hrun]
    exact hunbroken
  | ok s' =>
    rw [commit_of_ok hrun]
    exact (run_moves hrun).unbroken hfresh hunbroken

/-! ## Two runs of one room -/

def roomId : String := "00000000-0000-4000-8000-0000000000a0"

def teacherId : String := "00000000-0000-4000-8000-0000000000a1"

def novaActorId : String := "00000000-0000-4000-8000-0000000000a2"

def firstEventId : String := "00000000-0000-4000-8000-0000000000e1"

def secondEventId : String := "00000000-0000-4000-8000-0000000000e2"

def firstRunId : String := "00000000-0000-4000-8000-0000000000f1"

def secondRunId : String := "00000000-0000-4000-8000-0000000000f2"

def causationA : String := "00000000-0000-4000-8000-0000000000c1"

def causationB : String := "00000000-0000-4000-8000-0000000000c2"

/-- The teacher's message of this number. -/
def teacherMessage (eventId : String) (roomSeq : Nat) : Envelope Payload where
  eventId
  roomId
  roomSeq
  type := "message.added"
  actorId := teacherId
  actorKind := .human
  actorRole := .teacher
  revision := 1
  operation := .add
  eventTime := 0
  ingestTime := 0
  causationId := eventId
  correlationId := eventId
  payload := ⟨.message eventId "Why is the sky blue?" none [] [], none⟩

/-- An open room with two messages, and no run yet. -/
def twoMessages : System where
  db := {
    rooms := Dict.empty.set roomId {
      row := ⟨roomId, teacherId, novaActorId, .open, some 0, some 2700000, none, 3⟩
      agentEnabled := true
      members := []
      events := [teacherMessage firstEventId 1, teacherMessage secondEventId 2]
      outbox := [] }
    deleting := []
    queue := .empty
    runs := .empty
    transitions := []
    controls := [] }
  pending := []

def asks (triggerEventId agentRunId : String) : Call :=
  .create ⟨roomId, triggerEventId, ⟨some teacherId, none, true⟩, ⟨none, false⟩, none⟩
    ⟨agentRunId, agentRunId, agentRunId, 0⟩ ⟨agentRunId, agentRunId, agentRunId, 0⟩

/-- Both runs are cancelled, under these causations. -/
def cancelsBoth (first second : String) : List Call :=
  [asks firstEventId firstRunId, .cancel roomId firstRunId teacherId first ⟨none, false⟩ causationA,
    asks secondEventId secondRunId,
    .cancel roomId secondRunId teacherId second ⟨none, false⟩ causationB]

/-! ## The trails -/

/-- From tables without a run, whatever the calls and their order: as long as no call that ends a
run brings a causation again, the trail of every run is complete after every call. -/
theorem trails_complete {s : System} (hruns : s.db.runs = .empty)
    (htransitions : s.db.transitions = []) {calls : List Call}
    (hfresh : Along System.step Fresh s calls) (n : Nat) :
    Audited ((calls.take n).foldl System.step s).db := by
  have hstart : Unbroken s.db := by
    constructor
    · intro id run hrun
      rw [hruns] at hrun
      cases hrun
    · rw [htransitions]
      exact fun t ht => absurd ht List.not_mem_nil
  have hend : Unbroken ((calls.take n).foldl System.step s).db :=
    Along.invariant (I := fun s => Unbroken s.db) System.step_unbroken hstart (hfresh.take n)
  exact hend.audited

theorem trails_complete_both :
    Audited (((cancelsBoth causationA causationB).take 4).foldl System.step twoMessages).db :=
  trails_complete rfl rfl (by decide +kernel) 4

/-- Under one causation the second run is cancelled without a record. -/
theorem cancels_unrecorded :
    ¬Audited ((cancelsBoth causationA causationA).foldl System.step twoMessages).db := by
  obtain ⟨hstate, hlast⟩ :
      (((cancelsBoth causationA causationA).foldl System.step twoMessages).db.runs.get?
        secondRunId).map (·.state) = some .cancelled ∧
      (trail ((cancelsBoth causationA causationA).foldl System.step twoMessages).db
        secondRunId).getLast?.map (·.toState) = some .queued := by decide +kernel
  intro h
  obtain ⟨run, hrun, hcancelled⟩ := Option.map_eq_some_iff.mp hstate
  have hcurrent := (h secondRunId run hrun).current
  rw [hlast, hcancelled] at hcurrent
  cases hcurrent

end LearningOrbit.Agent
