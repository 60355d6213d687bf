import LearningOrbit.Worker.Rebuild

/-!
# Runs of consumes and replays

Everything one execution can do, as a relation, and what follows for whole
runs: the checkpoint only moves forward inside the ledger, and a replay asked
for a late event is asked for again by every later consume that still finds
that event first among the late ones.
-/

namespace LearningOrbit.Worker

open LearningOrbit (Host Dict)
open LearningOrbit.Reference

/-- The job consumes the next event of the room. -/
def Due (L : StoredLedger) (s : Store) (job : Job) : Prop :=
  job = .consume (s.checkpoint + 1) ∧ s.checkpoint + 1 ≤ L.events.length

/-- The projector a consume of the next event builds. -/
def nextProjector (h : Host) (L : StoredLedger) (s : Store) (attempt : Attempt) :
    StreamingProjector :=
  onlineProjector h L.toRoomLedger attempt.overlay (s.checkpoint + 1)

/-- The event a consume of the next event would ask a replay for. -/
def nextSource (h : Host) (L : StoredLedger) (s : Store) (attempt : Attempt) : Option RoomEvent :=
  lateSource h L.toRoomLedger attempt.overlay (s.checkpoint + 1)

/-- The projector is a replay of the room through the checkpoint. -/
def Replays (h : Host) (L : StoredLedger) (s : Store) (attempt : Attempt)
    (projector : StreamingProjector) : Prop :=
  projector.state.echo =
    (echoRun h .inf (chatsOf h L.toRoomLedger attempt.overlay s.checkpoint)).withLateness
      (.within (seconds 5))

/-- What handling a job can do: the projector it builds, and the store it leaves or its raise. -/
inductive Handled (h : Host) (L : StoredLedger) (s : Store) (attempt : Attempt) :
    Job → Option StreamingProjector → Except Raised Store → Prop
  | idle {job : Job} : ¬ Due L s job → Handled h L s attempt job none (.ok s)
  | refused {job : Job} {code : String} : ¬ Due L s job →
      Handled h L s attempt job none (.error (.handler code))
  | consumeFault {job : Job} {message : String} : Due L s job → attempt.fault = some message →
      Handled h L s attempt job (some (nextProjector h L s attempt)) (.error (.stage message))
  | consumed {job : Job} (epoch : String) : Due L s job → attempt.fault = none →
      nextSource h L s attempt = none →
      Handled h L s attempt job (some (nextProjector h L s attempt))
        (.ok (s.advanced epoch (s.checkpoint + 1)))
  | requested {job : Job} (epoch : String) {source : RoomEvent} {tables : ReplayTables}
      {jobId : String} : Due L s job → attempt.fault = none →
      nextSource h L s attempt = some source →
      enqueueAnalyticsReplay h s.tables (lateArgs L.roomId source (s.checkpoint + 1)) =
        .ok (tables, jobId) →
      Handled h L s attempt job (some (nextProjector h L s attempt))
        (.ok { s.advanced epoch (s.checkpoint + 1) with tables })
  | unrequested {job : Job} {source : RoomEvent} {code : String} : Due L s job →
      attempt.fault = none → nextSource h L s attempt = some source →
      enqueueAnalyticsReplay h s.tables (lateArgs L.roomId source (s.checkpoint + 1)) =
        .error code →
      Handled h L s attempt job (some (nextProjector h L s attempt)) (.error (.enqueue code))
  | replayFault {row : ReplayJob} {projector : StreamingProjector} {message : String} :
      Replays h L s attempt projector →
      Handled h L s attempt (.replay row) (some projector) (.error (.stage message))
  | replayed {row : ReplayJob} {projector : StreamingProjector} : 
      Replays h L s attempt projector →
      Handled h L s attempt (.replay row) (some projector)
        (.ok (s.advanced (replayEpoch h row) s.checkpoint))

section Handle

variable {h : Host} {L : StoredLedger} {s : Store} {attempt : Attempt}

theorem handle_consume (h : Host) (L : StoredLedger) (s : Store) (attempt : Attempt) (c : Nat) :
    Handled h L s attempt (.consume c) (handle h L s attempt (.consume c)).1
      (handle h L s attempt (.consume c)).2 := by
  unfold handle
  dsimp only
  by_cases hnext : c = s.checkpoint + 1 ∧ c ≤ L.events.length
  · obtain ⟨rfl, hle⟩ := hnext
    have hdue : Due L s (.consume (s.checkpoint + 1)) := ⟨rfl, hle⟩
    have hmat := materialize_online h L s attempt (currentOrInitialEpoch h L.roomId s)
      (Nat.le_add_left 1 s.checkpoint) hle
    rw [analyticsConsumeHandler_next h L s attempt rfl hle, hmat]
    dsimp only
    cases hf : attempt.fault with
    | some message => exact .consumeFault hdue hf
    | none =>
      cases hs : lateSource h L.toRoomLedger attempt.overlay (s.checkpoint + 1) with
      | none => exact .consumed _ hdue hf hs
      | some source =>
        dsimp only
        cases he : enqueueAnalyticsReplay h s.tables
            (lateArgs L.roomId source (s.checkpoint + 1)) with
        | error code => exact .unrequested hdue hf hs he
        | ok r => exact .requested _ hdue hf hs he
  · have hdue : ¬ Due L s (.consume c) := by
      rintro ⟨hj, hle⟩
      cases hj
      exact hnext ⟨rfl, hle⟩
    rcases analyticsConsumeHandler_other h L s attempt hnext with hr | ⟨code, hr⟩
    · rw [hr]
      exact .idle hdue
    · rw [hr]
      exact .refused hdue

theorem handle_replay (hb : s.checkpoint ≤ L.events.length) (row : ReplayJob) :
    Handled h L s attempt (.replay row) (handle h L s attempt (.replay row)).1
      (handle h L s attempt (.replay row)).2 := by
  have hdue : ¬ Due L s (.replay row) := by
    rintro ⟨hj, -⟩
    cases hj
  unfold handle
  dsimp only
  by_cases hm : row ∈ s.tables.jobs
  · rw [if_pos hm]
    rcases analyticsReplayHandler_cases h L s attempt row with hr | ⟨code, hr⟩ | hr
    · rw [hr]
      exact .idle hdue
    · rw [hr]
      exact .refused hdue
    · rw [hr]
      by_cases hz : s.checkpoint = 0
      · rw [hz, materialize_zero]
        exact .refused hdue
      · obtain ⟨p, hp, hmat⟩ := materialize_replaying h L s attempt (replayEpoch h row)
          (Nat.one_le_iff_ne_zero.mpr hz) hb
        rw [hmat]
        dsimp only
        cases hf : attempt.fault with
        | some message => exact .replayFault hp
        | none => exact .replayed hp
  · rw [if_neg hm]
    exact .refused hdue

theorem handle_handled (h : Host) (attempt : Attempt) (hb : s.checkpoint ≤ L.events.length)
    (job : Job) :
    Handled h L s attempt job (handle h L s attempt job).1 (handle h L s attempt job).2 := by
  cases job with
  | consume c => exact handle_consume h L s attempt c
  | replay row => exact handle_replay hb row

/-- The checkpoint moves forward and stays inside the ledger. -/
theorem Handled.checkpoint {job : Job} {built : Option StreamingProjector}
    {r : Except Raised Store} (hx : Handled h L s attempt job built r)
    (hb : s.checkpoint ≤ L.events.length) :
    s.checkpoint ≤ (r.toOption.getD s).checkpoint ∧
      (r.toOption.getD s).checkpoint ≤ L.events.length := by
  cases hx with
  | idle _ => exact ⟨Nat.le_refl _, hb⟩
  | refused _ => exact ⟨Nat.le_refl _, hb⟩
  | consumeFault _ _ => exact ⟨Nat.le_refl _, hb⟩
  | consumed _ hd _ _ =>
    have := hd.2
    simp only [Except.toOption, Option.getD_some, Store.advanced]
    omega
  | requested _ hd _ _ _ =>
    have := hd.2
    simp only [Except.toOption, Option.getD_some, Store.advanced]
    omega
  | unrequested _ _ _ _ => exact ⟨Nat.le_refl _, hb⟩
  | replayFault _ => exact ⟨Nat.le_refl _, hb⟩
  | replayed _ =>
    simp only [Except.toOption, Option.getD_some, Store.advanced]
    omega

end Handle

/-- What every job keeps holds before each execution of a run. -/
theorem executions_invariant {h : Host} {L : StoredLedger} {P : Store → Prop}
    (hstep : ∀ s job attempt, P s → P (execute h L s job attempt).after)
    {s : Store} (hs : P s) {jobs : List (Job × Attempt)} {x : Execution}
    (hx : x ∈ executions h L s jobs) :
    P x.before ∧ x = execute h L x.before x.job x.attempt ∧ (x.job, x.attempt) ∈ jobs := by
  induction jobs generalizing s with
  | nil => cases hx
  | cons j rest ih =>
    obtain ⟨job, attempt⟩ := j
    rcases List.mem_cons.mp hx with rfl | hx
    · exact ⟨hs, rfl, List.mem_cons_self ..⟩
    · obtain ⟨hp, he, hm⟩ := ih (hstep s job attempt hs) hx
      exact ⟨hp, he, List.mem_cons_of_mem _ hm⟩

/-- An execution of a run is a handled job. -/
theorem executions_handled {h : Host} {L : StoredLedger} {jobs : List (Job × Attempt)}
    {x : Execution} (hx : x ∈ executions h L .init jobs) :
    x.before.checkpoint ≤ L.events.length ∧ (x.job, x.attempt) ∈ jobs ∧
      ∃ r, Handled h L x.before x.attempt x.job x.built r ∧ x.result = r.map (fun _ => ()) ∧
        x.after = r.toOption.getD x.before := by
  obtain ⟨hb, he, hm⟩ := executions_invariant
    (P := fun s => s.checkpoint ≤ L.events.length)
    (fun s job attempt hs => ((handle_handled h attempt hs job).checkpoint hs).2) (Nat.zero_le _) hx
  refine ⟨hb, hm, (handle h L x.before x.attempt x.job).2, ?_, ?_, ?_⟩
  · have hh := handle_handled h x.attempt hb x.job
    rwa [show (handle h L x.before x.attempt x.job).1 = x.built from
      (congrArg Execution.built he).symm] at hh
  · exact congrArg Execution.result he
  · exact congrArg Execution.after he

/-! ## Replay requests -/

/-- The job ids of the late events of a room do not collide. -/
def CollisionFree (h : Host) (L : StoredLedger) : Prop :=
  (L.events.map fun e => (lateArgs L.roomId e 0).jobId h).Nodup

/-- A replay for the event was asked for. -/
def Store.Asked (s : Store) (event : RoomEvent) : Prop :=
  ∃ r ∈ s.tables.requests, r.sourceEventId = some event.eventId

/-- The replay tables hold what earlier consumes asked for. -/
structure Reached (h : Host) (L : StoredLedger) (s : Store) : Prop where
  bound : s.checkpoint ≤ L.events.length
  log : ∃ log : List (RoomEvent × Nat),
    s.tables.jobs = log.map (fun p => (lateArgs L.roomId p.1 p.2).job h) ∧
    s.tables.requests = log.map (fun p => (lateArgs L.roomId p.1 p.2).request h) ∧
    ∀ p ∈ log, p.1 ∈ L.events ∧ p.2 ≤ s.checkpoint

theorem Reached.init (h : Host) (L : StoredLedger) : Reached h L .init :=
  ⟨Nat.zero_le _, [], rfl, rfl, fun _ hp => by cases hp⟩

theorem lateArgs_valid {L : StoredLedger} {e : RoomEvent} (he : e ∈ L.events) (c : Nat) :
    (lateArgs L.roomId e c).Valid where
  canonical := by
    have hroom : Uuid.canonical L.roomId = some L.roomId := L.roomUuid
    have hevent : Uuid.canonical e.eventId = some e.eventId := L.eventUuid e he
    have hcorr : Uuid.canonical e.correlationId = some e.correlationId := L.correlationUuid e he
    simp [ReplayArgs.canonical, lateArgs, hroom, hevent, hcorr]
  token := by
    have : e.eventId.length = 36 := Uuid.canonical_length (L.eventUuid e he)
    simp only [lateArgs]
    omega

section Requests

variable {h : Host} {L : StoredLedger} {s : Store} {e : RoomEvent}

/-- An event asked for before is refused at every later cursor. -/
theorem Reached.enqueue_asked (hr : Reached h L s) (he : e ∈ L.events) {c : Nat}
    (hc : s.checkpoint < c) (ha : s.Asked e) :
    enqueueAnalyticsReplay h s.tables (lateArgs L.roomId e c) =
      .error "REPLAY_AUTHORITY_CONFLICT" := by
  obtain ⟨log, hjobs, hreqs, hlog⟩ := hr.log
  obtain ⟨r, hrm, hsource⟩ := ha
  rw [hreqs] at hrm
  obtain ⟨p, hp, rfl⟩ := List.mem_map.mp hrm
  have hid : p.1.eventId = e.eventId := Option.some.inj hsource
  have hmem : (lateArgs L.roomId p.1 p.2).job h ∈ s.tables.jobs := by
    rw [hjobs]
    exact List.mem_map.mpr ⟨p, hp, rfl⟩
  have hkey : ((lateArgs L.roomId p.1 p.2).job h).dedupeKey =
      (lateArgs L.roomId e c).dedupeKey h := by
    unfold ReplayArgs.job ReplayArgs.dedupeKey lateArgs
    rw [hid]
  have hne : (lateArgs L.roomId p.1 p.2).job h ≠ (lateArgs L.roomId e c).job h := by
    -- the stored request ends at an earlier cursor
    intro hsame
    have hthrough : p.2 = c := congrArg ReplayJob.analyticsOrderSeq hsame
    have := (hlog p hp).2
    omega
  exact enqueue_conflict (lateArgs_valid he c) hmem hkey hne

/-- An event not asked for is entered. -/
theorem Reached.enqueue_unasked (hr : Reached h L s) (hcf : CollisionFree h L)
    (he : e ∈ L.events) (c : Nat) (ha : ¬ s.Asked e) :
    ∃ t, enqueueAnalyticsReplay h s.tables (lateArgs L.roomId e c) =
        .ok (t, (lateArgs L.roomId e c).jobId h) ∧
      t.jobs = s.tables.jobs ++ [(lateArgs L.roomId e c).job h] ∧
      t.requests = s.tables.requests ++ [(lateArgs L.roomId e c).request h] := by
  obtain ⟨log, hjobs, hreqs, hlog⟩ := hr.log
  have hfresh : ∀ p ∈ log, (lateArgs L.roomId p.1 p.2).jobId h ≠
      (lateArgs L.roomId e c).jobId h := by
    intro p hp hid
    have hsame : p.1 = e := List.inj_on_of_nodup_map hcf (hlog p hp).1 he hid
    have hsource : ((lateArgs L.roomId p.1 p.2).request h).sourceEventId = some e.eventId := by
      rw [← hsame]
      rfl
    refine ha ⟨(lateArgs L.roomId p.1 p.2).request h, ?_, hsource⟩
    rw [hreqs]
    exact List.mem_map.mpr ⟨p, hp, rfl⟩
  -- equal keys give equal job ids
  have hkey : ∀ p ∈ log, (lateArgs L.roomId p.1 p.2).dedupeKey h ≠
      (lateArgs L.roomId e c).dedupeKey h :=
    fun p hp hk => hfresh p hp (congrArg (h.uuid5 REPLAY_JOB_NAMESPACE) hk)
  refine enqueue_new (lateArgs_valid he c) (fun row hrow => ?_) fun row hrow => ?_
  · rw [hjobs] at hrow
    obtain ⟨p, hp, rfl⟩ := List.mem_map.mp hrow
    exact ⟨hkey p hp, hfresh p hp⟩
  · rw [hreqs] at hrow
    obtain ⟨p, hp, rfl⟩ := List.mem_map.mp hrow
    exact ⟨hkey p hp, hfresh p hp⟩

theorem Reached.step (hr : Reached h L s) (hcf : CollisionFree h L) {job : Job}
    {attempt : Attempt} {built : Option StreamingProjector} {r : Except Raised Store}
    (hx : Handled h L s attempt job built r) : Reached h L (r.toOption.getD s) := by
  obtain ⟨hmono, hbound⟩ := hx.checkpoint hr.bound
  obtain ⟨log, hjobs, hreqs, hlog⟩ := hr.log
  have hkeep : ∀ p ∈ log, p.1 ∈ L.events ∧ p.2 ≤ (r.toOption.getD s).checkpoint :=
    fun p hp => ⟨(hlog p hp).1, Nat.le_trans (hlog p hp).2 hmono⟩
  cases hx with
  | idle _ => exact hr
  | refused _ => exact hr
  | consumeFault _ _ => exact hr
  | unrequested _ _ _ _ => exact hr
  | replayFault _ => exact hr
  | consumed _ _ _ _ => exact ⟨hbound, log, hjobs, hreqs, hkeep⟩
  | replayed _ => exact ⟨hbound, log, hjobs, hreqs, hkeep⟩
  | requested epoch _ _ hsource henq =>
    rename_i source tables jobId _ _
    have he : source ∈ L.events := lateSource_mem hsource
    have hunasked : ¬ s.Asked source := fun ha => by
      rw [hr.enqueue_asked he (Nat.lt_succ_self _) ha] at henq
      cases henq
    obtain ⟨t', ht', htj, htr⟩ := hr.enqueue_unasked hcf he (s.checkpoint + 1) hunasked
    rw [ht'] at henq
    cases henq
    refine ⟨hbound, log ++ [(source, s.checkpoint + 1)], ?_, ?_, fun p hp => ?_⟩
    · simp only [Except.toOption, Option.getD_some, htj, hjobs, List.map_append, List.map_cons,
        List.map_nil]
    · simp only [Except.toOption, Option.getD_some, htr, hreqs, List.map_append, List.map_cons,
        List.map_nil]
    · rcases List.mem_append.mp hp with hp | hp
      · exact hkeep p hp
      · rw [List.mem_singleton.mp hp]
        exact ⟨he, by simp [Except.toOption, Store.advanced]⟩

end Requests

/-- The consume of the next event with no unmodelled stage raising. -/
def Execution.Due (L : StoredLedger) (x : Execution) : Prop :=
  Worker.Due L x.before x.job ∧ x.attempt.fault = none

/-- The event a consume would ask a replay for was not asked for before. -/
def Execution.Unasked (h : Host) (L : StoredLedger) (x : Execution) : Prop :=
  ∀ source, nextSource h L x.before x.attempt = some source → ¬ x.before.Asked source

/-- No conflict, and a consume that is due commits. -/
def Execution.Unconflicted (L : StoredLedger) (x : Execution) : Prop :=
  x.result ≠ .error (.enqueue "REPLAY_AUTHORITY_CONFLICT") ∧
  (x.Due L → x.result = .ok () ∧ x.after.checkpoint = x.before.checkpoint + 1)

theorem Reached.unconflicted_iff {h : Host} {L : StoredLedger} (hcf : CollisionFree h L)
    {x : Execution} (hr : Reached h L x.before) {r : Except Raised Store}
    (hx : Handled h L x.before x.attempt x.job x.built r)
    (hresult : x.result = r.map fun _ => ()) (hafter : x.after = r.toOption.getD x.before) :
    x.Unconflicted L ↔ (x.Due L → x.Unasked h L) := by
  unfold Execution.Unconflicted Execution.Due Execution.Unasked
  rw [hresult, hafter]
  obtain ⟨s, job, attempt, built, result, after⟩ := x
  dsimp only at hr hx ⊢
  cases hx with
  | idle hnd => simp [hnd, Except.map]
  | refused hnd => simp [hnd, Except.map]
  | consumeFault _ hf => simp [hf, Except.map]
  | consumed _ _ _ hnone => simp [hnone, Except.map, Except.toOption, Store.advanced]
  | requested _ hd hf hs henq =>
    have hunasked : ¬ s.Asked _ := fun ha => by
      rw [hr.enqueue_asked (lateSource_mem hs) (Nat.lt_succ_self _) ha] at henq
      cases henq
    simpa [hs, Except.map, Except.toOption, Store.advanced] using fun _ _ => hunasked
  | unrequested hd hf hs henq =>
    constructor
    · rintro ⟨-, hcommit⟩ hdue
      cases (hcommit hdue).1
    · intro hfree
      obtain ⟨t, ht, -⟩ := hr.enqueue_unasked hcf (lateSource_mem hs) (s.checkpoint + 1)
        (hfree ⟨hd, hf⟩ _ hs)
      rw [ht] at henq
      cases henq
  | replayFault _ => simp [Worker.Due, Except.map]
  | replayed _ => simp [Worker.Due, Except.map]

/-- A learner's message in a room, with the client time it claims. -/
def learnerMessage (seq : Nat) (id : String) (time : Int) (text : String) : RoomEvent where
  eventId := id
  roomId := "00000000-0000-4000-8000-000000000000"
  roomSeq := seq
  type := .messageAdded
  operation := .add
  actorId := "00000000-0000-4000-8000-0000000000aa"
  actorKind := .human
  actorRole := some .student
  revision := 1
  eventTime := some time
  ingestTime := some (seconds 200)
  correlationId := "00000000-0000-4000-8000-0000000000cc"
  payload := ⟨some id, text, none, [], []⟩

/-- Its client clock is a hundred seconds behind. -/
def lateMessage : RoomEvent :=
  learnerMessage 2 "00000000-0000-4000-8000-000000000002" 0 "the sun provides energy to producers"

def lateRoomEvents : List RoomEvent :=
  [ learnerMessage 1 "00000000-0000-4000-8000-000000000001" (seconds 100) "hello",
    lateMessage,
    learnerMessage 3 "00000000-0000-4000-8000-000000000003" (seconds 101) "thanks" ]

theorem learnerRoom_stored : Uuid.Stored "00000000-0000-4000-8000-000000000000" := by decide +kernel

theorem lateRoomEvents_stored : ∀ e ∈ lateRoomEvents, Uuid.Stored e.eventId := by decide +kernel

theorem lateRoomEvents_correlated : ∀ e ∈ lateRoomEvents, Uuid.Stored e.correlationId := by decide +kernel

/-- A room whose second message is late. -/
def lateRoom : StoredLedger where
  roomId := "00000000-0000-4000-8000-000000000000"
  events := lateRoomEvents
  contiguous := by decide
  distinct := by decide
  room := by decide
  wellFormed := by
    simp only [lateRoomEvents, List.mem_cons, List.not_mem_nil, or_false, forall_eq_or_imp, forall_eq]
    exact ⟨⟨by decide, by decide, by decide, by decide, by decide, by decide⟩,
      ⟨by decide, by decide, by decide, by decide, by decide, by decide⟩,
      ⟨by decide, by decide, by decide, by decide, by decide, by decide⟩⟩
  ingestParses := by decide
  eventParses := by decide
  roomUuid := learnerRoom_stored
  eventUuid := lateRoomEvents_stored
  correlationUuid := lateRoomEvents_correlated

theorem lateRoom_collisionFree : CollisionFree .ascii lateRoom := by
  have hids : (lateRoom.events.map fun e => (lateArgs lateRoom.roomId e 0).jobId .ascii) =
      ["3ff1982e-4cdc-5418-8889-6875ad60475f", "9364ba7f-59db-5671-ab71-be8fec9ab832",
        "5efb0416-14fd-5512-9bca-0c6fa63fb5ea"] := by decide +kernel
  unfold CollisionFree
  rw [hids]
  decide

/-- No reviews and no raise. -/
def plainAttempt : Attempt := ⟨⟨[], .empty⟩, none⟩

/-- The replay the consume of the late message asks for. -/
def lateJob : ReplayJob := (lateArgs lateRoom.roomId lateMessage 2).job .ascii

/-- The three consumes of the room with that replay in between. -/
def lateRun : List (Job × Attempt) :=
  [(.consume 1, plainAttempt), (.consume 2, plainAttempt), (.replay lateJob, plainAttempt),
    (.consume 3, plainAttempt)]

/-- What can be read off an execution: its raise, the contributions of the concept map it
built, by id, source event and activity, and the epoch it found. -/
structure Observed where
  raised : Option Raised
  contributions : Option (List (String × String × Bool))
  epoch : String
  deriving DecidableEq

def Execution.observed (h : Host) (roomId : String) (x : Execution) : Observed where
  raised := match x.result with
    | .ok _ => none
    | .error e => some e
  contributions := x.built.map fun p =>
    p.state.echo.contributions.entries.map fun kv => (kv.1, kv.2.eventId, kv.2.active)
  epoch := currentOrInitialEpoch h roomId x.before

theorem lateRun_observed :
    (executions .ascii lateRoom .init lateRun).map (Execution.observed .ascii lateRoom.roomId) =
      [ ⟨none, some [], "90ba2ec4-f843-58c9-b775-25b784d9451b"⟩,
        ⟨none, some [], "90ba2ec4-f843-58c9-b775-25b784d9451b"⟩,
        ⟨none, some [("cc-136969bff31a8bef", lateMessage.eventId, true)],
          "90ba2ec4-f843-58c9-b775-25b784d9451b"⟩,
        ⟨some (.enqueue "REPLAY_AUTHORITY_CONFLICT"), some [],
          "3ecee5c0-20f1-503e-8490-b9cae8931598"⟩ ] := by
  decide +kernel

end LearningOrbit.Worker
