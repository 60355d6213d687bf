import LearningOrbit.Deletion.Saga
import LearningOrbit.Jobs.Fencing

/-!
# The media step of a deletion

`delete_surface_handler` asks the server's media route in the middle of its transaction,
and the route opens a transaction of its own. Both are parties of one run: a lock that the
other party holds is waited for, and the handler waits for the answer. The assertion and
the schema of the request, which the handler fills in, come before the route's transaction.
The worker's `main` always gives the handler its HTTP client.
-/

namespace LearningOrbit.Deletion

open Jobs (Queue JobClaim WorkerJob)

inductive Lock
  | job (jobId : String)
  | deletion (deletionJobId : String)
  | manifest (deletionJobId : String) (surface : Surface)
  /-- The advisory lock of a room. -/
  | room (roomId : String)
  /-- The row of `classroom_room`. -/
  | roomRow (roomId : String)
  deriving DecidableEq

inductive Party
  | handler
  | route
  deriving DecidableEq

inductive Answer
  | completed (verifiedItemCount : Nat)
  | alreadyVerified (verifiedItemCount : Nat)
  | retryable (code : String)
  | rejected (code : String)
  /-- The route threw. -/
  | internal
  deriving DecidableEq

/-- The surface is verified, for all the route knows. -/
def Answer.verifies : Answer → Bool
  | .completed _ | .alreadyVerified _ => true
  | _ => false

/-- `_validate_response`, which wants a member `code`, and the rest of `_verify_media_surface`.
What is rejected comes with a status that is no success. -/
def verifyMediaSurface : Answer → Except Raised Unit
  | .completed _ | .alreadyVerified _ => .error (terminal "MEDIA_SURFACE_REJECTED")
  | .retryable _ | .rejected _ | .internal => .error (retryable "MEDIA_SURFACE_PENDING")

/-- What a party waits to lock next, or what it has come to. -/
inductive HandlerAt
  | job | deletion | manifest | room | roomRow
  | calling
  | ended (result : Except Raised Unit)
  deriving DecidableEq

inductive RouteAt
  | idle
  | job | deletion | manifest | room
  | answered (answer : Answer)
  deriving DecidableEq

structure MediaStep where
  saga : Saga
  job : WorkerJob
  held : Lock → Option Party
  handler : HandlerAt
  route : RouteAt

def MediaStep.start (s : Saga) (job : WorkerJob) : MediaStep :=
  ⟨s, job, fun _ => none, .job, .idle⟩

def MediaStep.free (w : MediaStep) (party : Party) (lock : Lock) : Bool :=
  w.held lock = none || w.held lock = some party

def MediaStep.take (w : MediaStep) (party : Party) (lock : Lock) : MediaStep :=
  { w with held := fun l => if l = lock then some party else w.held l }

/-- A transaction ends. -/
def MediaStep.release (w : MediaStep) (party : Party) : MediaStep :=
  { w with held := fun l => if w.held l = some party then none else w.held l }

def MediaStep.end (w : MediaStep) (result : Except Raised Unit) : MediaStep :=
  { w.release .handler with handler := .ended result }

def MediaStep.answer (w : MediaStep) (answer : Answer) : MediaStep :=
  { w.release .route with route := .answered answer }

/-! ## The handler -/

/-- The lock the handler waits for. -/
def MediaStep.handlerWants (w : MediaStep) : Option Lock :=
  match w.handler with
  | .job => some (.job w.job.claim.jobId)
  | .deletion => some (.deletion w.saga.deletionJobId)
  | .manifest => some (.manifest w.saga.deletionJobId .media)
  | .room => w.saga.roomRef.map .room
  | .roomRow => w.saga.roomRef.map .roomRow
  | _ => none

/-- What the handler does with the lock it waited for. Paths that do not come to the media
branch end here with what `deleteSurfaceHandler` makes of them. -/
def MediaStep.handlerGets (w : MediaStep) : MediaStep :=
  let s := w.saga
  let other := w.end ((deleteSurfaceHandler s w.job).map fun _ => ())
  match w.handler with
  | .job =>
    match Jobs.requireCurrent "JOB_CLAIM_STALE" s.queue w.job.claim with
    | .ok _ => { w with handler := .deletion }
    | .error e => w.end (.error (raisedBy e))
  | .deletion =>
    if s.correlationId = w.job.claim.correlationId then { w with handler := .manifest } else other
  | .manifest =>
    match s.status, (s.manifests .media).status with
    | .queued, .frozen | .queued, .running | .running, .frozen | .running, .running
    | .retryable, .frozen | .retryable, .running =>
      if s.roomRef.isSome then { w with handler := .room } else other
    | _, _ => other
  | .room => { w with handler := .roomRow }
  | .roomRow =>
    match s.room with
    | some rows =>
      if (prior .media).all s.verified
          && (0 < (s.manifests .media).expectedItemCount || 0 < surfaceCount rows .media) then
        { w with handler := .calling, route := .job }
      else other
    | none => other
  | _ => w

/-- The handler after `_verify_media_surface` has returned. -/
def MediaStep.handlerCompletes (w : MediaStep) : MediaStep :=
  if !w.saga.verified .media then w.end (.error (retryable "MEDIA_SURFACE_PENDING"))
  else
    match completeSurface w.saga w.job with
    | .ok s => { w with saga := s }.end (.ok ())
    | .error e => w.end (.error e)

/-! ## The route -/

/-- The lock the route waits for. -/
def MediaStep.routeWants (w : MediaStep) : Option Lock :=
  match w.route with
  | .job => some (.job w.job.claim.jobId)
  | .deletion => some (.deletion w.saga.deletionJobId)
  | .manifest => some (.manifest w.saga.deletionJobId .media)
  | .room => w.saga.roomRef.map .room
  | _ => none

/-- The job row is that of the request. -/
def surfaceIdentity (s : Saga) (job : WorkerJob) : Bool :=
  (s.queue.jobs.get? job.claim.jobId).any fun row =>
    row.jobType = job.claim.jobType && row.roomId = none && row.sourceEventId = none
      && row.dedupeKey = job.claim.dedupeKey && row.correlationId = job.claim.correlationId
      && row.payload.get? "deletionJobId" = some (.text s.deletionJobId)
      && row.payload.get? "surface" = some (.text "media")

/-- `completeBusiness`, and the commit. -/
def MediaStep.routeCompletes (w : MediaStep) (s : Saga) (answer : Answer) : MediaStep :=
  match Jobs.completeBusiness s.queue w.job.claim "MEDIA_SURFACE_VERIFIED" with
  | .ok queue => { w with saga := { s with queue } }.answer answer
  | .error e =>
    w.answer (if e = "JOB_CLAIM_STALE" then .rejected "JOB_CLAIM_STALE" else .internal)

/-- How the route finds the media of the room. -/
structure Store where
  quiet : Bool
  /-- No key is left, or `eraseRoomObjects` resolved. -/
  erased : Bool
  /-- The rows of the room after the deletes and their cascades, and the assets among them. -/
  swept : Rows
  removed : Nat

/-- What the route does with the lock it waited for. -/
def MediaStep.routeGets (w : MediaStep) (store : Store) : MediaStep :=
  let s := w.saga
  match w.route with
  | .job =>
    if !surfaceIdentity s w.job then w.answer (.rejected "LIFECYCLE_SURFACE_IDENTITY_INVALID")
    else
      match Jobs.requireCurrent "JOB_CLAIM_STALE" s.queue w.job.claim with
      | .ok _ => { w with route := .deletion }
      | .error _ => w.answer (.rejected "JOB_CLAIM_STALE")
  | .deletion => { w with route := .manifest }
  | .manifest =>
    if s.verified .media then
      w.routeCompletes s (.alreadyVerified (s.manifests .media).expectedItemCount)
    else if s.roomRef.isNone then w.answer (.rejected "LIFECYCLE_SURFACE_IDENTITY_INVALID")
    else { w with route := .room }
  | .room =>
    if !store.quiet then w.answer (.retryable "MEDIA_SURFACE_NOT_QUIESCENT")
    else if !store.erased then w.answer (.retryable "MEDIA_SURFACE_STORE_UNAVAILABLE")
    else
      w.routeCompletes ({ s with room := s.room.map fun _ => store.swept }.setVerified .media)
        (.completed store.removed)
  | _ => w

/-! ## Runs -/

inductive Move
  | handler
  | route (store : Store)
  /-- The answer arrives. -/
  | deliver
  /-- The request times out. -/
  | timeout

/-- A party whose lock is held by the other one stays where it is. -/
def MediaStep.move (w : MediaStep) : Move → MediaStep
  | .handler =>
    match w.handlerWants with
    | some lock => if w.free .handler lock then (w.take .handler lock).handlerGets else w
    | none => w
  | .route store =>
    match w.routeWants with
    | some lock => if w.free .route lock then (w.take .route lock).routeGets store else w
    | none => w
  | .deliver =>
    match w.handler, w.route with
    | .calling, .answered answer =>
      match verifyMediaSurface answer with
      | .ok () => w.handlerCompletes
      | .error e => w.end (.error e)
    | _, _ => w
  | .timeout =>
    match w.handler with
    | .calling => w.end (.error (retryable "MEDIA_SURFACE_PENDING"))
    | _ => w

def MediaStep.run (w : MediaStep) (moves : List Move) : MediaStep := moves.foldl MediaStep.move w

/-- The handler waits for the answer, and the route for a lock of the handler. -/
def MediaStep.WaitEachOther (w : MediaStep) : Prop :=
  w.handler = .calling ∧ ∃ lock, w.routeWants = some lock ∧ w.held lock = some .handler

/-! ## What comes of it -/

/-- The attempt comes to the media branch of the handler. -/
structure ReachesMedia (s : Saga) (job : WorkerJob) : Prop where
  payload : payload job = .ok (s.deletionJobId, .media)
  current : (Jobs.requireCurrent "JOB_CLAIM_STALE" s.queue job.claim).isOk = true
  correlation : s.correlationId = job.claim.correlationId
  active : s.status = .queued ∨ s.status = .running ∨ s.status = .retryable
  unverified : (s.manifests .media).status = .frozen ∨ (s.manifests .media).status = .running
  prior : (prior .media).all s.verified = true
  positive : ∃ roomId rows, s.roomRef = some roomId ∧ s.room = some rows ∧
    (0 < (s.manifests .media).expectedItemCount ∨ 0 < surfaceCount rows .media)

theorem isOk_iff {ε α : Type} {x : Except ε α} : x.isOk = true ↔ ∃ a, x = .ok a := by
  cases x with
  | error e => simp [Except.isOk, Except.toBool]
  | ok a => simp [Except.isOk, Except.toBool]

/-- As one transaction the handler ends as the runs below do. -/
theorem ReachesMedia.pending {s : Saga} {job : WorkerJob} (h : ReachesMedia s job) :
    deleteSurfaceHandler s job = .error (retryable "MEDIA_SURFACE_PENDING") := by
  obtain ⟨held, hcurrent⟩ := isOk_iff.mp h.current
  obtain ⟨roomId, rows, href, hroom, hpos⟩ := h.positive
  have hprior : ∀ x ∈ Deletion.prior .media, (s.manifests x).status = .verified := by
    intro x hx
    simpa [Saga.verified] using List.all_eq_true.mp h.prior x hx
  have hadvance : advanceSurface { s with status := .running } job .media =
      .error (retryable "MEDIA_SURFACE_PENDING") := by
    unfold advanceSurface
    have hall : (Deletion.prior .media).all { s with status := .running }.verified = true :=
      List.all_eq_true.mpr fun x hx => by simp [Saga.verified, hprior x hx]
    rw [hall]
    rcases h.unverified with hm | hm <;>
      simp [hm, href, hroom, verifySurface, hpos, bind, Except.bind]
  unfold deleteSurfaceHandler
  rcases h.active with ha | ha | ha <;>
    simp [h.payload, hcurrent, ← h.correlation, ha, hadvance, bind, Except.bind]

section Runs

variable {s : Saga} {job : WorkerJob}

/-- The receipt of this attempt is the media route's, and the claim is still current. -/
structure RouteReceipt (queue : Queue) (claim : JobClaim) : Prop where
  generation : claim.claimGeneration ≠ 0
  stored : queue.completions.get? (claim.jobId, claim.claimGeneration) =
    some ⟨Digest.sha256Hex claim.claimToken, "MEDIA_SURFACE_VERIFIED"⟩
  current : (Jobs.requireCurrent "JOB_CLAIM_STALE" queue claim).isOk = true

/-- The handler is at `handler`, the claim is current, and a route that has verified the surface
has left its receipt. -/
structure Fenced (job : WorkerJob) (handler : HandlerAt) (w : MediaStep) : Prop where
  attempt : w.job = job
  place : w.handler = handler
  current : (Jobs.requireCurrent "JOB_CLAIM_STALE" w.saga.queue job.claim).isOk = true
  receipt : ∀ answer, w.route = .answered answer → answer.verifies = true →
    RouteReceipt w.saga.queue job.claim

/-- Where a run can be. -/
inductive Phase (s : Saga) (job : WorkerJob) (w : MediaStep) : Prop
  | begins (hw : w = .start s job)
  | locks (hsaga : w.saga = s) (hjob : w.job = job) (hroute : w.route = .idle)
    (hheld : w.held (.job job.claim.jobId) = some .handler)
    (hhandler : w.handler ∈ [.deletion, .manifest, .room, .roomRow])
  | calls (hsaga : w.saga = s) (hjob : w.job = job) (hroute : w.route = .job)
    (hheld : w.held (.job job.claim.jobId) = some .handler) (hhandler : w.handler = .calling)
  | ended (hw : Fenced job (.ended (.error (retryable "MEDIA_SURFACE_PENDING"))) w)

/-- `complete_business` writes this receipt, or finds it. -/
theorem completeBusiness_stored {q q' : Queue} {claim : JobClaim} {code : String}
    (h : Jobs.completeBusiness q claim code = .ok q') :
    q'.jobs = q.jobs ∧ claim.claimGeneration ≠ 0 ∧
      q'.completions.get? (claim.jobId, claim.claimGeneration) =
        some ⟨Digest.sha256Hex claim.claimToken, code⟩ := by
  have hjobs : q'.jobs = q.jobs := by
    obtain ⟨-, rfl | ⟨-, rfl⟩⟩ := Jobs.completeBusiness_eq h <;> rfl
  unfold Jobs.completeBusiness at h
  split at h
  · cases h
  · obtain ⟨held, -, h⟩ := bind_eq_ok.mp h
    obtain ⟨q₁, hinsert, h⟩ := bind_eq_ok.mp h
    have hgeneration : claim.claimGeneration ≠ 0 := by
      intro hzero
      simp [Jobs.insertCompletion, hzero] at hinsert
    refine ⟨hjobs, hgeneration, ?_⟩
    split at h
    · rename_i marker hmarker
      split at h
      · rename_i heq
        cases h
        simp only [Bool.and_eq_true, decide_eq_true_eq] at heq
        rw [hmarker, ← heq.1, ← heq.2]
      · cases h
    · cases h

theorem requireCurrent_jobs {q q' : Queue} (h : q'.jobs = q.jobs) (stale : String)
    (claim : JobClaim) : Jobs.requireCurrent stale q' claim = Jobs.requireCurrent stale q claim := by
  simp [Jobs.requireCurrent, Queue.running?, h]

/-- Two codes for one attempt do not go together. -/
theorem RouteReceipt.conflict {queue : Queue} {claim : JobClaim} (h : RouteReceipt queue claim) :
    Jobs.completeBusiness queue claim "LIFECYCLE_SURFACE_COMPLETED" =
      .error "JOB_COMPLETION_CONFLICT" := by
  obtain ⟨held, hcurrent⟩ := isOk_iff.mp h.current
  have hcode : Jobs.validCode "LIFECYCLE_SURFACE_COMPLETED" = true := by decide +kernel
  have hcontains : queue.completions.contains (claim.jobId, claim.claimGeneration) = true := by
    rw [Dict.contains_iff, Dict.mem_keys]
    exact ⟨_, h.stored⟩
  simp [Jobs.completeBusiness, hcode, hcurrent, Jobs.insertCompletion, h.generation, hcontains,
    h.stored, bind, Except.bind]

/-- With one more lock the handler goes on to the next one, or calls the route. -/
theorem handlerGets_next {w : MediaStep} (h : ReachesMedia s job) (hsaga : w.saga = s)
    (hjob : w.job = job) (hhandler : w.handler ∈ [.deletion, .manifest, .room, .roomRow]) :
    (∃ next ∈ [HandlerAt.manifest, .room, .roomRow], w.handlerGets = { w with handler := next }) ∨
      w.handlerGets = { w with handler := .calling, route := .job } := by
  obtain ⟨roomId, rows, href, hroom, hpos⟩ := h.positive
  subst hsaga hjob
  simp only [List.mem_cons, List.not_mem_nil, or_false] at hhandler
  rcases hhandler with hw | hw | hw | hw
  · exact .inl ⟨.manifest, by simp, by simp [MediaStep.handlerGets, hw, h.correlation]⟩
  · refine .inl ⟨.room, by simp, ?_⟩
    rcases h.active with ha | ha | ha <;> rcases h.unverified with hm | hm <;>
      simp [MediaStep.handlerGets, hw, ha, hm, href]
  · exact .inl ⟨.roomRow, by simp, by simp [MediaStep.handlerGets, hw]⟩
  · refine .inr ?_
    have hprior : (prior .media).all w.saga.verified = true := h.prior
    simp only [MediaStep.handlerGets, hw, hroom, hprior, Bool.true_and]
    simp [hpos]

theorem move_handler_phase {w : MediaStep} (h : ReachesMedia s job) (hw : Phase s job w) :
    Phase s job (w.move .handler) := by
  obtain ⟨held, hcurrent⟩ := isOk_iff.mp h.current
  cases hw with
  | begins hw =>
    subst hw
    refine .locks ?_ ?_ ?_ ?_ ?_ <;>
      simp [MediaStep.move, MediaStep.handlerWants, MediaStep.start, MediaStep.free,
        MediaStep.take, MediaStep.handlerGets, hcurrent]
  | locks hsaga hjob hroute hheld hhandler =>
    unfold MediaStep.move
    dsimp only
    split
    · rename_i lock hlock
      split
      · have hheld' : (w.take .handler lock).held (.job job.claim.jobId) = some .handler := by
          simp only [MediaStep.take]
          split
          · rfl
          · exact hheld
        rcases handlerGets_next (w := w.take .handler lock) h hsaga hjob hhandler with
          ⟨next, hnext, heq⟩ | heq
        · rw [heq]
          exact .locks hsaga hjob hroute hheld' (List.mem_cons_of_mem _ hnext)
        · rw [heq]
          exact .calls hsaga hjob rfl hheld' rfl
      · exact .locks hsaga hjob hroute hheld hhandler
    · exact .locks hsaga hjob hroute hheld hhandler
  | calls hsaga hjob hroute hheld hhandler =>
    have hsame : w.move .handler = w := by simp [MediaStep.move, MediaStep.handlerWants, hhandler]
    rw [hsame]
    exact .calls hsaga hjob hroute hheld hhandler
  | ended hw =>
    have hsame : w.move .handler = w := by
      simp [MediaStep.move, MediaStep.handlerWants, hw.place]
    rw [hsame]
    exact .ended hw

variable {handler : HandlerAt} {w : MediaStep}

theorem Fenced.answer (h : Fenced job handler w) {answer : Answer}
    (hanswer : answer.verifies = false) : Fenced job handler (w.answer answer) where
  attempt := h.attempt
  place := h.place
  current := h.current
  receipt := by
    intro other hother hverifies
    cases hother
    rw [hanswer] at hverifies
    cases hverifies

theorem Fenced.goes (h : Fenced job handler w) {route : RouteAt}
    (hroute : ∀ answer, route ≠ .answered answer) : Fenced job handler { w with route } :=
  ⟨h.attempt, h.place, h.current, fun answer hanswer => absurd hanswer (hroute answer)⟩

theorem Fenced.routeCompletes (h : Fenced job handler w) {s : Saga} (hs : s.queue = w.saga.queue)
    (answer : Answer) : Fenced job handler (w.routeCompletes s answer) := by
  unfold MediaStep.routeCompletes
  split
  · rename_i queue hcomplete
    rw [h.attempt, hs] at hcomplete
    obtain ⟨hjobs, hgeneration, hstored⟩ := completeBusiness_stored hcomplete
    have hcurrent : (Jobs.requireCurrent "JOB_CLAIM_STALE" queue job.claim).isOk = true := by
      rw [requireCurrent_jobs hjobs]
      exact h.current
    exact ⟨h.attempt, h.place, hcurrent, fun _ _ _ => ⟨hgeneration, hstored, hcurrent⟩⟩
  · exact h.answer (by split <;> rfl)

theorem Fenced.routeGets (h : Fenced job handler w) (store : Store) :
    Fenced job handler (w.routeGets store) := by
  unfold MediaStep.routeGets
  dsimp only
  split
  · split
    · exact h.answer rfl
    · split
      · exact h.goes nofun
      · exact h.answer rfl
  · exact h.goes nofun
  · split
    · exact h.routeCompletes rfl _
    · split
      · exact h.answer rfl
      · exact h.goes nofun
  · split
    · exact h.answer rfl
    · split
      · exact h.answer rfl
      · exact h.routeCompletes (by rfl) _
  · exact h

theorem move_route_phase (store : Store) (hw : Phase s job w) :
    Phase s job (w.move (.route store)) := by
  cases hw with
  | begins hw => exact .begins (by simp [hw, MediaStep.move, MediaStep.routeWants, MediaStep.start])
  | locks hsaga hjob hroute hheld hhandler =>
    have hsame : w.move (.route store) = w := by
      simp [MediaStep.move, MediaStep.routeWants, hroute]
    rw [hsame]
    exact .locks hsaga hjob hroute hheld hhandler
  | calls hsaga hjob hroute hheld hhandler =>
    -- The route waits for the job row, which the handler has locked.
    have hsame : w.move (.route store) = w := by
      simp [MediaStep.move, MediaStep.routeWants, hroute, MediaStep.free, hjob, hheld]
    rw [hsame]
    exact .calls hsaga hjob hroute hheld hhandler
  | ended hw =>
    refine .ended ?_
    unfold MediaStep.move
    dsimp only
    split
    · split
      · rename_i lock _ _
        have htaken : Fenced job (.ended (.error (retryable "MEDIA_SURFACE_PENDING")))
            (w.take .route lock) := ⟨hw.attempt, hw.place, hw.current, hw.receipt⟩
        exact htaken.routeGets store
      · exact hw
    · exact hw

/-- No answer arrives while the handler waits. -/
theorem move_deliver_phase (hw : Phase s job w) : Phase s job (w.move .deliver) := by
  have hsame : w.move .deliver = w := by
    unfold MediaStep.move
    cases hw with
    | begins hw => simp [hw, MediaStep.start]
    | locks _ _ hroute _ _ => simp [hroute]
    | calls _ _ hroute _ _ => simp [hroute]
    | ended hw => simp [hw.place]
  rw [hsame]
  exact hw

theorem move_timeout_phase (h : ReachesMedia s job) (hw : Phase s job w) :
    Phase s job (w.move .timeout) := by
  cases hw with
  | begins hw => exact .begins (by simp [hw, MediaStep.move, MediaStep.start])
  | locks hsaga hjob hroute hheld hhandler =>
    have hsame : w.move .timeout = w := by
      simp only [List.mem_cons, List.not_mem_nil, or_false] at hhandler
      rcases hhandler with hw | hw | hw | hw <;> simp [MediaStep.move, hw]
    rw [hsame]
    exact .locks hsaga hjob hroute hheld hhandler
  | calls hsaga hjob hroute hheld hhandler =>
    refine .ended ?_
    simp only [MediaStep.move, hhandler]
    refine ⟨hjob, rfl, ?_, ?_⟩
    · simpa [MediaStep.end, MediaStep.release, hsaga] using h.current
    · intro answer hanswer
      simp [MediaStep.end, MediaStep.release, hroute] at hanswer
  | ended hw =>
    have hsame : w.move .timeout = w := by simp [MediaStep.move, hw.place]
    rw [hsame]
    exact .ended hw

theorem run_phase (h : ReachesMedia s job) (moves : List Move) :
    Phase s job ((MediaStep.start s job).run moves) := by
  have hall : ∀ w, Phase s job w → Phase s job (w.run moves) := by
    induction moves with
    | nil => exact fun w hw => hw
    | cons move moves ih =>
      intro w hw
      refine ih (w.move move) ?_
      cases move with
      | handler => exact move_handler_phase h hw
      | route store => exact move_route_phase store hw
      | deliver => exact move_deliver_phase hw
      | timeout => exact move_timeout_phase h hw
  exact hall _ (.begins rfl)

/-- Five locks later the handler waits for a route that waits for it. -/
theorem run_waits (h : ReachesMedia s job) :
    ((MediaStep.start s job).run (List.replicate 5 .handler)).WaitEachOther := by
  obtain ⟨held, hcurrent⟩ := isOk_iff.mp h.current
  obtain ⟨roomId, rows, href, hroom, hpos⟩ := h.positive
  have hprior : (prior .media).all s.verified = true := h.prior
  have hmedia : (decide (0 < (s.manifests .media).expectedItemCount)
      || decide (0 < surfaceCount rows .media)) = true := by simpa using hpos
  refine ⟨?_, .job job.claim.jobId, ?_, ?_⟩ <;>
    rcases h.active with ha | ha | ha <;> rcases h.unverified with hm | hm <;>
    simp [MediaStep.run, MediaStep.start, MediaStep.move, MediaStep.handlerWants,
      MediaStep.routeWants, MediaStep.free, MediaStep.take, MediaStep.handlerGets, hcurrent,
      h.correlation, ha, hm, href, hroom, hprior, hmedia, List.replicate]

end Runs

/-- The media job of a deletion, in its first attempt. -/
def mediaJob : WorkerJob where
  claim := {
    jobId := "1f0e6c52-4f0f-4a5e-9d5c-6f1b1a2c3d4e"
    jobType := jobType
    roomId := none
    sourceEventId := none
    dedupeKey := dedupeKey "7b0d2a3c-8e4f-4c1b-9a2d-5e6f7a8b9c0d" .media
    correlationId := "2c1d0e3f-5a6b-4c7d-8e9f-0a1b2c3d4e5f"
    claimGeneration := 1
    claimToken := "9e8d7c6b-5a4f-4e3d-8c2b-1a0f9e8d7c6b"
    workerId := "worker-1" }
  payload := (Dict.empty.set "deletionJobId"
    (.text "7b0d2a3c-8e4f-4c1b-9a2d-5e6f7a8b9c0d")).set "surface" (.text "media")
  attempts := 1
  analyticsOrder := none

/-- Its saga: one asset is frozen, and the provider copies are verified. -/
def mediaSaga : Saga where
  queue := Queue.empty.setJob mediaJob.claim.jobId {
    jobType := jobType
    roomId := none
    sourceEventId := none
    dedupeKey := mediaJob.claim.dedupeKey
    correlationId := mediaJob.claim.correlationId
    payload := mediaJob.payload
    status := .running ⟨mediaJob.claim.claimToken, 0, "worker-1"⟩
    attempts := 1
    maxAttempts := 5
    runAfter := 0
    claimGeneration := 1
    lastError := none
    createdAt := 0
    analyticsOrder := none
    orderCk := by decide }
  roomId := "3d4e5f60-7a8b-4c9d-8e0f-1a2b3c4d5e6f"
  room := some ⟨0, 1, 0, 0, 0, 0, 0, 0, 0, 0, 0, 0, 0⟩
  deletionJobId := "7b0d2a3c-8e4f-4c1b-9a2d-5e6f7a8b9c0d"
  correlationId := mediaJob.claim.correlationId
  roomRef := some "3d4e5f60-7a8b-4c9d-8e0f-1a2b3c4d5e6f"
  status := .running
  manifests := fun surface =>
    match surface with
    | .providerCopies => ⟨1, .verified⟩
    | .media => ⟨1, .frozen⟩
    | _ => ⟨0, .frozen⟩
  receipt := none

theorem mediaSaga_reaches : ReachesMedia mediaSaga mediaJob where
  payload := by decide +kernel
  current := by decide +kernel
  correlation := rfl
  active := by decide
  unverified := by decide
  prior := by decide
  positive := ⟨"3d4e5f60-7a8b-4c9d-8e0f-1a2b3c4d5e6f", _, rfl, rfl, by decide⟩

end LearningOrbit.Deletion
