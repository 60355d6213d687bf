import LearningOrbit.Jobs.Attempts
import LearningOrbit.Media.Assets

/-!
# The outcome of processing

The worker reports what processing found through one signed route. A transition id
makes a report idempotent; the same column takes the id of the acknowledgement that
processing has begun.
-/

namespace LearningOrbit.Media

open LearningOrbit (Dict)
open LearningOrbit.Jobs (Queue JobClaim JobRow)

inductive OutcomeState
  | processing | ready | quarantined | failed
  deriving DecidableEq

def OutcomeState.media : OutcomeState → MediaState
  | .processing => .processing
  | .ready => .ready
  | .quarantined => .quarantined
  | .failed => .failed

structure NewDerivative where
  derivativeId : String
  kind : DerivativeKind
  objectKey : String
  mime : String
  sizeBytes : Nat
  sha256 : String
  deriving DecidableEq

structure OutcomeRequest where
  claim : JobClaim
  mediaId : String
  transitionId : String
  state : OutcomeState
  failureCode : Option String
  derivatives : List NewDerivative

inductive OutcomeResponse
  | applied
  | alreadyApplied
  | rejected (code : String)
  deriving DecidableEq

def sha256Text (text : String) : Bool := text.length = 64 && text.toList.all Uuid.isHex

def NewDerivative.accepted (d : NewDerivative) : Bool :=
  Rooms.uuidFormat d.derivativeId && 1 ≤ d.objectKey.length && d.objectKey.length ≤ 512
    && 1 ≤ d.mime.length && d.mime.length ≤ 127 && 1 ≤ d.sizeBytes && d.sizeBytes ≤ 26214400
    && sha256Text d.sha256

/-- `mediaInternalOutcomeContract.parseRequest`. -/
def OutcomeRequest.parses (r : OutcomeRequest) : Bool :=
  parseClaim "media.process.v1" r.claim && Rooms.uuidFormat r.mediaId
    && Rooms.uuidFormat r.transitionId
    && (r.failureCode.all fun code => 1 ≤ code.length && code.length ≤ 100)
    && r.derivatives.length ≤ 4 && r.derivatives.all NewDerivative.accepted

/-- What neither the schema nor the database can express. -/
def OutcomeRequest.paired (r : OutcomeRequest) : Bool :=
  decide (r.state = .quarantined ∨ r.state = .failed) = r.failureCode.isSome
    && (r.state = .ready || r.derivatives = [])
    && decide (r.derivatives.map NewDerivative.kind).Nodup

/-- `ADMISSIBLE_MEDIA_STATES`. -/
def MediaState.admissible : MediaState → Bool
  | .uploaded | .processing => true
  | _ => false

theorem MediaState.admissible_promoted {s : MediaState} (h : s.admissible = true) :
    s.promoted = true := by
  cases s <;> simp_all [MediaState.admissible, MediaState.promoted]

def insertDerivative (mediaId : String) (table : Dict String Derivative) (d : NewDerivative) :
    Except String (Dict String Derivative) :=
  if table.contains d.derivativeId then .error "media_derivative_pkey"
  else if table.values.any fun e => e.objectKey = d.objectKey then
    .error "media_derivative_object_key_key"
  else if table.values.any fun e => e.mediaId = mediaId && e.kind = d.kind then
    .error "media_derivative_media_id_kind_key"
  else .ok (table.set d.derivativeId ⟨mediaId, d.kind, d.objectKey, d.mime, d.sizeBytes, d.sha256⟩)

def MediaAsset.outcome (a : MediaAsset) (r : OutcomeRequest) (h : a.state.admissible = true) :
    MediaAsset :=
  { a with
    state := r.state.media
    failureCode := r.failureCode
    outcomeTransitionId := some r.transitionId
    promotedCk := fun _ => a.promotedCk (MediaState.admissible_promoted h) }

/-- Another asset has the transition id, which is unique. -/
def transitionTaken (db : MediaDb) (r : OutcomeRequest) : Bool :=
  db.assets.entries.any fun (id, a) =>
    id ≠ r.mediaId && a.outcomeTransitionId = some r.transitionId

/-- The first report of this media. -/
def writeOutcome (db : MediaDb) (r : OutcomeRequest) (a : MediaAsset)
    (h : a.state.admissible = true) : Except String MediaDb := do
  let derivatives ← r.derivatives.foldlM (insertDerivative r.mediaId) db.derivatives
  if transitionTaken db r then .error "media_asset_outcome_transition_id_key"
  else
    let db := { db.setAsset r.mediaId (a.outcome r h) with derivatives }
    -- Only a terminal state closes the business claim.
    if r.state = .processing then return db
    else
      let queue ← Jobs.completeBusiness db.queue r.claim "MEDIA_PROCESS_COMPLETED"
      return { db with queue }

/-- The callback of the route. -/
def outcomeInContext (db : MediaDb) (r : OutcomeRequest) (roomId : String) :
    Except String (OutcomeResponse × MediaDb) :=
  if !((db.queue.jobs.get? r.claim.jobId).any (jobIdentity r.claim r.mediaId)) then
    .ok (.rejected "MEDIA_OUTCOME_INVALID", db)
  else
    match Jobs.requireCurrent "JOB_CLAIM_STALE" db.queue r.claim with
    | .error _ => .ok (.rejected "JOB_CLAIM_STALE", db)
    | .ok _ =>
      match db.asset? r.mediaId roomId with
      | none => .ok (.rejected "MEDIA_OUTCOME_INVALID", db)
      | some a =>
        match a.outcomeTransitionId with
        | some transitionId =>
          if transitionId ≠ r.transitionId then .ok (.rejected "MEDIA_OUTCOME_INVALID", db)
          else do
            let queue ← Jobs.completeBusiness db.queue r.claim "MEDIA_PROCESS_COMPLETED"
            return (.alreadyApplied, { db with queue })
        | none =>
          if h : a.state.admissible = true then do
            let db ← writeOutcome db r a h
            return (.applied, db)
          else .ok (.rejected "MEDIA_OUTCOME_INVALID", db)

/-- `MediaInternalOutcomeRoute.handle`; `refusal` is what `transact` refuses the room with. -/
def handleOutcome (db : MediaDb) (assertion : Assertion) (refusal : Option String)
    (r : OutcomeRequest) : Except String (OutcomeResponse × MediaDb) :=
  if !assertion.envelope then .ok (.rejected "SERVICE_ASSERTION_INVALID", db)
  else if !r.parses then .ok (.rejected "MEDIA_OUTCOME_INVALID", db)
  else if !assertion.authorized then .ok (.rejected "SERVICE_ASSERTION_INVALID", db)
  else if !r.paired then .ok (.rejected "MEDIA_OUTCOME_INVALID", db)
  else
    match refusal, r.claim.roomId with
    | some error, _ => .error error
    | none, none => .ok (.rejected "MEDIA_OUTCOME_INVALID", db)
    | none, some roomId =>
      match outcomeInContext db r roomId with
      | .error "JOB_CLAIM_STALE" => .ok (.rejected "JOB_CLAIM_STALE", db)
      | result => result

/-! ## What a report does -/

theorem OutcomeState.finished_of_ne {s : OutcomeState} (h : s ≠ .processing) :
    s.media.finished = true := by
  cases s <;> simp_all [OutcomeState.media, MediaState.finished]

theorem asset?_eq_some {db : MediaDb} {mediaId roomId : String} {a : MediaAsset}
    (h : db.asset? mediaId roomId = some a) :
    db.assets.get? mediaId = some a ∧ a.roomId = roomId := by
  unfold MediaDb.asset? at h
  rw [Option.filter_eq_some_iff] at h
  simpa using h

/-- A report is refused, repeated, or the first of its media. -/
inductive Reported (db : MediaDb) (r : OutcomeRequest) : OutcomeResponse → MediaDb → Prop
  | refused (code : String) : Reported db r (.rejected code) db
  | repeated {a : MediaAsset} {queue : Queue} (asset : db.assets.get? r.mediaId = some a)
      (transition : a.outcomeTransitionId = some r.transitionId)
      (completed : Jobs.completeBusiness db.queue r.claim "MEDIA_PROCESS_COMPLETED" = .ok queue) :
      Reported db r .alreadyApplied { db with queue }
  | first {a : MediaAsset} {db' : MediaDb} (asset : db.assets.get? r.mediaId = some a)
      (fresh : a.outcomeTransitionId = none) (admissible : a.state.admissible = true)
      (assets : db'.assets = db.assets.set r.mediaId (a.outcome r admissible))
      (current : ∃ held, Jobs.requireCurrent "JOB_CLAIM_STALE" db.queue r.claim = .ok held)
      (identity : (db.queue.jobs.get? r.claim.jobId).any (jobIdentity r.claim r.mediaId) = true)
      (room : r.claim.roomId = some a.roomId)
      (parsed : r.parses = true)
      (unique : transitionTaken db r = false)
      (open' : r.state = .processing → db'.queue = db.queue) :
      Reported db r .applied db'

theorem writeOutcome_ok {db db' : MediaDb} {r : OutcomeRequest} {a : MediaAsset}
    {h : a.state.admissible = true} (hw : writeOutcome db r a h = .ok db') :
    db'.assets = db.assets.set r.mediaId (a.outcome r h) ∧ transitionTaken db r = false ∧
      (r.state = .processing → db'.queue = db.queue) := by
  obtain ⟨derivatives, -, hw⟩ := bind_eq_ok.mp hw
  split at hw
  · cases hw
  · rename_i hunique
    have hunique : transitionTaken db r = false := by simpa using hunique
    dsimp only at hw
    split at hw
    · cases hw
      exact ⟨rfl, hunique, fun _ => rfl⟩
    · rename_i hstate
      obtain ⟨queue, -, hw⟩ := bind_eq_ok.mp hw
      cases hw
      exact ⟨rfl, hunique, fun hp => absurd hp hstate⟩

theorem outcomeInContext_reported {db db' : MediaDb} {r : OutcomeRequest} {roomId : String}
    {response : OutcomeResponse} (hroom : r.claim.roomId = some roomId) (hparsed : r.parses = true)
    (h : outcomeInContext db r roomId = .ok (response, db')) : Reported db r response db' := by
  unfold outcomeInContext at h
  split at h
  · cases h
    exact .refused _
  · rename_i hidentity
    split at h
    · cases h
      exact .refused _
    · rename_i held hcurrent
      split at h
      · cases h
        exact .refused _
      · rename_i a ha
        obtain ⟨hasset, hroomId⟩ := asset?_eq_some ha
        split at h
        · rename_i transitionId htransition
          split at h
          · cases h
            exact .refused _
          · rename_i hsame
            obtain ⟨queue, hqueue, h⟩ := bind_eq_ok.mp h
            cases h
            exact .repeated hasset (not_not.mp hsame ▸ htransition) hqueue
        · rename_i hfresh
          split at h
          · rename_i hadmissible
            obtain ⟨db₁, hwrite, h⟩ := bind_eq_ok.mp h
            cases h
            obtain ⟨hassets, hunique, hopen⟩ := writeOutcome_ok hwrite
            exact .first hasset hfresh hadmissible hassets ⟨held, hcurrent⟩ (by simpa using hidentity)
              (hroomId ▸ hroom) hparsed hunique hopen
          · cases h
            exact .refused _

theorem handleOutcome_reported {db db' : MediaDb} {assertion : Assertion} {refusal : Option String}
    {r : OutcomeRequest} {response : OutcomeResponse}
    (h : handleOutcome db assertion refusal r = .ok (response, db')) :
    Reported db r response db' := by
  unfold handleOutcome at h
  split at h
  · cases h
    exact .refused _
  · split at h
    · cases h
      exact .refused _
    · rename_i hparsed
      split at h
      · cases h
        exact .refused _
      · split at h
        · cases h
          exact .refused _
        · split at h
          · cases h
          · cases h
            exact .refused _
          · rename_i roomId hroom
            split at h
            · cases h
              exact .refused _
            · exact outcomeInContext_reported hroom (by simpa using hparsed) h

/-! ## Runs of reports -/

/-- One report, or one transaction of the workers on the queue. -/
inductive OutcomeCall
  | report (assertion : Assertion) (refusal : Option String) (request : OutcomeRequest)
  | queue (call : Jobs.Call)

def outcomeStep (db : MediaDb) : OutcomeCall → Except String MediaDb
  | .report assertion refusal request =>
    (handleOutcome db assertion refusal request).map (·.2)
  | .queue call => (Jobs.step db.queue call).map fun queue => { db with queue }

/-- The call reports that processing of the media has begun, and is applied. -/
def Acknowledges (mediaId : String) (db : MediaDb) (call : OutcomeCall) : Prop :=
  ∃ assertion refusal r db', call = .report assertion refusal r ∧ r.mediaId = mediaId ∧
    r.state = .processing ∧ handleOutcome db assertion refusal r = .ok (.applied, db')

def Acknowledged (mediaId : String) (db : MediaDb) (calls : List OutcomeCall) : Prop :=
  ∃ before call after, calls = before ++ call :: after ∧
    Acknowledges mediaId (commitAll outcomeStep db before) call

/-- If the call commits a receipt, the media is finished. -/
def Finishes (mediaId : String) (db : MediaDb) (call : OutcomeCall) : Prop :=
  ∀ assertion refusal r response db', call = .report assertion refusal r → r.mediaId = mediaId →
    handleOutcome db assertion refusal r = .ok (response, db') →
    db'.queue.completions ≠ db.queue.completions →
    ∃ a, db'.assets.get? mediaId = some a ∧ a.state.finished = true

/-- A well-formed terminal report of the media under the current claim of its job, that no
unique column stands against. -/
structure Terminal (mediaId : String) (db : MediaDb) (r : OutcomeRequest) : Prop where
  media : r.mediaId = mediaId
  state : r.state ≠ .processing
  parsed : r.parses = true
  paired : r.paired = true
  identity : (db.queue.jobs.get? r.claim.jobId).any (jobIdentity r.claim mediaId) = true
  current : ∃ held, Jobs.requireCurrent "JOB_CLAIM_STALE" db.queue r.claim = .ok held
  asset : ∃ a, db.assets.get? mediaId = some a ∧ r.claim.roomId = some a.roomId
  derivatives : ∃ table, r.derivatives.foldlM (insertDerivative mediaId) db.derivatives = .ok table
  unique : transitionTaken db r = false

/-- Every such report is applied. -/
def Admits (mediaId : String) (db : MediaDb) : Prop :=
  ∀ r, Terminal mediaId db r →
    ∃ db', handleOutcome db ⟨true, true⟩ none r = .ok (.applied, db')

/-- A transition id stands for a finished media. -/
def Settled (mediaId : String) (db : MediaDb) : Prop :=
  ∀ a, db.assets.get? mediaId = some a → a.outcomeTransitionId.isSome → a.state.finished = true

theorem outcomeStep_settled {mediaId : String} {db db' : MediaDb} {call : OutcomeCall}
    (hs : Settled mediaId db) (hack : ¬ Acknowledges mediaId db call)
    (h : outcomeStep db call = .ok db') : Settled mediaId db' := by
  cases call with
  | queue call =>
    obtain ⟨queue, -, rfl⟩ := map_eq_ok.mp h
    exact hs
  | report assertion refusal r =>
    obtain ⟨⟨response, db₁⟩, hreport, rfl⟩ := map_eq_ok.mp h
    cases handleOutcome_reported hreport with
    | refused => exact hs
    | repeated => exact hs
    | @first a _ _ _ hadmissible hassets =>
      intro b hb _
      rw [hassets, Dict.get?_set] at hb
      split at hb
      · rename_i hmedia
        cases hb
        apply OutcomeState.finished_of_ne
        intro hprocessing
        exact hack ⟨assertion, refusal, r, db₁, rfl, hmedia.symm, hprocessing, hreport⟩
      · exact hs b hb (by assumption)

theorem commitAll_settled {mediaId : String} {db : MediaDb} {calls : List OutcomeCall}
    (hs : Settled mediaId db) (hack : ¬ Acknowledged mediaId db calls) :
    Settled mediaId (commitAll outcomeStep db calls) := by
  induction calls generalizing db with
  | nil => exact hs
  | cons call calls ih =>
    have hfirst : ¬ Acknowledges mediaId db call := fun ha => hack ⟨[], call, calls, rfl, ha⟩
    apply ih
    · cases h : outcomeStep db call with
      | error e => rw [commit_of_error h]; exact hs
      | ok db' => rw [commit_of_ok h]; exact outcomeStep_settled hs hfirst h
    · rintro ⟨before, later, after, rfl, ha⟩
      exact hack ⟨call :: before, later, after, rfl, ha⟩

/-- A settled media is finished when a receipt is committed. -/
theorem Settled.finishes {mediaId : String} {db : MediaDb} {call : OutcomeCall}
    (hs : Settled mediaId db) : Finishes mediaId db call := by
  rintro assertion refusal r response db' - rfl hreport hreceipt
  cases handleOutcome_reported hreport with
  | refused => exact absurd rfl hreceipt
  | @repeated a _ hasset htransition => exact ⟨a, hasset, hs a hasset (by simp [htransition])⟩
  | @first a _ _ _ hadmissible hassets _ _ _ _ _ hopen =>
    refine ⟨a.outcome r hadmissible, by rw [hassets, Dict.get?_set_self], ?_⟩
    apply OutcomeState.finished_of_ne
    intro hprocessing
    rw [hopen hprocessing] at hreceipt
    exact hreceipt rfl

theorem transitionTaken_eq_false {db : MediaDb} {r : OutcomeRequest} :
    transitionTaken db r = false ↔ ∀ id a, db.assets.get? id = some a → id ≠ r.mediaId →
      a.outcomeTransitionId ≠ some r.transitionId := by
  unfold transitionTaken
  rw [List.any_eq_false]
  constructor
  · intro h id a hget hne htransition
    exact h (id, a) (Dict.get?_eq_some.mp hget) (by simp [hne, htransition])
  · rintro h ⟨id, a⟩ hmem
    have := h id a (Dict.get?_eq_some.mpr hmem)
    simpa using this

/-- The terminal report that could follow an acknowledgement. -/
def OutcomeRequest.giveUp (r : OutcomeRequest) : OutcomeRequest :=
  { r with state := .failed, failureCode := some "PROCESSING_FAILED", derivatives := [] }

/-- An acknowledgement takes the only transition id: no terminal report is applied after it. -/
theorem acknowledged_refuses {db db' : MediaDb} {assertion : Assertion} {refusal : Option String}
    {r : OutcomeRequest} (hprocessing : r.state = .processing)
    (h : handleOutcome db assertion refusal r = .ok (.applied, db')) :
    (∃ a, db'.assets.get? r.mediaId = some a ∧ a.state = .processing) ∧ ¬ Admits r.mediaId db' := by
  cases handleOutcome_reported h with
  | @first a _ hasset hfresh hadmissible hassets hcurrent hidentity hroom hparsed hunique hopen =>
    have hget : db'.assets.get? r.mediaId = some (a.outcome r hadmissible) := by
      rw [hassets, Dict.get?_set_self]
    have hqueue : db'.queue = db.queue := hopen hprocessing
    refine ⟨⟨_, hget, by simp [MediaAsset.outcome, hprocessing, OutcomeState.media]⟩, fun hadmits => ?_⟩
    have hterminal : Terminal r.mediaId db' r.giveUp :=
      { media := rfl
        state := by simp [OutcomeRequest.giveUp]
        parsed := by
          simp only [OutcomeRequest.parses, Bool.and_eq_true] at hparsed ⊢
          obtain ⟨⟨⟨⟨⟨hclaim, hmedia⟩, htransition⟩, -⟩, -⟩, -⟩ := hparsed
          exact ⟨⟨⟨⟨⟨hclaim, hmedia⟩, htransition⟩, rfl⟩, rfl⟩, rfl⟩
        paired := rfl
        identity := hqueue ▸ hidentity
        current := hqueue ▸ hcurrent
        asset := ⟨_, hget, hroom⟩
        derivatives := ⟨db'.derivatives, rfl⟩
        unique := by
          rw [transitionTaken_eq_false] at hunique ⊢
          intro id b hb (hne : id ≠ r.mediaId)
          rw [hassets, Dict.get?_set_of_ne _ _ hne] at hb
          exact hunique id b hb hne }
    obtain ⟨db₂, happlied⟩ := hadmits _ hterminal
    cases handleOutcome_reported happlied with
    | first hasset' hfresh' =>
      rw [show r.giveUp.mediaId = r.mediaId from rfl, hget] at hasset'
      cases hasset'
      cases hfresh'

/-- Receipts mean finished media, and an acknowledgement is followed by its outcome, exactly
in the runs that apply no acknowledgement. -/
theorem reports_finish_iff (mediaId : String) (db : MediaDb) (calls : List OutcomeCall)
    (hnew : ∀ a, db.assets.get? mediaId = some a → a.outcomeTransitionId = none) :
    ((∀ before call after, calls = before ++ call :: after →
        Finishes mediaId (commitAll outcomeStep db before) call) ∧
      (∀ before after, calls = before ++ after → Acknowledged mediaId db before →
        (∃ a, (commitAll outcomeStep db before).assets.get? mediaId = some a ∧
          a.state = .processing) →
        Admits mediaId (commitAll outcomeStep db before))) ↔
      ¬ Acknowledged mediaId db calls := by
  constructor
  · rintro ⟨-, hadmits⟩ ⟨before, call, after, hcalls, hack⟩
    obtain ⟨assertion, refusal, r, db', rfl, rfl, hprocessing, happlied⟩ := hack
    have hafter : commitAll outcomeStep db (before ++ [.report assertion refusal r]) = db' := by
      rw [commitAll_append]
      apply commit_of_ok
      change Except.map _ (handleOutcome _ assertion refusal r) = _
      rw [happlied]
      rfl
    obtain ⟨hstate, hrefuses⟩ := acknowledged_refuses hprocessing happlied
    apply hrefuses
    rw [← hafter]
    apply hadmits _ after (by simp [hcalls])
    · exact ⟨before, _, [], rfl, assertion, refusal, r, db', rfl, rfl, hprocessing, happlied⟩
    · rw [hafter]
      exact hstate
  · intro hack
    have hbefore {before after : List OutcomeCall} (hcalls : calls = before ++ after) :
        ¬ Acknowledged mediaId db before := by
      rintro ⟨front, call, rest, rfl, ha⟩
      exact hack ⟨front, call, rest ++ after, by simp [hcalls], ha⟩
    have hsettled : Settled mediaId db := by
      intro a ha hsome
      rw [hnew a ha] at hsome
      cases hsome
    refine ⟨fun before call after hcalls => ?_, fun before after hcalls ha => ?_⟩
    · exact (commitAll_settled hsettled (hbefore hcalls)).finishes
    · exact absurd ha (hbefore hcalls)

/-! ## One picture of a leaf -/

def leafRoom : String := "11111111-1111-4111-8111-111111111111"

def leafId : String := "22222222-2222-4222-8222-222222222222"

def leafJob : Jobs.NewJob where
  jobId := "33333333-3333-4333-8333-333333333333"
  jobType := "media.process.v1"
  roomId := some leafRoom
  sourceEventId := none
  dedupeKey := "media.process.v1:" ++ leafId
  correlationId := "44444444-4444-4444-8444-444444444444"
  payload := Dict.empty.set "mediaId" (.text leafId)
  runAfter := 0
  createdAt := 0

def leafWorker : Jobs.JobStore := ⟨"worker-media-1", by decide⟩

def leafToken : String := "55555555-5555-4555-8555-555555555555"

def leafAsset : MediaAsset where
  roomId := leafRoom
  ownerActorId := "66666666-6666-4666-8666-666666666666"
  state := .uploaded
  detectedMime := some "image/png"
  sizeBytes := 2048
  declaredSha256 := "00"
  sha256 := some "00"
  objectKey := some "rooms/leaf/original/leaf"
  failureCode := none
  promotionCorrelationId := some leafJob.correlationId
  outcomeTransitionId := none
  promotedCk := by decide

/-- The picture is uploaded and its job claimed. -/
def leafDb : MediaDb where
  queue := Jobs.run [.enqueue leafJob, .claim leafWorker 0 leafToken leafJob.jobId]
  assets := Dict.empty.set leafId leafAsset
  grants := Dict.empty
  derivatives := Dict.empty

def leafReport (state : OutcomeState) (transitionId : String) : OutcomeRequest where
  claim :=
    { jobId := leafJob.jobId
      jobType := leafJob.jobType
      roomId := leafJob.roomId
      sourceEventId := none
      dedupeKey := leafJob.dedupeKey
      correlationId := leafJob.correlationId
      claimGeneration := 1
      claimToken := leafToken
      workerId := leafWorker.workerId }
  mediaId := leafId
  transitionId
  state
  failureCode := none
  derivatives := []

def leafTransition : String := "77777777-7777-4777-8777-777777777777"

def report (db : MediaDb) (state : OutcomeState) (transitionId : String) :
    Except String (OutcomeResponse × MediaDb) :=
  handleOutcome db ⟨true, true⟩ none (leafReport state transitionId)

/-- What the report leaves, if it returns. -/
def reported (db : MediaDb) (state : OutcomeState) (transitionId : String) : MediaDb :=
  ((report db state transitionId).toOption.map Prod.snd).getD db

/-- The picture is found to be clean. -/
theorem reports_finish_iff_ready :
    Finishes leafId leafDb (.report ⟨true, true⟩ none (leafReport .ready leafTransition)) ∧
      (reported leafDb .ready leafTransition).queue.completions ≠ leafDb.queue.completions := by
  have hnew : ∀ a, leafDb.assets.get? leafId = some a → a.outcomeTransitionId = none := by
    intro a ha
    cases ha
    rfl
  obtain ⟨hfinishes, -⟩ := (reports_finish_iff leafId leafDb
    [.report ⟨true, true⟩ none (leafReport .ready leafTransition)] hnew).mpr (by
      rintro ⟨before, call, after, hcalls, assertion, refusal, r, db', rfl, -, hstate, -⟩
      have hmem : OutcomeCall.report assertion refusal r ∈
          [.report ⟨true, true⟩ none (leafReport .ready leafTransition)] := by simp [hcalls]
      rw [List.mem_singleton] at hmem
      cases hmem
      cases hstate)
  exact ⟨hfinishes [] _ [] rfl, by decide +kernel⟩

/-- Processing is acknowledged twice: the receipt is committed while the picture is processed,
and no later report is applied. -/
theorem acknowledged_receipt :
    let first := reported leafDb .processing leafTransition
    let second := reported first .processing leafTransition
    report leafDb .processing leafTransition = .ok (.applied, first) ∧
      report first .processing leafTransition = .ok (.alreadyApplied, second) ∧
      second.queue.completions ≠ first.queue.completions ∧
      (second.assets.get? leafId).map MediaAsset.state = some .processing ∧
      report first .ready "88888888-8888-4888-8888-888888888888" =
        .ok (.rejected "MEDIA_OUTCOME_INVALID", first) := by
  decide +kernel

end LearningOrbit.Media
