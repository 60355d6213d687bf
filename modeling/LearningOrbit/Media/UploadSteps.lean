import LearningOrbit.Jobs.Growth
import LearningOrbit.Media.UploadRuns

/-!
# What one step does

Said once for each part of the room: an asset, a grant, an object, the queue, the holder of
the lock and the sweeps. Everything a run keeps is read off it.
-/

namespace LearningOrbit.Media

open LearningOrbit (Dict)
open LearningOrbit.Jobs (Queue JobClaim JobRow NewJob Grows)

/-- A reconcile job of the media is running. -/
def LiveReconcile (w : World) (mediaId : String) : Prop :=
  ∃ id row, w.db.queue.jobs.get? id = some row ∧ row.jobType = "media.reconcile-upload.v1" ∧
    row.payload.get? "mediaId" = some (.text mediaId) ∧ row.status.terminal = false

/-- No finalize call is under way and no surface is being erased. -/
def World.Free (w : World) : Prop := w.holder = none

/-- Whether the object at the destination is the one that was promised. -/
def Intact (w : World) (reachable : Bool) (a : MediaAsset) (key sha256 : String) : Prop :=
  ∃ object, w.stat reachable key = some object ∧ object.sha256 = sha256 ∧
    object.sizeBytes = a.sizeBytes

/-- Why the reconcile route gives an upload up: another object is there, or none can be seen and
the fence is past. -/
def Lost (w : World) (reachable : Bool) (erasure : Erasure) (clock : Int) (a : MediaAsset)
    (g : UploadGrant) (key sha256 : String) : Prop :=
  (∃ object, w.stat reachable key = some object ∧
    (object.sha256 ≠ sha256 ∨ object.sizeBytes ≠ a.sizeBytes)) ∨
  w.stat reachable key = none ∧ g.effectiveWriteNotAfter ≤ clock ∧ erasure = .resolves

/-- The asset of a reconcile request, and the promotion its grant records. -/
structure Recorded (w : World) (r : ReconcileRequest) (a : MediaAsset) (grantId : String)
    (g : UploadGrant) (key sha256 : String) : Prop where
  free : w.Free
  live : LiveReconcile w r.mediaId
  asset : w.db.assets.get? r.mediaId = some a
  state : a.state.promoted = false
  grant : w.db.grants.get? grantId = some g
  media : g.mediaId = r.mediaId
  destination : g.promotionDestinationKey = some key
  promised : g.promotionSha256 = some sha256

inductive AssetMoves (w : World) (m : Move) (w' : World) (mediaId : String) : Prop
  | stays (h : w'.db.assets.get? mediaId = w.db.assets.get? mediaId)
  /-- A finalize call commits. -/
  | committed (f : Finalizing) (intent : PromotionIntent) (immutable : StoredObject)
    (a : MediaAsset) (hholder : w.holder = some (.finalize f))
    (hstage : f.stage = .checked intent immutable) (hmedia : f.mediaId = mediaId)
    (ha : w.db.assets.get? mediaId = some a) (hstate : a.state = .uploadPending)
    (hobjects : w'.objects = w.objects) (hreleased : w'.holder = none)
    (h : w'.db.assets.get? mediaId = some (a.promotes intent.promotionDestinationKey
      immutable.sha256 immutable.detectedMime intent.promotionCorrelationId))
  /-- The reconcile route finds the copy. -/
  | settled (assertion : Assertion) (refusal : Option String) (r : ReconcileRequest)
    (reachable : Bool) (erasure : Erasure) (clock : Int) (jobId : String) (stamp : Int)
    (a : MediaAsset) (grantId : String) (g : UploadGrant) (key : String) (object : StoredObject)
    (hmove : m = .reconcile assertion refusal r reachable erasure clock jobId stamp)
    (hmedia : r.mediaId = mediaId) (hrecorded : Recorded w r a grantId g key object.sha256)
    (hstat : w.stat reachable key = some object) (hsize : object.sizeBytes = a.sizeBytes)
    (hobjects : w'.objects = w.objects)
    (h : w'.db.assets.get? mediaId = some (a.promotes key object.sha256 object.detectedMime
      r.claim.correlationId))
  /-- The reconcile route gives the upload up. -/
  | failed (assertion : Assertion) (refusal : Option String) (r : ReconcileRequest)
    (reachable : Bool) (erasure : Erasure) (clock : Int) (jobId : String) (stamp : Int)
    (a : MediaAsset) (grantId : String) (g : UploadGrant) (key sha256 code : String)
    (hmove : m = .reconcile assertion refusal r reachable erasure clock jobId stamp)
    (hmedia : r.mediaId = mediaId) (hrecorded : Recorded w r a grantId g key sha256)
    (hlost : Lost w reachable erasure clock a g key sha256)
    (h : w'.db.assets.get? mediaId = some (a.fails code))
  | reported (a : MediaAsset) (r : OutcomeRequest) (hfree : w.Free)
    (ha : w.db.assets.get? mediaId = some a) (hadmissible : a.state.admissible = true)
    (h : w'.db.assets.get? mediaId = some (a.outcome r hadmissible))
  /-- A sweep retires it. -/
  | retired (a : MediaAsset) (hfree : w.Free) (ha : w.db.assets.get? mediaId = some a)
    (hstate : a.state = .failed) (hkey : a.objectKey = none)
    (h : w'.db.assets.get? mediaId = none)

/-- All but the state of a grant. -/
structure SameGrant (g g' : UploadGrant) : Prop where
  mediaId : g'.mediaId = g.mediaId
  roomId : g'.roomId = g.roomId
  objectKey : g'.objectKey = g.objectKey
  writeNotAfter : g'.writeNotAfter = g.writeNotAfter
  promotionSha256 : g'.promotionSha256 = g.promotionSha256
  promotionDestinationKey : g'.promotionDestinationKey = g.promotionDestinationKey
  promotionWriteNotAfter : g'.promotionWriteNotAfter = g.promotionWriteNotAfter

/-- The sweep may retire the rows of this grant: it names no original, or one that was erased. -/
def Sweep.Retires (s : Sweep) (g : UploadGrant) : Prop :=
  s.stage = .swept ∧ g.promotionDestinationKey = none ∨
    ∃ key, s.stage = .erased key ∧ g.promotionDestinationKey = some key

inductive GrantMoves (w w' : World) (grantId : String) : Prop
  | stays (h : w'.db.grants.get? grantId = w.db.grants.get? grantId)
  | written (g g' : UploadGrant) (hg : w.db.grants.get? grantId = some g)
    (hsame : SameGrant g g') (h : w'.db.grants.get? grantId = some g')
  | intended (f : Finalizing) (staging : StoredObject) (g : UploadGrant) (window : Nat)
    (hholder : w.holder = some (.finalize f)) (hstage : f.stage = .staged staging)
    (hg : w.db.grants.get? grantId = some g) (hmedia : g.mediaId = f.mediaId)
    (h : w'.db.grants.get? grantId = some (g.intends staging (originalKey w.roomId f.mediaId)
      f.correlationId window w.now))
  | fenced (f : Finalizing) (intent : PromotionIntent) (g : UploadGrant) (window : Nat)
    (hholder : w.holder = some (.finalize f)) (hstage : f.stage = .intended intent)
    (hg : w.db.grants.get? grantId = some g) (hid : grantId = intent.grantId)
    (h : w'.db.grants.get? grantId = some (g.extended window w.now))
  | retired (g : UploadGrant) (s : Sweep) (a : MediaAsset) (hfree : w.Free) (hs : s ∈ w.sweeps)
    (hg : w.db.grants.get? grantId = some g) (hid : s.candidate.grantId = grantId)
    (hmedia : g.mediaId = s.candidate.mediaId) (hretires : s.Retires g)
    (ha : w.db.assets.get? g.mediaId = some a) (hkey : a.objectKey = none)
    (h : w'.db.grants.get? grantId = none) (ha' : w'.db.assets.get? g.mediaId = none)

inductive ObjectMoves (w w' : World) (key : String) : Prop
  | stays (h : w'.objects.get? key = w.objects.get? key)
  | put (grantId : String) (g : UploadGrant) (hg : w.issued grantId = some g)
    (hnow : w.now ≤ g.writeNotAfter) (hkey : key = g.objectKey)
  | landed (copy : Copy) (g : UploadGrant) (notAfter : Int) (hcopy : copy ∈ w.copies)
    (hg : w.issued copy.grantId = some g) (hfence : g.promotionWriteNotAfter = some notAfter)
    (hnow : w.now ≤ notAfter) (hkey : key = copy.destinationKey)
    (habsent : w.objects.get? key = none)
  /-- A staging object goes, by the reconcile route or by a sweep. -/
  | sweptGrant (grantId : String) (g : UploadGrant) (hg : w.db.grants.get? grantId = some g)
    (hkey : key = g.objectKey) (h : w'.objects.get? key = none)
  | swept (s : Sweep) (hs : s ∈ w.sweeps) (hkey : key = s.candidate.objectKey)
    (h : w'.objects.get? key = none)
  | erased (s : Sweep) (hs : s ∈ w.sweeps) (hstage : s.stage = .authorised key)
    (h : w'.objects.get? key = none)

inductive HolderMoves (w w' : World) : Prop
  | stays (h : w'.holder = w.holder)
  | released (h : w'.holder = none)
  | locked (f : Finalizing) (hfree : w.Free) (hstage : f.stage = .locked)
    (ha : w.db.assets.get? f.mediaId = some f.locked.record)
    (hstate : f.locked.record.state = .uploadPending)
    (hg : w.db.grants.get? f.locked.grantId = some f.locked.grant)
    (hmedia : f.locked.grant.mediaId = f.mediaId) (hdb : w'.db = w.db)
    (h : w'.holder = some (.finalize f))
  | staged (f : Finalizing) (staging : StoredObject) (hholder : w.holder = some (.finalize f))
    (h : w'.holder = some (.finalize { f with stage := .staged staging }))
  | intended (f : Finalizing) (staging : StoredObject) (intent : PromotionIntent)
    (g : UploadGrant) (window : Nat) (hholder : w.holder = some (.finalize f))
    (hg : w.db.grants.get? intent.grantId = some g) (hmedia : g.mediaId = f.mediaId)
    (hkey : intent.promotionDestinationKey = originalKey w.roomId f.mediaId)
    (hsha : intent.promotionSha256 = staging.sha256)
    (hg' : w'.db.grants.get? intent.grantId = some (g.intends staging
      (originalKey w.roomId f.mediaId) f.correlationId window w.now))
    (h : w'.holder = some (.finalize { f with stage := .intended intent }))
  | fenced (f : Finalizing) (intent : PromotionIntent) (hholder : w.holder = some (.finalize f))
    (hstage : f.stage = .intended intent)
    (h : w'.holder = some (.finalize { f with stage := .fenced intent }))
  | copied (f : Finalizing) (intent : PromotionIntent) (hholder : w.holder = some (.finalize f))
    (hstage : f.stage = .fenced intent)
    (h : w'.holder = some (.finalize { f with stage := .copied intent }))
  | checked (f : Finalizing) (intent : PromotionIntent) (immutable : StoredObject)
    (hholder : w.holder = some (.finalize f)) (hstage : f.stage = .copied intent)
    (hobject : w.objects.get? intent.promotionDestinationKey = some immutable)
    (hobjects : w'.objects = w.objects)
    (hsha : immutable.sha256 = intent.promotionSha256)
    (hsize : immutable.sizeBytes = f.locked.record.sizeBytes)
    (h : w'.holder = some (.finalize { f with stage := .checked intent immutable }))

/-- How a sweep that is under way after the step came to be where it is. -/
inductive SweepMoves (w : World) (m : Move) (w' : World) (s : Sweep) : Prop
  | stays (h : s ∈ w.sweeps)
  | selected (g : UploadGrant) (hg : w.db.grants.get? s.candidate.grantId = some g)
    (hmedia : s.candidate.mediaId = g.mediaId) (hroom : s.candidate.roomId = w.roomId)
    (hkey : s.candidate.objectKey = g.objectKey) (hstage : s.stage = .selected)
  | swept (s₀ : Sweep) (hmove : m = .sweep (.sweeps s₀ .resolves)) (hs₀ : s₀ ∈ w.sweeps)
    (hc : s.candidate = s₀.candidate) (hstage₀ : s₀.stage = .selected) (hstage : s.stage = .swept)
    (hgone : w'.objects.get? s.candidate.objectKey = none) (hnow : w'.now = w.now)
  | authorised (s₀ : Sweep) (key : String) (a : MediaAsset) (g : UploadGrant) (hfree : w.Free)
    (hs₀ : s₀ ∈ w.sweeps) (hc : s.candidate = s₀.candidate) (hstage₀ : s₀.stage = .swept)
    (hstage : s.stage = .authorised key)
    (hkey : key = originalKey s.candidate.roomId s.candidate.mediaId)
    (ha : w.db.assets.get? s.candidate.mediaId = some a) (hstate : a.state = .failed)
    (hnone : a.objectKey = none) (hsettled : reconcileSettled w.db s.candidate.mediaId = true)
    (hg : w.db.grants.get? s.candidate.grantId = some g)
    (hdestination : g.promotionDestinationKey = some key)
  | erased (s₀ : Sweep) (key : String) (hmove : m = .sweep (.erases s₀ .resolves))
    (hs₀ : s₀ ∈ w.sweeps) (hc : s.candidate = s₀.candidate)
    (hstage₀ : s₀.stage = .authorised key) (hstage : s.stage = .erased key)
    (hgone : w'.objects.get? key = none) (hnow : w'.now = w.now)

inductive CopyMoves (w : World) (copy : Copy) : Prop
  | stays (h : copy ∈ w.copies)
  | sent (f : Finalizing) (intent : PromotionIntent) (hholder : w.holder = some (.finalize f))
    (hstage : f.stage = .fenced intent) (hid : copy.grantId = intent.grantId)
    (hkey : copy.destinationKey = intent.promotionDestinationKey)

/-- The jobs a step may insert: a reconcile job by the finalize call that holds the lock, a
process job by any promotion. -/
def Inserts (w : World) (job : NewJob) : Prop :=
  ∃ mediaId correlationId jobId now,
    job = processJob w.roomId mediaId correlationId jobId now ∨
    (∃ f, w.holder = some (.finalize f) ∧ f.mediaId = mediaId) ∧
      job = reconcileJob w.roomId mediaId correlationId jobId now

structure Step (w : World) (m : Move) (w' : World) : Prop where
  room : w'.roomId = w.roomId
  now : w.now ≤ w'.now
  issued : w'.issued = w.issued
  queue : Grows (Inserts w) w.db.queue w'.db.queue
  asset : ∀ mediaId, AssetMoves w m w' mediaId
  grant : ∀ grantId, GrantMoves w w' grantId
  object : ∀ key, ObjectMoves w w' key
  holder : HolderMoves w w'
  sweeps : ∀ s ∈ w'.sweeps, SweepMoves w m w' s
  copies : ∀ copy ∈ w'.copies, CopyMoves w copy

theorem Step.refl (w : World) (m : Move) : Step w m w :=
  ⟨rfl, Int.le_refl _, rfl, .refl _, fun _ => .stays rfl, fun _ => .stays rfl, fun _ => .stays rfl,
    .stays rfl, fun _ h => .stays h, fun _ h => .stays h⟩

/-! ## The tables -/

section Tables

variable {db : MediaDb}

@[simp] theorem setAsset_get? (m : String) (a : MediaAsset) (m' : String) :
    (db.setAsset m a).assets.get? m' = if m' = m then some a else db.assets.get? m' :=
  Dict.get?_set ..

@[simp] theorem setAsset_grants (m : String) (a : MediaAsset) :
    (db.setAsset m a).grants = db.grants := rfl

@[simp] theorem setAsset_queue (m : String) (a : MediaAsset) :
    (db.setAsset m a).queue = db.queue := rfl

@[simp] theorem setGrant_get? (id : String) (g : UploadGrant) (id' : String) :
    (db.setGrant id g).grants.get? id' = if id' = id then some g else db.grants.get? id' :=
  Dict.get?_set ..

@[simp] theorem setGrant_assets (id : String) (g : UploadGrant) :
    (db.setGrant id g).assets = db.assets := rfl

@[simp] theorem setGrant_queue (id : String) (g : UploadGrant) :
    (db.setGrant id g).queue = db.queue := rfl

theorem grantFor?_eq_some {mediaId roomId grantId : String} {g : UploadGrant}
    (h : db.grantFor? mediaId roomId = some (grantId, g)) :
    db.grants.get? grantId = some g ∧ g.mediaId = mediaId ∧ g.roomId = roomId := by
  unfold MediaDb.grantFor? at h
  have hmem := Dict.get?_eq_some.mpr (List.mem_of_find?_eq_some h)
  have hp := List.find?_some h
  simp only [Bool.and_eq_true, decide_eq_true_eq] at hp
  exact ⟨hmem, hp⟩

theorem lockOwned_eq {mediaId roomId owner : String} {locked : LockedMedia}
    (h : lockOwnedMediaAndGrant db mediaId roomId owner = .ok locked) :
    db.assets.get? mediaId = some locked.record ∧
      db.grants.get? locked.grantId = some locked.grant ∧ locked.grant.mediaId = mediaId ∧
      locked.grant.roomId = roomId := by
  unfold lockOwnedMediaAndGrant at h
  split at h
  · rename_i record grantId grant hrecord hgrant
    cases h
    obtain ⟨ha, -⟩ := asset?_eq_some (Option.filter_eq_some_iff.mp hrecord).1
    exact ⟨ha, grantFor?_eq_some hgrant⟩
  · cases h

theorem writePromotion_eq {db' : MediaDb} {roomId mediaId : String} {a : MediaAsset}
    {grantId : String} {g : UploadGrant} {objectKey sha256 detectedMime correlationId jobId : String}
    {now : Int} (h : writePromotion db roomId mediaId a grantId g objectKey sha256 detectedMime
      correlationId jobId now = .ok db') :
    Jobs.insertJobOnce db.queue (processJob roomId mediaId correlationId jobId now) =
        .ok db'.queue ∧
      db'.assets = (db.setAsset mediaId
        (a.promotes objectKey sha256 detectedMime correlationId)).assets ∧
      db'.grants = (db.setGrant grantId { g with state := .promoted }).grants := by
  unfold writePromotion at h
  split at h
  · cases h
  · obtain ⟨queue, hqueue, h⟩ := bind_eq_ok.mp h
    cases h
    exact ⟨hqueue, rfl, rfl⟩

end Tables

section Actors

variable {w : World}

theorem step_tick (d : Nat) : Step w (.tick d) { w with now := w.now + d } := by
  refine ⟨rfl, ?_, rfl, .refl _, fun _ => .stays rfl, fun _ => .stays rfl, fun _ => .stays rfl,
    .stays rfl, fun _ h => .stays h, fun _ h => .stays h⟩
  dsimp only
  omega

theorem step_put (grantId : String) (object : StoredObject) :
    Step w (.put grantId object) (w.put grantId object) := by
  unfold World.put
  split
  · rename_i g hg
    split
    · rename_i hnow
      refine ⟨rfl, Int.le_refl _, rfl, .refl _, fun _ => .stays rfl, fun _ => .stays rfl,
        fun key => ?_, .stays rfl, fun _ h => .stays h, fun _ h => .stays h⟩
      by_cases hkey : key = g.objectKey
      · exact .put grantId g hg hnow hkey
      · exact .stays (Dict.get?_set_of_ne _ _ hkey)
    · exact .refl ..
  · exact .refl ..

theorem step_land (copy : Copy) : Step w (.land copy) (w.land copy) := by
  have hcopies : ∀ c ∈ w.copies.erase copy, CopyMoves w c :=
    fun c hc => .stays (List.mem_of_mem_erase hc)
  unfold World.land
  dsimp only
  split
  · rename_i notAfter object hfence hobject
    obtain ⟨g, hg, hnotAfter⟩ := Option.bind_eq_some_iff.mp hfence
    split
    · rename_i hlands
      simp only [Bool.and_eq_true, decide_eq_true_eq, Bool.not_eq_true'] at hlands
      obtain ⟨⟨⟨⟨hcopy, hnow⟩, -⟩, -⟩, hfree⟩ := hlands
      refine ⟨rfl, Int.le_refl _, rfl, .refl _, fun _ => .stays rfl, fun _ => .stays rfl,
        fun key => ?_, .stays rfl, fun _ h => .stays h, hcopies⟩
      by_cases hkey : key = copy.destinationKey
      · refine .landed copy g notAfter hcopy hg hnotAfter hnow hkey ?_
        rw [hkey, Dict.get?_eq_none, ← Dict.contains_iff]
        simp [hfree]
      · exact .stays (Dict.get?_set_of_ne _ _ hkey)
    · exact ⟨rfl, Int.le_refl _, rfl, .refl _, fun _ => .stays rfl, fun _ => .stays rfl,
        fun _ => .stays rfl, .stays rfl, fun _ h => .stays h, hcopies⟩
  · exact ⟨rfl, Int.le_refl _, rfl, .refl _, fun _ => .stays rfl, fun _ => .stays rfl,
      fun _ => .stays rfl, .stays rfl, fun _ h => .stays h, hcopies⟩

theorem step_worker (call : Jobs.Call) : Step w (.worker call) (w.worker call) := by
  unfold World.worker
  split
  · exact .refl ..
  · rename_i hcall
    split
    · rename_i queue hqueue
      exact ⟨rfl, Int.le_refl _, rfl, Grows.step (fun job he => hcall job he) hqueue,
        fun _ => .stays rfl, fun _ => .stays rfl, fun _ => .stays rfl, .stays rfl,
        fun _ h => .stays h, fun _ h => .stays h⟩
    · exact .refl ..

/-- A finalize call ends, or dies. -/
theorem step_release (m : Move) : Step w m w.release :=
  ⟨rfl, Int.le_refl _, rfl, .refl _, fun _ => .stays rfl, fun _ => .stays rfl, fun _ => .stays rfl,
    .released rfl, fun _ h => .stays h, fun _ h => .stays h⟩

end Actors

/-! ## Finalize calls -/

section Finalize

variable {w : World} {f : Finalizing}

theorem finalizeLocks_goes {db : MediaDb} {stat : String → Option StoredObject} {roomId : String}
    {refusal : Option String} {mediaId actorId correlationId : String} {clock : Int}
    (h : finalizeLocks db stat roomId refusal mediaId actorId correlationId clock =
      .ok (.goes f)) :
    f.stage = .locked ∧ db.assets.get? f.mediaId = some f.locked.record ∧
      f.locked.record.state = .uploadPending ∧
      db.grants.get? f.locked.grantId = some f.locked.grant ∧
      f.locked.grant.mediaId = f.mediaId := by
  unfold finalizeLocks at h
  split at h
  · cases h
  · split at h
    · cases h
    · obtain ⟨locked, hlocked, h⟩ := bind_eq_ok.mp h
      obtain ⟨ha, hg, hmedia, -⟩ := lockOwned_eq hlocked
      split at h
      · cases h
      · cases h
      · cases h
      · split at h
        · split at h
          · cases h
          · split at h <;> cases h
        · cases h
      · split at h
        · split at h
          · cases h
          · split at h <;> cases h
        · cases h
      · split at h
        · split at h
          · cases h
          · split at h <;> cases h
        · cases h
      · rename_i hstate
        split at h
        · cases h
        · split at h
          · cases h
          · cases h
            exact ⟨rfl, ha, hstate, hg, hmedia⟩

theorem finalizeIntends_eq {db db' : MediaDb} {roomId : String} {refusal : Option String}
    {f f' : Finalizing} {staging : StoredObject} {window : Nat} {jobId : String} {now : Int}
    (h : finalizeIntends db roomId refusal f staging window jobId now = .ok (db', f')) :
    ∃ grantId g intent correlationId, db.grants.get? grantId = some g ∧ g.mediaId = f.mediaId ∧
      g.roomId = roomId ∧
      db'.assets = db.assets ∧ db'.grants = (db.setGrant grantId (g.intends staging
        (originalKey roomId f.mediaId) f.correlationId window now)).grants ∧
      Jobs.insertJobOnce db.queue (reconcileJob g.roomId g.mediaId correlationId jobId now) =
        .ok db'.queue ∧
      intent.grantId = grantId ∧ intent.promotionDestinationKey = originalKey roomId f.mediaId ∧
      intent.promotionSha256 = staging.sha256 ∧ f' = { f with stage := .intended intent } := by
  unfold finalizeIntends at h
  split at h
  · cases h
  · obtain ⟨latest, hlatest, h⟩ := bind_eq_ok.mp h
    obtain ⟨-, hg, hmedia, hroom⟩ := lockOwned_eq hlatest
    split at h
    · cases h
    · obtain ⟨⟨db₁, intent⟩, hrecord, h⟩ := bind_eq_ok.mp h
      cases h
      unfold recordPromotionIntent at hrecord
      split at hrecord
      · cases hrecord
      · split at hrecord
        · cases hrecord
        · split at hrecord
          · cases hrecord
          · obtain ⟨queue, hqueue, hrecord⟩ := bind_eq_ok.mp hrecord
            cases hrecord
            exact ⟨latest.grantId, latest.grant, _, _, hg, hmedia, hroom, rfl, rfl, hqueue, rfl,
              rfl, rfl, rfl⟩

theorem commitPromotion_eq {db db' : MediaDb} {roomId mediaId owner : String}
    {intent : PromotionIntent} {immutable : StoredObject} {jobId : String} {now : Int}
    {response : Complete}
    (h : commitPromotionAndEnqueue db roomId mediaId owner intent immutable jobId now =
      .ok (db', response)) :
    db' = db ∨ ∃ a grantId g, db.assets.get? mediaId = some a ∧ a.state = .uploadPending ∧
      db.grants.get? grantId = some g ∧
      writePromotion db roomId mediaId a grantId g intent.promotionDestinationKey immutable.sha256
        immutable.detectedMime intent.promotionCorrelationId jobId now = .ok db' := by
  unfold commitPromotionAndEnqueue at h
  split at h
  · cases h
  · obtain ⟨locked, hlocked, h⟩ := bind_eq_ok.mp h
    obtain ⟨ha, hg, -, -⟩ := lockOwned_eq hlocked
    split at h
    · cases h
    · split at h
      · split at h
        · cases h
        · cases h
          exact .inl rfl
      · rename_i hstate
        obtain ⟨db₁, hwrite, h⟩ := bind_eq_ok.mp h
        cases h
        exact .inr ⟨locked.record, locked.grantId, locked.grant, ha, not_not.mp hstate, hg, hwrite⟩

theorem step_stages (m : Move) (reachable : Bool) (hholder : w.holder = some (.finalize f)) :
    Step w m (match finalizeStages (w.stat reachable) f with
      | .ok f => w.hold f
      | .error _ => w.release) := by
  split
  · rename_i f' hf'
    unfold finalizeStages at hf'
    split at hf'
    · cases hf'
    · rename_i staging _
      split at hf'
      · cases hf'
      · cases hf'
        exact ⟨rfl, Int.le_refl _, rfl, .refl _, fun _ => .stays rfl, fun _ => .stays rfl,
          fun _ => .stays rfl, .staged f staging hholder rfl, fun _ h => .stays h,
          fun _ h => .stays h⟩
  · exact step_release m

theorem step_intends (m : Move) {staging : StoredObject} (refusal : Option String) (window : Nat)
    (jobId : String) (hholder : w.holder = some (.finalize f))
    (hstage : f.stage = .staged staging) :
    Step w m (match finalizeIntends w.db w.roomId refusal f staging window jobId w.now with
      | .ok (db, f) => (w.setDb db).hold f
      | .error _ => w.release) := by
  split
  · rename_i db f' hok
    obtain ⟨grantId, g, intent, correlationId, hg, hmedia, hroom, hassets, hgrants, hqueue, hid,
      hkey, hsha, rfl⟩ := finalizeIntends_eq hok
    have hget : ∀ id, db.grants.get? id = if id = grantId then some (g.intends staging
        (originalKey w.roomId f.mediaId) f.correlationId window w.now)
        else w.db.grants.get? id := by
      intro id
      rw [hgrants, setGrant_get?]
    refine ⟨rfl, Int.le_refl _, rfl, ?_, fun id => ?_, fun id => ?_, fun _ => .stays rfl, ?_,
      fun _ h => .stays h, fun _ h => .stays h⟩
    · refine Grows.insertJobOnce ?_ hqueue
      rw [hroom, hmedia]
      exact ⟨f.mediaId, correlationId, jobId, w.now, .inr ⟨⟨f, hholder, rfl⟩, rfl⟩⟩
    · exact .stays (congrArg (Dict.get? · id) hassets)
    · by_cases he : id = grantId
      · subst he
        refine .intended f staging g window hholder hstage hg hmedia ?_
        change db.grants.get? _ = _
        rw [hget, if_pos rfl]
      · refine .stays ?_
        change db.grants.get? _ = _
        rw [hget, if_neg he]
    · subst hid
      refine .intended f staging intent g window hholder hg hmedia hkey hsha ?_ rfl
      change db.grants.get? _ = _
      rw [hget, if_pos rfl]
  · exact step_release m

theorem step_fences (m : Move) {intent : PromotionIntent} (window : Nat)
    (hholder : w.holder = some (.finalize f)) (hstage : f.stage = .intended intent) :
    Step w m (match finalizeExtends w.db f intent window w.now with
      | .ok (db, f) => (w.setDb db).hold f
      | .error _ => w.release) := by
  split
  · rename_i db f' hok
    obtain ⟨db₁, hdb, hok⟩ := bind_eq_ok.mp hok
    cases hok
    unfold extendPromotionWriteFenceFromDbTime at hdb
    split at hdb
    · rename_i g hg
      cases hdb
      refine ⟨rfl, Int.le_refl _, rfl, .refl _, fun _ => .stays rfl, fun id => ?_,
        fun _ => .stays rfl, .fenced f intent hholder hstage rfl, fun _ h => .stays h,
        fun _ h => .stays h⟩
      by_cases he : id = intent.grantId
      · refine .fenced f intent g window hholder hstage (he ▸ hg) he ?_
        simp [World.hold, World.setDb, he]
      · exact .stays (by simp [World.hold, World.setDb, he])
    · cases hdb
  · exact step_release m

theorem step_checks (m : Move) {intent : PromotionIntent} (reachable : Bool)
    (hholder : w.holder = some (.finalize f)) (hstage : f.stage = .copied intent) :
    Step w m (match finalizeChecks (w.stat reachable) f intent with
      | .ok f => w.hold f
      | .error _ => w.release) := by
  split
  · rename_i f' hf'
    unfold finalizeChecks at hf'
    split at hf'
    · cases hf'
    · rename_i immutable hstat
      split at hf'
      · cases hf'
      · rename_i hmatch
        cases hf'
        simp only [Bool.or_eq_true, decide_eq_true_eq, not_or, not_not] at hmatch
        have hobject : w.objects.get? intent.promotionDestinationKey = some immutable := by
          unfold World.stat at hstat
          split at hstat
          · exact hstat
          · cases hstat
        exact ⟨rfl, Int.le_refl _, rfl, .refl _, fun _ => .stays rfl, fun _ => .stays rfl,
          fun _ => .stays rfl,
          .checked f intent immutable hholder hstage hobject rfl hmatch.1 hmatch.2 rfl,
          fun _ h => .stays h, fun _ h => .stays h⟩
  · exact step_release m

theorem step_commits (m : Move) {intent : PromotionIntent} {immutable : StoredObject}
    (refusal : Option String) (jobId : String) (hholder : w.holder = some (.finalize f))
    (hstage : f.stage = .checked intent immutable) :
    Step w m (match finalizeCommits w.db w.roomId refusal f intent immutable jobId w.now with
      | .ok (db, _) => (w.setDb db).release
      | .error _ => w.release) := by
  split
  · rename_i db response hok
    unfold finalizeCommits at hok
    split at hok
    · cases hok
    · rcases commitPromotion_eq hok with rfl | ⟨a, grantId, g, ha, hstate, hg, hwrite⟩
      · exact step_release m
      · obtain ⟨hqueue, hassets, hgrants⟩ := writePromotion_eq hwrite
        refine ⟨rfl, Int.le_refl _, rfl, ?_, fun id => ?_, fun id => ?_, fun _ => .stays rfl,
          .released rfl, fun _ h => .stays h, fun _ h => .stays h⟩
        · exact Grows.insertJobOnce ⟨f.mediaId, _, jobId, w.now, .inl rfl⟩ hqueue
        · by_cases he : id = f.mediaId
          · subst he
            refine .committed f intent immutable a hholder hstage rfl ha hstate rfl rfl ?_
            change db.assets.get? _ = _
            rw [hassets, setAsset_get?, if_pos rfl]
          · refine .stays ?_
            change db.assets.get? _ = _
            rw [hassets, setAsset_get?, if_neg he]
        · by_cases he : id = grantId
          · subst he
            refine .written g { g with state := .promoted } hg ⟨rfl, rfl, rfl, rfl, rfl, rfl, rfl⟩ ?_
            change db.grants.get? _ = _
            rw [hgrants, setGrant_get?, if_pos rfl]
          · refine .stays ?_
            change db.grants.get? _ = _
            rw [hgrants, setGrant_get?, if_neg he]
  · exact step_release m

theorem step_finalize (step : FinalizeStep) : Step w (.finalize step) (w.finalize step) := by
  unfold World.finalize
  split
  · rename_i hholder
    split
    · rename_i f hok
      obtain ⟨hstage, ha, hstate, hg, hmedia⟩ := finalizeLocks_goes hok
      exact ⟨rfl, Int.le_refl _, rfl, .refl _, fun _ => .stays rfl, fun _ => .stays rfl,
        fun _ => .stays rfl, .locked f hholder hstage ha hstate hg hmedia rfl rfl,
        fun _ h => .stays h, fun _ h => .stays h⟩
    · exact .refl ..
  · rename_i f hholder
    unfold World.finalizeGoes
    split
    · exact step_stages _ _ hholder
    · rename_i hstage
      exact step_intends _ _ _ _ hholder hstage
    · rename_i hstage
      exact step_fences _ _ hholder hstage
    · rename_i intent hstage
      refine ⟨rfl, Int.le_refl _, rfl, .refl _, fun _ => .stays rfl, fun _ => .stays rfl,
        fun _ => .stays rfl, .copied f intent hholder hstage rfl, fun _ h => .stays h, ?_⟩
      intro copy hcopy
      rcases List.mem_cons.mp hcopy with rfl | hcopy
      · exact .sent f intent hholder hstage rfl rfl
      · exact .stays hcopy
    · rename_i hstage
      exact step_checks _ _ hholder hstage
    · rename_i hstage
      exact step_commits _ _ _ hholder hstage
    · exact step_release _
    · exact .refl ..
  · exact .refl ..

end Finalize

/-! ## The routes -/

section Routes

variable {w : World} {r : ReconcileRequest} {reachable : Bool} {clock : Int}

theorem stat_eq_some {key : String} {object : StoredObject} (h : w.stat reachable key = some object) :
    w.objects.get? key = some object := by
  unfold World.stat at h
  split at h
  · exact h
  · cases h

/-- What the rows must say for the route to find anything. -/
theorem promotionFinding_recorded {stat : String → Option StoredObject} {correlationId : String}
    {a : MediaAsset} {grantId : String} {g : UploadGrant} {finding : Finding}
    (h : promotionFinding stat clock correlationId a grantId g = finding) :
    (∃ response, finding = .answers response) ∨ finding = .already ∨
    a.state.promoted = false ∧ ∃ key sha256, g.promotionDestinationKey = some key ∧
      g.promotionSha256 = some sha256 ∧
      (finding = .abandoned a grantId g ∧ stat key = none ∧ g.effectiveWriteNotAfter ≤ clock ∨
        finding = .mismatched a ∧ (∃ object, stat key = some object ∧
          (object.sha256 ≠ sha256 ∨ object.sizeBytes ≠ a.sizeBytes)) ∨
        ∃ object, finding = .settled a grantId g key object ∧ stat key = some object ∧
          object.sha256 = sha256 ∧ object.sizeBytes = a.sizeBytes) := by
  unfold promotionFinding at h
  split at h
  · exact .inl ⟨_, h.symm⟩
  · split at h
    · exact .inl ⟨_, h.symm⟩
    · split at h
      · exact .inr (.inl h.symm)
      · rename_i hpromoted
        have hstate : a.state.promoted = false := by
          by_contra hp
          rw [Bool.not_eq_false] at hp
          obtain ⟨hkey, hsha, -⟩ := a.promotedCk hp
          simp [hkey, hsha, hp] at hpromoted
        split at h
        · rename_i key sha256 correlation hkey hsha hcorrelation
          split at h
          · rename_i hstat
            split at h
            · exact .inl ⟨_, h.symm⟩
            · rename_i hclock
              exact .inr (.inr ⟨hstate, key, sha256, hkey, hsha,
                .inl ⟨h.symm, hstat, Int.not_lt.mp hclock⟩⟩)
          · rename_i object hstat
            split at h
            · rename_i hother
              simp only [Bool.or_eq_true, decide_eq_true_eq] at hother
              exact .inr (.inr ⟨hstate, key, sha256, hkey, hsha,
                .inr (.inl ⟨h.symm, object, hstat, hother⟩)⟩)
            · rename_i hsame
              simp only [Bool.or_eq_true, decide_eq_true_eq, not_or, not_not] at hsame
              exact .inr (.inr ⟨hstate, key, sha256, hkey, hsha,
                .inr (.inr ⟨object, h.symm, hstat, hsame.1, hsame.2⟩)⟩)
        · exact .inl ⟨_, h.symm⟩

/-- What a request finds in a free room. -/
inductive Finds (w : World) (r : ReconcileRequest) (reachable : Bool) (clock : Int) : Finding → Prop
  | answers (response : ReconcileResponse) : Finds w r reachable clock (.answers response)
  | already : Finds w r reachable clock .already
  | abandoned (a : MediaAsset) (grantId : String) (g : UploadGrant) (key sha256 : String)
    (h : Recorded w r a grantId g key sha256) (hstat : w.stat reachable key = none)
    (hfence : g.effectiveWriteNotAfter ≤ clock) : Finds w r reachable clock (.abandoned a grantId g)
  | mismatched (a : MediaAsset) (grantId : String) (g : UploadGrant) (key sha256 : String)
    (object : StoredObject) (h : Recorded w r a grantId g key sha256)
    (hstat : w.stat reachable key = some object)
    (hother : object.sha256 ≠ sha256 ∨ object.sizeBytes ≠ a.sizeBytes) :
    Finds w r reachable clock (.mismatched a)
  | settled (a : MediaAsset) (grantId : String) (g : UploadGrant) (key : String)
    (object : StoredObject) (h : Recorded w r a grantId g key object.sha256)
    (hstat : w.stat reachable key = some object) (hsize : object.sizeBytes = a.sizeBytes) :
    Finds w r reachable clock (.settled a grantId g key object)

theorem live_of_current {held : JobRow × Jobs.Lease} (hparses : r.parses = true)
    (hidentity : (w.db.queue.jobs.get? r.claim.jobId).any (fun row =>
      jobIdentity r.claim r.mediaId row && row.payload.size = 1) = true)
    (hcurrent : Jobs.requireCurrent "JOB_CLAIM_STALE" w.db.queue r.claim = .ok held) :
    LiveReconcile w r.mediaId := by
  obtain ⟨row, lease⟩ := held
  have hholds := Jobs.requireCurrent_holds hcurrent
  obtain ⟨row', hrow', hid⟩ := (Option.any_eq_true _ _).mp hidentity
  rw [hholds.stored] at hrow'
  cases hrow'
  simp only [jobIdentity, Bool.and_eq_true, decide_eq_true_eq] at hid
  obtain ⟨⟨⟨⟨⟨⟨htype, -⟩, -⟩, -⟩, -⟩, hpayload⟩, -⟩ := hid
  simp only [ReconcileRequest.parses, parseClaim, Bool.and_eq_true, decide_eq_true_eq] at hparses
  refine ⟨r.claim.jobId, row, hholds.stored, ?_, hpayload, by simp [hholds.running, Jobs.Status.terminal]⟩
  rw [htype]
  exact hparses.1.1.1.1.1.1.1.1.1.1.2

theorem reconcileBegins_finds {assertion : Assertion} {refusal : Option String} {finding : Finding}
    (hfree : w.Free)
    (h : reconcileBegins w.db (w.stat reachable) assertion refusal r clock = .ok finding) :
    Finds w r reachable clock finding := by
  unfold reconcileBegins at h
  split at h
  · cases h
    exact .answers _
  · rename_i hparses
    split at h
    · cases h
      exact .answers _
    · split at h
      · cases h
      · cases h
        unfold reconcileFinding
        split
        · exact .answers _
        · rename_i hidentity
          split
          · exact .answers _
          · rename_i held hcurrent
            split
            · rename_i a grantId g ha hg
              obtain ⟨ha, -⟩ := asset?_eq_some ha
              obtain ⟨hg, hmedia, -⟩ := grantFor?_eq_some hg
              have hlive : LiveReconcile w r.mediaId :=
                live_of_current (by simpa using hparses) (by simpa using hidentity) hcurrent
              rcases promotionFinding_recorded rfl with ⟨response, he⟩ | he | ⟨hstate, key, sha256,
                hkey, hsha, ⟨he, hstat, hfence⟩ | ⟨he, object, hstat, hother⟩ |
                ⟨object, he, hstat, hsame, hsize⟩⟩
              · exact he ▸ .answers response
              · exact he ▸ .already
              · exact he ▸ .abandoned a grantId g key sha256
                  ⟨hfree, hlive, ha, hstate, hg, hmedia, hkey, hsha⟩ hstat hfence
              · exact he ▸ .mismatched a grantId g key sha256 object
                  ⟨hfree, hlive, ha, hstate, hg, hmedia, hkey, hsha⟩ hstat hother
              · subst hsame
                exact he ▸ .settled a grantId g key object
                  ⟨hfree, hlive, ha, hstate, hg, hmedia, hkey, hsha⟩ hstat hsize
            · exact .answers _

theorem completeReconcile_eq {db db' : MediaDb} {claim : JobClaim} {code : String}
    {response : ReconcileResponse} (h : completeReconcile db claim code = .ok (response, db')) :
    db'.assets = db.assets ∧ db'.grants = db.grants ∧
      ∀ Admitted, Grows Admitted db.queue db'.queue := by
  obtain ⟨queue, hqueue, h⟩ := bind_eq_ok.mp h
  cases h
  exact ⟨rfl, rfl, fun _ => Grows.completeBusiness hqueue⟩

theorem handleReconcile_eq {db db' : MediaDb} {stat : String → Option StoredObject}
    {assertion : Assertion} {refusal : Option String} {swept : Bool} {jobId : String} {now : Int}
    {response : ReconcileResponse}
    (h : handleReconcile db stat assertion refusal r swept clock jobId now = .ok (response, db')) :
    db' = db ∨ ∃ finding, reconcileBegins db stat assertion refusal r clock = .ok finding ∧
      reconcileWrites db r swept clock jobId now finding = .ok (response, db') := by
  obtain ⟨finding, hfinding, h⟩ := bind_eq_ok.mp h
  split at h
  · cases h
    exact .inl rfl
  · exact .inr ⟨finding, hfinding, h⟩

@[simp] theorem eraseObject_db (key : String) (gone : Bool) : (w.eraseObject key gone).db = w.db := by
  unfold World.eraseObject
  split <;> rfl

theorem eraseObject_get? (key : String) (gone : Bool) (other : String) :
    (w.eraseObject key gone).objects.get? other = w.objects.get? other ∨
      other = key ∧ (w.eraseObject key gone).objects.get? other = none := by
  unfold World.eraseObject
  split
  · by_cases he : other = key
    · exact .inr ⟨he, by simp [Dict.get?_erase, he]⟩
    · exact .inl (by simp [Dict.get?_erase, he])
  · exact .inl rfl

/-- Deleting an object touches nothing else of the room. -/
theorem step_eraseObject {m : Move} {key : String} (gone : Bool)
    (hkey : (w.eraseObject key gone).objects.get? key = none →
      ObjectMoves w (w.eraseObject key gone) key) : Step w m (w.eraseObject key gone) := by
  have hobject : ∀ other, ObjectMoves w (w.eraseObject key gone) other := by
    intro other
    rcases eraseObject_get? (w := w) key gone other with h | ⟨rfl, h⟩
    · exact .stays h
    · exact hkey h
  unfold World.eraseObject at hobject ⊢
  split
  · rename_i hgone
    simp only [hgone, ↓reduceIte] at hobject
    exact ⟨rfl, Int.le_refl _, rfl, .refl _, fun _ => .stays rfl, fun _ => .stays rfl, hobject,
      .stays rfl, fun _ h => .stays h, fun _ h => .stays h⟩
  · exact .refl ..

theorem eraseObject_setDb_self (key : String) (gone : Bool) :
    (w.eraseObject key gone).setDb w.db = w.eraseObject key gone := by
  unfold World.eraseObject
  split <;> rfl

theorem step_sweptObject {m : Move} {finding : Finding} (gone : Bool)
    (h : Finds w r reachable clock finding) :
    Step w m (finding.sweeps.elim w fun key => w.eraseObject key gone) := by
  cases h with
  | abandoned a grantId g key sha256 h _ _ =>
    exact step_eraseObject gone fun hgone => .sweptGrant grantId g h.grant rfl hgone
  | _ => exact .refl ..

/-- An asset that the route gives up. -/
theorem assetMoves_failed {assertion : Assertion} {refusal : Option String} {erasure : Erasure}
    {jobId : String} {stamp : Int} {w' : World} {a : MediaAsset} {grantId : String}
    {g : UploadGrant} {key sha256 : String} (code : String) (h : Recorded w r a grantId g key sha256)
    (hlost : Lost w reachable erasure clock a g key sha256)
    (hassets : ∀ id, w'.db.assets.get? id =
      if id = r.mediaId then some (a.fails code) else w.db.assets.get? id) (id : String) :
    AssetMoves w (.reconcile assertion refusal r reachable erasure clock jobId stamp) w' id := by
  by_cases he : id = r.mediaId
  · subst he
    exact .failed assertion refusal r reachable erasure clock jobId stamp a grantId g key sha256 code
      rfl rfl h hlost (by simp [hassets])
  · exact .stays (by simp [hassets, he])

theorem grantMoves_state {w' : World} {grantId : String} {g : UploadGrant} (state : GrantState)
    (hg : w.db.grants.get? grantId = some g)
    (hgrants : ∀ id, w'.db.grants.get? id =
      if id = grantId then some { g with state } else w.db.grants.get? id) (id : String) :
    GrantMoves w w' id := by
  by_cases he : id = grantId
  · subst he
    exact .written g { g with state } hg ⟨rfl, rfl, rfl, rfl, rfl, rfl, rfl⟩
      ((hgrants id).trans (if_pos rfl))
  · exact .stays (by simp [hgrants, he])

theorem step_reconcile (assertion : Assertion) (refusal : Option String) (r : ReconcileRequest)
    (reachable : Bool) (erasure : Erasure) (clock : Int) (jobId : String) (stamp : Int) :
    Step w (.reconcile assertion refusal r reachable erasure clock jobId stamp)
      (w.reconcile assertion refusal r reachable erasure clock jobId stamp) := by
  unfold World.reconcile
  split
  · exact .refl ..
  · rename_i hfree
    simp only [Bool.or_eq_true, decide_eq_true_eq, not_or, Bool.not_eq_true,
      Option.isSome_eq_false_iff, Option.isNone_iff_eq_none, not_not] at hfree
    obtain ⟨hfree, hroom⟩ := hfree
    have hroomId : r.roomId = w.roomId := by simp [ReconcileRequest.roomId, hroom]
    cases hb : reconcileBegins w.db (w.stat reachable) assertion refusal r clock with
    | error e => simpa [handleReconcile, hb, bind, Except.bind] using Step.refl w _
    | ok finding =>
      have hfinds := reconcileBegins_finds hfree hb
      dsimp only
      split
      · rename_i response db hok
        rcases handleReconcile_eq hok with rfl | ⟨finding', hb', hwrites⟩
        · have hsame : (finding.sweeps.elim w fun key => w.eraseObject key erasure.gone).setDb w.db =
              finding.sweeps.elim w fun key => w.eraseObject key erasure.gone := by
            cases finding.sweeps with
            | none => rfl
            | some key => exact eraseObject_setDb_self key _
          rw [hsame]
          exact step_sweptObject _ hfinds
        · rw [hb] at hb'
          cases hb'
          cases hfinds with
          | answers response =>
            cases hwrites
            exact .refl ..
          | already =>
            obtain ⟨hassets, hgrants, hqueue⟩ := completeReconcile_eq hwrites
            exact ⟨rfl, Int.le_refl _, rfl, hqueue _,
              fun id => .stays (congrArg (Dict.get? · id) hassets),
              fun id => .stays (congrArg (Dict.get? · id) hgrants), fun _ => .stays rfl, .stays rfl,
              fun _ h => .stays h, fun _ h => .stays h⟩
          | abandoned a grantId g key sha256 h hstat hfence =>
            unfold reconcileWrites at hwrites
            dsimp only at hwrites
            split at hwrites
            · cases hwrites
              have hsame := eraseObject_setDb_self (w := w) g.objectKey erasure.gone
              rw [Finding.sweeps, Option.elim_some, hsame]
              exact step_eraseObject _ fun hgone => .sweptGrant grantId g h.grant rfl hgone
            · rename_i hswept
              have hresolves : erasure = .resolves := by simpa using hswept
              subst hresolves
              obtain ⟨hassets, hgrants, hqueue⟩ := completeReconcile_eq hwrites
              refine ⟨rfl, Int.le_refl _, rfl, hqueue _,
                assetMoves_failed "PROMOTION_ABANDONED" h (.inr ⟨hstat, hfence, rfl⟩) fun id => ?_,
                grantMoves_state .closed h.grant fun id => ?_, fun other => ?_, .stays rfl,
                fun _ h => .stays h, fun _ h => .stays h⟩
              · change db.assets.get? id = _
                rw [hassets, setGrant_assets, setAsset_get?]
              · change db.grants.get? id = _
                rw [hgrants, setGrant_get?, setAsset_grants]
              · rcases eraseObject_get? (w := w) g.objectKey Erasure.resolves.gone other with
                  hsame | ⟨he, hgone⟩
                · exact .stays hsame
                · exact .sweptGrant grantId g h.grant he hgone
          | mismatched a grantId g key sha256 object h hstat hother =>
            obtain ⟨hassets, hgrants, hqueue⟩ := completeReconcile_eq hwrites
            refine ⟨rfl, Int.le_refl _, rfl, hqueue _,
              assetMoves_failed "PROMOTION_IDENTITY_MISMATCH" h (.inl ⟨object, hstat, hother⟩)
                fun id => ?_, fun id => .stays (congrArg (Dict.get? · id) hgrants),
              fun _ => .stays rfl, .stays rfl, fun _ h => .stays h, fun _ h => .stays h⟩
            change db.assets.get? id = _
            rw [hassets, setAsset_get?]
          | settled a grantId g key object h hstat hsize =>
            obtain ⟨db₁, hwrite, hwrites⟩ := bind_eq_ok.mp hwrites
            obtain ⟨hqueue₁, hassets₁, hgrants₁⟩ := writePromotion_eq hwrite
            obtain ⟨hassets, hgrants, hqueue⟩ := completeReconcile_eq hwrites
            refine ⟨rfl, Int.le_refl _, rfl, ?_, fun id => ?_,
              grantMoves_state .promoted h.grant fun id => ?_, fun _ => .stays rfl, .stays rfl,
              fun _ h => .stays h, fun _ h => .stays h⟩
            · refine Grows.trans (Grows.insertJobOnce ?_ hqueue₁) (hqueue _)
              exact ⟨r.mediaId, r.claim.correlationId, jobId, w.stamp stamp, .inl (by rw [hroomId])⟩
            · have hget : db.assets.get? id = if id = r.mediaId then some (a.promotes key
                  object.sha256 object.detectedMime r.claim.correlationId)
                  else w.db.assets.get? id := by
                rw [hassets, hassets₁, setAsset_get?]
              by_cases he : id = r.mediaId
              · subst he
                exact .settled assertion refusal r reachable erasure clock jobId stamp a grantId g key
                  object rfl rfl h hstat hsize rfl (hget.trans (if_pos rfl))
              · exact .stays (hget.trans (if_neg he))
            · change db.grants.get? id = _
              rw [hgrants, hgrants₁, setGrant_get?]
      · exact step_sweptObject _ hfinds

theorem outcomeInContext_keeps {db db' : MediaDb} {o : OutcomeRequest} {roomId : String}
    {response : OutcomeResponse} (h : outcomeInContext db o roomId = .ok (response, db')) :
    db'.grants = db.grants ∧ ∀ Admitted, Grows Admitted db.queue db'.queue := by
  have hsame : db.grants = db.grants ∧ ∀ Admitted, Grows Admitted db.queue db.queue :=
    ⟨rfl, fun _ => .refl _⟩
  unfold outcomeInContext at h
  split at h
  · cases h
    exact hsame
  · split at h
    · cases h
      exact hsame
    · split at h
      · cases h
        exact hsame
      · split at h
        · split at h
          · cases h
            exact hsame
          · obtain ⟨queue, hqueue, h⟩ := bind_eq_ok.mp h
            cases h
            exact ⟨rfl, fun _ => Grows.completeBusiness hqueue⟩
        · split at h
          · obtain ⟨db₁, hwrite, h⟩ := bind_eq_ok.mp h
            cases h
            obtain ⟨derivatives, -, hwrite⟩ := bind_eq_ok.mp hwrite
            split at hwrite
            · cases hwrite
            · dsimp only at hwrite
              split at hwrite
              · cases hwrite
                exact hsame
              · obtain ⟨queue, hqueue, hwrite⟩ := bind_eq_ok.mp hwrite
                cases hwrite
                exact ⟨rfl, fun _ => Grows.completeBusiness hqueue⟩
          · cases h
            exact hsame

/-- A report writes no grant, and the receipt is all it adds to the queue. -/
theorem handleOutcome_keeps {db db' : MediaDb} {assertion : Assertion} {refusal : Option String}
    {o : OutcomeRequest} {response : OutcomeResponse}
    (h : handleOutcome db assertion refusal o = .ok (response, db')) :
    db'.grants = db.grants ∧ ∀ Admitted, Grows Admitted db.queue db'.queue := by
  have hsame : db.grants = db.grants ∧ ∀ Admitted, Grows Admitted db.queue db.queue :=
    ⟨rfl, fun _ => .refl _⟩
  unfold handleOutcome at h
  split at h
  · cases h
    exact hsame
  · split at h
    · cases h
      exact hsame
    · split at h
      · cases h
        exact hsame
      · split at h
        · cases h
          exact hsame
        · split at h
          · cases h
          · cases h
            exact hsame
          · split at h
            · cases h
              exact hsame
            · exact outcomeInContext_keeps h

theorem step_outcome (assertion : Assertion) (refusal : Option String) (o : OutcomeRequest) :
    Step w (.outcome assertion refusal o) (w.outcome assertion refusal o) := by
  unfold World.outcome
  split
  · exact .refl ..
  · rename_i hfree
    simp only [Bool.or_eq_true, decide_eq_true_eq, not_or, Bool.not_eq_true,
      Option.isSome_eq_false_iff, Option.isNone_iff_eq_none] at hfree
    split
    · rename_i response db hok
      obtain ⟨hgrants, hqueue⟩ := handleOutcome_keeps hok
      refine ⟨rfl, Int.le_refl _, rfl, hqueue _, fun id => ?_,
        fun id => .stays (congrArg (Dict.get? · id) hgrants), fun _ => .stays rfl, .stays rfl,
        fun _ h => .stays h, fun _ h => .stays h⟩
      cases handleOutcome_reported hok with
      | refused code => exact .stays rfl
      | repeated ha htransition hcompleted => exact .stays rfl
      | @first a _ ha hfresh hadmissible hassets _ _ _ _ _ _ =>
        by_cases he : id = o.mediaId
        · subst he
          refine .reported a o hfree.1 ha hadmissible ?_
          change db.assets.get? _ = _
          rw [hassets, Dict.get?_set_self]
        · refine .stays ?_
          change db.assets.get? _ = _
          rw [hassets, Dict.get?_set_of_ne _ _ he]
    · exact .refl ..

end Routes

/-! ## Sweeps -/

section Sweeps

variable {w : World} {c : Candidate}

theorem lockedView_eq {db : MediaDb} {a : MediaAsset} {g : UploadGrant}
    (h : lockedView db c = some (a, g)) :
    db.assets.get? c.mediaId = some a ∧ db.grants.get? c.grantId = some g := by
  unfold lockedView at h
  split at h
  · rename_i a' g' ha hg
    cases h
    exact ⟨(asset?_eq_some ha).1, hg⟩
  · cases h

theorem abandonVerdict_eq {db : MediaDb} {a : MediaAsset} {g : UploadGrant}
    {verdict : AbandonVerdict} (h : abandonVerdict db c a g = verdict) (hkeep : verdict ≠ .keep) :
    a.state = .failed ∧ a.objectKey = none ∧ reconcileSettled db c.mediaId = true ∧
      (verdict = .rowsOnly ∧ g.promotionDestinationKey = none ∨
        ∃ key, verdict = .object key ∧ g.promotionDestinationKey = some key ∧
          key = originalKey c.roomId c.mediaId) := by
  unfold abandonVerdict at h
  split at h
  · exact absurd h.symm hkeep
  · rename_i hfailed
    split at h
    · exact absurd h.symm hkeep
    · rename_i hnone
      split at h
      · exact absurd h.symm hkeep
      · rename_i hsettled
        simp only [Bool.or_eq_true, decide_eq_true_eq, not_or, not_not] at hfailed
        refine ⟨hfailed.1, by simpa using hnone, by simpa using hsettled, ?_⟩
        split at h
        · rename_i hdestination
          exact .inl ⟨h.symm, hdestination⟩
        · rename_i key hdestination
          split at h
          · exact absurd h.symm hkeep
          · rename_i herasable
            split at h
            · exact absurd h.symm hkeep
            · simp only [erasableDestinationKey, Bool.not_eq_true', Bool.not_eq_false,
                Bool.and_eq_true, decide_eq_true_eq] at herasable
              exact .inr ⟨key, h.symm, hdestination, herasable.1.1.1⟩

theorem deleteAbandonedRows_eq {db db' : MediaDb} {destinationKey : Option String}
    (h : deleteAbandonedRows db c destinationKey = .ok db') :
    (∃ g, db.grants.get? c.grantId = some g ∧ g.mediaId = c.mediaId) ∧
      db' = (db.eraseGrant c.grantId).eraseAsset c.mediaId := by
  unfold deleteAbandonedRows at h
  dsimp only at h
  split at h
  · cases h
  · rename_i hrows
    cases h
    simp only [Bool.or_eq_true, Bool.not_eq_true', not_or, Bool.not_eq_false,
      Option.any_eq_true, Bool.and_eq_true, decide_eq_true_eq] at hrows
    obtain ⟨⟨g, hg, ⟨hmedia, -⟩, -⟩, -⟩ := hrows
    exact ⟨⟨g, hg, hmedia⟩, rfl⟩

/-- The rows of a candidate go together. -/
theorem step_retired {m : Move} {s : Sweep} {next : Option SweepStage} {db : MediaDb}
    {a : MediaAsset} {g : UploadGrant} (hfree : w.Free) (hs : s ∈ w.sweeps)
    (hnext : next = none) (hg : w.db.grants.get? s.candidate.grantId = some g)
    (hmedia : g.mediaId = s.candidate.mediaId) (hretires : s.Retires g)
    (ha : w.db.assets.get? s.candidate.mediaId = some a) (hstate : a.state = .failed)
    (hkey : a.objectKey = none) (hqueue : db.queue = w.db.queue)
    (hgrants : ∀ id, db.grants.get? id =
      if id = s.candidate.grantId then none else w.db.grants.get? id)
    (hassets : ∀ id, db.assets.get? id =
      if id = s.candidate.mediaId then none else w.db.assets.get? id) :
    Step w m ((w.setDb db).advance s next) := by
  subst hnext
  refine ⟨rfl, Int.le_refl _, rfl, ?_, fun id => ?_, fun id => ?_, fun _ => .stays rfl, .stays rfl,
    ?_, fun _ h => .stays h⟩
  · change Grows _ _ db.queue
    rw [hqueue]
    exact .refl _
  · by_cases he : id = s.candidate.mediaId
    · exact .retired a hfree (he ▸ ha) hstate hkey ((hassets id).trans (if_pos he))
    · exact .stays ((hassets id).trans (if_neg he))
  · by_cases he : id = s.candidate.grantId
    · exact .retired g s a hfree hs (he ▸ hg) he.symm hmedia hretires (hmedia ▸ ha) hkey
        ((hgrants id).trans (if_pos he)) ((hassets _).trans (if_pos hmedia))
    · exact .stays ((hgrants id).trans (if_neg he))
  · intro s' hs'
    exact .stays (List.mem_of_mem_erase hs')

@[simp] theorem advance_db (s : Sweep) (next : Option SweepStage) : (w.advance s next).db = w.db := rfl

/-- A sweep that leaves its candidate. -/
theorem step_leaves (m : Move) (s : Sweep) : Step w m (w.advance s none) :=
  ⟨rfl, Int.le_refl _, rfl, .refl _, fun _ => .stays rfl, fun _ => .stays rfl, fun _ => .stays rfl,
    .stays rfl, fun _ h => .stays (List.mem_of_mem_erase h), fun _ h => .stays h⟩

theorem eraseGrant_eraseAsset_get? (db : MediaDb) (grantId mediaId : String) :
    (∀ id, ((db.eraseGrant grantId).eraseAsset mediaId).grants.get? id =
      if id = grantId then none else db.grants.get? id) ∧
    (∀ id, ((db.eraseGrant grantId).eraseAsset mediaId).assets.get? id =
      if id = mediaId then none else db.assets.get? id) :=
  ⟨fun _ => Dict.get?_erase .., fun _ => Dict.get?_erase ..⟩

/-- The database once the grant is closed. -/
def closed (db : MediaDb) (c : Candidate) (g : UploadGrant) : MediaDb :=
  if g.state ≠ .closed then db.setGrant c.grantId { g with state := .closed } else db

theorem closed_queue (db : MediaDb) (c : Candidate) (g : UploadGrant) :
    (closed db c g).queue = db.queue := by
  unfold closed
  split <;> rfl

theorem closed_assets (db : MediaDb) (c : Candidate) (g : UploadGrant) :
    (closed db c g).assets = db.assets := by
  unfold closed
  split <;> rfl

theorem closed_get? {db : MediaDb} {g : UploadGrant} (hg : db.grants.get? c.grantId = some g)
    (id : String) : (closed db c g).grants.get? id =
      if id = c.grantId then some { g with state := .closed } else db.grants.get? id := by
  unfold closed
  split
  · exact setGrant_get? ..
  · rename_i hclosed
    split
    · rename_i he
      rw [he, hg, ← not_not.mp hclosed]
    · rfl

/-- The first transaction of a sweep, past the fence of the grant. -/
theorem sweepCloses_fenced {db : MediaDb} {now : Int} {a : MediaAsset} {g : UploadGrant}
    (hview : lockedView db c = some (a, g)) (hfence : g.pastFence now = true) :
    sweepCloses db c now =
      match abandonVerdict (closed db c g) c a g with
      | .rowsOnly => (deleteAbandonedRows (closed db c g) c none).map (·, .rowsOnly)
      | verdict => .ok (closed db c g, verdict) := by
  simp only [sweepCloses, hview, hfence, Bool.not_true, Bool.false_eq_true, ↓reduceIte]
  rfl

/-- The first transaction of a sweep closes the grant; rows that name no original go at once. -/
theorem sweepCloses_eq {db db' : MediaDb} {now : Int} {verdict : AbandonVerdict}
    (h : sweepCloses db c now = .ok (db', verdict)) :
    ∃ a g, db.assets.get? c.mediaId = some a ∧ db.grants.get? c.grantId = some g ∧
      abandonVerdict (closed db c g) c a g = verdict ∧
      (verdict = .rowsOnly ∧ g.mediaId = c.mediaId ∧
          db' = ((closed db c g).eraseGrant c.grantId).eraseAsset c.mediaId ∨
        verdict ≠ .rowsOnly ∧ db' = closed db c g) := by
  obtain ⟨a, g, hview, hfence⟩ : ∃ a g, lockedView db c = some (a, g) ∧ g.pastFence now = true := by
    unfold sweepCloses at h
    split at h
    · cases h
    · rename_i a g hview
      split at h
      · cases h
      · rename_i hfence
        exact ⟨a, g, hview, by simpa using hfence⟩
  obtain ⟨ha, hg⟩ := lockedView_eq hview
  refine ⟨a, g, ha, hg, ?_⟩
  rw [sweepCloses_fenced hview hfence] at h
  split at h
  · rename_i hverdict
    obtain ⟨db₁, hdelete, h⟩ := map_eq_ok.mp h
    cases h
    obtain ⟨⟨g', hg', hmedia⟩, rfl⟩ := deleteAbandonedRows_eq hdelete
    rw [closed_get? hg, if_pos rfl] at hg'
    cases hg'
    exact ⟨hverdict, .inl ⟨rfl, hmedia, rfl⟩⟩
  · rename_i hverdict
    cases h
    exact ⟨rfl, .inr ⟨hverdict, rfl⟩⟩

theorem reconcileSettled_congr {db db' : MediaDb} (h : db'.queue = db.queue) (mediaId : String) :
    reconcileSettled db' mediaId = reconcileSettled db mediaId := by
  unfold reconcileSettled
  rw [h]

/-- Closing the grant of a candidate is all a sweep does to the rows it keeps. -/
theorem step_closed {m : Move} {s : Sweep} {g : UploadGrant} (next : Option SweepStage)
    (hg : w.db.grants.get? s.candidate.grantId = some g)
    (hnext : ∀ stage, next = some stage →
      SweepMoves w m ((w.setDb (closed w.db s.candidate g)).advance s next) { s with stage }) :
    Step w m ((w.setDb (closed w.db s.candidate g)).advance s next) := by
  refine ⟨rfl, Int.le_refl _, rfl, ?_, fun id => .stays ?_, ?_, fun _ => .stays rfl, .stays rfl, ?_,
    fun _ h => .stays h⟩
  · change Grows _ _ (closed w.db s.candidate g).queue
    rw [closed_queue]
    exact .refl _
  · change (closed w.db s.candidate g).assets.get? id = _
    rw [closed_assets]
  · exact grantMoves_state .closed hg (closed_get? hg)
  · intro s' hs'
    rcases List.mem_append.mp hs' with hs' | hs'
    · obtain ⟨stage, hstage, rfl⟩ := by simpa using hs'
      exact hnext stage hstage
    · exact .stays (List.mem_of_mem_erase hs')

theorem step_closes (s : Sweep) (stamp : Int) :
    Step w (.sweep (.closes s stamp)) (w.sweep (.closes s stamp)) := by
  unfold World.sweep
  dsimp only
  split
  · rename_i hcan
    simp only [Bool.and_eq_true, decide_eq_true_eq, Option.isNone_iff_eq_none] at hcan
    obtain ⟨⟨hs, hstage⟩, hfree⟩ := hcan
    split
    · rename_i db key hok
      obtain ⟨a, g, ha, hg, hverdict, hrows⟩ := sweepCloses_eq hok
      obtain ⟨hstate, hnone, hsettled, hkey⟩ := abandonVerdict_eq hverdict nofun
      obtain ⟨hobject, -⟩ | ⟨key', hobject, hdestination, hkey⟩ := hkey
      · cases hobject
      · cases hobject
        obtain ⟨hno, -⟩ | ⟨-, rfl⟩ := hrows
        · cases hno
        · refine step_closed _ hg fun stage hstage' => ?_
          cases hstage'
          rw [reconcileSettled_congr (closed_queue ..)] at hsettled
          exact .authorised s key a g hfree hs rfl hstage rfl hkey ha hstate hnone
            hsettled hg hdestination
    · rename_i db verdict hno hok
      obtain ⟨a, g, ha, hg, hverdict, ⟨rfl, hmedia, rfl⟩ | ⟨-, rfl⟩⟩ := sweepCloses_eq hok
      · obtain ⟨hstate, hnone, -, ⟨-, hdestination⟩ | ⟨key, hobject, -⟩⟩ :=
          abandonVerdict_eq hverdict nofun
        · obtain ⟨hgrants, hassets⟩ := eraseGrant_eraseAsset_get?
            (closed w.db s.candidate g) s.candidate.grantId s.candidate.mediaId
          refine step_retired hfree hs rfl hg hmedia (.inl ⟨hstage, hdestination⟩) ha hstate hnone
            (closed_queue ..) (fun id => ?_) fun id => ?_
          · rw [hgrants, closed_get? hg]
            split <;> rfl
          · rw [hassets, closed_assets]
        · cases hobject
      · exact step_closed none hg nofun
    · exact step_leaves ..
  · exact .refl ..

theorem step_retires (s : Sweep) (stamp : Int) :
    Step w (.sweep (.retires s stamp)) (w.sweep (.retires s stamp)) := by
  unfold World.sweep
  dsimp only
  split
  · rename_i key hstage
    split
    · rename_i hcan
      simp only [Bool.and_eq_true, decide_eq_true_eq, Option.isNone_iff_eq_none] at hcan
      obtain ⟨hs, hfree⟩ := hcan
      split
      · rename_i db hok
        unfold sweepRetires at hok
        split at hok
        · cases hok
        · rename_i a g hview
          obtain ⟨ha, hg⟩ := lockedView_eq hview
          split at hok
          · cases hok
          · split at hok
            · cases hok
            · rename_i hverdict
              obtain ⟨hstate, hnone, -, ⟨hno, -⟩ | ⟨key', hobject, hdestination, -⟩⟩ :=
                abandonVerdict_eq (not_not.mp hverdict) nofun
              · cases hno
              · cases hobject
                obtain ⟨⟨g', hg', hmedia⟩, rfl⟩ := deleteAbandonedRows_eq hok
                rw [hg] at hg'
                cases hg'
                obtain ⟨hgrants, hassets⟩ := eraseGrant_eraseAsset_get?
                  w.db s.candidate.grantId s.candidate.mediaId
                exact step_retired hfree hs rfl hg hmedia (.inr ⟨key, hstage, hdestination⟩) ha
                  hstate hnone rfl hgrants hassets
      · exact step_leaves ..
    · exact .refl ..
  · exact .refl ..

theorem step_selects (grantId : String) (stamp : Int) :
    Step w (.sweep (.selects grantId stamp)) (w.sweep (.selects grantId stamp)) := by
  unfold World.sweep
  dsimp only
  split
  · rename_i c hc
    split
    · rename_i hroom
      refine ⟨rfl, Int.le_refl _, rfl, .refl _, fun _ => .stays rfl, fun _ => .stays rfl,
        fun _ => .stays rfl, .stays rfl, ?_, fun _ h => .stays h⟩
      intro s hs
      rcases List.mem_cons.mp hs with rfl | hs
      · unfold candidate? at hc
        split at hc
        · rename_i g hg
          split at hc
          · cases hc
            exact .selected g hg rfl hroom rfl rfl
          · cases hc
        · cases hc
      · exact .stays hs
    · exact .refl ..
  · exact .refl ..

/-- A sweep has the store delete an object, and goes on if that resolves. -/
theorem step_deletes {m : Move} {s : Sweep} {key : String} {stage : SweepStage}
    (erasure : Erasure) (hobject : (w.eraseObject key erasure.gone).objects.get? key = none →
      ObjectMoves w (w.eraseObject key erasure.gone) key)
    (hsweep : erasure = .resolves → w.objects.erase key = (w.eraseObject key erasure.gone).objects →
      SweepMoves w m ((w.eraseObject key erasure.gone).advance s (some stage)) { s with stage }) :
    Step w m ((w.eraseObject key erasure.gone).advance s
      (if erasure = .resolves then some stage else none)) := by
  have hstep := step_eraseObject (m := m) erasure.gone hobject
  have hdb := eraseObject_db (w := w) key erasure.gone
  have hold : ∀ s' ∈ (w.eraseObject key erasure.gone).sweeps.erase s, s' ∈ w.sweeps := by
    intro s' hs'
    have := List.mem_of_mem_erase hs'
    unfold World.eraseObject at this
    split at this <;> exact this
  refine ⟨hstep.room, hstep.now, hstep.issued, hstep.queue,
    fun id => .stays (by rw [advance_db, hdb]), fun id => .stays (by rw [advance_db, hdb]),
    fun other => ?_, .stays ?_, ?_, hstep.copies⟩
  · rcases eraseObject_get? (w := w) key erasure.gone other with h | ⟨rfl, h⟩
    · exact .stays h
    · cases hobject h with
      | stays h => exact .stays h
      | put grantId g hg hnow hkey => exact .put grantId g hg hnow hkey
      | landed copy g notAfter hcopy hg hfence hnow hkey habsent =>
        exact .landed copy g notAfter hcopy hg hfence hnow hkey habsent
      | sweptGrant grantId g hg hkey h => exact .sweptGrant grantId g hg hkey h
      | swept s hs hkey h => exact .swept s hs hkey h
      | erased s hs hstage h => exact .erased s hs hstage h
  · unfold World.eraseObject
    split <;> rfl
  · intro s' hs'
    cases erasure with
    | throws gone => exact .stays (hold s' hs')
    | resolves =>
      rcases List.mem_append.mp hs' with hs' | hs'
      · obtain rfl : s' = { s with stage } := by simpa using hs'
        exact hsweep rfl rfl
      · exact .stays (hold s' hs')

theorem step_sweeps (s : Sweep) (erasure : Erasure) :
    Step w (.sweep (.sweeps s erasure)) (w.sweep (.sweeps s erasure)) := by
  unfold World.sweep
  dsimp only
  split
  · rename_i hcan
    simp only [Bool.and_eq_true, decide_eq_true_eq] at hcan
    refine step_deletes erasure (fun h => .swept s hcan.1 rfl h) fun hresolves hgone => ?_
    subst hresolves
    refine .swept s rfl hcan.1 rfl hcan.2 rfl ?_ ?_
    · change (w.eraseObject _ _).objects.get? _ = none
      rw [← hgone]
      simp [Dict.get?_erase]
    · unfold World.eraseObject
      split <;> rfl
  · exact .refl ..

theorem step_erases (s : Sweep) (erasure : Erasure) :
    Step w (.sweep (.erases s erasure)) (w.sweep (.erases s erasure)) := by
  unfold World.sweep
  dsimp only
  split
  · rename_i key hstage
    split
    · rename_i hs
      refine step_deletes erasure (fun h => .erased s hs hstage h) fun hresolves hgone => ?_
      subst hresolves
      refine .erased s key rfl hs rfl hstage rfl ?_ ?_
      · change (w.eraseObject _ _).objects.get? _ = none
        rw [← hgone]
        simp [Dict.get?_erase]
      · unfold World.eraseObject
        split <;> rfl
    · exact .refl ..
  · exact .refl ..

end Sweeps

theorem act_step (w : World) (m : Move) : Step w m (w.act m) := by
  cases m with
  | tick d => exact step_tick d
  | put grantId object => exact step_put grantId object
  | land copy => exact step_land copy
  | finalize step => exact step_finalize step
  | reconcile assertion refusal r reachable erasure clock jobId stamp =>
    exact step_reconcile assertion refusal r reachable erasure clock jobId stamp
  | outcome assertion refusal o => exact step_outcome assertion refusal o
  | sweep step =>
    cases step with
    | selects grantId stamp => exact step_selects grantId stamp
    | sweeps s erasure => exact step_sweeps s erasure
    | closes s stamp => exact step_closes s stamp
    | erases s erasure => exact step_erases s erasure
    | retires s stamp => exact step_retires s stamp
  | worker call => exact step_worker call

end LearningOrbit.Media
