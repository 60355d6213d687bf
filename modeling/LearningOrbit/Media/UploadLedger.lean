import LearningOrbit.Media.UploadSteps

/-!
# The ledger of a room's uploads

What the rows of a room say about each other while calls, jobs and sweeps are under way.
-/

namespace LearningOrbit.Media

open LearningOrbit (Dict)
open LearningOrbit.Jobs (Queue JobRow NewJob Grows DedupeUnique)

/-! ## Keys -/

theorem append_toList_inj {a b c : String} (h : a ++ b = a ++ c) : b = c := by
  apply String.toList_injective
  have := congrArg String.toList h
  simpa only [String.toList_append, List.append_cancel_left_eq] using this

theorem stagingKey_inj {roomId a b : String} (h : stagingKey roomId a = stagingKey roomId b) :
    a = b :=
  append_toList_inj h

theorem originalKey_inj {roomId a b : String} (h : originalKey roomId a = originalKey roomId b) :
    a = b :=
  append_toList_inj h

theorem stagingKey_ne_originalKey (roomId a b : String) : stagingKey roomId a ≠ originalKey roomId b := by
  intro h
  unfold stagingKey originalKey at h
  simp only [String.append_assoc] at h
  have := congrArg String.toList (append_toList_inj (append_toList_inj h))
  simp [String.toList_append] at this

/-! ## The invariant -/

/-- The promotion a finalize call has recorded. -/
def FinalizeStage.intent? : FinalizeStage → Option PromotionIntent
  | .locked | .staged _ => none
  | .intended intent | .fenced intent | .copied intent | .checked intent _ => some intent

/-- The grant records this promotion of the media. -/
structure Intends (w : World) (mediaId : String) (intent : PromotionIntent) (g : UploadGrant) :
    Prop where
  grant : w.db.grants.get? intent.grantId = some g
  media : g.mediaId = mediaId
  promised : g.promotionSha256 = some intent.promotionSha256
  destination : g.promotionDestinationKey = some (originalKey w.roomId mediaId)
  key : intent.promotionDestinationKey = originalKey w.roomId mediaId

/-- What a finalize call read is still so: nothing else writes the asset while it holds the lock. -/
structure Holding (w : World) (f : Finalizing) : Prop where
  asset : w.db.assets.get? f.mediaId = some f.locked.record
  state : f.locked.record.state = .uploadPending
  intent : ∀ intent, f.stage.intent? = some intent → ∃ g, Intends w f.mediaId intent g

def ReconcileOver (q : Queue) (mediaId : String) : Prop :=
  ∀ id row, q.jobs.get? id = some row → row.jobType = "media.reconcile-upload.v1" →
    row.dedupeKey = "media.reconcile-upload.v1:" ++ mediaId → row.status.terminal = true

/-- An upload nobody can bring back: its asset failed or is gone, and so is its reconcile job. -/
structure GivenUp (w : World) (mediaId : String) : Prop where
  asset : ∀ a, w.db.assets.get? mediaId = some a → a.state = .failed ∧ a.objectKey = none
  ended : ReconcileOver w.db.queue mediaId

/-- The original a sweep may erase. -/
def SweepStage.original? : SweepStage → Option String
  | .selected | .swept => none
  | .authorised key | .erased key => some key

structure Sweeping (w : World) (s : Sweep) : Prop where
  room : s.candidate.roomId = w.roomId
  key : s.candidate.objectKey = stagingKey w.roomId s.candidate.grantId
  media : ∀ g, w.db.grants.get? s.candidate.grantId = some g → g.mediaId = s.candidate.mediaId
  original : ∀ key, s.stage.original? = some key →
    key = originalKey w.roomId s.candidate.mediaId ∧ GivenUp w s.candidate.mediaId

/-- A media job names its media twice. -/
def JobsNamed (q : Queue) : Prop :=
  ∀ id row, q.jobs.get? id = some row →
    row.jobType = "media.process.v1" ∨ row.jobType = "media.reconcile-upload.v1" →
    ∃ mediaId, row.payload.get? "mediaId" = some (.text mediaId) ∧
      row.dedupeKey = row.jobType ++ ":" ++ mediaId

/-- A grant names its own staging key, and if it records a promotion the original of its media. -/
structure GrantNamed (roomId id : String) (g : UploadGrant) : Prop where
  objectKey : g.objectKey = stagingKey roomId id
  promotion : g.promotionDestinationKey = none ∧ g.promotionWriteNotAfter = none ∨
    g.promotionDestinationKey = some (originalKey roomId g.mediaId)

structure Ledger (w : World) : Prop where
  grants : ∀ id g, w.db.grants.get? id = some g → GrantNamed w.roomId id g
  unique : ∀ id id' g g', w.db.grants.get? id = some g → w.db.grants.get? id' = some g' →
    g.mediaId = g'.mediaId → id = id'
  assets : ∀ mediaId a, w.db.assets.get? mediaId = some a →
    a.objectKey = none ∨ a.objectKey = some (originalKey w.roomId mediaId)
  holds : ∀ f, w.holder = some (.finalize f) → Holding w f
  sweeps : ∀ s ∈ w.sweeps, Sweeping w s
  jobs : JobsNamed w.db.queue
  dedupe : DedupeUnique w.db.queue

/-! ## One step -/

section Steps

variable {w w' : World} {m : Move}

theorem GrantMoves.media {id : String} {g' : UploadGrant} (h : GrantMoves w w' id)
    (hg' : w'.db.grants.get? id = some g') :
    ∃ g, w.db.grants.get? id = some g ∧ g'.mediaId = g.mediaId := by
  cases h with
  | stays h => exact ⟨g', h ▸ hg', rfl⟩
  | written g g₁ hg hsame h =>
    rw [h] at hg'
    cases hg'
    exact ⟨g, hg, hsame.mediaId⟩
  | intended f staging g window hholder hstage hg hmedia h =>
    rw [h] at hg'
    cases hg'
    exact ⟨g, hg, rfl⟩
  | fenced f intent g window hholder hstage hg hid h =>
    rw [h] at hg'
    cases hg'
    exact ⟨g, hg, rfl⟩
  | retired g s a hfree hs hg hid hmedia hretires ha hkey h ha' =>
    rw [h] at hg'
    cases hg'

theorem Ledger.grants_step (hl : Ledger w) (h : Step w m w') :
    ∀ id g, w'.db.grants.get? id = some g → GrantNamed w'.roomId id g := by
  intro id g' hg'
  rw [h.room]
  cases h.grant id with
  | stays hsame => exact hl.grants id g' (hsame ▸ hg')
  | written g g₁ hg hsame h =>
    rw [h] at hg'
    cases hg'
    have hn := hl.grants id g hg
    constructor
    · rw [hsame.objectKey, hn.objectKey]
    · rw [hsame.promotionDestinationKey, hsame.promotionWriteNotAfter, hsame.mediaId]
      exact hn.promotion
  | intended f staging g window hholder hstage hg hmedia h =>
    rw [h] at hg'
    cases hg'
    exact ⟨(hl.grants id g hg).objectKey, .inr (by simp [UploadGrant.intends, hmedia])⟩
  | fenced f intent g window hholder hstage hg hid h =>
    rw [h] at hg'
    cases hg'
    refine ⟨(hl.grants id g hg).objectKey, .inr ?_⟩
    -- The call has recorded its promotion before it extends the fence.
    obtain ⟨g₁, hi⟩ := (hl.holds f hholder).intent intent (by rw [hstage]; rfl)
    have hg₁ := hi.grant
    rw [← hid, hg] at hg₁
    cases hg₁
    rw [← hi.media] at hi
    exact hi.destination
  | retired g s a hfree hs hg hid hmedia hretires ha hkey h ha' =>
    rw [h] at hg'
    cases hg'

theorem Ledger.unique_step (hl : Ledger w) (h : Step w m w') :
    ∀ id id' g g', w'.db.grants.get? id = some g → w'.db.grants.get? id' = some g' →
      g.mediaId = g'.mediaId → id = id' := by
  intro id id' g g' hg hg' he
  obtain ⟨g₁, hg₁, hm₁⟩ := (h.grant id).media hg
  obtain ⟨g₂, hg₂, hm₂⟩ := (h.grant id').media hg'
  exact hl.unique id id' g₁ g₂ hg₁ hg₂ (by rw [← hm₁, he, hm₂])

theorem Ledger.assets_step (hl : Ledger w) (h : Step w m w') :
    ∀ mediaId a, w'.db.assets.get? mediaId = some a →
      a.objectKey = none ∨ a.objectKey = some (originalKey w'.roomId mediaId) := by
  intro mediaId a' ha'
  rw [h.room]
  cases h.asset mediaId with
  | stays hsame => exact hl.assets mediaId a' (hsame ▸ ha')
  | committed f intent immutable a hholder hstage hmedia ha hstate hobjects hreleased h =>
    rw [h] at ha'
    cases ha'
    obtain ⟨g, hi⟩ := (hl.holds f hholder).intent intent (by rw [hstage]; rfl)
    rw [hmedia] at hi
    exact .inr (congrArg some hi.key)
  | settled _ _ r _ _ _ _ _ a grantId g key object hmove hmedia hrecorded hstat hsize hobjects h =>
    rw [h] at ha'
    cases ha'
    rcases (hl.grants grantId g hrecorded.grant).promotion with ⟨hno, -⟩ | hkey
    · rw [hrecorded.destination] at hno
      cases hno
    · rw [hrecorded.destination, hrecorded.media, hmedia] at hkey
      exact .inr hkey
  | failed _ _ r _ _ _ _ _ a grantId g key sha256 code hmove hmedia hrecorded hlost h =>
    rw [h] at ha'
    cases ha'
    exact hl.assets mediaId a (hmedia ▸ hrecorded.asset)
  | reported a o hfree ha hadmissible h =>
    rw [h] at ha'
    cases ha'
    exact hl.assets mediaId a ha
  | retired a hfree ha hstate hkey h =>
    rw [h] at ha'
    cases ha'

theorem mediaJob_named (jobType roomId mediaId correlationId jobId : String) (now : Int) :
    (mediaJob jobType roomId mediaId correlationId jobId now).payload.get? "mediaId" =
        some (.text mediaId) ∧
      (mediaJob jobType roomId mediaId correlationId jobId now).dedupeKey =
        jobType ++ ":" ++ mediaId :=
  ⟨Dict.get?_set_self .., rfl⟩

theorem Ledger.jobs_step (hl : Ledger w) (h : Step w m w') : JobsNamed w'.db.queue := by
  intro id row' hrow' htype
  rcases h.queue.cases hrow' with ⟨row, hrow, hsame, -⟩ | ⟨-, job, hck, hinserts, -, hsame⟩
  · rw [hsame.jobType] at htype ⊢
    rw [hsame.payload, hsame.dedupeKey]
    exact hl.jobs id row hrow htype
  · rw [hsame.payload, hsame.dedupeKey, hsame.jobType]
    obtain ⟨mediaId, correlationId, jobId, now, rfl | ⟨-, rfl⟩⟩ := hinserts
    · exact ⟨mediaId, mediaJob_named _ w.roomId mediaId correlationId jobId now⟩
    · exact ⟨mediaId, mediaJob_named _ w.roomId mediaId correlationId jobId now⟩

/-- No reconcile request of such an upload passes. -/
theorem GivenUp.not_live {mediaId : String} (hl : Ledger w) (hu : GivenUp w mediaId) :
    ¬ LiveReconcile w mediaId := by
  rintro ⟨id, row, hrow, htype, hpayload, hlive⟩
  obtain ⟨mediaId', hpayload', hkey⟩ := hl.jobs id row hrow (.inr htype)
  rw [hpayload] at hpayload'
  cases hpayload'
  rw [htype] at hkey
  rw [hu.ended id row hrow htype hkey] at hlive
  cases hlive

/-- Nor is a finalize call under way for it. -/
theorem GivenUp.not_held {mediaId : String} {f : Finalizing} (hl : Ledger w)
    (hu : GivenUp w mediaId) (hholder : w.holder = some (.finalize f)) : f.mediaId ≠ mediaId := by
  rintro rfl
  have hholding := hl.holds f hholder
  have hfailed := (hu.asset _ hholding.asset).1
  rw [hholding.state] at hfailed
  cases hfailed

theorem dedupeKey_inj {jobType a b : String} (h : jobType ++ ":" ++ a = jobType ++ ":" ++ b) :
    a = b :=
  append_toList_inj h

theorem GivenUp.step {mediaId : String} (hl : Ledger w) (hu : GivenUp w mediaId)
    (h : Step w m w') : GivenUp w' mediaId := by
  constructor
  · intro a' ha'
    cases h.asset mediaId with
    | stays hsame => exact hu.asset a' (hsame ▸ ha')
    | committed f intent immutable a hholder hstage hmedia ha hstate hobjects hreleased h =>
      exact absurd hmedia (hu.not_held hl hholder)
    | settled _ _ r _ _ _ _ _ a grantId g key object hmove hmedia hrecorded hstat hsize hobjects h =>
      exact absurd (hmedia ▸ hrecorded.live) (hu.not_live hl)
    | failed _ _ r _ _ _ _ _ a grantId g key sha256 code hmove hmedia hrecorded hlost h =>
      exact absurd (hmedia ▸ hrecorded.live) (hu.not_live hl)
    | reported a o hfree ha hadmissible h =>
      rw [(hu.asset a ha).1] at hadmissible
      cases hadmissible
    | retired a hfree ha hstate hkey h =>
      rw [h] at ha'
      cases ha'
  · intro id row' hrow' htype hkey
    rcases h.queue.cases hrow' with ⟨row, hrow, hsame, hterminal⟩ |
      ⟨-, job, hck, hinserts, -, hsame⟩
    · rw [hsame.jobType] at htype
      rw [hsame.dedupeKey] at hkey
      exact hterminal (hu.ended id row hrow htype hkey)
    · obtain ⟨mediaId', correlationId, jobId, now, rfl | ⟨⟨f, hholder, hf⟩, rfl⟩⟩ := hinserts
      · have hprocess : "media.process.v1" = "media.reconcile-upload.v1" :=
          hsame.jobType.symm.trans htype
        exact absurd hprocess (by decide)
      · rw [hsame.dedupeKey] at hkey
        exact absurd (hf.trans (dedupeKey_inj hkey)) (hu.not_held hl hholder)

/-- While a call holds the lock and keeps it, its asset stays as it is. -/
theorem asset_held {f : Finalizing} (h : Step w m w') (hholder : w.holder = some (.finalize f))
    (hholder' : w'.holder ≠ none) (mediaId : String) :
    w'.db.assets.get? mediaId = w.db.assets.get? mediaId := by
  have hheld : ¬ w.Free := by simp [World.Free, hholder]
  cases h.asset mediaId with
  | stays hsame => exact hsame
  | committed _ _ _ _ _ _ _ _ _ _ hreleased _ => exact absurd hreleased hholder'
  | settled _ _ _ _ _ _ _ _ _ _ _ _ _ _ _ hrecorded _ _ _ _ => exact absurd hrecorded.free hheld
  | failed _ _ _ _ _ _ _ _ _ _ _ _ _ _ _ _ hrecorded _ _ => exact absurd hrecorded.free hheld
  | reported _ _ hfree _ _ _ => exact absurd hfree hheld
  | retired _ hfree _ _ _ _ => exact absurd hfree hheld

/-- A recorded promotion stays recorded while its call goes on. -/
theorem Intends.step {f : Finalizing} {intent : PromotionIntent} {g : UploadGrant}
    (hi : Intends w f.mediaId intent g) (h : Step w m w')
    (hholder : w.holder = some (.finalize f)) (hstage : f.stage.intent? = some intent) :
    ∃ g', Intends w' f.mediaId intent g' := by
  have hroom := h.room
  cases h.grant intent.grantId with
  | stays hsame =>
    exact ⟨g, hsame ▸ hi.grant, hi.media, hi.promised, hroom ▸ hi.destination, hroom ▸ hi.key⟩
  | written g₀ g' hg hsame h =>
    rw [hi.grant] at hg
    cases hg
    exact ⟨g', h, hsame.mediaId.trans hi.media, hsame.promotionSha256.trans hi.promised,
      hsame.promotionDestinationKey.trans (hroom ▸ hi.destination), hroom ▸ hi.key⟩
  | intended f₁ staging g₀ window hholder₁ hstage₁ hg hmedia h =>
    rw [hholder] at hholder₁
    cases hholder₁
    rw [hstage₁] at hstage
    cases hstage
  | fenced f₁ intent₁ g₀ window hholder₁ hstage₁ hg hid h =>
    rw [hi.grant] at hg
    cases hg
    exact ⟨_, h, hi.media, hi.promised, hroom ▸ hi.destination, hroom ▸ hi.key⟩
  | retired g₀ s a hfree hs hg hid hmedia hretires ha hkey h ha' =>
    rw [World.Free, hholder] at hfree
    cases hfree

/-- The call goes on, with a promotion it had recorded before. -/
theorem Holding.goes {f f' : Finalizing} (hh : Holding w f) (h : Step w m w')
    (hholder : w.holder = some (.finalize f)) (hholder' : w'.holder = some (.finalize f'))
    (hmedia : f'.mediaId = f.mediaId) (hlocked : f'.locked = f.locked)
    (hintent : ∀ intent, f'.stage.intent? = some intent → f.stage.intent? = some intent) :
    Holding w' f' := by
  constructor
  · rw [asset_held h hholder (by simp [hholder']), hmedia, hlocked]
    exact hh.asset
  · rw [hlocked]
    exact hh.state
  · intro intent hstage
    obtain ⟨g, hi⟩ := hh.intent intent (hintent intent hstage)
    rw [hmedia]
    exact hi.step h hholder (hintent intent hstage)

theorem Ledger.holds_step (hl : Ledger w) (h : Step w m w') :
    ∀ f, w'.holder = some (.finalize f) → Holding w' f := by
  intro f' hf'
  cases h.holder with
  | stays hsame =>
    rw [hsame] at hf'
    exact (hl.holds f' hf').goes h hf' (hsame ▸ hf') rfl rfl fun _ hi => hi
  | released hr =>
    rw [hr] at hf'
    cases hf'
  | locked f hfree hstage ha hstate hg hmedia hdb hr =>
    rw [hr] at hf'
    cases hf'
    refine ⟨by rw [hdb]; exact ha, hstate, fun intent hi => ?_⟩
    rw [hstage] at hi
    cases hi
  | staged f staging hholder hr =>
    rw [hr] at hf'
    cases hf'
    exact (hl.holds f hholder).goes h hholder hr rfl rfl nofun
  | intended f staging intent g window hholder hg hmedia hkey hsha hg' hr =>
    rw [hr] at hf'
    cases hf'
    have hh := hl.holds f hholder
    refine ⟨(asset_held h hholder (by simp [hr]) _).trans hh.asset, hh.state, ?_⟩
    intro intent' hi
    cases hi
    refine ⟨_, hg', hmedia, ?_, ?_, ?_⟩
    · rw [hsha]
      rfl
    · rw [h.room]
      rfl
    · rw [h.room, hkey]
  | fenced f intent hholder hstage hr =>
    rw [hr] at hf'
    cases hf'
    refine (hl.holds f hholder).goes h hholder hr rfl rfl fun _ hi => ?_
    rw [hstage]
    exact hi
  | copied f intent hholder hstage hr =>
    rw [hr] at hf'
    cases hf'
    refine (hl.holds f hholder).goes h hholder hr rfl rfl fun _ hi => ?_
    rw [hstage]
    exact hi
  | checked f intent immutable hholder hstage hobject hobjects hsha hsize hr =>
    rw [hr] at hf'
    cases hf'
    refine (hl.holds f hholder).goes h hholder hr rfl rfl fun _ hi => ?_
    rw [hstage]
    exact hi

theorem reconcileSettled_over {q : Queue} {db : MediaDb} {mediaId : String} (hq : db.queue = q)
    (h : reconcileSettled db mediaId = true) : ReconcileOver q mediaId := by
  intro id row hrow htype hkey
  unfold reconcileSettled at h
  rw [List.all_eq_true] at h
  have := h row (Dict.mem_values.mpr ⟨id, hq ▸ hrow⟩)
  simpa [htype, hkey] using this

/-- A sweep goes on with its candidate. -/
theorem Sweeping.goes {s s₀ : Sweep} (hl : Ledger w) (hw : Sweeping w s₀) (h : Step w m w')
    (hc : s.candidate = s₀.candidate) (horiginal : ∀ key, s.stage.original? = some key →
      key = originalKey w.roomId s.candidate.mediaId ∧ GivenUp w s.candidate.mediaId) :
    Sweeping w' s := by
  constructor
  · rw [hc, h.room, hw.room]
  · rw [hc, h.room, hw.key]
  · intro g' hg'
    rw [hc] at hg' ⊢
    obtain ⟨g, hg, he⟩ := (h.grant _).media hg'
    rw [he, hw.media g hg]
  · intro key hkey
    obtain ⟨hk, hu⟩ := horiginal key hkey
    exact ⟨h.room ▸ hk, hu.step hl h⟩

theorem Ledger.sweeps_step (hl : Ledger w) (h : Step w m w') : ∀ s ∈ w'.sweeps, Sweeping w' s := by
  intro s hs
  cases h.sweeps s hs with
  | stays hs => exact (hl.sweeps s hs).goes hl h rfl (hl.sweeps s hs).original
  | selected g hg hm hr hkey hstage =>
    have hw : Sweeping w s := by
      refine ⟨hr, by rw [hkey, (hl.grants _ g hg).objectKey], fun g' hg' => ?_, ?_⟩
      · rw [hg] at hg'
        cases hg'
        exact hm.symm
      · rw [hstage]
        nofun
    exact hw.goes hl h rfl hw.original
  | swept s₀ hmove hs₀ hc hstage₀ hstage hgone hnow =>
    refine (hl.sweeps s₀ hs₀).goes hl h hc ?_
    rw [hstage]
    nofun
  | authorised s₀ key a g hfree hs₀ hc hstage₀ hstage hkey ha hstate hnone hsettled hg hdestination =>
    refine (hl.sweeps s₀ hs₀).goes hl h hc ?_
    rw [hstage]
    rintro _ ⟨⟩
    have hroom : s.candidate.roomId = w.roomId := by rw [hc, (hl.sweeps s₀ hs₀).room]
    refine ⟨hroom ▸ hkey, ?_, reconcileSettled_over rfl hsettled⟩
    intro a' ha'
    rw [ha] at ha'
    cases ha'
    exact ⟨hstate, hnone⟩
  | erased s₀ key hmove hs₀ hc hstage₀ hstage hgone hnow =>
    refine (hl.sweeps s₀ hs₀).goes hl h hc ?_
    rw [hstage, hc]
    rintro _ ⟨⟩
    exact (hl.sweeps s₀ hs₀).original key (by rw [hstage₀]; rfl)

theorem Ledger.step (hl : Ledger w) (h : Step w m w') : Ledger w' where
  grants := hl.grants_step h
  unique := hl.unique_step h
  assets := hl.assets_step h
  holds := hl.holds_step h
  sweeps := hl.sweeps_step h
  jobs := hl.jobs_step h
  dedupe := hl.dedupe.grows h.queue

theorem Ledger.record (hl : Ledger w) : Ledger w.record where
  grants := hl.grants
  unique := hl.unique
  assets := hl.assets
  holds := fun f hf =>
    ⟨(hl.holds f hf).asset, (hl.holds f hf).state, fun intent hi =>
      let ⟨g, h⟩ := (hl.holds f hf).intent intent hi
      ⟨g, h.grant, h.media, h.promised, h.destination, h.key⟩⟩
  sweeps := fun s hs =>
    ⟨(hl.sweeps s hs).room, (hl.sweeps s hs).key, (hl.sweeps s hs).media, fun key hk =>
      let ⟨he, hu⟩ := (hl.sweeps s hs).original key hk
      ⟨he, hu.asset, hu.ended⟩⟩
  jobs := hl.jobs
  dedupe := hl.dedupe

theorem Ledger.move (hl : Ledger w) (m : Move) : Ledger (w.move m) :=
  (hl.step (act_step w m)).record

theorem Ledger.run (hl : Ledger w) (moves : List Move) : Ledger (w.run moves) := by
  induction moves generalizing w with
  | nil => exact hl
  | cons m moves ih => exact ih (hl.move m)

/-- Every grant that was ever there is remembered as its row last was. -/
structure Remembered (w : World) : Prop where
  named : ∀ id g, w.issued id = some g → GrantNamed w.roomId id g
  current : ∀ id g, w.db.grants.get? id = some g → w.issued id = some g

theorem Remembered.move (hr : Remembered w) (hl : Ledger w) (m : Move) :
    Remembered (w.move m) := by
  have hstep := act_step w m
  have hl' : Ledger (w.act m) := hl.step hstep
  constructor
  · intro id g hg
    rcases Option.or_eq_some_iff.mp hg with hg | ⟨-, hg⟩
    · exact hl'.grants id g hg
    · rw [hstep.issued] at hg
      exact hstep.room ▸ hr.named id g hg
  · intro id g hg
    exact Option.or_eq_some_iff.mpr (.inl hg)

end Steps

/-! ## Where runs begin -/

/-- Uploads have been granted and nothing else has happened. -/
structure Granted (w : World) : Prop where
  assets : ∀ mediaId a, w.db.assets.get? mediaId = some a →
    a.state = .uploadPending ∧ a.objectKey = none
  grants : ∀ id g, w.db.grants.get? id = some g → g.objectKey = stagingKey w.roomId id ∧
    g.promotionSha256 = none ∧ g.promotionDestinationKey = none ∧ g.promotionWriteNotAfter = none
  unique : ∀ id id' g g', w.db.grants.get? id = some g → w.db.grants.get? id' = some g' →
    g.mediaId = g'.mediaId → id = id'
  issued : w.issued = w.db.grants.get?
  objects : w.objects = .empty
  holder : w.holder = none
  copies : w.copies = []
  sweeps : w.sweeps = []
  jobs : JobsNamed w.db.queue
  dedupe : DedupeUnique w.db.queue

theorem Granted.remembered {w : World} (h : Granted w) : Remembered w := by
  constructor
  · intro id g hg
    rw [h.issued] at hg
    exact ⟨(h.grants id g hg).1, .inl (h.grants id g hg).2.2⟩
  · intro id g hg
    rw [h.issued]
    exact hg

theorem Granted.ledger {w : World} (h : Granted w) : Ledger w where
  grants := fun id g hg => ⟨(h.grants id g hg).1, .inl (h.grants id g hg).2.2⟩
  unique := h.unique
  assets := fun mediaId a ha => .inl (h.assets mediaId a ha).2
  holds := fun f hf => by
    rw [h.holder] at hf
    cases hf
  sweeps := fun s hs => by
    rw [h.sweeps] at hs
    cases hs
  jobs := h.jobs
  dedupe := h.dedupe

end LearningOrbit.Media
