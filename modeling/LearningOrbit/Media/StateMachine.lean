import LearningOrbit.Media.UploadLedger

/-!
# The states of a media asset

Two transactions commit a promotion. The one of `finalizeUpload` asks for an upload that is
still pending; the reconcile route asks only that the asset is not promoted already, and so
takes a quarantined or failed one back to `uploaded`.
-/

namespace LearningOrbit.Media

open LearningOrbit (Dict)
open LearningOrbit.Jobs (Queue JobRow)

/-! ## The object of a promoted asset -/

/-- A promoted asset names an object with the hash its grant records and the declared size. -/
def Promoted (w : World) (mediaId : String) (a : MediaAsset) : Prop :=
  ∃ grantId g object, w.db.grants.get? grantId = some g ∧ g.mediaId = mediaId ∧
    a.objectKey = some (originalKey w.roomId mediaId) ∧
    w.objects.get? (originalKey w.roomId mediaId) = some object ∧
    g.promotionSha256 = some object.sha256 ∧ object.sizeBytes = a.sizeBytes

/-- The object a finalize call has checked is still there. -/
def Checked (w : World) : Prop :=
  ∀ f intent immutable, w.holder = some (.finalize f) → f.stage = .checked intent immutable →
    w.objects.get? intent.promotionDestinationKey = some immutable ∧
      immutable.sha256 = intent.promotionSha256 ∧
      immutable.sizeBytes = f.locked.record.sizeBytes

structure Backed (w : World) : Prop where
  promoted : ∀ mediaId a, w.db.assets.get? mediaId = some a → a.state.promoted = true →
    Promoted w mediaId a
  checked : Checked w

section Steps

variable {w w' : World} {m : Move}

/-- An original that is there stays, unless a sweep gave its upload up. -/
theorem original_stays {mediaId : String} {object : StoredObject} (hl : Ledger w)
    (hr : Remembered w)
    (h : Step w m w') (hu : ¬ GivenUp w mediaId)
    (hobject : w.objects.get? (originalKey w.roomId mediaId) = some object) :
    w'.objects.get? (originalKey w.roomId mediaId) = some object := by
  cases h.object (originalKey w.roomId mediaId) with
  | stays hsame => rw [hsame, hobject]
  | put id g hg hnow hkey =>
    rw [(hr.named id g hg).objectKey] at hkey
    exact absurd hkey.symm (stagingKey_ne_originalKey _ _ _)
  | landed copy g notAfter hcopy hg hfence hnow hkey habsent =>
    rw [hobject] at habsent
    cases habsent
  | sweptGrant id g hg hkey hgone =>
    rw [(hl.grants id g hg).objectKey] at hkey
    exact absurd hkey.symm (stagingKey_ne_originalKey _ _ _)
  | swept s hs hkey hgone =>
    rw [(hl.sweeps s hs).key] at hkey
    exact absurd hkey.symm (stagingKey_ne_originalKey _ _ _)
  | erased s hs hstage hgone =>
    obtain ⟨hkey, hgiven⟩ := (hl.sweeps s hs).original _ (by rw [hstage]; rfl)
    rw [originalKey_inj hkey] at hu
    exact absurd hgiven hu

theorem not_givenUp {mediaId : String} {a : MediaAsset}
    (ha : w.db.assets.get? mediaId = some a) (hstate : a.state ≠ .failed) : ¬ GivenUp w mediaId :=
  fun hu => hstate (hu.asset a ha).1

/-- A promoted asset stays backed as long as it is there. -/
theorem Promoted.step {mediaId : String} {a a' : MediaAsset} (hl : Ledger w) (hr : Remembered w)
    (hp : Promoted w mediaId a) (h : Step w m w') (ha : w.db.assets.get? mediaId = some a)
    (hstate : a.state.promoted = true) (ha' : w'.db.assets.get? mediaId = some a')
    (hkey : a'.objectKey = a.objectKey) (hsize : a'.sizeBytes = a.sizeBytes) :
    Promoted w' mediaId a' := by
  obtain ⟨id, g, object, hg, hmedia, hname, hobject, hsha, hbytes⟩ := hp
  have hu : ¬ GivenUp w mediaId := by
    apply not_givenUp ha
    intro hfailed
    rw [hfailed] at hstate
    cases hstate
  have hobject' := original_stays hl hr h hu hobject
  have hgrant : ∃ g', w'.db.grants.get? id = some g' ∧ g'.mediaId = mediaId ∧
      g'.promotionSha256 = some object.sha256 := by
    cases h.grant id with
    | stays hsame => exact ⟨g, hsame.trans hg, hmedia, hsha⟩
    | written g₀ g' hg₀ hsame hg' =>
      rw [hg] at hg₀
      cases hg₀
      exact ⟨g', hg', hsame.mediaId.trans hmedia, hsame.promotionSha256.trans hsha⟩
    | intended f staging g₀ window hholder hstage hg₀ hf hg' =>
      rw [hg] at hg₀
      cases hg₀
      -- A call that holds the lock has a pending upload.
      have hh := hl.holds f hholder
      have hasset := hh.asset
      rw [← hf, hmedia, ha] at hasset
      cases hasset
      rw [hh.state] at hstate
      cases hstate
    | fenced f intent g₀ window hholder hstage hg₀ hid hg' =>
      rw [hg] at hg₀
      cases hg₀
      exact ⟨_, hg', hmedia, hsha⟩
    | retired g₀ s a₀ hfree hs hg₀ hid hm hretires ha₀ hnone hg' hgone =>
      rw [hg] at hg₀
      cases hg₀
      rw [hmedia, ha'] at hgone
      cases hgone
  obtain ⟨g', hg', hmedia', hsha'⟩ := hgrant
  refine ⟨id, g', object, hg', hmedia', ?_, ?_, hsha', hsize ▸ hbytes⟩
  · rw [hkey, h.room, hname]
  · rw [h.room, hobject']

theorem Backed.promoted_step (hl : Ledger w) (hr : Remembered w) (hb : Backed w)
    (h : Step w m w') : ∀ mediaId a, w'.db.assets.get? mediaId = some a →
      a.state.promoted = true → Promoted w' mediaId a := by
  intro mediaId a' ha' hstate'
  cases h.asset mediaId with
  | stays hsame =>
    have ha := hsame ▸ ha'
    exact (hb.promoted mediaId a' ha hstate').step hl hr h ha hstate' ha' rfl rfl
  | committed f intent immutable a hholder hstage hmedia ha hstate hobjects hreleased hnew =>
    rw [hnew] at ha'
    cases ha'
    subst hmedia
    have hh := hl.holds f hholder
    obtain ⟨g, hi⟩ := hh.intent intent (by rw [hstage]; rfl)
    obtain ⟨g', hi'⟩ := hi.step h hholder (by rw [hstage]; rfl)
    obtain ⟨hobject, hsha, hsize⟩ := hb.checked f intent immutable hholder hstage
    have hrecord := hh.asset
    rw [ha] at hrecord
    cases hrecord
    refine ⟨intent.grantId, g', immutable, hi'.grant, hi'.media, ?_, ?_, ?_, hsize⟩
    · exact congrArg some hi'.key
    · rw [← hi'.key, hobjects]
      exact hobject
    · rw [hsha]
      exact hi'.promised
  | settled _ _ r reachable _ _ _ _ a id g key object hmove hmedia hrec hstat hsize hobjects hnew =>
    rw [hnew] at ha'
    cases ha'
    subst hmedia
    have hkey : key = originalKey w.roomId r.mediaId := by
      rcases (hl.grants id g hrec.grant).promotion with ⟨hno, -⟩ | hkey
      · rw [hrec.destination] at hno
        cases hno
      · rw [hrec.destination, hrec.media] at hkey
        exact Option.some.inj hkey
    have hgrant : ∃ g', w'.db.grants.get? id = some g' ∧ g'.mediaId = r.mediaId ∧
        g'.promotionSha256 = some object.sha256 := by
      have hfree : w.holder = none := hrec.free
      cases h.grant id with
      | stays hsame => exact ⟨g, hsame.trans hrec.grant, hrec.media, hrec.promised⟩
      | written g₀ g' hg₀ hsame hg' =>
        rw [hrec.grant] at hg₀
        cases hg₀
        exact ⟨g', hg', hsame.mediaId.trans hrec.media, hsame.promotionSha256.trans hrec.promised⟩
      | intended f _ _ _ hholder _ _ _ _ =>
        rw [hfree] at hholder
        cases hholder
      | fenced f _ _ _ hholder _ _ _ _ =>
        rw [hfree] at hholder
        cases hholder
      | retired g₀ s a₀ _ hs hg₀ hid hm hretires ha₀ hnone hg' hgone =>
        rw [hrec.grant] at hg₀
        cases hg₀
        rw [hrec.media, hnew] at hgone
        cases hgone
    obtain ⟨g', hg', hmedia', hsha'⟩ := hgrant
    refine ⟨id, g', object, hg', hmedia', ?_, ?_, hsha', hsize⟩
    · rw [h.room, ← hkey]
      rfl
    · rw [h.room, ← hkey, hobjects]
      exact stat_eq_some hstat
  | failed _ _ _ _ _ _ _ _ a _ _ _ _ _ _ _ _ _ hnew =>
    rw [hnew] at ha'
    cases ha'
    cases hstate'
  | reported a o hfree ha hadmissible hnew =>
    have hstate := MediaState.admissible_promoted hadmissible
    rw [hnew] at ha'
    cases ha'
    exact (hb.promoted mediaId a ha hstate).step hl hr h ha hstate hnew rfl rfl
  | retired a hfree ha hstate hkey hgone =>
    rw [hgone] at ha'
    cases ha'

theorem Backed.checked_step (hl : Ledger w) (hr : Remembered w) (hb : Backed w)
    (h : Step w m w') : Checked w' := by
  intro f' intent immutable hf' hstage'
  cases h.holder with
  | stays hsame =>
    rw [hsame] at hf'
    obtain ⟨hobject, hsha, hsize⟩ := hb.checked f' intent immutable hf' hstage'
    refine ⟨?_, hsha, hsize⟩
    have hh := hl.holds f' hf'
    obtain ⟨g, hi⟩ := hh.intent intent (by rw [hstage']; rfl)
    have hu : ¬ GivenUp w f'.mediaId := by
      apply not_givenUp hh.asset
      rw [hh.state]
      nofun
    rw [hi.key] at hobject ⊢
    exact original_stays hl hr h hu hobject
  | released hnone =>
    rw [hnone] at hf'
    cases hf'
  | locked f _ hstage _ _ _ _ _ hnew =>
    rw [hnew] at hf'
    cases hf'
    rw [hstage] at hstage'
    cases hstage'
  | staged f _ _ hnew | fenced f _ _ _ hnew | copied f _ _ _ hnew =>
    rw [hnew] at hf'
    cases hf'
    cases hstage'
  | intended f _ _ _ _ _ _ _ _ _ _ hnew =>
    rw [hnew] at hf'
    cases hf'
    cases hstage'
  | checked f intent₀ immutable₀ hholder hstage hobject hobjects hsha hsize hnew =>
    rw [hnew] at hf'
    cases hf'
    cases hstage'
    exact ⟨hobjects ▸ hobject, hsha, hsize⟩

/-- What a run keeps, whatever order its steps come in. -/
structure Kept (w : World) : Prop where
  ledger : Ledger w
  remembered : Remembered w
  backed : Backed w

theorem Kept.move (hk : Kept w) (m : Move) : Kept (w.move m) := by
  have hstep := act_step w m
  refine ⟨hk.ledger.move m, hk.remembered.move hk.ledger m, ?_⟩
  have hchecked := hk.backed.checked_step hk.ledger hk.remembered hstep
  have hpromoted := hk.backed.promoted_step hk.ledger hk.remembered hstep
  exact ⟨fun mediaId a ha hs => hpromoted mediaId a ha hs,
    fun f intent immutable hf hs => hchecked f intent immutable hf hs⟩

theorem Kept.run (hk : Kept w) (moves : List Move) : Kept (w.run moves) := by
  induction moves generalizing w with
  | nil => exact hk
  | cons m moves ih => exact ih (hk.move m)

end Steps

theorem Granted.kept {w : World} (h : Granted w) : Kept w where
  ledger := h.ledger
  remembered := h.remembered
  backed := by
    constructor
    · intro mediaId a ha hstate
      rw [(h.assets mediaId a ha).1] at hstate
      cases hstate
    · intro f intent immutable hf
      rw [h.holder] at hf
      cases hf

/-! ## States that are left -/

/-- A reconcile request meets an asset that is quarantined or failed, and what the store shows it
takes the asset to another state. -/
def Overwrites (w : World) : Move → Prop
  | .reconcile _ _ r reachable erasure clock _ _ =>
    ∃ a grantId g key sha256, Recorded w r a grantId g key sha256 ∧
      ((a.state = .quarantined ∨ a.state = .failed) ∧ Intact w reachable a key sha256 ∨
        a.state = .quarantined ∧ Lost w reachable erasure clock a g key sha256)
  | _ => False

/-- No step of the run does that. -/
def Spared (w : World) (moves : List Move) : Prop :=
  ∀ before m after, moves = before ++ m :: after → ¬ Overwrites (w.run before) m

def IsProcess (mediaId : String) (row : JobRow) : Prop :=
  row.jobType = "media.process.v1" ∧ row.payload.get? "mediaId" = some (.text mediaId)

theorem MediaState.not_finished {s : MediaState} (h : s.admissible = true) :
    s.finished = false := by
  cases s <;> simp_all [MediaState.admissible, MediaState.finished]

section Runs

variable {w w' : World} {m : Move} {mediaId : String}

theorem finished_step {a a' : MediaAsset} (h : Step w m w') (hm : ¬ Overwrites w m)
    (ha : w.db.assets.get? mediaId = some a) (hfinished : a.state.finished = true)
    (ha' : w'.db.assets.get? mediaId = some a') : a'.state = a.state := by
  cases h.asset mediaId with
  | stays hsame =>
    rw [hsame, ha] at ha'
    cases ha'
    rfl
  | committed f _ _ a₀ _ _ _ ha₀ hstate _ _ _ =>
    rw [ha] at ha₀
    cases ha₀
    rw [hstate] at hfinished
    cases hfinished
  | settled assertion refusal r reachable erasure clock jobId stamp a₀ id g key object hmove hmedia
      hrec hstat hsize _ _ =>
    have ha₀ := hrec.asset
    rw [hmedia, ha] at ha₀
    cases ha₀
    refine absurd ⟨a, id, g, key, object.sha256, hrec, .inl ⟨?_, object, hstat, rfl, hsize⟩⟩
      (hmove ▸ hm)
    have hstate := hrec.state
    cases hs : a.state <;> simp_all [MediaState.finished, MediaState.promoted]
  | failed assertion refusal r reachable erasure clock jobId stamp a₀ id g key sha256 code hmove
      hmedia hrec hlost hnew =>
    have ha₀ := hrec.asset
    rw [hmedia, ha] at ha₀
    cases ha₀
    rw [hnew] at ha'
    cases ha'
    have hstate := hrec.state
    cases hs : a.state with
    | failed => rfl
    | quarantined =>
      exact absurd ⟨a, id, g, key, sha256, hrec, .inr ⟨hs, hlost⟩⟩ (hmove ▸ hm)
    | uploadPending | uploaded | processing | ready | deleted =>
      simp [hs, MediaState.finished, MediaState.promoted] at hfinished hstate
  | reported a₀ o _ ha₀ hadmissible _ =>
    rw [ha] at ha₀
    cases ha₀
    rw [MediaState.not_finished hadmissible] at hfinished
    cases hfinished
  | retired a₀ _ _ _ _ hgone =>
    rw [hgone] at ha'
    cases ha'

/-- No step brings an asset back. -/
theorem asset_none (h : Step w m w') (ha : w.db.assets.get? mediaId = none) :
    w'.db.assets.get? mediaId = none := by
  cases h.asset mediaId with
  | stays hsame => rw [hsame, ha]
  | committed _ _ _ _ _ _ _ ha₀ _ _ _ _ | reported _ _ _ ha₀ _ _ =>
    rw [ha] at ha₀
    cases ha₀
  | settled _ _ _ _ _ _ _ _ _ _ _ _ _ _ hmedia hrec _ _ _ _
  | failed _ _ _ _ _ _ _ _ _ _ _ _ _ _ _ hmedia hrec _ _ =>
    have ha₀ := hrec.asset
    rw [hmedia, ha] at ha₀
    cases ha₀
  | retired _ _ _ _ _ hgone => exact hgone

theorem Spared.tail {moves : List Move} (h : Spared w (m :: moves)) : Spared (w.move m) moves := by
  intro before m' after he
  exact h (m :: before) m' after (by rw [he, List.cons_append])

theorem run_none {moves : List Move} (ha : w.db.assets.get? mediaId = none) :
    (w.run moves).db.assets.get? mediaId = none := by
  induction moves generalizing w with
  | nil => exact ha
  | cons m moves ih =>
    have hnext : (w.act m).db.assets.get? mediaId = none := asset_none (act_step w m) ha
    exact ih hnext

theorem finished_run {moves : List Move} {a a' : MediaAsset} (hs : Spared w moves)
    (ha : w.db.assets.get? mediaId = some a) (hfinished : a.state.finished = true)
    (ha' : (w.run moves).db.assets.get? mediaId = some a') : a'.state = a.state := by
  induction moves generalizing w a with
  | nil =>
    rw [show w.run [] = w from rfl, ha] at ha'
    cases ha'
    rfl
  | cons m moves ih =>
    cases hnext : (w.move m).db.assets.get? mediaId with
    | none =>
      have hgone := @run_none _ _ moves hnext
      change ((w.move m).run moves).db.assets.get? mediaId = _ at ha'
      rw [hgone] at ha'
      cases ha'
    | some a₁ =>
      have hact : (w.act m).db.assets.get? mediaId = some a₁ := hnext
      have hstate := finished_step (act_step w m) (hs [] m moves rfl) ha hfinished hact
      rw [ih hs.tail hnext (hstate ▸ hfinished) ha', hstate]

/-- A job that was inserted stays. -/
theorem process_run {moves : List Move} {id : String} {row : JobRow}
    (hrow : w.db.queue.jobs.get? id = some row) (hp : IsProcess mediaId row) :
    ∃ row', (w.run moves).db.queue.jobs.get? id = some row' ∧ IsProcess mediaId row' := by
  induction moves generalizing w row with
  | nil => exact ⟨row, hrow, hp⟩
  | cons m moves ih =>
    obtain ⟨row', hrow', hsame, -⟩ := (act_step w m).queue.kept id row hrow
    have hnext : (w.move m).db.queue.jobs.get? id = some row' := hrow'
    exact ih hnext ⟨hsame.jobType.trans hp.1, by rw [hsame.payload]; exact hp.2⟩

theorem Ledger.process_unique (hl : Ledger w) {i j : String} {row row' : JobRow}
    (hi : w.db.queue.jobs.get? i = some row) (hj : w.db.queue.jobs.get? j = some row')
    (hp : IsProcess mediaId row) (hp' : IsProcess mediaId row') : i = j := by
  have hkey : ∀ id r, w.db.queue.jobs.get? id = some r → IsProcess mediaId r →
      r.dedupeKey = "media.process.v1:" ++ mediaId := by
    intro id r hr hq
    obtain ⟨mediaId', hpayload, hkey⟩ := hl.jobs id r hr (.inl hq.1)
    rw [hq.2] at hpayload
    cases hpayload
    rw [hkey, hq.1]
    rfl
  exact hl.dedupe i j row row' hi hj (by rw [hkey i row hi hp, hkey j row' hj hp'])

theorem run_append (before after : List Move) : w.run (before ++ after) = (w.run before).run after :=
  List.foldl_append ..

/-- Uploads from the grant on, in any order of steps: as long as no reconcile request overwrites
what was decided, a decided state is kept; one process job at most is ever inserted; and what a
promoted asset names is the object that was promised. -/
theorem media_states_kept (w : World) (hw : Granted w) (moves : List Move) (hs : Spared w moves)
    (mediaId : String) :
    (∀ before after a a', moves = before ++ after →
      (w.run before).db.assets.get? mediaId = some a → a.state.finished = true →
      (w.run moves).db.assets.get? mediaId = some a' → a'.state = a.state) ∧
    (∀ before after i j row row', moves = before ++ after →
      (w.run before).db.queue.jobs.get? i = some row → IsProcess mediaId row →
      (w.run moves).db.queue.jobs.get? j = some row' → IsProcess mediaId row' → i = j) ∧
    ∀ a, (w.run moves).db.assets.get? mediaId = some a → a.state.promoted = true →
      Promoted (w.run moves) mediaId a := by
  refine ⟨?_, ?_, ?_⟩
  · intro before after a a' he ha hfinished ha'
    subst he
    rw [run_append] at ha'
    refine finished_run (fun b m c hb => ?_) ha hfinished ha'
    rw [← run_append]
    exact hs (before ++ b) m c (by rw [hb, List.append_assoc])
  · intro before after i j row row' he hi hp hj hp'
    subst he
    obtain ⟨row₁, hi₁, hp₁⟩ := @process_run _ _ after _ _ hi hp
    rw [← run_append] at hi₁
    exact (hw.kept.run _).ledger.process_unique hi₁ hj hp₁ hp'
  · exact (hw.kept.run moves).backed.promoted mediaId

end Runs

/-! ## A picture of a leaf that is found to be malware -/

def leafSha : String := "00000000000000000000000000000000000000000000000000000000000000aa"

def leafObject : StoredObject := ⟨leafSha, 2048, "image/png", "etag"⟩

def leafGrantId : String := "99999999-9999-4999-8999-999999999999"

def leafReconcileId : String := "bbbbbbbb-bbbb-4bbb-8bbb-bbbbbbbbbbbb"

def pendingLeaf : MediaAsset where
  roomId := leafRoom
  ownerActorId := leafAsset.ownerActorId
  state := .uploadPending
  detectedMime := none
  sizeBytes := 2048
  declaredSha256 := leafSha
  sha256 := none
  objectKey := none
  failureCode := none
  promotionCorrelationId := none
  outcomeTransitionId := none
  promotedCk := nofun

def leafGrant : UploadGrant where
  mediaId := leafId
  roomId := leafRoom
  objectKey := stagingKey leafRoom leafGrantId
  state := .active
  expiresAt := 1000
  writeNotAfter := 2000
  promotionSourceEtag := none
  promotionSha256 := none
  promotionDestinationKey := none
  promotionCorrelationId := none
  promotionWriteNotAfter := none

def leafWorld : World where
  roomId := leafRoom
  db := ⟨.empty, Dict.empty.set leafId pendingLeaf, Dict.empty.set leafGrantId leafGrant, .empty⟩
  objects := .empty
  holder := none
  copies := []
  sweeps := []
  issued := (Dict.empty.set leafGrantId leafGrant).get?
  now := 0

theorem leafWorld_granted : Granted leafWorld where
  assets := by
    intro mediaId a ha
    rw [show leafWorld.db.assets = Dict.empty.set leafId pendingLeaf from rfl, Dict.get?_set] at ha
    split at ha
    · cases ha
      exact ⟨rfl, rfl⟩
    · cases ha
  grants := by
    intro id g hg
    rw [show leafWorld.db.grants = Dict.empty.set leafGrantId leafGrant from rfl, Dict.get?_set] at hg
    split at hg
    · rename_i hid
      cases hg
      subst hid
      exact ⟨rfl, rfl, rfl, rfl⟩
    · cases hg
  unique := by
    intro id id' g g' hg hg' _
    rw [show leafWorld.db.grants = Dict.empty.set leafGrantId leafGrant from rfl,
      Dict.get?_set] at hg hg'
    split at hg
    · rename_i hid
      split at hg'
      · rename_i hid'
        rw [hid, hid']
      · cases hg'
    · cases hg
  issued := rfl
  objects := rfl
  holder := rfl
  copies := rfl
  sweeps := rfl
  jobs := fun _ _ hrow => by cases hrow
  dedupe := fun _ _ _ _ hrow => by cases hrow

/-- The upload, up to the commit of its promotion. -/
def leafUpload : List Move :=
  [.put leafGrantId leafObject,
    .finalize (.locks none leafId leafAsset.ownerActorId leafJob.correlationId true 0),
    .finalize (.stages true),
    .finalize (.intends none 60 leafReconcileId),
    .finalize (.fences 60),
    .finalize .copies,
    .land ⟨leafGrantId, stagingKey leafRoom leafGrantId, originalKey leafRoom leafId, "etag", leafSha⟩,
    .finalize (.checks true),
    .finalize (.commits none leafJob.jobId)]

theorem leafUpload_spared : Spared leafWorld leafUpload := by
  intro before m after he
  have hm : m ∈ leafUpload := by simp [he]
  simp only [leafUpload, List.mem_cons, List.not_mem_nil, or_false] at hm
  rcases hm with rfl | rfl | rfl | rfl | rfl | rfl | rfl | rfl | rfl <;> exact id

theorem media_states_kept_leaf :
    Granted leafWorld ∧ Spared leafWorld leafUpload ∧
      ∃ a, (leafWorld.run leafUpload).db.assets.get? leafId = some a ∧ a.state = .uploaded ∧
        Promoted (leafWorld.run leafUpload) leafId a := by
  refine ⟨leafWorld_granted, leafUpload_spared, ?_⟩
  have hstate : ((leafWorld.run leafUpload).db.assets.get? leafId).map (·.state) =
      some .uploaded := by decide +kernel
  obtain ⟨a, ha, hs⟩ := Option.map_eq_some_iff.mp hstate
  exact ⟨a, ha, hs, (media_states_kept leafWorld leafWorld_granted leafUpload leafUpload_spared
    leafId).2.2 a ha (by rw [hs]; rfl)⟩

/-- Processing finds malware. -/
def leafQuarantine : List Move :=
  [.worker (.claim leafWorker 0 leafToken leafJob.jobId),
    .outcome ⟨true, true⟩ none
      { leafReport .quarantined leafTransition with failureCode := some "MEDIA_MALWARE" }]

def leafReconcile : ReconcileRequest where
  claim :=
    { jobId := leafReconcileId
      jobType := "media.reconcile-upload.v1"
      roomId := some leafRoom
      sourceEventId := none
      dedupeKey := "media.reconcile-upload.v1:" ++ leafId
      correlationId := leafJob.correlationId
      claimGeneration := 1
      claimToken := leafToken
      workerId := leafWorker.workerId }
  mediaId := leafId

/-- The reconcile job the upload left comes last. -/
def leafLate : List Move :=
  [.worker (.claim leafWorker 0 leafToken leafReconcileId),
    .reconcile ⟨true, true⟩ none leafReconcile true .resolves 0
      "cccccccc-cccc-4ccc-8ccc-cccccccccccc" 0]

theorem quarantine_left :
    let w := leafWorld.run (leafUpload ++ leafQuarantine)
    (w.db.assets.get? leafId).map (·.state) = some .quarantined ∧
      ((w.run leafLate).db.assets.get? leafId).map (·.state) = some .uploaded := by
  decide +kernel

end LearningOrbit.Media
