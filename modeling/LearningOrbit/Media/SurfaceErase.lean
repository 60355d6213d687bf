import LearningOrbit.Media.StateMachine

/-!
# Objects and the rows that name them

The media-surface route of a deletion joins the steps of a room: it erases what the rows
name and then deletes the rows. Signed URLs and copies that were sent go on working until
the fences of their grants.
-/

namespace LearningOrbit.Media

open LearningOrbit (Dict)
open LearningOrbit.Jobs (Queue JobClaim JobRow Grows)

/-! ## The route -/

/-- `assertQuiescent`. Nothing writes a `media_write_fence`. -/
def quiet (db : MediaDb) (roomId : String) (now : Int) : Bool :=
  (db.queue.jobs.values.all fun row =>
    !(row.roomId = some roomId
      && (row.jobType = "media.process.v1" || row.jobType = "media.reconcile-upload.v1")
      && !row.status.terminal))
    && db.grants.values.all fun g =>
      !(g.roomId = roomId && (g.state = .issuing || g.state = .active)
        && now < g.effectiveWriteNotAfter)

/-- The distinct keys the rows of the room name. -/
def roomKeys (db : MediaDb) (roomId : String) : List String :=
  let assets := db.assets.values.filter fun a => a.roomId = roomId
  let grants := db.grants.values.filter fun g => g.roomId = roomId
  let derivatives := db.derivatives.values.filter fun d => (db.asset? d.mediaId roomId).isSome
  (assets.filterMap (·.objectKey)
    ++ grants.flatMap (fun g => g.objectKey :: g.promotionDestinationKey.toList)
    ++ derivatives.map (·.objectKey)).eraseDups

/-- The rows of the room go, and derivatives with their assets. -/
def deleteRoomMedia (db : MediaDb) (roomId : String) : MediaDb :=
  let gone := fun mediaId => (db.asset? mediaId roomId).isSome
  { db with
    grants := db.grants.filterKeys fun id => (db.grants.get? id).all fun g => g.roomId ≠ roomId
    assets := db.assets.filterKeys fun mediaId => !gone mediaId
    derivatives := db.derivatives.filterKeys fun id =>
      (db.derivatives.get? id).all fun d => !gone d.mediaId }

inductive RoomMove
  | media (m : Move)
  /-- The route up to `eraseRoomObjects`; if that throws, `gone` may be erased all the same. -/
  | erase (claim : JobClaim) (stamp : Int) (resolves : Bool) (gone : List String)
  /-- The rest of its transaction. -/
  | commit
  /-- The route fails. -/
  | abort

/-- The route gets to the erase. -/
def World.erases (w : World) (claim : JobClaim) (stamp : Int) : Bool :=
  w.holder.isNone && (Jobs.requireCurrent "JOB_CLAIM_STALE" w.db.queue claim).isOk
    && quiet w.db w.roomId (w.stamp stamp)

def World.erase (w : World) (claim : JobClaim) (stamp : Int) (resolves : Bool)
    (gone : List String) : World :=
  if w.erases claim stamp then
    let keys := roomKeys w.db w.roomId
    if resolves || keys = [] then
      { w with
        objects := w.objects.filterKeys fun key => key ∉ keys
        holder := some (.surface claim) }
    else { w with objects := w.objects.filterKeys fun key => !(key ∈ keys && key ∈ gone) }
  else w

def World.commit (w : World) : World :=
  match w.holder with
  | some (.surface claim) =>
    match Jobs.completeBusiness w.db.queue claim "MEDIA_SURFACE_VERIFIED" with
    | .ok queue => (w.setDb { deleteRoomMedia w.db w.roomId with queue }).release
    | .error _ => w.release
  | _ => w

def World.abort (w : World) : World :=
  match w.holder with
  | some (.surface _) => w.release
  | _ => w

def World.roomMove (w : World) : RoomMove → World
  | .media m => w.move m
  | .erase claim stamp resolves gone => w.erase claim stamp resolves gone
  | .commit => w.commit
  | .abort => w.abort

def World.roomRun (w : World) (moves : List RoomMove) : World := moves.foldl World.roomMove w

/-! ## What is named -/

/-- A row of the room names the key. -/
def Named (w : World) (key : String) : Prop :=
  (∃ id g, w.db.grants.get? id = some g ∧ g.roomId = w.roomId ∧
    (g.objectKey = key ∨ g.promotionDestinationKey = some key)) ∨
  ∃ mediaId a, w.db.assets.get? mediaId = some a ∧ a.roomId = w.roomId ∧ a.objectKey = some key

/-- Both fences of the grant are past. -/
structure Past (g : UploadGrant) (now : Int) : Prop where
  write : g.writeNotAfter < now
  promotion : ∀ t, g.promotionWriteNotAfter = some t → t < now

/-- The step deletes no object that may still be written: a sweep's deletes come after the fence
in question, and the route erases when the fences of all grants are past. -/
def InTime (w : World) : RoomMove → Prop
  | .media (.sweep (.sweeps s _)) =>
    ∀ g, w.db.grants.get? s.candidate.grantId = some g → g.writeNotAfter < w.now
  | .media (.sweep (.erases s _)) => ∀ g, w.db.grants.get? s.candidate.grantId = some g →
    ∀ t, g.promotionWriteNotAfter = some t → t < w.now
  | .erase claim stamp _ _ => w.erases claim stamp = true →
    ∀ id g, w.db.grants.get? id = some g → Past g w.now
  | _ => True

/-- What a sweep has deleted stays away while its rows are there. -/
structure Cleared (w : World) (s : Sweep) : Prop where
  staging : s.stage ≠ .selected → ∀ g, w.db.grants.get? s.candidate.grantId = some g →
    g.writeNotAfter < w.now ∧ w.objects.get? s.candidate.objectKey = none
  original : ∀ key, s.stage = .erased key → ∀ g,
    w.db.grants.get? s.candidate.grantId = some g →
    (∀ t, g.promotionWriteNotAfter = some t → t < w.now) ∧ w.objects.get? key = none

structure Tidy (w : World) : Prop where
  grantRoom : ∀ id g, w.db.grants.get? id = some g → g.roomId = w.roomId
  assetRoom : ∀ mediaId a, w.db.assets.get? mediaId = some a → a.roomId = w.roomId
  named : ∀ key object, w.objects.get? key = some object → Named w key
  gone : ∀ id g, w.issued id = some g → w.db.grants.get? id = none → Past g w.now
  copies : ∀ copy ∈ w.copies, ∃ g, w.issued copy.grantId = some g ∧
    g.promotionDestinationKey = some copy.destinationKey
  sweeps : ∀ s ∈ w.sweeps, Cleared w s
  surface : ∀ claim, w.holder = some (.surface claim) →
    (∀ id g, w.db.grants.get? id = some g → Past g w.now) ∧ ∀ key, w.objects.get? key = none

section Steps

variable {w w' : World} {m : Move}

/-- The columns of a grant that no step rewrites. -/
structure SameFence (g g' : UploadGrant) : Prop where
  mediaId : g'.mediaId = g.mediaId
  roomId : g'.roomId = g.roomId
  objectKey : g'.objectKey = g.objectKey
  writeNotAfter : g'.writeNotAfter = g.writeNotAfter
  destination : ∀ key, g.promotionDestinationKey = some key → g'.promotionDestinationKey = some key

/-- A grant stays, or a sweep that may retires it. -/
theorem grant_goes {id : String} {g : UploadGrant} (hl : Ledger w) (h : Step w m w')
    (hg : w.db.grants.get? id = some g) :
    (∃ g', w'.db.grants.get? id = some g' ∧ SameFence g g' ∧
      (g'.promotionWriteNotAfter = g.promotionWriteNotAfter ∨
        ∃ f, w.holder = some (.finalize f) ∧ f.mediaId = g.mediaId)) ∨
    w'.db.grants.get? id = none ∧ ∃ s ∈ w.sweeps, s.candidate.grantId = id ∧ s.Retires g := by
  cases h.grant id with
  | stays hsame =>
    exact .inl ⟨g, hsame.trans hg, ⟨rfl, rfl, rfl, rfl, fun _ hk => hk⟩, .inl rfl⟩
  | written g₀ g' hg₀ hsame hg' =>
    rw [hg] at hg₀
    cases hg₀
    exact .inl ⟨g', hg', ⟨hsame.mediaId, hsame.roomId, hsame.objectKey, hsame.writeNotAfter,
      fun _ hk => hsame.promotionDestinationKey.trans hk⟩, .inl hsame.promotionWriteNotAfter⟩
  | intended f staging g₀ window hholder hstage hg₀ hmedia hg' =>
    rw [hg] at hg₀
    cases hg₀
    refine .inl ⟨_, hg', ⟨rfl, rfl, rfl, rfl, fun key hk => ?_⟩, .inr ⟨f, hholder, hmedia.symm⟩⟩
    rcases (hl.grants id g hg).promotion with ⟨hno, -⟩ | hkey
    · rw [hno] at hk
      cases hk
    · rw [hkey] at hk
      cases hk
      simp [UploadGrant.intends, hmedia]
  | fenced f intent g₀ window hholder hstage hg₀ hid hg' =>
    rw [hg] at hg₀
    cases hg₀
    obtain ⟨g₁, hi⟩ := (hl.holds f hholder).intent intent (by rw [hstage]; rfl)
    have hg₁ := hi.grant
    rw [← hid, hg] at hg₁
    cases hg₁
    exact .inl ⟨_, hg', ⟨rfl, rfl, rfl, rfl, fun _ hk => hk⟩, .inr ⟨f, hholder, hi.media.symm⟩⟩
  | retired g₀ s a hfree hs hg₀ hid hmedia hretires ha hkey hg' ha' =>
    rw [hg] at hg₀
    cases hg₀
    exact .inr ⟨hg', s, hs, hid, hretires⟩

/-- Where a grant of the next state comes from. -/
theorem grant_came {id : String} {g' : UploadGrant} (hl : Ledger w) (h : Step w m w')
    (hg' : w'.db.grants.get? id = some g') :
    ∃ g, w.db.grants.get? id = some g ∧ SameFence g g' ∧
      (g'.promotionWriteNotAfter = g.promotionWriteNotAfter ∨
        ∃ f, w.holder = some (.finalize f) ∧ f.mediaId = g.mediaId) := by
  obtain ⟨g, hg, -⟩ := (h.grant id).media hg'
  rcases grant_goes hl h hg with ⟨g₁, hg₁, hsame⟩ | ⟨hnone, -⟩
  · rw [hg'] at hg₁
    cases hg₁
    exact ⟨g, hg, hsame⟩
  · rw [hg'] at hnone
    cases hnone

theorem retires_not_selected {s : Sweep} {g : UploadGrant} (h : s.Retires g) :
    s.stage ≠ .selected := by
  rintro hs
  rcases h with ⟨hstage, -⟩ | ⟨key, hstage, -⟩
  · rw [hs] at hstage
    cases hstage
  · rw [hs] at hstage
    cases hstage

/-- A sweep retires a grant when both its fences are past. -/
theorem Tidy.retired {s : Sweep} {g : UploadGrant} (hl : Ledger w) (ht : Tidy w)
    (hs : s ∈ w.sweeps) (hg : w.db.grants.get? s.candidate.grantId = some g)
    (hretires : s.Retires g) : Past g w.now := by
  have hcleared := ht.sweeps s hs
  refine ⟨(hcleared.staging (retires_not_selected hretires) g hg).1, ?_⟩
  rcases hretires with ⟨-, hnone⟩ | ⟨key, hstage, -⟩
  · intro t hfence
    rcases (hl.grants _ g hg).promotion with ⟨-, hno⟩ | hkey
    · rw [hno] at hfence
      cases hfence
    · rw [hnone] at hkey
      cases hkey
  · exact (hcleared.original key hstage g hg).1

/-- A PUT that goes through has its grant in the table. -/
theorem Tidy.put_row {id : String} {g : UploadGrant} (hr : Remembered w) (ht : Tidy w)
    (hg : w.issued id = some g) (hnow : w.now ≤ g.writeNotAfter) :
    w.db.grants.get? id = some g := by
  cases hrow : w.db.grants.get? id with
  | none =>
    have := (ht.gone id g hg hrow).write
    omega
  | some g' => rw [← hg, hr.current id g' hrow]

theorem Tidy.land_row {id : String} {g : UploadGrant} {t : Int} (hr : Remembered w)
    (ht : Tidy w) (hg : w.issued id = some g) (hfence : g.promotionWriteNotAfter = some t)
    (hnow : w.now ≤ t) : w.db.grants.get? id = some g := by
  cases hrow : w.db.grants.get? id with
  | none =>
    have := (ht.gone id g hg hrow).promotion t hfence
    omega
  | some g' => rw [← hg, hr.current id g' hrow]

theorem Tidy.assetRoom_step (ht : Tidy w) (h : Step w m w') :
    ∀ mediaId a, w'.db.assets.get? mediaId = some a → a.roomId = w'.roomId := by
  intro mediaId a' ha'
  rw [h.room]
  cases h.asset mediaId with
  | stays hsame => exact ht.assetRoom mediaId a' (hsame ▸ ha')
  | committed f intent immutable a _ _ _ ha _ _ _ hnew =>
    rw [hnew] at ha'
    cases ha'
    exact ht.assetRoom mediaId a ha
  | settled _ _ r _ _ _ _ _ a _ _ _ _ _ hmedia hrec _ _ _ hnew
  | failed _ _ r _ _ _ _ _ a _ _ _ _ _ _ hmedia hrec _ hnew =>
    rw [hnew] at ha'
    cases ha'
    exact ht.assetRoom r.mediaId a hrec.asset
  | reported a o _ ha _ hnew =>
    rw [hnew] at ha'
    cases ha'
    exact ht.assetRoom mediaId a ha
  | retired _ _ _ _ _ hgone =>
    rw [hgone] at ha'
    cases ha'

/-- The asset that names an original goes on naming it. -/
theorem asset_names {mediaId key : String} {a : MediaAsset} (hl : Ledger w) (ht : Tidy w)
    (h : Step w m w') (ha : w.db.assets.get? mediaId = some a) (hkey : a.objectKey = some key) :
    Named w' key := by
  have horiginal : key = originalKey w.roomId mediaId := by
    rcases hl.assets mediaId a ha with hno | hsome
    · rw [hkey] at hno
      cases hno
    · rw [hkey] at hsome
      exact Option.some.inj hsome
  have hfound : ∃ a', w'.db.assets.get? mediaId = some a' ∧ a'.objectKey = some key := by
    cases h.asset mediaId with
    | stays hsame => exact ⟨a, hsame.trans ha, hkey⟩
    | committed f intent immutable a₀ hholder hstage hmedia ha₀ _ _ _ hnew =>
      refine ⟨_, hnew, ?_⟩
      obtain ⟨g, hi⟩ := (hl.holds f hholder).intent intent (by rw [hstage]; rfl)
      rw [horiginal, ← hmedia, ← hi.key]
      rfl
    | settled _ _ r _ _ _ _ _ a₀ id g key₀ object _ hmedia hrec _ _ _ hnew =>
      refine ⟨_, hnew, ?_⟩
      rcases (hl.grants id g hrec.grant).promotion with ⟨hno, -⟩ | hk
      · rw [hrec.destination] at hno
        cases hno
      · rw [hrec.destination, hrec.media, hmedia] at hk
        rw [horiginal, ← Option.some.inj hk]
        rfl
    | failed _ _ r _ _ _ _ _ a₀ _ _ _ _ _ _ hmedia hrec _ hnew =>
      have ha₀ := hrec.asset
      rw [hmedia, ha] at ha₀
      cases ha₀
      exact ⟨_, hnew, hkey⟩
    | reported a₀ o _ ha₀ _ hnew =>
      rw [ha] at ha₀
      cases ha₀
      exact ⟨_, hnew, hkey⟩
    | retired a₀ _ ha₀ _ hnone _ =>
      rw [ha] at ha₀
      cases ha₀
      rw [hkey] at hnone
      cases hnone
  obtain ⟨a', ha', hkey'⟩ := hfound
  exact .inr ⟨mediaId, a', ha', ht.assetRoom_step h mediaId a' ha', hkey'⟩

/-- The grant that names a stored object goes on naming it. -/
theorem grant_names {id key : String} {g : UploadGrant} {object : StoredObject} (hl : Ledger w)
    (ht : Tidy w) (h : Step w m w') (hg : w.db.grants.get? id = some g)
    (hkey : g.objectKey = key ∨ g.promotionDestinationKey = some key)
    (hobject : w.objects.get? key = some object) : Named w' key := by
  rcases grant_goes hl h hg with ⟨g', hg', hsame, -⟩ | ⟨-, s, hs, hid, hretires⟩
  · refine .inl ⟨id, g', hg', ?_, ?_⟩
    · rw [hsame.roomId, ht.grantRoom id g hg, h.room]
    · rcases hkey with hkey | hkey
      · exact .inl (hsame.objectKey.trans hkey)
      · exact .inr (hsame.destination key hkey)
  · subst hid
    have hcleared := ht.sweeps s hs
    rcases hkey with hkey | hkey
    · have hnone := (hcleared.staging (retires_not_selected hretires) g hg).2
      rw [(hl.sweeps s hs).key, ← (hl.grants _ g hg).objectKey, hkey, hobject] at hnone
      cases hnone
    · rcases hretires with ⟨-, hno⟩ | ⟨key', hstage, hdestination⟩
      · rw [hkey] at hno
        cases hno
      · rw [hkey] at hdestination
        cases hdestination
        have hnone := (hcleared.original key hstage g hg).2
        rw [hobject] at hnone
        cases hnone

theorem Past.mono {g : UploadGrant} {now now' : Int} (h : Past g now) (hle : now ≤ now') :
    Past g now' := by
  refine ⟨?_, fun t ht => ?_⟩
  · have := h.write
    omega
  · have := h.promotion t ht
    omega

theorem Tidy.grantRoom_step (hl : Ledger w) (ht : Tidy w) (h : Step w m w') :
    ∀ id g, w'.db.grants.get? id = some g → g.roomId = w'.roomId := by
  intro id g' hg'
  obtain ⟨g, hg, hsame, -⟩ := grant_came hl h hg'
  rw [hsame.roomId, ht.grantRoom id g hg, h.room]

/-- A grant whose fence is still to come survives the step. -/
theorem Tidy.survives {id : String} {g : UploadGrant} (hl : Ledger w) (ht : Tidy w)
    (h : Step w m w') (hg : w.db.grants.get? id = some g) (hpast : ¬ Past g w.now) :
    ∃ g', w'.db.grants.get? id = some g' ∧ SameFence g g' := by
  rcases grant_goes hl h hg with ⟨g', hg', hsame, -⟩ | ⟨-, s, hs, hid, hretires⟩
  · exact ⟨g', hg', hsame⟩
  · subst hid
    exact absurd (ht.retired hl hs hg hretires) hpast

theorem Tidy.named_step (hl : Ledger w) (hr : Remembered w) (ht : Tidy w) (h : Step w m w') :
    ∀ key object, w'.objects.get? key = some object → Named w' key := by
  intro key object hobject
  cases h.object key with
  | stays hsame =>
    rw [hsame] at hobject
    rcases ht.named key object hobject with ⟨id, g, hg, -, hkey⟩ | ⟨mediaId, a, ha, -, hkey⟩
    · exact grant_names hl ht h hg hkey hobject
    · exact asset_names hl ht h ha hkey
  | put id g hg hnow hkey =>
    have hrow := ht.put_row hr hg hnow
    obtain ⟨g', hg', hsame⟩ := ht.survives hl h hrow fun hpast => by
      have := hpast.write
      omega
    refine .inl ⟨id, g', hg', ht.grantRoom_step hl h id g' hg', .inl ?_⟩
    rw [hsame.objectKey, hkey]
  | landed copy g notAfter hcopy hg hfence hnow hkey _ =>
    obtain ⟨g₀, hg₀, hdestination⟩ := ht.copies copy hcopy
    rw [hg] at hg₀
    cases hg₀
    have hrow := ht.land_row hr hg hfence hnow
    obtain ⟨g', hg', hsame⟩ := ht.survives hl h hrow fun hpast => by
      have := hpast.promotion notAfter hfence
      omega
    refine .inl ⟨copy.grantId, g', hg', ht.grantRoom_step hl h _ g' hg', .inr ?_⟩
    rw [hkey]
    exact hsame.destination _ hdestination
  | sweptGrant _ _ _ _ hnone | swept _ _ _ hnone | erased _ _ _ hnone =>
    rw [hobject] at hnone
    cases hnone

theorem Tidy.gone_move (hl : Ledger w) (hr : Remembered w) (ht : Tidy w) :
    ∀ id g, (w.move m).issued id = some g → (w.move m).db.grants.get? id = none →
      Past g (w.move m).now := by
  intro id g hg hnone
  have h := act_step w m
  have hissued : w.issued id = some g := by
    rcases Option.or_eq_some_iff.mp hg with hg | ⟨-, hg⟩
    · rw [show (w.act m).db.grants.get? id = none from hnone] at hg
      cases hg
    · rwa [h.issued] at hg
  suffices hpast : Past g w.now from hpast.mono h.now
  cases hrow : w.db.grants.get? id with
  | none => exact ht.gone id g hissued hrow
  | some g₁ =>
    have hg₁ := hr.current id g₁ hrow
    rw [hissued] at hg₁
    cases hg₁
    rcases grant_goes hl h hrow with ⟨g', hg', -⟩ | ⟨-, s, hs, hid, hretires⟩
    · rw [show (w.act m).db.grants.get? id = none from hnone] at hg'
      cases hg'
    · subst hid
      exact ht.retired hl hs hrow hretires

/-- The destination of a copy that was sent goes on being remembered. -/
theorem issued_destination {id key : String} {g : UploadGrant} (hl : Ledger w)
    (hr : Remembered w) (hg : w.issued id = some g)
    (hkey : g.promotionDestinationKey = some key) :
    ∃ g', (w.move m).issued id = some g' ∧ g'.promotionDestinationKey = some key := by
  have h := act_step w m
  cases hrow : (w.act m).db.grants.get? id with
  | none =>
    refine ⟨g, ?_, hkey⟩
    change ((w.act m).db.grants.get? id).or ((w.act m).issued id) = some g
    rw [hrow, h.issued]
    exact hg
  | some g' =>
    obtain ⟨g₁, hg₁, hsame, -⟩ := grant_came hl h hrow
    have hissued := hr.current id g₁ hg₁
    rw [hg] at hissued
    cases hissued
    refine ⟨g', ?_, hsame.destination key hkey⟩
    change ((w.act m).db.grants.get? id).or ((w.act m).issued id) = some g'
    rw [hrow]
    rfl

theorem Tidy.copies_move (hl : Ledger w) (hr : Remembered w) (ht : Tidy w) :
    ∀ copy ∈ (w.move m).copies, ∃ g, (w.move m).issued copy.grantId = some g ∧
      g.promotionDestinationKey = some copy.destinationKey := by
  intro copy hcopy
  cases (act_step w m).copies copy hcopy with
  | stays hstays =>
    obtain ⟨g, hg, hkey⟩ := ht.copies copy hstays
    exact issued_destination hl hr hg hkey
  | sent f intent hholder hstage hid hkey =>
    obtain ⟨g, hi⟩ := (hl.holds f hholder).intent intent (by rw [hstage]; rfl)
    rw [hid, hkey]
    exact issued_destination hl hr (hr.current _ g hi.grant) (hi.destination.trans (by rw [hi.key]))

/-- The staging object of a sweep that has deleted it stays away. -/
theorem Tidy.staging_step {s : Sweep} (hl : Ledger w) (hr : Remembered w) (ht : Tidy w)
    (h : Step w m w') (hs : s ∈ w.sweeps) (hstage : s.stage ≠ .selected) :
    ∀ g, w'.db.grants.get? s.candidate.grantId = some g →
      g.writeNotAfter < w'.now ∧ w'.objects.get? s.candidate.objectKey = none := by
  intro g' hg'
  obtain ⟨g, hg, hsame, -⟩ := grant_came hl h hg'
  obtain ⟨hpast, hnone⟩ := (ht.sweeps s hs).staging hstage g hg
  have hkey := (hl.sweeps s hs).key
  refine ⟨?_, ?_⟩
  · have := h.now
    rw [hsame.writeNotAfter]
    omega
  · cases h.object s.candidate.objectKey with
    | stays hstays => rw [hstays, hnone]
    | put id g₁ hg₁ hnow hput =>
      rw [hkey, (hr.named id g₁ hg₁).objectKey] at hput
      have hid := stagingKey_inj hput
      have hrow := ht.put_row hr hg₁ hnow
      rw [← hid, hg] at hrow
      cases hrow
      omega
    | landed copy g₁ _ hcopy hg₁ _ _ hland _ =>
      obtain ⟨g₀, hg₀, hdestination⟩ := ht.copies copy hcopy
      rcases (hr.named copy.grantId g₀ hg₀).promotion with ⟨hno, -⟩ | horiginal
      · rw [hdestination] at hno
        cases hno
      · rw [hdestination] at horiginal
        rw [hkey, Option.some.inj horiginal] at hland
        exact absurd hland (stagingKey_ne_originalKey _ _ _)
    | sweptGrant _ _ _ _ hgone | swept _ _ _ hgone | erased _ _ _ hgone => exact hgone

/-- Nobody extends the fence of an upload that is given up. -/
theorem fence_kept {s : Sweep} {key : String} {g' : UploadGrant} (hl : Ledger w)
    (h : Step w m w') (hs : s ∈ w.sweeps) (hstage : s.stage.original? = some key)
    (hg' : w'.db.grants.get? s.candidate.grantId = some g') :
    ∃ g, w.db.grants.get? s.candidate.grantId = some g ∧
      g'.promotionWriteNotAfter = g.promotionWriteNotAfter := by
  obtain ⟨g, hg, -, hfence | ⟨f, hholder, hmedia⟩⟩ := grant_came hl h hg'
  · exact ⟨g, hg, hfence⟩
  · have hsweeping := hl.sweeps s hs
    rw [hsweeping.media g hg] at hmedia
    exact absurd hmedia ((hsweeping.original key hstage).2.not_held hl hholder)

/-- So does the original. -/
theorem Tidy.original_step {s : Sweep} {key : String} (hl : Ledger w) (hr : Remembered w)
    (ht : Tidy w) (h : Step w m w') (hs : s ∈ w.sweeps) (hstage : s.stage = .erased key) :
    ∀ g, w'.db.grants.get? s.candidate.grantId = some g →
      (∀ t, g.promotionWriteNotAfter = some t → t < w'.now) ∧ w'.objects.get? key = none := by
  intro g' hg'
  have horiginal? : s.stage.original? = some key := by rw [hstage]; rfl
  obtain ⟨g, hg, hfence⟩ := fence_kept hl h hs horiginal? hg'
  obtain ⟨hpast, hnone⟩ := (ht.sweeps s hs).original key hstage g hg
  have hsweeping := hl.sweeps s hs
  have hkey := (hsweeping.original key horiginal?).1
  refine ⟨fun t hf => ?_, ?_⟩
  · rw [hfence] at hf
    have := hpast t hf
    have := h.now
    omega
  · cases h.object key with
    | stays hstays => rw [hstays, hnone]
    | put id g₁ hg₁ hnow hput =>
      rw [hkey, (hr.named id g₁ hg₁).objectKey] at hput
      exact absurd hput.symm (stagingKey_ne_originalKey _ _ _)
    | landed copy g₁ notAfter hcopy hg₁ hland hnow hdest _ =>
      obtain ⟨g₀, hg₀, hdestination⟩ := ht.copies copy hcopy
      rw [hg₁] at hg₀
      cases hg₀
      have hrow := ht.land_row hr hg₁ hland hnow
      rcases (hr.named copy.grantId g₁ hg₁).promotion with ⟨hno, -⟩ | horiginal
      · rw [hdestination] at hno
        cases hno
      · rw [hdestination, ← hdest, hkey] at horiginal
        have hmedia := originalKey_inj (Option.some.inj horiginal)
        -- Another grant of the same media would be the same grant.
        have hid := hl.unique _ _ g g₁ hg hrow (by rw [hsweeping.media g hg, hmedia])
        rw [← hid, hg] at hrow
        cases hrow
        have := hpast notAfter hland
        omega
    | sweptGrant _ _ _ _ hgone | swept _ _ _ hgone | erased _ _ _ hgone => exact hgone

theorem Tidy.sweeps_step (hl : Ledger w) (hr : Remembered w) (ht : Tidy w)
    (hin : InTime w (.media m)) (h : Step w m w') : ∀ s ∈ w'.sweeps, Cleared w' s := by
  intro s hs
  cases h.sweeps s hs with
  | stays hs₀ =>
    exact ⟨ht.staging_step hl hr h hs₀, fun key hstage => ht.original_step hl hr h hs₀ hstage⟩
  | selected _ _ _ _ _ hstage =>
    refine ⟨fun hne => absurd hstage hne, fun key he => ?_⟩
    rw [hstage] at he
    cases he
  | swept s₀ hmove hs₀ hc hstage₀ hstage hgone hnow =>
    constructor
    · intro _ g' hg'
      obtain ⟨g, hg, hsame, -⟩ := grant_came hl h hg'
      subst hmove
      refine ⟨?_, hgone⟩
      rw [hsame.writeNotAfter, hnow]
      exact hin g (hc ▸ hg)
    · intro key he
      rw [hstage] at he
      cases he
  | authorised s₀ key _ _ _ hs₀ hc hstage₀ hstage _ _ _ _ _ _ _ =>
    constructor
    · intro _
      rw [hc]
      exact ht.staging_step hl hr h hs₀ (by rw [hstage₀]; nofun)
    · intro key' he
      rw [hstage] at he
      cases he
  | erased s₀ key hmove hs₀ hc hstage₀ hstage hgone hnow =>
    constructor
    · intro _
      rw [hc]
      exact ht.staging_step hl hr h hs₀ (by rw [hstage₀]; nofun)
    · intro key' he g' hg'
      rw [hstage] at he
      cases he
      rw [hc] at hg'
      obtain ⟨g, hg, hfence⟩ := fence_kept hl h hs₀ (by rw [hstage₀]; rfl) hg'
      subst hmove
      refine ⟨fun t hf => ?_, hgone⟩
      rw [hfence] at hf
      rw [hnow]
      exact hin g hg t hf

theorem Tidy.surface_step (hl : Ledger w) (hr : Remembered w) (ht : Tidy w) (h : Step w m w')
    {claim : JobClaim} (hholder' : w'.holder = some (.surface claim)) :
    (∀ id g, w'.db.grants.get? id = some g → Past g w'.now) ∧
      ∀ key, w'.objects.get? key = none := by
  have hholder : w.holder = some (.surface claim) := by
    cases h.holder with
    | stays hsame => rw [← hsame, hholder']
    | released hr | locked _ _ _ _ _ _ _ _ hr | staged _ _ _ hr
    | intended _ _ _ _ _ _ _ _ _ _ _ hr | fenced _ _ _ _ hr | copied _ _ _ _ hr
    | checked _ _ _ _ _ _ _ _ _ hr =>
      rw [hr] at hholder'
      cases hholder'
  obtain ⟨hpast, hempty⟩ := ht.surface claim hholder
  constructor
  · intro id g' hg'
    obtain ⟨g, hg, hsame, hfence | ⟨f, hf, -⟩⟩ := grant_came hl h hg'
    · have hg'past : Past g' w.now :=
        ⟨hsame.writeNotAfter ▸ (hpast id g hg).write, hfence ▸ (hpast id g hg).promotion⟩
      exact hg'past.mono h.now
    · rw [hholder] at hf
      cases hf
  · intro key
    cases h.object key with
    | stays hsame => rw [hsame, hempty key]
    | put id g hg hnow _ =>
      have := (hpast id g (ht.put_row hr hg hnow)).write
      omega
    | landed copy g notAfter _ hg hfence hnow _ _ =>
      have := (hpast _ g (ht.land_row hr hg hfence hnow)).promotion notAfter hfence
      omega
    | sweptGrant _ _ _ _ hgone | swept _ _ _ hgone | erased _ _ _ hgone => exact hgone

theorem Tidy.move (hl : Ledger w) (hr : Remembered w) (ht : Tidy w)
    (hin : InTime w (.media m)) : Tidy (w.move m) := by
  have h := act_step w m
  have hgrantRoom := ht.grantRoom_step hl h
  have hassetRoom := ht.assetRoom_step h
  have hnamed := ht.named_step hl hr h
  refine ⟨hgrantRoom, hassetRoom, hnamed, ht.gone_move hl hr, ht.copies_move hl hr, ?_, ?_⟩
  · intro s hs
    have hcleared := ht.sweeps_step hl hr hin h s hs
    exact ⟨hcleared.staging, hcleared.original⟩
  · intro claim hholder
    have hsurface := ht.surface_step hl hr h hholder
    exact hsurface

end Steps

/-! ## The steps of the route -/

section Surface

variable {w w' : World}

/-- The rows of a room and who acts on them, up to the lock of the route. -/
theorem Ledger.of_rows (hl : Ledger w) (hroom : w'.roomId = w.roomId) (hdb : w'.db = w.db)
    (hsweeps : w'.sweeps = w.sweeps)
    (hholder : ∀ f, w'.holder = some (.finalize f) → w.holder = some (.finalize f)) :
    Ledger w' := by
  constructor
  · rw [hdb, hroom]
    exact hl.grants
  · rw [hdb]
    exact hl.unique
  · rw [hdb, hroom]
    exact hl.assets
  · intro f hf
    have hh := hl.holds f (hholder f hf)
    refine ⟨by rw [hdb]; exact hh.asset, hh.state, fun intent hi => ?_⟩
    obtain ⟨g, hg⟩ := hh.intent intent hi
    exact ⟨g, by rw [hdb]; exact hg.grant, hg.media, hg.promised,
      by rw [hroom]; exact hg.destination, by rw [hroom]; exact hg.key⟩
  · intro s hs
    rw [hsweeps] at hs
    have hw := hl.sweeps s hs
    refine ⟨by rw [hroom]; exact hw.room, by rw [hroom]; exact hw.key,
      by rw [hdb]; exact hw.media, fun key hkey => ?_⟩
    obtain ⟨he, hu⟩ := hw.original key hkey
    exact ⟨by rw [hroom]; exact he, by rw [hdb]; exact hu.asset, by rw [hdb]; exact hu.ended⟩
  · rw [hdb]
    exact hl.jobs
  · rw [hdb]
    exact hl.dedupe

/-- Objects go and the lock changes hands. -/
structure Lighter (w w' : World) : Prop where
  roomId : w'.roomId = w.roomId
  db : w'.db = w.db
  sweeps : w'.sweeps = w.sweeps
  copies : w'.copies = w.copies
  issued : w'.issued = w.issued
  now : w'.now = w.now
  objects : ∀ key object, w'.objects.get? key = some object → w.objects.get? key = some object

theorem Remembered.of_lighter (hr : Remembered w) (h : Lighter w w') : Remembered w' := by
  constructor
  · rw [h.issued, h.roomId]
    exact hr.named
  · rw [h.issued, h.db]
    exact hr.current

theorem Lighter.none {key : String} (h : Lighter w w') (hnone : w.objects.get? key = none) :
    w'.objects.get? key = none := by
  cases hobject : w'.objects.get? key with
  | none => rfl
  | some object =>
    rw [h.objects key object hobject] at hnone
    cases hnone

theorem Tidy.of_lighter (ht : Tidy w) (h : Lighter w w')
    (hsurface : ∀ claim, w'.holder = some (.surface claim) →
      (∀ id g, w.db.grants.get? id = some g → Past g w.now) ∧ ∀ key, w'.objects.get? key = none) :
    Tidy w' := by
  constructor
  · rw [h.db, h.roomId]
    exact ht.grantRoom
  · rw [h.db, h.roomId]
    exact ht.assetRoom
  · intro key object hobject
    have hnamed := ht.named key object (h.objects key object hobject)
    unfold Named at hnamed ⊢
    rw [h.db, h.roomId]
    exact hnamed
  · rw [h.issued, h.db, h.now]
    exact ht.gone
  · rw [h.copies, h.issued]
    exact ht.copies
  · intro s hs
    rw [h.sweeps] at hs
    have hc := ht.sweeps s hs
    constructor
    · intro hstage g hg
      rw [h.db] at hg
      rw [h.now]
      exact ⟨(hc.staging hstage g hg).1, h.none (hc.staging hstage g hg).2⟩
    · intro key hstage g hg
      rw [h.db] at hg
      rw [h.now]
      exact ⟨(hc.original key hstage g hg).1, h.none (hc.original key hstage g hg).2⟩
  · rw [h.db, h.now]
    exact hsurface

/-- The route erases what is named. -/
theorem mem_roomKeys {key : String} (h : Named w key) : key ∈ roomKeys w.db w.roomId := by
  unfold roomKeys
  dsimp only
  rw [List.mem_eraseDups]
  simp only [List.mem_append, List.mem_filterMap, List.mem_filter, List.mem_flatMap,
    List.mem_cons, Option.mem_toList, decide_eq_true_eq]
  rcases h with ⟨id, g, hg, hroom, hkey⟩ | ⟨mediaId, a, ha, hroom, hkey⟩
  · refine .inl (.inr ⟨g, ⟨Dict.mem_values.mpr ⟨id, hg⟩, hroom⟩, ?_⟩)
    rcases hkey with hkey | hkey
    · exact .inl hkey.symm
    · exact .inr hkey
  · exact .inl (.inl ⟨a, ⟨Dict.mem_values.mpr ⟨mediaId, ha⟩, hroom⟩, hkey⟩)

theorem filterKeys_some {d : Dict String StoredObject} {p : String → Bool} {key : String}
    {object : StoredObject} (h : (d.filterKeys p).get? key = some object) :
    d.get? key = some object := by
  rw [Dict.get?_filterKeys] at h
  split at h
  · exact h
  · cases h

structure Orderly (w : World) : Prop where
  ledger : Ledger w
  remembered : Remembered w
  tidy : Tidy w

theorem Orderly.lighter (hw : Orderly w) (h : Lighter w w')
    (hholder : ∀ f, w'.holder = some (.finalize f) → w.holder = some (.finalize f))
    (hsurface : ∀ claim, w'.holder = some (.surface claim) →
      (∀ id g, w.db.grants.get? id = some g → Past g w.now) ∧ ∀ key, w'.objects.get? key = none) :
    Orderly w' :=
  ⟨hw.ledger.of_rows h.roomId h.db h.sweeps hholder, hw.remembered.of_lighter h,
    hw.tidy.of_lighter h hsurface⟩

theorem Orderly.erase {claim : JobClaim} {stamp : Int} {resolves : Bool} {gone : List String}
    (hw : Orderly w) (hin : InTime w (.erase claim stamp resolves gone)) :
    Orderly (w.erase claim stamp resolves gone) := by
  unfold World.erase
  split
  · rename_i herases
    dsimp only
    split
    · refine hw.lighter ⟨rfl, rfl, rfl, rfl, rfl, rfl, fun _ _ ho => filterKeys_some ho⟩
        (by simp) fun _ _ => ⟨hin herases, fun key => ?_⟩
      rw [Dict.get?_filterKeys]
      split
      · rename_i hkey
        cases hobject : w.objects.get? key with
        | none => rfl
        | some object =>
          have := mem_roomKeys (hw.tidy.named key object hobject)
          simp [this] at hkey
      · rfl
    · have hfree : w.holder = none := by
        unfold World.erases at herases
        simp only [Bool.and_eq_true, Option.isNone_iff_eq_none] at herases
        exact herases.1.1
      refine hw.lighter ⟨rfl, rfl, rfl, rfl, rfl, rfl, fun _ _ ho => filterKeys_some ho⟩
        (fun _ hf => hf) fun claim' hclaim => ?_
      rw [show w.holder = some (.surface claim') from hclaim] at hfree
      cases hfree
  · exact hw

theorem Orderly.release (hw : Orderly w) : Orderly w.release :=
  hw.lighter ⟨rfl, rfl, rfl, rfl, rfl, rfl, fun _ _ ho => ho⟩ (by simp [World.release])
    (by simp [World.release])

theorem deleteRoomMedia_grants (ht : Tidy w) (id : String) :
    (deleteRoomMedia w.db w.roomId).grants.get? id = none := by
  unfold deleteRoomMedia
  rw [Dict.get?_filterKeys]
  split
  · rename_i hkept
    cases hg : w.db.grants.get? id with
    | none => rfl
    | some g =>
      rw [hg] at hkept
      simp [ht.grantRoom id g hg] at hkept
  · rfl

theorem deleteRoomMedia_assets (ht : Tidy w) (mediaId : String) :
    (deleteRoomMedia w.db w.roomId).assets.get? mediaId = none := by
  unfold deleteRoomMedia
  rw [Dict.get?_filterKeys]
  split
  · rename_i hkept
    cases ha : w.db.assets.get? mediaId with
    | none => rfl
    | some a =>
      simp [MediaDb.asset?, ha, ht.assetRoom mediaId a ha] at hkept
  · rfl

theorem JobsNamed.grows {Admitted : Jobs.NewJob → Prop} {q q' : Queue} (hq : JobsNamed q)
    (hnone : ∀ job, ¬ Admitted job) (h : Grows Admitted q q') : JobsNamed q' := by
  intro id row' hrow' htype
  rcases h.cases hrow' with ⟨row, hrow, hsame, -⟩ | ⟨-, job, _, ha, -⟩
  · rw [hsame.jobType] at htype ⊢
    rw [hsame.payload, hsame.dedupeKey]
    exact hq id row hrow htype
  · exact absurd ha (hnone job)

theorem ReconcileOver.grows {Admitted : Jobs.NewJob → Prop} {q q' : Queue} {mediaId : String}
    (hq : ReconcileOver q mediaId) (hnone : ∀ job, ¬ Admitted job) (h : Grows Admitted q q') :
    ReconcileOver q' mediaId := by
  intro id row' hrow' htype hkey
  rcases h.cases hrow' with ⟨row, hrow, hsame, hterminal⟩ | ⟨-, job, _, ha, -⟩
  · rw [hsame.jobType] at htype
    rw [hsame.dedupeKey] at hkey
    exact hterminal (hq id row hrow htype hkey)
  · exact absurd ha (hnone job)

theorem Orderly.commit (hw : Orderly w) : Orderly w.commit := by
  unfold World.commit
  split
  · rename_i claim hholder
    split
    · rename_i queue hqueue
      obtain ⟨hpast, hempty⟩ := hw.tidy.surface claim hholder
      have hgrants := deleteRoomMedia_grants hw.tidy
      have hassets := deleteRoomMedia_assets hw.tidy
      have hgrows : Grows (fun _ => False) w.db.queue queue := .completeBusiness hqueue
      refine ⟨⟨?_, ?_, ?_, by simp [World.release], ?_, ?_, ?_⟩, ⟨hw.remembered.named, ?_⟩,
        ⟨?_, ?_, ?_, ?_, hw.tidy.copies, ?_, by simp [World.release]⟩⟩
      · intro id g hg
        cases (hgrants id).symm.trans hg
      · intro id _ g _ hg
        cases (hgrants id).symm.trans hg
      · intro mediaId a ha
        cases (hassets mediaId).symm.trans ha
      · intro s hs
        have hs' := hw.ledger.sweeps s hs
        refine ⟨hs'.room, hs'.key, fun g hg => ?_, fun key hkey => ⟨(hs'.original key hkey).1, ?_, ?_⟩⟩
        · cases (hgrants _).symm.trans hg
        · intro a ha
          cases (hassets _).symm.trans ha
        · exact (hs'.original key hkey).2.ended.grows (fun _ => id) hgrows
      · exact hw.ledger.jobs.grows (fun _ => id) hgrows
      · exact hw.ledger.dedupe.grows hgrows
      · intro id g hg
        cases (hgrants id).symm.trans hg
      · intro id g hg
        cases (hgrants id).symm.trans hg
      · intro mediaId a ha
        cases (hassets mediaId).symm.trans ha
      · intro key object hobject
        cases (hempty key).symm.trans hobject
      · intro id g hg _
        cases hrow : w.db.grants.get? id with
        | none => exact hw.tidy.gone id g hg hrow
        | some g₁ =>
          have hg₁ := hw.remembered.current id g₁ hrow
          cases hg₁.symm.trans hg
          exact hpast id _ hrow
      · intro s _
        refine ⟨fun _ g hg => ?_, fun _ _ g hg => ?_⟩
        · cases (hgrants _).symm.trans hg
        · cases (hgrants _).symm.trans hg
    · exact hw.release
  · exact hw

theorem Orderly.abort (hw : Orderly w) : Orderly w.abort := by
  unfold World.abort
  split
  · exact hw.release
  · exact hw

theorem Orderly.roomMove {m : RoomMove} (hw : Orderly w) (hin : InTime w m) :
    Orderly (w.roomMove m) := by
  cases m with
  | media m =>
    exact ⟨hw.ledger.move m, hw.remembered.move hw.ledger m,
      hw.tidy.move hw.ledger hw.remembered hin⟩
  | erase claim stamp resolves gone => exact hw.erase hin
  | commit => exact hw.commit
  | abort => exact hw.abort

end Surface

/-! ## Whole runs -/

/-- Every step of the run is in time where it is taken. -/
def RunsInTime (w : World) : List RoomMove → Prop
  | [] => True
  | m :: moves => InTime w m ∧ RunsInTime (w.roomMove m) moves

theorem Orderly.roomRun {w : World} {moves : List RoomMove} (hw : Orderly w)
    (hin : RunsInTime w moves) : Orderly (w.roomRun moves) := by
  induction moves generalizing w with
  | nil => exact hw
  | cons m moves ih => exact ih (hw.roomMove hin.1) hin.2

/-- Every row is of the room. -/
structure RoomGranted (w : World) : Prop extends Granted w where
  grantRoom : ∀ id g, w.db.grants.get? id = some g → g.roomId = w.roomId
  assetRoom : ∀ mediaId a, w.db.assets.get? mediaId = some a → a.roomId = w.roomId

theorem RoomGranted.orderly {w : World} (h : RoomGranted w) : Orderly w := by
  refine ⟨h.ledger, h.remembered, h.grantRoom, h.assetRoom, ?_, ?_, ?_, ?_, ?_⟩
  · intro key object hobject
    rw [h.objects] at hobject
    cases hobject
  · intro id g hg hnone
    rw [h.issued, hnone] at hg
    cases hg
  · intro copy hcopy
    rw [h.copies] at hcopy
    cases hcopy
  · intro s hs
    rw [h.sweeps] at hs
    cases hs
  · intro claim hholder
    rw [h.holder] at hholder
    cases hholder

/-- No object outlives the rows that name it while nothing is deleted ahead of a fence. -/
theorem objects_named (w : World) (hw : RoomGranted w) (moves : List RoomMove)
    (hin : RunsInTime w moves) (key : String) (object : StoredObject)
    (hobject : (w.roomRun moves).objects.get? key = some object) :
    Named (w.roomRun moves) key :=
  (hw.orderly.roomRun hin).tidy.named key object hobject

/-! ## The room of the leaf is deleted -/

def surfaceJob : Jobs.NewJob where
  jobId := "dddddddd-dddd-4ddd-8ddd-dddddddddddd"
  jobType := "room.delete-surface.v1"
  roomId := none
  sourceEventId := none
  dedupeKey := "room.delete-surface.v1:eeeeeeee-eeee-4eee-8eee-eeeeeeeeeeee:media"
  correlationId := leafJob.correlationId
  payload := Dict.empty.set "surface" (.text "media")
  runAfter := 0
  createdAt := 0

def surfaceClaim : JobClaim where
  jobId := surfaceJob.jobId
  jobType := surfaceJob.jobType
  roomId := none
  sourceEventId := none
  dedupeKey := surfaceJob.dedupeKey
  correlationId := surfaceJob.correlationId
  claimGeneration := 1
  claimToken := leafToken
  workerId := leafWorker.workerId

/-- The upload of the leaf is granted, and the media step of a deletion is claimed. -/
def deletedLeaf : World :=
  { leafWorld with
    db := { leafWorld.db with
      queue := Jobs.run [.enqueue surfaceJob, .claim leafWorker 0 leafToken surfaceJob.jobId] } }

theorem deletedLeaf_granted : RoomGranted deletedLeaf where
  assets := leafWorld_granted.assets
  grants := leafWorld_granted.grants
  unique := leafWorld_granted.unique
  issued := rfl
  objects := rfl
  holder := rfl
  copies := rfl
  sweeps := rfl
  jobs := by
    intro id row hrow htype
    have hall : ∀ p ∈ deletedLeaf.db.queue.jobs.entries,
        p.2.jobType = "room.delete-surface.v1" := by decide +kernel
    have := hall _ (Dict.get?_eq_some.mp hrow)
    rw [show row.jobType = "room.delete-surface.v1" from this] at htype
    exact absurd htype (by decide)
  dedupe := by
    intro i j row row' hrow hrow' _
    have hall : ∀ p ∈ deletedLeaf.db.queue.jobs.entries, p.1 = surfaceJob.jobId := by
      decide +kernel
    have hi := hall _ (Dict.get?_eq_some.mp hrow)
    have hj := hall _ (Dict.get?_eq_some.mp hrow')
    exact hi.trans hj.symm
  grantRoom := by
    intro id g hg
    rw [show deletedLeaf.db.grants = Dict.empty.set leafGrantId leafGrant from rfl,
      Dict.get?_set] at hg
    split at hg
    · cases hg
      rfl
    · cases hg
  assetRoom := by
    intro mediaId a ha
    rw [show deletedLeaf.db.assets = Dict.empty.set leafId pendingLeaf from rfl,
      Dict.get?_set] at ha
    split at ha
    · cases ha
      rfl
    · cases ha

theorem objects_named_leaf :
    RoomGranted deletedLeaf ∧ RunsInTime deletedLeaf (leafUpload.map .media) ∧
      Named (deletedLeaf.roomRun (leafUpload.map .media)) (originalKey leafRoom leafId) := by
  have hin : RunsInTime deletedLeaf (leafUpload.map .media) :=
    ⟨trivial, trivial, trivial, trivial, trivial, trivial, trivial, trivial, trivial, trivial⟩
  refine ⟨deletedLeaf_granted, hin, ?_⟩
  exact objects_named deletedLeaf deletedLeaf_granted _ hin _ leafObject (by decide +kernel)

/-- The upload is promoted, the room's jobs are cancelled, and the route deletes its media. The
signed URL is still good. -/
def leafDeletion : List RoomMove :=
  leafUpload.map .media ++
    [.media (.worker (.cancelRoomJobs leafRoom none)),
      .erase surfaceClaim 0 true [],
      .commit,
      .media (.put leafGrantId leafObject)]

theorem stray_leaf :
    RoomGranted deletedLeaf ∧
      (deletedLeaf.roomRun leafDeletion).objects.get? (stagingKey leafRoom leafGrantId) =
        some leafObject ∧
      ¬ Named (deletedLeaf.roomRun leafDeletion) (stagingKey leafRoom leafGrantId) := by
  obtain ⟨hobject, hgrants, hassets⟩ :
      (deletedLeaf.roomRun leafDeletion).objects.get? (stagingKey leafRoom leafGrantId) =
          some leafObject ∧
        (deletedLeaf.roomRun leafDeletion).db.grants.entries = [] ∧
        (deletedLeaf.roomRun leafDeletion).db.assets.entries = [] := by decide +kernel
  refine ⟨deletedLeaf_granted, hobject, ?_⟩
  rintro (⟨id, g, hg, -⟩ | ⟨mediaId, a, ha, -⟩)
  · have := Dict.get?_eq_some.mp hg
    simp [hgrants] at this
  · have := Dict.get?_eq_some.mp ha
    simp [hassets] at this

end LearningOrbit.Media
