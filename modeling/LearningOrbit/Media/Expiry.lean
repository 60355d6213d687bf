import LearningOrbit.Media.StateMachine

/-!
# When an upload expires

`finalizeUpload` asks whether the signature has expired only while the write fence still holds
the grant. A call that comes too late is refused until the fence has passed, and from then on
it is taken like one in time.
-/

namespace LearningOrbit.Media

deriving instance DecidableEq for LockedMedia

/-- The rest of the call from the staging object on, up to the copy that is sent. -/
def promotes (db : MediaDb) (stat : String → Option StoredObject) (roomId : String) (window : Nat)
    (jobId : String) (now : Int) (f : Finalizing) : Except String (Option Copy) := do
  let f ← finalizeStages stat f
  match f.stage with
  | .staged staging =>
    let (db, f) ← finalizeIntends db roomId none f staging window jobId now
    match f.stage with
    | .intended intent =>
      let (_, f) ← finalizeExtends db f intent window now
      return some (finalizeCopies f intent).1
    | _ => return none
  | _ => return none

/-- `finalizeUpload` in a room that is open, up to the copy it sends. -/
def finalizeUpload (db : MediaDb) (stat : String → Option StoredObject)
    (roomId mediaId actorId correlationId : String) (window : Nat) (jobId : String)
    (now clock : Int) : Except String (Option Copy) := do
  match ← finalizeLocks db stat roomId none mediaId actorId correlationId clock with
  | .done _ => return none
  | .goes f => promotes db stat roomId window jobId now f

section

variable (db : MediaDb) (stat : String → Option StoredObject)
  (roomId mediaId actorId correlationId : String)

/-- A call that is refused as expired is refused so at every later time. -/
def StaysExpired : Prop :=
  ∀ window jobId now now' clock clock', clock ≤ clock' →
    finalizeUpload db stat roomId mediaId actorId correlationId window jobId now clock =
      .error "MEDIA_UPLOAD_EXPIRED" →
    finalizeUpload db stat roomId mediaId actorId correlationId window jobId now' clock' =
      .error "MEDIA_UPLOAD_EXPIRED"

/-- No promotion starts after the given time. -/
def PromotesBy (expiresAt : Int) : Prop :=
  ∀ window jobId now clock copy, expiresAt < clock →
    finalizeUpload db stat roomId mediaId actorId correlationId window jobId now clock ≠
      .ok (some copy)

/-- The staging object is the one declared, and the promotion of it can be recorded. -/
structure Promotable (locked : LockedMedia) (staging : StoredObject) (jobId : String)
    (now : Int) : Prop where
  staged : stat locked.grant.objectKey = some staging
  size : staging.sizeBytes = locked.record.sizeBytes
  declared : staging.sha256 = locked.record.declaredSha256
  own : (locked.grant.promotionCorrelationId.any (· ≠ correlationId)) = false
  stagingKey : keyPattern "staging" locked.grant.objectKey = true
  originalKey : keyPattern "original" (originalKey roomId mediaId) = true
  digest : sha256Text staging.sha256 = true
  etag : staging.etag ≠ ""
  job : ∃ queue, Jobs.insertJobOnce db.queue (reconcileJob roomId mediaId
    (locked.grant.promotionCorrelationId.getD correlationId) jobId now) = .ok queue

end

section

variable {db : MediaDb} {stat : String → Option StoredObject}
  {roomId mediaId actorId correlationId : String} {locked : LockedMedia}

/-- The first transaction of a pending upload looks at the two times and nothing else. -/
theorem finalizeLocks_pending (hmedia : Rooms.uuidFormat mediaId = true)
    (hcorrelation : Rooms.uuidFormat correlationId = true)
    (hlocked : lockOwnedMediaAndGrant db mediaId roomId actorId = .ok locked)
    (hpending : locked.record.state = .uploadPending) (hactive : locked.grant.state = .active)
    (clock : Int) :
    finalizeLocks db stat roomId none mediaId actorId correlationId clock =
      if clock < locked.grant.effectiveWriteNotAfter ∧ locked.grant.expiresAt < clock then
        .error "MEDIA_UPLOAD_EXPIRED"
      else .ok (.goes ⟨mediaId, actorId, correlationId, locked, .locked⟩) := by
  unfold finalizeLocks
  simp only [hmedia, hcorrelation, Bool.not_true, Bool.or_self, Bool.false_eq_true, ↓reduceIte,
    hlocked, bind, Except.bind, hpending, hactive, ne_eq, not_true_eq_false, Bool.and_eq_true,
    decide_eq_true_eq]

/-- What is promoted is what can be, whenever the call gets that far. -/
theorem promotes_iff (hlocked : lockOwnedMediaAndGrant db mediaId roomId actorId = .ok locked)
    (window : Nat) (jobId : String) (now : Int) :
    (∃ copy, promotes db stat roomId window jobId now
        ⟨mediaId, actorId, correlationId, locked, .locked⟩ = .ok (some copy)) ↔
      ∃ staging, Promotable db stat roomId mediaId correlationId locked staging jobId now := by
  obtain ⟨-, hgrant, hgmedia, hgroom⟩ := lockOwned_eq hlocked
  constructor
  · rintro ⟨copy, h⟩
    unfold promotes at h
    obtain ⟨f, hstages, h⟩ := bind_eq_ok.mp h
    unfold finalizeStages at hstages
    dsimp only at hstages
    cases hstat : stat locked.grant.objectKey with
    | none => simp [hstat] at hstages
    | some staging =>
      simp only [hstat] at hstages
      by_cases hsame : (decide (staging.sizeBytes ≠ locked.record.sizeBytes)
          || decide (staging.sha256 ≠ locked.record.declaredSha256)) = true
      · rw [if_pos hsame] at hstages
        cases hstages
      · rw [if_neg hsame] at hstages
        cases hstages
        obtain ⟨⟨db', f'⟩, hintends, -⟩ := bind_eq_ok.mp h
        simp only [finalizeIntends, hlocked, bind, Except.bind] at hintends
        by_cases hown : locked.grant.promotionCorrelationId.any (· ≠ correlationId) = true
        · rw [if_pos hown] at hintends
          cases hintends
        · rw [if_neg hown] at hintends
          unfold recordPromotionIntent at hintends
          by_cases hskey : (!keyPattern "staging" locked.grant.objectKey) = true
          · simp [hskey] at hintends
          · by_cases hokey : (!keyPattern "original" (originalKey roomId mediaId)) = true
            · simp [hskey, hokey] at hintends
            · by_cases hdigest : (!sha256Text staging.sha256 || decide (staging.etag = "")) = true
              · simp [hskey, hokey, hdigest] at hintends
              · cases hjob : Jobs.insertJobOnce db.queue (reconcileJob locked.grant.roomId
                  locked.grant.mediaId (locked.grant.promotionCorrelationId.getD correlationId)
                  jobId now) with
                | error e => simp [hskey, hokey, hdigest, hjob, bind, Except.bind] at hintends
                | ok queue =>
                  simp only [Bool.or_eq_true, decide_eq_true_eq, not_or, not_not, ne_eq,
                    Bool.not_eq_true', Bool.not_eq_false] at hsame hskey hokey hdigest
                  rw [hgmedia, hgroom] at hjob
                  exact ⟨staging, hstat, hsame.1, hsame.2, by simpa using hown, hskey, hokey,
                    hdigest.1, hdigest.2, queue, hjob⟩
  · rintro ⟨staging, hp⟩
    obtain ⟨queue, hjob⟩ := hp.job
    have hintends : finalizeIntends db roomId none
        ⟨mediaId, actorId, correlationId, locked, .staged staging⟩ staging window jobId now =
        .ok ({ db.setGrant locked.grantId (locked.grant.intends staging
            (originalKey roomId mediaId) correlationId window now) with queue },
          ⟨mediaId, actorId, correlationId, locked, .intended ⟨locked.grantId,
            locked.grant.objectKey, staging.etag, staging.sha256, originalKey roomId mediaId,
            locked.grant.promotionCorrelationId.getD correlationId⟩⟩) := by
      have hown := hp.own
      simp only [finalizeIntends, hlocked, bind, Except.bind, hown, Bool.false_eq_true, ↓reduceIte,
        recordPromotionIntent, hp.stagingKey, hp.originalKey, hp.digest, hp.etag, Bool.not_true,
        decide_false, Bool.or_self, hgmedia, hgroom, hjob]
      rfl
    have hstages : finalizeStages stat ⟨mediaId, actorId, correlationId, locked, .locked⟩ =
        .ok ⟨mediaId, actorId, correlationId, locked, .staged staging⟩ := by
      simp [finalizeStages, hp.staged, hp.size, hp.declared]
    refine ⟨⟨locked.grantId, locked.grant.objectKey, originalKey roomId mediaId, staging.etag,
      staging.sha256⟩, ?_⟩
    simp only [promotes, hstages, hintends, finalizeExtends, extendPromotionWriteFenceFromDbTime,
      bind, Except.bind, setGrant_get?, ↓reduceIte]
    rfl

theorem insertJobOnce_ne_expired (q : Jobs.Queue) (job : Jobs.NewJob) :
    Jobs.insertJobOnce q job ≠ .error "MEDIA_UPLOAD_EXPIRED" := by
  unfold Jobs.insertJobOnce Jobs.insertJob
  split_ifs <;> simp

theorem finalizeStages_ne_expired (f : Finalizing) :
    finalizeStages stat f ≠ .error "MEDIA_UPLOAD_EXPIRED" := by
  unfold finalizeStages
  cases stat f.locked.grant.objectKey with
  | none => simp
  | some staging =>
    dsimp only
    split_ifs <;> simp

theorem finalizeIntends_ne_expired (f : Finalizing) (staging : StoredObject) (window : Nat)
    (jobId : String) (now : Int) :
    finalizeIntends db roomId none f staging window jobId now ≠
      .error "MEDIA_UPLOAD_EXPIRED" := by
  apply bind_ne_error
  · unfold lockOwnedMediaAndGrant
    split <;> simp
  · intro latest
    dsimp only
    split_ifs
    · simp
    · apply bind_ne_error
      · unfold recordPromotionIntent
        split_ifs
        · simp
        · simp
        · simp
        · exact bind_ne_error (insertJobOnce_ne_expired _ _) fun queue => by simp [pure, Except.pure]
      · intro recorded
        simp [pure, Except.pure]

theorem finalizeExtends_ne_expired (f : Finalizing) (intent : PromotionIntent) (window : Nat)
    (now : Int) : finalizeExtends db f intent window now ≠ .error "MEDIA_UPLOAD_EXPIRED" := by
  apply bind_ne_error
  · unfold extendPromotionWriteFenceFromDbTime
    cases db.grants.get? intent.grantId <;> simp
  · intro db'
    simp [pure, Except.pure]

/-- Once the two times have been passed, nothing calls the upload expired. -/
theorem promotes_ne_expired (window : Nat) (jobId : String) (now : Int) (f : Finalizing) :
    promotes db stat roomId window jobId now f ≠ .error "MEDIA_UPLOAD_EXPIRED" := by
  apply bind_ne_error (finalizeStages_ne_expired f)
  intro f'
  dsimp only
  split
  · apply bind_ne_error (finalizeIntends_ne_expired _ _ _ _ _)
    rintro ⟨db', f''⟩
    dsimp only
    split
    · exact bind_ne_error (finalizeExtends_ne_expired _ _ _ _) fun _ => by simp [pure, Except.pure]
    · simp [pure, Except.pure]
  · simp [pure, Except.pure]

/-- A pending upload stays expired, and is promoted in time or not at all, exactly if no instant
lies between its expiry and its fence and it cannot be promoted anyway. -/
theorem stays_expired_iff (hmedia : Rooms.uuidFormat mediaId = true)
    (hcorrelation : Rooms.uuidFormat correlationId = true)
    (hlocked : lockOwnedMediaAndGrant db mediaId roomId actorId = .ok locked)
    (hpending : locked.record.state = .uploadPending) (hactive : locked.grant.state = .active) :
    (StaysExpired db stat roomId mediaId actorId correlationId ∧
      PromotesBy db stat roomId mediaId actorId correlationId locked.grant.expiresAt) ↔
    ((¬∃ clock, locked.grant.expiresAt < clock ∧ clock < locked.grant.effectiveWriteNotAfter) ∧
      ¬∃ staging jobId now,
        Promotable db stat roomId mediaId correlationId locked staging jobId now) := by
  have hcall : ∀ window jobId now clock,
      finalizeUpload db stat roomId mediaId actorId correlationId window jobId now clock =
        if clock < locked.grant.effectiveWriteNotAfter ∧ locked.grant.expiresAt < clock then
          .error "MEDIA_UPLOAD_EXPIRED"
        else promotes db stat roomId window jobId now
          ⟨mediaId, actorId, correlationId, locked, .locked⟩ := by
    intro window jobId now clock
    unfold finalizeUpload
    rw [finalizeLocks_pending hmedia hcorrelation hlocked hpending hactive]
    split <;> rfl
  constructor
  · rintro ⟨hstays, htimely⟩
    constructor
    · rintro ⟨clock, hlate, hblocked⟩
      have hrefused := hcall 0 "" 0 clock
      rw [if_pos ⟨hblocked, hlate⟩] at hrefused
      have hlater := hstays 0 "" 0 0 clock locked.grant.effectiveWriteNotAfter (by omega) hrefused
      rw [hcall, if_neg (by omega)] at hlater
      exact promotes_ne_expired _ _ _ _ hlater
    · rintro ⟨staging, jobId, now, hp⟩
      obtain ⟨copy, hcopy⟩ := (promotes_iff hlocked 0 jobId now).mpr ⟨staging, hp⟩
      have hafter := htimely 0 jobId now
        (max (locked.grant.expiresAt + 1) locked.grant.effectiveWriteNotAfter) copy (by omega)
      rw [hcall, if_neg (by omega)] at hafter
      exact hafter hcopy
  · rintro ⟨hgap, hnone⟩
    have hnever : ∀ clock, ¬(clock < locked.grant.effectiveWriteNotAfter ∧
        locked.grant.expiresAt < clock) := fun clock h => hgap ⟨clock, h.2, h.1⟩
    constructor
    · intro window jobId now now' clock clock' _ hrefused
      rw [hcall, if_neg (hnever clock)] at hrefused
      exact absurd hrefused (promotes_ne_expired _ _ _ _)
    · intro window jobId now clock copy _ hcopy
      rw [hcall, if_neg (hnever clock)] at hcopy
      obtain ⟨staging, hp⟩ := (promotes_iff hlocked window jobId now).mp ⟨copy, hcopy⟩
      exact hnone ⟨staging, jobId, now, hp⟩

end

/-! ## A picture that is sent too late -/

/-- The staging area with the picture in it. -/
def leafStaging (key : String) : Option StoredObject :=
  if key = stagingKey leafRoom leafGrantId then some leafObject else none

/-- The signature ends at 1000 and the fence at 2000. -/
theorem stays_expired_iff_leaf :
    ¬(StaysExpired leafWorld.db leafStaging leafRoom leafId leafAsset.ownerActorId
        leafJob.correlationId ∧
      PromotesBy leafWorld.db leafStaging leafRoom leafId leafAsset.ownerActorId
        leafJob.correlationId leafGrant.expiresAt) := by
  have hlocked : lockOwnedMediaAndGrant leafWorld.db leafId leafRoom leafAsset.ownerActorId =
      .ok ⟨pendingLeaf, leafGrantId, leafGrant⟩ := by decide +kernel
  intro h
  obtain ⟨hgap, -⟩ :=
    (stays_expired_iff (by decide +kernel) (by decide +kernel) hlocked rfl rfl).mp h
  exact hgap ⟨1500, by decide, by decide⟩

/-- The picture is refused at 1500 and taken at 2000. -/
theorem late_upload_promoted :
    ¬(StaysExpired leafWorld.db leafStaging leafRoom leafId leafAsset.ownerActorId
        leafJob.correlationId ∧
      PromotesBy leafWorld.db leafStaging leafRoom leafId leafAsset.ownerActorId
        leafJob.correlationId leafGrant.expiresAt) := by
  rintro ⟨-, htimely⟩
  exact htimely 60 leafReconcileId 2000 2000
    ⟨leafGrantId, stagingKey leafRoom leafGrantId, originalKey leafRoom leafId, "etag", leafSha⟩
    (by decide) (by decide +kernel)

end LearningOrbit.Media
