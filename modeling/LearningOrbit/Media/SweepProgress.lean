import LearningOrbit.Batches
import LearningOrbit.Media.StateMachine

/-!
# Whether the janitor gets through

A sweep takes the oldest grants that are past their fence. Closing a grant does not take it out
of the selection, so grants that are closed and kept come up again in every sweep, and with a
batch full of them the janitor gets no further.
-/

namespace LearningOrbit.Media

open LearningOrbit (Dict)

section

variable (reservedAt : String → Int)

/-- `#candidates` without its limit: the oldest reservations first. `reservedAt` is the column of
that name; of equal ones the first of the table comes first. -/
def candidates (db : MediaDb) (now : Int) : List Candidate :=
  (db.grants.keys.insertionSort fun a b => reservedAt a ≤ reservedAt b).filterMap
    (candidate? db now)

/-- What a sweep does with one candidate when the store deletes what it is told to. -/
def sweepOne (now : Int) (db : MediaDb) (c : Candidate) : MediaDb :=
  match sweepCloses db c now with
  | .error _ => db
  | .ok (db, .object destinationKey) =>
    match sweepRetires db c destinationKey now with
    | .error _ => db
    | .ok db => db
  | .ok (db, _) => db

/-- `sweep`. -/
def sweep (batchSize : Nat) (db : MediaDb) (now : Int) : MediaDb :=
  ((candidates reservedAt db now).take batchSize).foldl (sweepOne now) db

end

/-- The foreign key and the unique column of the grants. -/
structure Consistent (db : MediaDb) : Prop where
  asset : ∀ id g, db.grants.get? id = some g → ∃ a, db.asset? g.mediaId g.roomId = some a
  unique : ∀ id id' g g', db.grants.get? id = some g → db.grants.get? id' = some g' →
    g.mediaId = g'.mediaId → id = id'

def UploadGrant.candidate (g : UploadGrant) (id : String) : Candidate :=
  ⟨id, g.mediaId, g.roomId, g.objectKey⟩

/-- The sweep closes the grant and leaves its rows. -/
def stays (db : MediaDb) (id : String) : Bool :=
  match db.grants.get? id with
  | none => true
  | some g =>
    match db.asset? g.mediaId g.roomId with
    | none => true
    | some a => abandonVerdict db (g.candidate id) a g = .keep

/-! ## One candidate -/

theorem abandonVerdict_code {db : MediaDb} {c : Candidate} {a : MediaAsset} {g : UploadGrant}
    (h : abandonVerdict db c a g ≠ .keep) : a.failureCode = some "PROMOTION_ABANDONED" := by
  unfold abandonVerdict at h
  by_cases hcode : a.failureCode = some "PROMOTION_ABANDONED"
  · exact hcode
  · simp [hcode] at h

/-- The verdict reads the jobs, the object keys in use and the destination of the grant. -/
theorem abandonVerdict_congr {db db' : MediaDb} {c : Candidate} {a : MediaAsset}
    {g g' : UploadGrant} (hqueue : db'.queue = db.queue)
    (hkeys : ∀ key, (∃ m b, db'.assets.get? m = some b ∧ b.objectKey = some key) ↔
      ∃ m b, db.assets.get? m = some b ∧ b.objectKey = some key)
    (hkey : g'.promotionDestinationKey = g.promotionDestinationKey) :
    abandonVerdict db' c a g' = abandonVerdict db c a g := by
  have hany : ∀ key, (db'.assets.values.any fun b => b.objectKey = some key) =
      db.assets.values.any fun b => b.objectKey = some key := by
    intro key
    have hiff := hkeys key
    rw [Bool.eq_iff_iff, List.any_eq_true, List.any_eq_true]
    simp only [Dict.mem_values, decide_eq_true_eq]
    grind
  unfold abandonVerdict
  rw [reconcileSettled_congr hqueue, hkey]
  simp only [hany]

theorem closed_verdict (db : MediaDb) (c : Candidate) (a : MediaAsset) (g g' : UploadGrant)
    (hkey : g'.promotionDestinationKey = g.promotionDestinationKey) :
    abandonVerdict (closed db c g) c a g' = abandonVerdict db c a g :=
  abandonVerdict_congr (closed_queue db c g) (fun key => by rw [closed_assets]) hkey

section

variable {db : MediaDb} {c : Candidate} {a : MediaAsset} {g : UploadGrant} {now : Int}

theorem deleteAbandonedRows_ok {destinationKey : Option String}
    (hasset : db.asset? c.mediaId c.roomId = some a) (hgrant : db.grants.get? c.grantId = some g)
    (hmedia : g.mediaId = c.mediaId) (hroom : g.roomId = c.roomId)
    (hkey : g.promotionDestinationKey = destinationKey) (hstate : a.state = .failed)
    (hcode : a.failureCode = some "PROMOTION_ABANDONED") :
    deleteAbandonedRows db c destinationKey =
      .ok ((db.eraseGrant c.grantId).eraseAsset c.mediaId) := by
  simp [deleteAbandonedRows, hasset, hgrant, hmedia, hroom, hkey, hstate, hcode]

/-- A candidate past its fence is closed, and its rows go unless the verdict is to keep them. -/
theorem sweepOne_eq (hasset : db.asset? c.mediaId c.roomId = some a)
    (hgrant : db.grants.get? c.grantId = some g) (hmedia : g.mediaId = c.mediaId)
    (hroom : g.roomId = c.roomId) (hfence : g.pastFence now = true) :
    sweepOne now db c =
      if abandonVerdict db c a g = .keep then closed db c g
      else ((closed db c g).eraseGrant c.grantId).eraseAsset c.mediaId := by
  have hclosed : (closed db c g).grants.get? c.grantId = some { g with state := .closed } := by
    rw [closed_get? hgrant, if_pos rfl]
  have hassets : (closed db c g).asset? c.mediaId c.roomId = some a := by
    rw [MediaDb.asset?, closed_assets]
    exact hasset
  have hview : lockedView db c = some (a, g) := by
    simp only [lockedView, hasset, hgrant]
  have hview' : lockedView (closed db c g) c = some (a, { g with state := .closed }) := by
    simp only [lockedView, hassets, hclosed]
  have hfence' : UploadGrant.pastFence { g with state := .closed } now = true := hfence
  have hcloses := sweepCloses_fenced hview hfence
  rw [closed_verdict db c a g g rfl] at hcloses
  have hdelete : ∀ key, abandonVerdict db c a g ≠ .keep → g.promotionDestinationKey = key →
      deleteAbandonedRows (closed db c g) c key =
        .ok (((closed db c g).eraseGrant c.grantId).eraseAsset c.mediaId) := by
    intro key hverdict hkey
    exact deleteAbandonedRows_ok hassets hclosed hmedia hroom hkey
      (abandonVerdict_eq rfl hverdict).1 (abandonVerdict_code hverdict)
  unfold sweepOne
  rw [hcloses]
  cases hverdict : abandonVerdict db c a g with
  | keep => rfl
  | rowsOnly =>
    obtain ⟨-, -, -, hkey | ⟨key, hkey, -⟩⟩ := abandonVerdict_eq hverdict (by simp)
    · simp only [hdelete none (by rw [hverdict]; simp) hkey.2]
      rfl
    · cases hkey
  | object destinationKey =>
    obtain ⟨-, -, -, hkey | ⟨key, hkey, hdestination, -⟩⟩ := abandonVerdict_eq hverdict (by simp)
    · cases hkey.1
    · cases hkey
      have hretires : sweepRetires (closed db c g) c destinationKey now =
          .ok (((closed db c g).eraseGrant c.grantId).eraseAsset c.mediaId) := by
        simp only [sweepRetires, hview', hfence', Bool.not_true, Bool.false_eq_true, ↓reduceIte,
          closed_verdict db c a g { g with state := .closed } rfl, hverdict, ne_eq,
          not_true_eq_false]
        exact hdelete _ (by rw [hverdict]; simp) hdestination
      simp only [hretires]
      rfl

end

/-! ## The tables while the sweeps go on -/

/-- The row of a grant once the given grants have been swept. -/
def sweptGrant (db₀ : MediaDb) (taken : List String) (id : String) : Option UploadGrant :=
  if id ∈ taken then
    if stays db₀ id then (db₀.grants.get? id).map fun g => { g with state := .closed } else none
  else db₀.grants.get? id

/-- The grant has been swept and its rows are gone. -/
def gone (db₀ : MediaDb) (taken : List String) (id : String) : Bool := id ∈ taken && !stays db₀ id

structure Swept (db₀ : MediaDb) (taken : List String) (db : MediaDb) : Prop where
  queue : db.queue = db₀.queue
  grants : ∀ id, db.grants.get? id = sweptGrant db₀ taken id
  keys : db.grants.keys = db₀.grants.keys.filter fun id => !gone db₀ taken id
  goneAssets : ∀ id g, db₀.grants.get? id = some g → gone db₀ taken id = true →
    db.assets.get? g.mediaId = none
  assets : ∀ mediaId, (∀ id g, db₀.grants.get? id = some g → gone db₀ taken id = true →
    g.mediaId ≠ mediaId) → db.assets.get? mediaId = db₀.assets.get? mediaId

theorem Swept.start (db : MediaDb) : Swept db [] db where
  queue := rfl
  grants id := by simp [sweptGrant]
  keys := by simp [gone]
  goneAssets id g _ hgone := by simp [gone] at hgone
  assets _ _ := rfl

section

variable {db₀ db : MediaDb} {taken : List String} {id : String} {g : UploadGrant} {a : MediaAsset}
  {now : Int}

theorem gone_iff : gone db₀ taken id = true ↔ id ∈ taken ∧ stays db₀ id = false := by
  simp [gone]

/-- What stays is decided by the verdict on the asset. -/
theorem stays_eq (hg : db₀.grants.get? id = some g)
    (ha : db₀.asset? g.mediaId g.roomId = some a) :
    stays db₀ id = decide (abandonVerdict db₀ (g.candidate id) a g = .keep) := by
  simp only [stays, hg, ha]

/-- The grant of a candidate that is still there, open or closed. -/
theorem Swept.grant (h : Swept db₀ taken db) (hg : db₀.grants.get? id = some g)
    (hthere : gone db₀ taken id = false) :
    ∃ state, db.grants.get? id = some { g with state } := by
  rw [h.grants, sweptGrant]
  by_cases htaken : id ∈ taken
  · have hstays : stays db₀ id = true := by simpa [gone, htaken] using hthere
    exact ⟨.closed, by simp [htaken, hstays, hg]⟩
  · exact ⟨g.state, by simp [htaken, hg]⟩

theorem Swept.asset (h : Swept db₀ taken db) (hdb : Consistent db₀)
    (hg : db₀.grants.get? id = some g) (ha : db₀.asset? g.mediaId g.roomId = some a)
    (hthere : gone db₀ taken id = false) : db.asset? g.mediaId g.roomId = some a := by
  rw [MediaDb.asset?, h.assets g.mediaId fun id' g' hg' hgone hmedia => ?_]
  · exact ha
  · rw [hdb.unique id' id g' g hg' hg hmedia, hthere] at hgone
    cases hgone

/-- Assets that have gone named no object, so the same keys are in use. -/
theorem Swept.objectKeys (h : Swept db₀ taken db) (hdb : Consistent db₀) (key : String) :
    (∃ m b, db.assets.get? m = some b ∧ b.objectKey = some key) ↔
      ∃ m b, db₀.assets.get? m = some b ∧ b.objectKey = some key := by
  constructor
  · rintro ⟨m, b, hb, hkey⟩
    refine ⟨m, b, ?_, hkey⟩
    rw [← h.assets m fun id g hg hgone hmedia => ?_]
    · exact hb
    · rw [← hmedia, h.goneAssets id g hg hgone] at hb
      cases hb
  · rintro ⟨m, b, hb, hkey⟩
    refine ⟨m, b, ?_, hkey⟩
    rw [h.assets m fun id g hg hgone hmedia => ?_]
    · exact hb
    · subst hmedia
      obtain ⟨a, ha⟩ := hdb.asset id g hg
      have hverdict : abandonVerdict db₀ (g.candidate id) a g ≠ .keep := by
        have hstays := (gone_iff.mp hgone).2
        rw [stays_eq hg ha] at hstays
        simpa using hstays
      have hnone := (abandonVerdict_eq rfl hverdict).2.1
      rw [(asset?_eq_some ha).1] at hb
      cases hb
      rw [hnone] at hkey
      cases hkey

theorem gone_append {id' : String} :
    gone db₀ (taken ++ [id]) id' = (gone db₀ taken id' || (decide (id' = id) && !stays db₀ id')) := by
  unfold gone
  by_cases htaken : id' ∈ taken <;> by_cases hid : id' = id <;> simp [htaken, hid]

/-- A sweep takes a candidate that is still there. -/
theorem Swept.step (h : Swept db₀ taken db) (hdb : Consistent db₀)
    (hg : db₀.grants.get? id = some g) (hfence : g.pastFence now = true)
    (hthere : gone db₀ taken id = false) :
    Swept db₀ (taken ++ [id]) (sweepOne now db (g.candidate id)) := by
  obtain ⟨a, ha⟩ := hdb.asset id g hg
  obtain ⟨state, hgrant⟩ := h.grant hg hthere
  have hmem : id ∈ db.grants.keys := Dict.mem_keys.mpr ⟨_, hgrant⟩
  have hverdict : abandonVerdict db (g.candidate id) a { g with state } =
      abandonVerdict db₀ (g.candidate id) a g :=
    abandonVerdict_congr h.queue (h.objectKeys hdb) rfl
  have hclosedKeys : (closed db (g.candidate id) { g with state }).grants.keys = db.grants.keys := by
    unfold closed
    split
    · exact Dict.keys_set_of_mem hmem _
    · rfl
  have hclosed : ∀ id', (closed db (g.candidate id) { g with state }).grants.get? id' =
      if id' = id then some { g with state := .closed } else db.grants.get? id' :=
    closed_get? hgrant
  have hone : sweepOne now db (g.candidate id) =
      if abandonVerdict db (g.candidate id) a { g with state } = .keep then
        closed db (g.candidate id) { g with state }
      else ((closed db (g.candidate id) { g with state }).eraseGrant id).eraseAsset g.mediaId :=
    sweepOne_eq (h.asset hdb hg ha hthere) hgrant rfl rfl hfence
  rw [hverdict] at hone
  have hstays := stays_eq hg ha
  have hother : ∀ id', id' ≠ id → sweptGrant db₀ (taken ++ [id]) id' = sweptGrant db₀ taken id' := by
    intro id' hne
    simp [sweptGrant, hne]
  by_cases hkeep : abandonVerdict db₀ (g.candidate id) a g = .keep
  · rw [if_pos hkeep] at hone
    have hstays : stays db₀ id = true := by simp [hstays, hkeep]
    have hgone : ∀ id', gone db₀ (taken ++ [id]) id' = gone db₀ taken id' := by
      intro id'
      rw [gone_append]
      by_cases hid : id' = id <;> simp [hid, hstays]
    rw [hone]
    refine ⟨?_, fun id' => ?_, ?_, ?_, ?_⟩
    · rw [closed_queue, h.queue]
    · rw [hclosed]
      by_cases hid : id' = id
      · subst hid
        rw [if_pos rfl]
        simp [sweptGrant, hstays, hg]
      · rw [if_neg hid, hother id' hid, h.grants]
    · rw [hclosedKeys, h.keys]
      simp only [hgone]
    · simp only [hgone, closed_assets]
      exact h.goneAssets
    · simp only [hgone, closed_assets]
      exact h.assets
  · rw [if_neg hkeep] at hone
    have hstays : stays db₀ id = false := by simp [hstays, hkeep]
    have hgone : ∀ id', gone db₀ (taken ++ [id]) id' = (gone db₀ taken id' || decide (id' = id)) := by
      intro id'
      rw [gone_append]
      by_cases hid : id' = id <;> simp [hid, hstays]
    obtain ⟨hgrants, hassets⟩ := eraseGrant_eraseAsset_get?
      (closed db (g.candidate id) { g with state }) id g.mediaId
    rw [hone]
    refine ⟨?_, fun id' => ?_, ?_, fun id' g' hg' hg'' => ?_, fun m hm => ?_⟩
    · exact (closed_queue db (g.candidate id) { g with state }).trans h.queue
    · refine (hgrants id').trans ?_
      by_cases hid : id' = id
      · subst hid
        simp [sweptGrant, hstays]
      · rw [if_neg hid, hclosed, if_neg hid, hother id' hid, h.grants]
    · refine (Dict.keys_erase ..).trans ?_
      rw [hclosedKeys, h.keys, List.filter_filter]
      apply List.filter_congr
      intro id' _
      rw [hgone]
      by_cases hid : id' = id <;> simp [hid]
    · refine (hassets g'.mediaId).trans ?_
      by_cases hm : g'.mediaId = g.mediaId
      · exact if_pos hm
      · rw [if_neg hm, closed_assets]
        rw [hgone, Bool.or_eq_true, decide_eq_true_eq] at hg''
        rcases hg'' with hg'' | rfl
        · exact h.goneAssets id' g' hg' hg''
        · rw [hg] at hg'
          cases hg'
          exact absurd rfl hm
    · refine (hassets m).trans ?_
      have hne : m ≠ g.mediaId := by
        rintro rfl
        exact hm id g hg (by simp [hgone]) rfl
      rw [if_neg hne, closed_assets]
      exact h.assets m fun id' g' hg' hg'' => hm id' g' hg' (by simp [hgone, hg''])

theorem candidate?_eq_some {c : Candidate} : candidate? db now id = some c ↔
    ∃ g, db.grants.get? id = some g ∧ g.state ≠ .expired ∧ db.assets.contains g.mediaId = true ∧
      g.pastFence now = true ∧ g.candidate id = c := by
  unfold candidate? UploadGrant.candidate
  cases db.grants.get? id with
  | none => simp
  | some g => simp [and_assoc]

theorem Swept.candidate (h : Swept db₀ taken db) (hdb : Consistent db₀)
    (htaken : ∀ id ∈ taken, (candidate? db₀ now id).isSome = true) (id : String) :
    candidate? db now id = if gone db₀ taken id then none else candidate? db₀ now id := by
  cases hgone : gone db₀ taken id with
  | true =>
    obtain ⟨hmem, hstays⟩ := gone_iff.mp hgone
    have hnone : db.grants.get? id = none := by
      rw [h.grants, sweptGrant, if_pos hmem, hstays]
      rfl
    simp [candidate?, hnone]
  | false =>
    rw [if_neg (by simp)]
    cases hg : db₀.grants.get? id with
    | none =>
      have hnone : db.grants.get? id = none := by
        rw [h.grants, sweptGrant, hg]
        split_ifs <;> rfl
      simp [candidate?, hg, hnone]
    | some g =>
      obtain ⟨a, ha⟩ := hdb.asset id g hg
      have hcontains : db.assets.contains g.mediaId = true := by
        rw [Dict.contains, (asset?_eq_some (h.asset hdb hg ha hgone)).1]
        rfl
      have hcontains₀ : db₀.assets.contains g.mediaId = true := by
        rw [Dict.contains, (asset?_eq_some ha).1]
        rfl
      by_cases hmem : id ∈ taken
      · have hstays : stays db₀ id = true := by simpa [gone, hmem] using hgone
        obtain ⟨c, hc⟩ := Option.isSome_iff_exists.mp (htaken id hmem)
        obtain ⟨g', hg', hopen, -, hfence, rfl⟩ := candidate?_eq_some.mp hc
        rw [hg] at hg'
        cases hg'
        rw [hc, candidate?_eq_some]
        refine ⟨{ g with state := .closed }, ?_, by simp, hcontains, hfence, rfl⟩
        rw [h.grants, sweptGrant, if_pos hmem, if_pos hstays, hg]
        rfl
      · have hsame : db.grants.get? id = some g := by
          rw [h.grants, sweptGrant, if_neg hmem, hg]
        simp only [candidate?, hsame, hg, hcontains, hcontains₀]

end

section

variable {reservedAt : String → Int} {db₀ db : MediaDb} {taken : List String} {now : Int}

/-- The selection of a later sweep is what is left of the first. -/
theorem Swept.candidates (h : Swept db₀ taken db) (hdb : Consistent db₀)
    (htaken : ∀ id ∈ taken, (candidate? db₀ now id).isSome = true) :
    candidates reservedAt db now =
      (Media.candidates reservedAt db₀ now).filter fun c => !gone db₀ taken c.grantId := by
  have hfilter : ∀ ids : List String,
      (ids.filter fun id => !gone db₀ taken id).filterMap (candidate? db now) =
        (ids.filterMap (candidate? db₀ now)).filter fun c => !gone db₀ taken c.grantId := by
    intro ids
    induction ids with
    | nil => rfl
    | cons id ids ih =>
      have hc := h.candidate hdb htaken id
      cases hgone : gone db₀ taken id with
      | true =>
        rw [List.filter_cons_of_neg (by simp [hgone]), ih]
        cases hid : candidate? db₀ now id with
        | none => rw [List.filterMap_cons_none hid]
        | some c =>
          obtain ⟨g, -, -, -, -, rfl⟩ := candidate?_eq_some.mp hid
          rw [List.filterMap_cons_some hid, List.filter_cons_of_neg]
          simp [UploadGrant.candidate, hgone]
      | false =>
        rw [hgone, if_neg (by simp)] at hc
        rw [List.filter_cons_of_pos (by simp [hgone])]
        cases hid : candidate? db₀ now id with
        | none => rw [List.filterMap_cons_none hid, List.filterMap_cons_none (hc.trans hid), ih]
        | some c =>
          obtain ⟨g, -, -, -, -, rfl⟩ := candidate?_eq_some.mp hid
          rw [List.filterMap_cons_some hid, List.filterMap_cons_some (hc.trans hid), ih,
            List.filter_cons_of_pos]
          simp [UploadGrant.candidate, hgone]
  have : IsTrans String fun a b => reservedAt a ≤ reservedAt b := ⟨fun _ _ _ => le_trans⟩
  have : Std.Total fun a b : String => reservedAt a ≤ reservedAt b := ⟨fun _ _ => le_total _ _⟩
  unfold Media.candidates
  rw [h.keys, Batches.insertionSort_filter, hfilter]

end

/-! ## One sweep after another -/

theorem candidates_grantIds (reservedAt : String → Int) (db : MediaDb) (now : Int) :
    ((candidates reservedAt db now).map (·.grantId)).Nodup ∧
      ∀ c ∈ candidates reservedAt db now, candidate? db now c.grantId = some c := by
  have hid : ∀ {id c}, candidate? db now id = some c → c.grantId = id := by
    intro id c hc
    obtain ⟨g, -, -, -, -, rfl⟩ := candidate?_eq_some.mp hc
    rfl
  constructor
  · have hkeys : (db.grants.keys.insertionSort fun a b => reservedAt a ≤ reservedAt b).Nodup :=
      (List.perm_insertionSort _ _).nodup_iff.mpr db.grants.keys_nodup
    unfold candidates
    generalize db.grants.keys.insertionSort (fun a b => reservedAt a ≤ reservedAt b) = ids at hkeys
    induction ids with
    | nil => exact List.nodup_nil
    | cons id ids ih =>
      obtain ⟨hnot, hids⟩ := List.nodup_cons.mp hkeys
      cases hc : candidate? db now id with
      | none =>
        rw [List.filterMap_cons_none hc]
        exact ih hids
      | some c =>
        rw [List.filterMap_cons_some hc, List.map_cons, List.nodup_cons, hid hc]
        refine ⟨fun h => hnot ?_, ih hids⟩
        obtain ⟨d, hd, rfl⟩ := List.mem_map.mp h
        obtain ⟨id', hid', hd⟩ := List.mem_filterMap.mp hd
        rw [hid hd]
        exact hid'
  · intro c hc
    obtain ⟨id, -, hid'⟩ := List.mem_filterMap.mp hc
    rw [hid hid']
    exact hid'

theorem gone_append_all {db₀ : MediaDb} {taken ids : List String} {id : String} :
    gone db₀ (taken ++ ids) id = (gone db₀ taken id || (decide (id ∈ ids) && !stays db₀ id)) := by
  unfold gone
  by_cases htaken : id ∈ taken <;> by_cases hid : id ∈ ids <;> simp [htaken, hid]

section

variable {reservedAt : String → Int} {db₀ db : MediaDb} {taken : List String} {now : Int}

theorem Swept.fold (hdb : Consistent db₀) {cs : List Candidate} (h : Swept db₀ taken db)
    (hnodup : (cs.map (·.grantId)).Nodup)
    (hcs : ∀ c ∈ cs, candidate? db₀ now c.grantId = some c ∧ gone db₀ taken c.grantId = false) :
    Swept db₀ (taken ++ cs.map (·.grantId)) (cs.foldl (sweepOne now) db) := by
  induction cs generalizing taken db with
  | nil => simpa using h
  | cons c cs ih =>
    obtain ⟨hnot, hnodup⟩ := List.nodup_cons.mp hnodup
    obtain ⟨hc, hthere⟩ := hcs c List.mem_cons_self
    obtain ⟨g, hg, -, -, hfence, he⟩ := candidate?_eq_some.mp hc
    have hstep := h.step hdb hg hfence hthere
    rw [he] at hstep
    have hrest := ih hstep hnodup fun d hd => by
      obtain ⟨hd', hdthere⟩ := hcs d (List.mem_cons_of_mem c hd)
      have hne : d.grantId ≠ c.grantId := fun hid =>
        hnot (List.mem_map.mpr ⟨d, hd, hid⟩)
      rw [gone_append, hdthere]
      simp [hd', hne]
    rwa [List.append_assoc] at hrest

/-- What a sweep leaves of the selection is what a round leaves of the queue. -/
theorem gone_round {batchSize : Nat} {L : List Candidate}
    (hnodup : (L.map (·.grantId)).Nodup) {queue : List Candidate}
    (hqueue : queue = L.filter fun c => !gone db₀ taken c.grantId) :
    Batches.round batchSize (fun c => stays db₀ c.grantId) queue =
      L.filter fun c =>
        !gone db₀ (taken ++ (queue.take batchSize).map (·.grantId)) c.grantId := by
  have hqueueNodup : (queue.map (·.grantId)).Nodup := by
    rw [hqueue]
    exact (List.filter_sublist.map _).nodup hnodup
  have hsplit : (L.filter fun c =>
      !gone db₀ (taken ++ (queue.take batchSize).map (·.grantId)) c.grantId) =
        queue.filter fun c =>
          !(decide (c.grantId ∈ (queue.take batchSize).map (·.grantId)) && !stays db₀ c.grantId) := by
    conv_rhs => rw [hqueue]
    rw [List.filter_filter]
    apply List.filter_congr
    intro c _
    rw [gone_append_all, Bool.not_or, Bool.and_comm, ← hqueue]
  rw [hsplit, Batches.round]
  conv_rhs => rw [← List.take_append_drop batchSize queue]
  rw [List.filter_append, List.take_append_drop]
  congr 1
  · apply List.filter_congr
    intro c hc
    have hmem : c.grantId ∈ (queue.take batchSize).map (·.grantId) := List.mem_map_of_mem hc
    rw [decide_eq_true hmem, Bool.true_and, Bool.not_not]
  · refine (List.filter_eq_self.mpr fun c hc => ?_).symm
    rw [← List.take_append_drop batchSize queue, List.map_append] at hqueueNodup
    have hnot : c.grantId ∉ (queue.take batchSize).map (·.grantId) := fun hmem =>
      (List.nodup_append.mp hqueueNodup).2.2 _ hmem _ (List.mem_map_of_mem hc) rfl
    rw [decide_eq_false hnot]
    rfl

/-- Sweeps while no other grant passes its fence. -/
theorem Swept.sweeps (hdb : Consistent db₀) {batchSize : Nat} {queue : List Candidate}
    {times : List Int} (htimes : ∀ t ∈ times, candidate? db₀ t = candidate? db₀ now)
    (h : Swept db₀ taken db) (htaken : ∀ id ∈ taken, (candidate? db₀ now id).isSome = true)
    (hqueue : queue =
      (Media.candidates reservedAt db₀ now).filter fun c => !gone db₀ taken c.grantId) :
    Swept db₀
      (taken ++ (Batches.taken batchSize (fun c => stays db₀ c.grantId) times.length queue).map
        (·.grantId))
      (times.foldl (sweep reservedAt batchSize) db) := by
  induction times generalizing taken db queue with
  | nil => simpa [Batches.taken] using h
  | cons t times ih =>
    obtain ⟨hnodup, hcandidate⟩ := candidates_grantIds reservedAt db₀ now
    have ht : candidate? db₀ t = candidate? db₀ now := htimes t List.mem_cons_self
    have hpresent : Media.candidates reservedAt db t = queue := by
      rw [h.candidates hdb fun id hid => ht ▸ htaken id hid, hqueue]
      unfold Media.candidates
      rw [ht]
    have hmem : ∀ c ∈ queue.take batchSize,
        candidate? db₀ now c.grantId = some c ∧ gone db₀ taken c.grantId = false := by
      intro c hc
      have hc := List.mem_of_mem_take hc
      rw [hqueue] at hc
      obtain ⟨hc, hthere⟩ := List.mem_filter.mp hc
      exact ⟨hcandidate c hc, by simpa using hthere⟩
    have hbatch : ((queue.take batchSize).map (·.grantId)).Nodup := by
      rw [hqueue]
      exact (((List.take_sublist batchSize _).trans List.filter_sublist).map _).nodup hnodup
    have hswept : Swept db₀ (taken ++ (queue.take batchSize).map (·.grantId))
        (sweep reservedAt batchSize db t) := by
      unfold sweep
      rw [hpresent]
      exact h.fold hdb hbatch fun c hc => ⟨by rw [ht]; exact (hmem c hc).1, (hmem c hc).2⟩
    have hrest := ih (fun u hu => htimes u (List.mem_cons_of_mem t hu)) hswept ?_
      (gone_round hnodup hqueue)
    · rwa [List.append_assoc, ← List.map_append] at hrest
    · intro id hid
      rcases List.mem_append.mp hid with hid | hid
      · exact htaken id hid
      · obtain ⟨c, hc, rfl⟩ := List.mem_map.mp hid
        rw [(hmem c hc).1]
        rfl

end

/-! ## Whether every candidate is handled -/

/-- The grant is closed, or its rows are gone. -/
def Handled (db : MediaDb) (c : Candidate) : Prop :=
  (∃ g, db.grants.get? c.grantId = some g ∧ g.state = .closed) ∨
    (db.grants.get? c.grantId = none ∧ db.assets.get? c.mediaId = none)

theorem Swept.handled_iff {db₀ db : MediaDb} {taken : List String} {now : Int} {c : Candidate}
    (h : Swept db₀ taken db) (hc : candidate? db₀ now c.grantId = some c) :
    Handled db c ↔ c.grantId ∈ taken ∨
      ∃ g, db₀.grants.get? c.grantId = some g ∧ g.state = .closed := by
  obtain ⟨g, hg, -, -, -, he⟩ := candidate?_eq_some.mp hc
  have hmedia : g.mediaId = c.mediaId := by rw [← he]; rfl
  by_cases hmem : c.grantId ∈ taken
  · refine iff_of_true ?_ (.inl hmem)
    cases hstays : stays db₀ c.grantId with
    | true =>
      left
      refine ⟨{ g with state := .closed }, ?_, rfl⟩
      rw [h.grants, sweptGrant, if_pos hmem, if_pos hstays, hg]
      rfl
    | false =>
      right
      constructor
      · rw [h.grants, sweptGrant, if_pos hmem, hstays]
        rfl
      · rw [← hmedia]
        exact h.goneAssets _ g hg (gone_iff.mpr ⟨hmem, hstays⟩)
  · have hsame : db.grants.get? c.grantId = db₀.grants.get? c.grantId := by
      rw [h.grants, sweptGrant, if_neg hmem]
    simp only [Handled, hsame, hg, hmem, false_or, reduceCtorEq, false_and, or_false]

/-- Sweep as often as there are candidates: every one is handled if and only if each that is not
closed has fewer than a batch before it that stay. -/
theorem sweeps_handle_iff {db : MediaDb} (hdb : Consistent db) (reservedAt : String → Int)
    (batchSize : Nat) (now : Int) (times : List Int)
    (htimes : ∀ t ∈ times, ∀ id g, db.grants.get? id = some g → g.pastFence t = g.pastFence now)
    (hlength : times.length = (candidates reservedAt db now).length) :
    (∀ c ∈ candidates reservedAt db now,
      Handled (times.foldl (sweep reservedAt batchSize) db) c) ↔
      ∀ before c after, candidates reservedAt db now = before ++ c :: after →
        (∀ g, db.grants.get? c.grantId = some g → g.state ≠ .closed) →
          before.countP (fun d => stays db d.grantId) < batchSize := by
  obtain ⟨hnodup, hcandidate⟩ := candidates_grantIds reservedAt db now
  have htimes' : ∀ t ∈ times, candidate? db t = candidate? db now := by
    intro t ht
    funext id
    unfold candidate?
    cases hg : db.grants.get? id with
    | none => rfl
    | some g => simp only [htimes t ht id g hg]
  have hswept := @Swept.sweeps reservedAt db _ _ now hdb batchSize _ _ htimes'
    (Swept.start db) (fun id hid => by cases hid) rfl
  have hall : (candidates reservedAt db now).filter (fun c => !gone db [] c.grantId) =
      candidates reservedAt db now := by
    simp [gone]
  rw [hall, List.nil_append, hlength] at hswept
  have hiff : ∀ before c after, candidates reservedAt db now = before ++ c :: after →
      (Handled (times.foldl (sweep reservedAt batchSize) db) c ↔
        before.countP (fun d => stays db d.grantId) < batchSize ∨
          ∃ g, db.grants.get? c.grantId = some g ∧ g.state = .closed) := by
    intro before c after he
    have hc : candidate? db now c.grantId = some c := hcandidate c (by simp [he])
    rw [hswept.handled_iff hc]
    refine or_congr ?_ Iff.rfl
    rw [he, List.map_append, List.map_cons] at hnodup
    have hbefore : c ∉ before := fun hmem =>
      (List.nodup_append.mp hnodup).2.2 _ (List.mem_map_of_mem hmem) _ List.mem_cons_self rfl
    have hlt : before.length < (before ++ c :: after).length := by simp
    rw [← @Batches.mem_taken_iff _ _ _ before after _ _ hbefore hlt, ← he]
    constructor
    · intro h
      obtain ⟨d, hd, hid⟩ := List.mem_map.mp h
      have hd' := hcandidate d (Batches.mem_of_mem_taken hd)
      rw [hid, hc] at hd'
      cases hd'
      exact hd
    · exact fun h => List.mem_map.mpr ⟨c, h, rfl⟩
  constructor
  · intro h before c after he hopen
    refine ((hiff before c after he).mp (h c (by simp [he]))).resolve_right ?_
    rintro ⟨g, hg, hclosed⟩
    exact hopen g hg hclosed
  · intro h c hc
    obtain ⟨before, after, he⟩ := List.append_of_mem hc
    rw [hiff before c after he]
    by_cases hclosed : ∃ g, db.grants.get? c.grantId = some g ∧ g.state = .closed
    · exact .inr hclosed
    · exact .inl (h before c after he fun g hg hstate => hclosed ⟨g, hg, hstate⟩)

def newerId : String := "66666666-6666-4666-8666-666666666666"

def newerGrantId : String := "77777777-7777-4777-8777-777777777777"

/-- Two uploads that never came. -/
def lateUploads : MediaDb where
  queue := .empty
  assets := (Dict.empty.set leafId pendingLeaf).set newerId pendingLeaf
  grants := (Dict.empty.set leafGrantId leafGrant).set newerGrantId
    { leafGrant with mediaId := newerId, objectKey := stagingKey leafRoom newerGrantId }
  derivatives := .empty

def lateReservedAt (grantId : String) : Int := if grantId = leafGrantId then 0 else 1

theorem lateUploads_grants {id : String} {g : UploadGrant}
    (hg : lateUploads.grants.get? id = some g) :
    (id = leafGrantId ∧ g = leafGrant) ∨
      (id = newerGrantId ∧ g = { leafGrant with
        mediaId := newerId, objectKey := stagingKey leafRoom newerGrantId }) := by
  rw [lateUploads, Dict.get?_set, Dict.get?_set] at hg
  by_cases hnewer : id = newerGrantId
  · rw [if_pos hnewer] at hg
    cases hg
    exact .inr ⟨hnewer, rfl⟩
  · rw [if_neg hnewer] at hg
    by_cases hleaf : id = leafGrantId
    · rw [if_pos hleaf] at hg
      cases hg
      exact .inl ⟨hleaf, rfl⟩
    · rw [if_neg hleaf] at hg
      cases hg

theorem lateUploads_consistent : Consistent lateUploads where
  asset id g hg := by
    obtain ⟨-, rfl⟩ | ⟨-, rfl⟩ := lateUploads_grants hg
    · exact ⟨pendingLeaf, by decide +kernel⟩
    · exact ⟨pendingLeaf, by decide +kernel⟩
  unique id id' g g' hg hg' hmedia := by
    obtain ⟨rfl, rfl⟩ | ⟨rfl, rfl⟩ := lateUploads_grants hg <;>
      obtain ⟨rfl, rfl⟩ | ⟨rfl, rfl⟩ := lateUploads_grants hg'
    · rfl
    · exact absurd hmedia (by decide)
    · exact absurd hmedia (by decide)
    · rfl

theorem lateUploads_candidates :
    candidates lateReservedAt lateUploads 2000 =
      [⟨leafGrantId, leafId, leafRoom, stagingKey leafRoom leafGrantId⟩,
        ⟨newerGrantId, newerId, leafRoom, stagingKey leafRoom newerGrantId⟩] := by
  decide +kernel

/-- In batches of two, one of the sweeps is enough. -/
theorem sweeps_handle_iff_two :
    Consistent lateUploads ∧ ∀ c ∈ candidates lateReservedAt lateUploads 2000,
      Handled ([2000, 2060].foldl (sweep lateReservedAt 2) lateUploads) c := by
  refine ⟨lateUploads_consistent, ?_⟩
  refine (sweeps_handle_iff lateUploads_consistent lateReservedAt 2 2000 [2000, 2060] ?_ ?_).mpr ?_
  · intro t ht id g hg
    simp only [List.mem_cons, List.not_mem_nil, or_false] at ht
    obtain ⟨-, rfl⟩ | ⟨-, rfl⟩ := lateUploads_grants hg <;> rcases ht with rfl | rfl <;> decide
  · rw [lateUploads_candidates]
    rfl
  · intro before c after he _
    have hlength : before.length + (after.length + 1) = 2 := by
      have h := congrArg List.length he
      rw [lateUploads_candidates, List.length_append] at h
      exact h.symm
    have hcount : before.countP (fun d => stays lateUploads d.grantId) ≤ before.length :=
      List.countP_le_length
    omega

/-- In batches of one, the older upload is swept again and again. -/
theorem sweeps_leave_newer :
    ¬ ∀ (db : MediaDb) (reservedAt : String → Int) (batchSize : Nat) (now : Int), Consistent db →
      1 ≤ batchSize → ∀ c ∈ candidates reservedAt db now,
        Handled ((List.replicate (candidates reservedAt db now).length now).foldl
          (sweep reservedAt batchSize) db) c := by
  intro h
  have hc := h lateUploads lateReservedAt 1 2000 lateUploads_consistent (Nat.le_refl 1)
    ⟨newerGrantId, newerId, leafRoom, stagingKey leafRoom newerGrantId⟩
    (by rw [lateUploads_candidates]; simp)
  rw [lateUploads_candidates] at hc
  have hstate : (([2000, 2000].foldl (sweep lateReservedAt 1) lateUploads).grants.get?
      newerGrantId).map (·.state) = some .active := by decide +kernel
  rcases hc with ⟨g, hg, hclosed⟩ | ⟨hnone, -⟩
  · rw [show List.replicate _ (2000 : Int) = [2000, 2000] from rfl] at hg
    rw [hg, Option.map_some, hclosed] at hstate
    cases hstate
  · rw [show List.replicate _ (2000 : Int) = [2000, 2000] from rfl] at hnone
    rw [hnone] at hstate
    cases hstate

end LearningOrbit.Media
