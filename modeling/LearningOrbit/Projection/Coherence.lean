import LearningOrbit.Projection.MergeLog
import LearningOrbit.Reference.EchoRun
import LearningOrbit.Reference.Outcomes

/-!
# What is visible and what is archived

An edge id is the digest of the names of the edge, joined by a separator the names may
hold themselves. While a snapshot finds a different id for each edge, what is visible and
what is archived stay apart and a snapshot at the same instant repeats itself. A merge and
its undo carry both over to the edges the contributions have under the new names.
-/

namespace LearningOrbit.Projection

open LearningOrbit (Host Dict Along)
open LearningOrbit.Reference

/-! ## One snapshot -/

section Loop

variable {h : Host} {f : Floats} {v : Visibility} {records : Dict (List String) Aggregate}
  {d : Draft} {key : List String} {keys : List (List String)}

/-- The round of a key shows its edge. -/
def Shows (h : Host) (v : Visibility) (records : Dict (List String) Aggregate)
    (key : List String) : Prop :=
  threshold h v key ≤ ((records.get? key).getD .empty).channels.activity

theorem visit_of_shows (hs : Shows h v records key) :
    (visit h f v records d key).visible = stableId h "edge" key :: d.visible ∧
      (visit h f v records d key).archived =
        d.archived.filter (· ≠ stableId h "edge" key) := by
  unfold Shows at hs
  simp only [visit, if_pos hs, and_self]

theorem visit_of_not_shows (hs : ¬Shows h v records key) :
    (visit h f v records d key).visible = d.visible ∧
      (visit h f v records d key).archived =
        if stableId h "edge" key ∈ v.visible then stableId h "edge" key :: d.archived
        else d.archived := by
  unfold Shows at hs
  by_cases hv : stableId h "edge" key ∈ v.visible
  · simp only [visit, if_neg hs, if_pos hv, and_self]
  · simp only [visit, if_neg hs, if_neg hv, and_self]

/-- A round forgets no edge. -/
theorem visit_keeps {id : String} (hid : id ∈ d.visible ∨ id ∈ d.archived) :
    id ∈ (visit h f v records d key).visible ∨ id ∈ (visit h f v records d key).archived := by
  by_cases hs : Shows h v records key
  · rw [(visit_of_shows hs).1, (visit_of_shows hs).2]
    by_cases hkey : id = stableId h "edge" key
    · exact .inl (hkey ▸ List.mem_cons_self ..)
    · rcases hid with hid | hid
      · exact .inl (List.mem_cons_of_mem _ hid)
      · exact .inr (List.mem_filter.mpr ⟨hid, decide_eq_true hkey⟩)
  · rw [(visit_of_not_shows hs).1, (visit_of_not_shows hs).2]
    rcases hid with hid | hid
    · exact .inl hid
    · right
      split
      · exact List.mem_cons_of_mem _ hid
      · exact hid

theorem visits_keep {id : String} (hid : id ∈ d.visible ∨ id ∈ d.archived) :
    id ∈ (keys.foldl (visit h f v records) d).visible ∨
      id ∈ (keys.foldl (visit h f v records) d).archived := by
  induction keys generalizing d with
  | nil => exact hid
  | cons key keys ih => exact ih (visit_keeps hid)

/-- A hidden edge is archived under its id, which must not be the id of a shown one. -/
theorem visit_disjoint (hd : ∀ id ∈ d.visible, id ∉ d.archived)
    (hhidden : ¬Shows h v records key → stableId h "edge" key ∉ d.visible) :
    ∀ id ∈ (visit h f v records d key).visible, id ∉ (visit h f v records d key).archived := by
  intro id hid harchived
  by_cases hs : Shows h v records key
  · rw [(visit_of_shows hs).1] at hid
    rw [(visit_of_shows hs).2, List.mem_filter, decide_eq_true_eq] at harchived
    rcases List.mem_cons.mp hid with hid | hid
    · exact harchived.2 hid
    · exact hd id hid harchived.1
  · rw [(visit_of_not_shows hs).1] at hid
    rw [(visit_of_not_shows hs).2] at harchived
    split at harchived
    · rcases List.mem_cons.mp harchived with rfl | harchived
      · exact hhidden hs hid
      · exact hd id hid harchived
    · exact hd id hid harchived

theorem visits_disjoint
    (hapart : ∀ p ∈ keys, ∀ q ∈ keys, stableId h "edge" p = stableId h "edge" q → p = q)
    (hd : ∀ id ∈ d.visible, id ∉ d.archived)
    (hhidden : ∀ p ∈ keys, ¬Shows h v records p → stableId h "edge" p ∉ d.visible) :
    ∀ id ∈ (keys.foldl (visit h f v records) d).visible,
      id ∉ (keys.foldl (visit h f v records) d).archived := by
  induction keys generalizing d with
  | nil => exact hd
  | cons key keys ih =>
    have hkey := visit_disjoint (f := f) hd (hhidden key (List.mem_cons_self ..))
    refine ih (fun p hp q hq => hapart p (List.mem_cons_of_mem _ hp) q (List.mem_cons_of_mem _ hq))
      hkey fun p hp hnot hvisible => ?_
    have hp := List.mem_cons_of_mem key hp
    by_cases hs : Shows h v records key
    · rw [(visit_of_shows hs).1] at hvisible
      rcases List.mem_cons.mp hvisible with hsame | hvisible
      · exact hnot (hapart p hp key (List.mem_cons_self ..) hsame ▸ hs)
      · exact hhidden p hp hnot hvisible
    · rw [(visit_of_not_shows hs).1] at hvisible
      exact hhidden p hp hnot hvisible

/-- Where every visible edge is still shown and no shown edge is archived, the archive stays. -/
theorem visits_archived (hshown : ∀ p ∈ keys, Shows h v records p →
      stableId h "edge" p ∉ d.archived)
    (hhidden : ∀ p ∈ keys, ¬Shows h v records p → stableId h "edge" p ∉ v.visible) :
    (keys.foldl (visit h f v records) d).archived = d.archived := by
  induction keys generalizing d with
  | nil => rfl
  | cons key keys ih =>
    have hsame : (visit h f v records d key).archived = d.archived := by
      by_cases hs : Shows h v records key
      · rw [(visit_of_shows hs).2, List.filter_eq_self]
        intro id hid
        rw [decide_eq_true_eq]
        rintro rfl
        exact hshown key (List.mem_cons_self ..) hs hid
      · rw [(visit_of_not_shows hs).2, if_neg (hhidden key (List.mem_cons_self ..) hs)]
    rw [List.foldl_cons, ih _ fun p hp => hhidden p (List.mem_cons_of_mem _ hp), hsame]
    intro p hp hs
    rw [hsame]
    exact hshown p (List.mem_cons_of_mem _ hp) hs

end Loop

/-- Different edges of the active contributions have different ids. -/
def TellsApart (h : Host) (m : StreamingConceptMap) : Prop :=
  ∀ p ∈ m.contributions.values, ∀ q ∈ m.contributions.values, p.active = true → q.active = true →
    m.edgeIdForContribution h p = m.edgeIdForContribution h q → m.edgeKey p = m.edgeKey q

instance (h : Host) (m : StreamingConceptMap) : Decidable (TellsApart h m) :=
  inferInstanceAs (Decidable (∀ p ∈ m.contributions.values, _))

/-- The keys a snapshot goes through. -/
def sortedKeys (f : Floats) (m : StreamingConceptMap) (now : Int) : List (List String) :=
  (aggregate f m now).keys.insertionSort (· ≤ ·)

section Snapshot

variable {h : Host} {f : Floats} {m : StreamingConceptMap} {v : Visibility} {now : Option Int}

theorem TellsApart.keys (ht : TellsApart h m) (instant : Int) :
    ∀ p ∈ sortedKeys f m instant, ∀ q ∈ sortedKeys f m instant,
      stableId h "edge" p = stableId h "edge" q → p = q := by
  intro p hp q hq hsame
  obtain ⟨c, hc, hactive, rfl⟩ := aggregate_key ((List.mem_insertionSort _).mp hp)
  obtain ⟨c', hc', hactive', rfl⟩ := aggregate_key ((List.mem_insertionSort _).mp hq)
  exact ht c hc c' hc' hactive hactive' hsame

theorem snapshot_keeps {id : String} (hid : id ∈ v.visible ∨ id ∈ v.archived) :
    id ∈ (snapshot h f m v now).2.visible ∨ id ∈ (snapshot h f m v now).2.archived := by
  unfold snapshot
  dsimp only
  generalize (aggregate f m _).keys.insertionSort (· ≤ ·) = keys
  rcases hid with hid | hid
  · by_cases hshown : id ∈ (keys.foldl (visit h f v (aggregate f m (now.getD (m.watermark.getD 0))))
        ⟨[], v.archived, [], []⟩).visible
    · exact .inl hshown
    · exact .inr (List.mem_append_right _ (List.mem_filter.mpr ⟨hid, decide_eq_true hshown⟩))
  · have hloop := @visits_keep h f v (aggregate f m (now.getD (m.watermark.getD 0)))
      ⟨[], v.archived, [], []⟩ keys id (.inr hid)
    exact hloop.imp_right (List.mem_append_left _)

theorem snapshot_disjoint (ht : TellsApart h m) :
    ∀ id ∈ (snapshot h f m v now).2.visible, id ∉ (snapshot h f m v now).2.archived := by
  intro id hid harchived
  rcases List.mem_append.mp harchived with harchived | hold
  · refine visits_disjoint (ht.keys (now.getD (m.watermark.getD 0))) ?_ ?_ id hid harchived
    · intro id hnone
      cases hnone
    · intro p hp hnot hnone
      cases hnone
  · exact of_decide_eq_true (List.mem_filter.mp hold).2 hid

/-- The ids a snapshot returns. -/
def EchoSnapshot.ids (s : EchoSnapshot) : List String :=
  s.edges.map SnapshotEdge.edgeId ++ s.archivedEdgeIds

theorem snapshot_ids {id : String} (hid : id ∈ (snapshot h f m v now).1.ids) :
    id ∈ (snapshot h f m v now).2.visible ∨ id ∈ (snapshot h f m v now).2.archived := by
  rcases List.mem_append.mp hid with hid | hid
  · rw [snapshot_edges, List.map_map] at hid
    rw [snapshot_visible, List.mem_reverse]
    exact .inl hid
  · exact .inr (List.mem_dedup.mp ((List.mem_insertionSort _).mp hid))

theorem TellsApart.mem_shown (ht : TellsApart h m) {instant : Int} {key : List String}
    (hkey : key ∈ sortedKeys f m instant) :
    stableId h "edge" key ∈ ((shownKeys h f m v instant).map (stableId h "edge")).reverse ↔
      threshold h v key ≤ activityAt f instant (backing m key) := by
  rw [List.mem_reverse, ← mem_shownKeys]
  constructor
  · intro hid
    obtain ⟨other, hother, hsame⟩ := List.mem_map.mp hid
    rw [← ht.keys instant other (List.mem_filter.mp hother).1 key hkey hsame]
    exact hother
  · exact List.mem_map_of_mem

/-- What a snapshot has shown it shows again, and nothing else. -/
theorem shownKeys_again (ht : TellsApart h m) {instant : Int} (w : Visibility)
    (hw : w.visible = ((shownKeys h f m v instant).map (stableId h "edge")).reverse) :
    shownKeys h f m w instant = shownKeys h f m v instant := by
  unfold shownKeys
  refine List.filter_congr fun key hkey => decide_eq_decide.mpr ?_
  have hvisible : stableId h "edge" key ∈ w.visible ↔
      threshold h v key ≤ activityAt f instant (backing m key) := by
    rw [hw]
    exact ht.mem_shown hkey
  have hband : THETA_OFF ≤ THETA_ON := by decide +kernel
  by_cases hs : threshold h v key ≤ activityAt f instant (backing m key)
  · rw [threshold, if_pos (hvisible.mpr hs)]
    refine iff_of_true (le_trans ?_ hs) hs
    unfold threshold
    split
    · exact le_refl _
    · exact hband
  · rw [threshold, if_neg (fun hid => hs (hvisible.mp hid))]
    refine iff_of_false (fun hon => hs (le_trans ?_ hon)) hs
    unfold threshold
    split
    · exact hband
    · exact le_refl _

theorem snapshot_again (ht : TellsApart h m) :
    (snapshot h f m (snapshot h f m v now).2 now).1.edges = (snapshot h f m v now).1.edges ∧
      (snapshot h f m (snapshot h f m v now).2 now).1.archivedEdgeIds =
        (snapshot h f m v now).1.archivedEdgeIds := by
  have hshown := shownKeys_again ht _ (snapshot_visible h f m v now)
  have hdisjoint : ∀ id ∈ (snapshot h f m v now).2.visible,
      id ∉ (snapshot h f m v now).2.archived := snapshot_disjoint ht
  have hvisible : (snapshot h f m (snapshot h f m v now).2 now).2.visible =
      (snapshot h f m v now).2.visible := by
    rw [snapshot_visible, hshown, snapshot_visible]
  have harchived : (snapshot h f m v now).1.archivedEdgeIds =
      Text.sortedSet (snapshot h f m v now).2.archived := rfl
  rw [harchived, snapshot_edges, snapshot_edges, hshown]
  generalize (snapshot h f m v now).2 = w at hdisjoint hvisible
  refine ⟨rfl, congrArg Text.sortedSet ?_⟩
  -- the second loop archives nothing and takes nothing back
  have hmem : ∀ p ∈ sortedKeys f m (now.getD (m.watermark.getD 0)),
      (stableId h "edge" p ∈ w.visible ↔
        Shows h w (aggregate f m (now.getD (m.watermark.getD 0))) p) := by
    intro p hp
    unfold Shows
    rw [← hvisible, snapshot_visible, aggregate_activity]
    exact ht.mem_shown hp
  have hloop := visits_archived (f := f) (d := ⟨[], w.archived, [], []⟩)
    (fun p hp hs => hdisjoint _ ((hmem p hp).mpr hs)) (fun p hp hs hv => hs ((hmem p hp).mp hv))
  have hrest : w.visible.filter (· ∉ (snapshot h f m w now).2.visible) = [] := by
    rw [hvisible]
    simp
  calc (snapshot h f m w now).2.archived
      = w.archived ++ w.visible.filter (· ∉ (snapshot h f m w now).2.visible) :=
        congrArg (· ++ _) hloop
    _ = w.archived := by rw [hrest, List.append_nil]

theorem snapshot_instant {now' : Option Int}
    (hnow : now'.getD (m.watermark.getD 0) = now.getD (m.watermark.getD 0)) :
    snapshot h f m v now' = snapshot h f m v now := by
  unfold snapshot
  rw [hnow]

end Snapshot

/-! ## Edges carried over -/

/-- Contributions are stored under their own ids. -/
def Keyed (m : StreamingConceptMap) : Prop :=
  ∀ key c, m.contributions.get? key = some c → c.contributionId = key

theorem Keyed.deactivate {m : StreamingConceptMap} (hm : Keyed m) (target : String) :
    Keyed (m.deactivate target) := by
  intro key c hc
  rw [StreamingConceptMap.get?_deactivate, Option.map_eq_some_iff] at hc
  obtain ⟨old, hold, rfl⟩ := hc
  rw [← hm key old hold]
  split <;> rfl

theorem keyed_staged {contributions : Dict String ConceptContribution}
    (hm : ∀ key c, contributions.get? key = some c → c.contributionId = key)
    (staged : List ConceptContribution) :
    ∀ key c, (staged.foldl (fun d c => d.set c.contributionId c) contributions).get? key = some c →
      c.contributionId = key := by
  induction staged generalizing contributions with
  | nil => exact hm
  | cons first staged ih =>
    refine ih fun key c hc => ?_
    rw [Dict.get?_set] at hc
    split at hc
    · rename_i hkey
      cases hc
      exact hkey.symm
    · exact hm key c hc

theorem Keyed.call {h : Host} {extract : PropositionExtractor} {m : StreamingConceptMap}
    (hm : Keyed m) (input : ConceptInput) : Keyed (m.call h extract input) := by
  have hcase := StreamingConceptMap.apply_outcome h extract m input.event input.context true
  unfold StreamingConceptMap.call
  generalize m.apply h extract input.event input.context true = result at hcase
  cases hcase with
  | duplicate | raised => exact hm
  | late | stale => exact hm
  | retracted => exact hm.deactivate input.event.target
  | tombstoned => exact hm.deactivate input.event.eventId
  | applied _ _ _ _ replaces staged =>
    cases replaces with
    | true => exact keyed_staged (hm.deactivate input.event.target) staged
    | false => exact keyed_staged hm staged

namespace ConceptMapObject

section Carry

variable {h : Host} {m m' : StreamingConceptMap}

theorem edgeIdentityMap_get? (hm : Keyed m) {key old : String} :
    (edgeIdentityMap h m).get? key = some old ↔
      ∃ c, m.contributions.get? key = some c ∧ c.active = true ∧
        m.edgeIdForContribution h c = old := by
  unfold edgeIdentityMap
  have hfiled : ∀ c, c ∈ m.contributions.values.filter (·.active) ↔
      m.contributions.get? c.contributionId = some c ∧ c.active = true := by
    intro c
    rw [List.mem_filter, Dict.mem_values]
    constructor
    · rintro ⟨⟨k, hk⟩, hactive⟩
      exact ⟨hm k c hk ▸ hk, hactive⟩
    · rintro ⟨hk, hactive⟩
      exact ⟨⟨_, hk⟩, hactive⟩
  by_cases hkey : key ∈ (m.contributions.values.filter (·.active)).map (·.contributionId)
  · obtain ⟨c, hc, rfl, hget⟩ := Dict.get?_foldl_set_of_mem ConceptContribution.contributionId
      (m.edgeIdForContribution h) Dict.empty hkey
    obtain ⟨hc, hactive⟩ := (hfiled c).mp hc
    rw [hget]
    constructor
    · intro hold
      exact ⟨c, hc, hactive, Option.some.inj hold⟩
    · rintro ⟨c', hc', -, rfl⟩
      rw [Option.some.inj (hc.symm.trans hc')]
  · rw [Dict.get?_foldl_set_of_not_mem hkey, Dict.get?_empty]
    refine iff_of_false (by simp) ?_
    rintro ⟨c, hc, hactive, -⟩
    have hid := hm key c hc
    refine hkey (List.mem_map.mpr ⟨c, (hfiled c).mpr ⟨?_, hactive⟩, hid⟩)
    rw [hid]
    exact hc

/-- Where the edges of the active contributions go. -/
def moved (h : Host) (m : StreamingConceptMap) (before : Dict String String) :
    List (String × String) :=
  before.entries.filterMap fun entry =>
    ((m.contributions.get? entry.1).filter (·.active)).map fun item =>
      (entry.2, m.edgeIdForContribution h item)

/-- A set written as a list takes a new element at its end. -/
def noteSuccessor (ids : List String) (move : String × String) : List String :=
  if move.2 ∈ ids then ids else ids ++ [move.2]

theorem successors_eq (before : Dict String String) :
    successors h m before =
      (moved h m before).foldl (fun d move => d.modify move.1 [] (noteSuccessor · move)) .empty := by
  unfold successors moved
  rw [List.foldl_filterMap]
  congr 1
  funext d entry
  cases m.contributions.get? entry.1 with
  | none => rfl
  | some item => cases hactive : item.active <;> simp [Option.filter, hactive, noteSuccessor]

theorem mem_noteSuccessor {ids : List String} {moves : List (String × String)} {id : String} :
    id ∈ moves.foldl noteSuccessor ids ↔ id ∈ ids ∨ id ∈ moves.map Prod.snd := by
  induction moves generalizing ids with
  | nil => simp
  | cons move moves ih =>
    rw [List.foldl_cons, ih, List.map_cons, List.mem_cons, noteSuccessor]
    by_cases hmem : move.2 ∈ ids
    · rw [if_pos hmem]
      grind
    · rw [if_neg hmem, List.mem_append, List.mem_singleton, or_assoc]

/-- An edge is carried to all its successors, and stays where it has none. -/
theorem mem_carry (before : Dict String String) {edgeIds : List String} {id : String} :
    id ∈ carry (successors h m before) edgeIds ↔ ∃ old ∈ edgeIds,
      (old, id) ∈ moved h m before ∨ id = old ∧ ∀ new, (old, new) ∉ moved h m before := by
  unfold carry
  rw [List.mem_flatMap]
  refine exists_congr fun old => and_congr_right fun _ => ?_
  rw [successors_eq, Dict.get?_foldl_modify Prod.fst [] noteSuccessor]
  have hmoves : ∀ new, (old, new) ∈ moved h m before ↔
      (old, new) ∈ (moved h m before).filter (·.1 = old) := by simp
  simp only [hmoves]
  by_cases hnone : (moved h m before).filter (·.1 = old) = []
  · rw [if_pos hnone, hnone]
    simp
  · rw [if_neg hnone, Option.getD_some, mem_noteSuccessor]
    obtain ⟨⟨old', new⟩, hmove⟩ := List.exists_mem_of_ne_nil _ hnone
    obtain rfl : old' = old := of_decide_eq_true (List.mem_filter.mp hmove).2
    rw [Dict.get?_empty, Option.getD_none, or_iff_right List.not_mem_nil,
      or_iff_left fun hstays => hstays.2 new hmove]
    simp

theorem mem_moved (hm : Keyed m) (hsame : m'.contributions = m.contributions) {old new : String} :
    (old, new) ∈ moved h m' (edgeIdentityMap h m) ↔
      ∃ c ∈ m.contributions.values, c.active = true ∧ m.edgeIdForContribution h c = old ∧
        m'.edgeIdForContribution h c = new := by
  unfold moved
  rw [List.mem_filterMap]
  constructor
  · rintro ⟨⟨key, id⟩, hentry, hmove⟩
    obtain ⟨c, hc, hactive, hold⟩ := (edgeIdentityMap_get? hm).mp (Dict.get?_eq_some.mpr hentry)
    rw [hsame, hc, Option.filter_some_pos hactive, Option.map_some, Option.some.injEq,
      Prod.mk.injEq] at hmove
    exact ⟨c, Dict.mem_values.mpr ⟨key, hc⟩, hactive, hold.trans hmove.1, hmove.2⟩
  · rintro ⟨c, hc, hactive, hold, hnew⟩
    obtain ⟨key, hkey⟩ := Dict.mem_values.mp hc
    refine ⟨(key, old), Dict.get?_eq_some.mp ((edgeIdentityMap_get? hm).mpr
      ⟨c, hkey, hactive, hold⟩), ?_⟩
    rw [hsame, hkey, Option.filter_some_pos hactive, Option.map_some, hnew]

end Carry

/-- A merge or an undo that is not refused gives the contributions new names and carries the
edges over. -/
structure Renames (h : Host) (o p : ConceptMapObject) : Prop where
  contributions : p.map.contributions = o.map.contributions
  visible : p.visibility.visible =
    carry (successors h p.map (edgeIdentityMap h o.map)) o.visibility.visible
  archived : p.visibility.archived =
    (carry (successors h p.map (edgeIdentityMap h o.map)) o.visibility.archived).filter
      (· ∉ p.visibility.visible)

section Renames

variable {h : Host} {o p : ConceptMapObject}

theorem rekeyVisibility_renames (hcontributions : p.map.contributions = o.map.contributions)
    (hvisibility : p.visibility = o.visibility) :
    Renames h o (p.rekeyVisibility h (edgeIdentityMap h o.map)) := by
  unfold rekeyVisibility
  rw [hvisibility]
  exact ⟨hcontributions, rfl, rfl⟩

theorem pushType_visibility (concept mergeId : String) (applied : Option String) :
    (o.pushType concept mergeId applied).visibility = o.visibility := by
  cases applied <;> rfl

theorem removeType_visibility (concept mergeId : String) (applied : Option String) :
    (o.removeType concept mergeId applied).visibility = o.visibility := by
  cases applied with
  | none => rfl
  | some _ =>
    unfold removeType removeMergeType
    dsimp only
    split <;> rfl

theorem accept_renames (aliasName canonical : String) (aliasType canonicalType : Option String) :
    Renames h o (o.accept h aliasName canonical aliasType canonicalType) := by
  unfold accept
  apply rekeyVisibility_renames
  · simp
  · dsimp only
    rw [pushType_visibility, pushType_visibility]

theorem revert_renames (merge : Merge) (log : List MergeRecord) :
    Renames h o (o.revert h merge log) := by
  unfold revert
  apply rekeyVisibility_renames
  · cases merge.previous <;> simp
  · dsimp only
    rw [removeType_visibility, removeType_visibility]
    cases merge.previous <;> rfl

/-- The new edge of a contribution whose edge was visible is visible. -/
theorem Renames.carried (hr : Renames h o p) (hm : Keyed o.map) {c : ConceptContribution}
    (hc : c ∈ o.map.contributions.values) (hactive : c.active = true)
    (hvisible : o.map.edgeIdForContribution h c ∈ o.visibility.visible) :
    p.map.edgeIdForContribution h c ∈ p.visibility.visible := by
  rw [hr.visible, mem_carry]
  exact ⟨_, hvisible, .inl ((mem_moved hm hr.contributions).mpr ⟨c, hc, hactive, rfl, rfl⟩)⟩

theorem Renames.disjoint (hr : Renames h o p) :
    ∀ id ∈ p.visibility.visible, id ∉ p.visibility.archived := by
  intro id hid harchived
  rw [hr.archived] at harchived
  exact of_decide_eq_true (List.mem_filter.mp harchived).2 hid

/-- Under the names it had, an edge is carried to itself. -/
theorem Renames.mem_carry_same (hr : Renames h o p) (hm : Keyed o.map)
    (hsame : p.map.aliases = o.map.aliases) {edgeIds : List String} {id : String}
    (hid : id ∈ edgeIds) :
    id ∈ carry (successors h p.map (edgeIdentityMap h o.map)) edgeIds := by
  rw [mem_carry]
  refine ⟨id, hid, ?_⟩
  by_cases hmoves : ∃ new, (id, new) ∈ moved h p.map (edgeIdentityMap h o.map)
  · obtain ⟨new, hmove⟩ := hmoves
    obtain ⟨c, -, -, hold, hnew⟩ := (mem_moved hm hr.contributions).mp hmove
    have hnames : p.map.edgeIdForContribution h c = o.map.edgeIdForContribution h c := by
      simp [StreamingConceptMap.edgeIdForContribution, StreamingConceptMap.edgeKey,
        StreamingConceptMap.canonical, hsame]
    have hstays : new = id := by rw [← hnew, hnames, hold]
    exact .inl (hstays ▸ hmove)
  · exact .inr ⟨rfl, fun new hmove => hmoves ⟨new, hmove⟩⟩

theorem Renames.keeps (hr : Renames h o p) (hm : Keyed o.map)
    (hsame : p.map.aliases = o.map.aliases) {id : String}
    (hid : id ∈ o.visibility.visible ∨ id ∈ o.visibility.archived) :
    id ∈ p.visibility.visible ∨ id ∈ p.visibility.archived := by
  by_cases hvisible : id ∈ p.visibility.visible
  · exact .inl hvisible
  · rcases hid with hid | hid
    · rw [hr.visible] at hvisible
      exact absurd (hr.mem_carry_same hm hsame hid) hvisible
    · rw [hr.archived]
      exact .inr (List.mem_filter.mpr
        ⟨hr.mem_carry_same hm hsame hid, decide_eq_true hvisible⟩)

end Renames

/-! ## Runs -/

/-- A merge or an undo. -/
def Call.Merging : Call → Prop
  | .apply _ => False
  | .snapshot _ => False
  | .mergeConcepts _ _ _ _ => True
  | .undoMerge _ => True

/-- The instant of a snapshot. -/
def instantOf (o : ConceptMapObject) (now : Option Int) : Int :=
  now.getD (o.map.watermark.getD 0)

section Runs

variable (h : Host) (f : Floats) (extract : PropositionExtractor) (allowed : Lateness)

/-- What a snapshot of the object returns. -/
def returned (o : ConceptMapObject) (now : Option Int) : EchoSnapshot :=
  (Projection.snapshot h f o.map o.visibility now).1

/-- The object after some calls. -/
def reached (calls : List Call) : ConceptMapObject :=
  calls.foldl (call h f extract) (fresh allowed)

/-- What is visible and what is archived stay coherent along the calls. -/
structure Coherent (calls : List Call) : Prop where
  disjoint : ∀ earlier, earlier <+: calls →
    ∀ id ∈ (reached h f extract allowed earlier).visibility.visible,
      id ∉ (reached h f extract allowed earlier).visibility.archived
  repeated : ∀ earlier now now', earlier ++ [.snapshot now, .snapshot now'] <+: calls →
    let o := reached h f extract allowed earlier
    let p := reached h f extract allowed (earlier ++ [.snapshot now])
    p.instantOf now' = o.instantOf now →
      (p.returned h f now').edges = (o.returned h f now).edges ∧
      (p.returned h f now').archivedEdgeIds = (o.returned h f now).archivedEdgeIds
  remembered : ∀ earlier now later, earlier ++ .snapshot now :: later <+: calls →
    let o := reached h f extract allowed earlier
    let p := reached h f extract allowed (earlier ++ .snapshot now :: later)
    (∀ part, part <+: later →
      (reached h f extract allowed (earlier ++ .snapshot now :: part)).map.aliases =
        o.map.aliases) →
    ∀ id ∈ (o.returned h f now).ids, id ∈ p.visibility.visible ∨ id ∈ p.visibility.archived
  carried : ∀ earlier c, earlier ++ [c] <+: calls → c.Merging →
    let o := reached h f extract allowed earlier
    let p := reached h f extract allowed (earlier ++ [c])
    ∀ item ∈ o.map.contributions.values, item.active = true →
      o.map.edgeIdForContribution h item ∈ o.visibility.visible →
      p.map.edgeIdForContribution h item ∈ p.visibility.visible ∧
      ∀ now, THETA_OFF ≤ activityAt f (p.instantOf now) (backing p.map (p.map.edgeKey item)) →
        p.map.edgeKey item ∈ (p.returned h f now).edges.map SnapshotEdge.key

/-- A snapshot finds a different id for each edge. -/
def FindsApart (o : ConceptMapObject) : Call → Prop
  | .apply _ => True
  | .snapshot _ => TellsApart h o.map
  | .mergeConcepts _ _ _ _ => True
  | .undoMerge _ => True

instance (o : ConceptMapObject) : ∀ c, Decidable (FindsApart h o c)
  | .apply _ => isTrue trivial
  | .snapshot _ => inferInstanceAs (Decidable (TellsApart h o.map))
  | .mergeConcepts _ _ _ _ => isTrue trivial
  | .undoMerge _ => isTrue trivial

variable {h f extract allowed} {o : ConceptMapObject}

/-- What a call does to the contributions and to what is visible. -/
inductive Effect (h : Host) (f : Floats) (extract : PropositionExtractor) (o : ConceptMapObject) :
    Call → ConceptMapObject → Prop
  | applied (input : ConceptInput) :
    Effect h f extract o (.apply input) { o with map := o.map.call h extract input }
  | shown (now : Option Int) :
    Effect h f extract o (.snapshot now)
      { o with visibility := (Projection.snapshot h f o.map o.visibility now).2 }
  | refused {c : Call} {p : ConceptMapObject} (hc : c.Merging) (hmap : p.map = o.map)
      (hvisibility : p.visibility = o.visibility) : Effect h f extract o c p
  | renamed {c : Call} {p : ConceptMapObject} (hc : c.Merging) (hr : Renames h o p) :
    Effect h f extract o c p

theorem call_effect (h : Host) (f : Floats) (extract : PropositionExtractor)
    (o : ConceptMapObject) (c : Call) : Effect h f extract o c (o.call h f extract c) := by
  cases c with
  | apply input => exact .applied input
  | snapshot now => exact .shown now
  | mergeConcepts aliasName canonical aliasType canonicalType =>
    unfold call mergeConcepts
    dsimp only
    split
    · exact .refused trivial rfl rfl
    split
    · exact .refused trivial rfl rfl
    · exact .renamed trivial (accept_renames ..)
  | undoMerge wanted =>
    unfold call undoMerge
    dsimp only
    split
    · exact .refused trivial rfl rfl
    · exact .renamed trivial (revert_renames ..)

section Step

variable {c : Call} {p : ConceptMapObject}

theorem Effect.keyed (he : Effect h f extract o c p) (ho : Keyed o.map) : Keyed p.map := by
  cases he with
  | applied input => exact ho.call input
  | shown => exact ho
  | refused _ hmap =>
    rw [hmap]
    exact ho
  | renamed _ hr =>
    intro key item
    rw [hr.contributions]
    exact ho key item

/-- A call keeps what is visible and what is archived apart. -/
theorem Effect.disjoint (he : Effect h f extract o c p) (hfinds : FindsApart h o c)
    (ho : ∀ id ∈ o.visibility.visible, id ∉ o.visibility.archived) :
    ∀ id ∈ p.visibility.visible, id ∉ p.visibility.archived := by
  cases he with
  | applied => exact ho
  | shown now => exact snapshot_disjoint hfinds
  | refused _ _ hvisibility =>
    rw [hvisibility]
    exact ho
  | renamed _ hr => exact hr.disjoint

/-- A call that changes no alias forgets no edge. -/
theorem Effect.keeps (he : Effect h f extract o c p) (ho : Keyed o.map)
    (hsame : p.map.aliases = o.map.aliases) {id : String}
    (hid : id ∈ o.visibility.visible ∨ id ∈ o.visibility.archived) :
    id ∈ p.visibility.visible ∨ id ∈ p.visibility.archived := by
  cases he with
  | applied => exact hid
  | shown now => exact snapshot_keeps hid
  | refused _ _ hvisibility =>
    rw [hvisibility]
    exact hid
  | renamed _ hr => exact hr.keeps ho hsame hid

theorem Effect.carried (he : Effect h f extract o c p) (hc : c.Merging) (ho : Keyed o.map)
    {item : ConceptContribution} (hitem : item ∈ o.map.contributions.values)
    (hactive : item.active = true)
    (hvisible : o.map.edgeIdForContribution h item ∈ o.visibility.visible) :
    p.map.edgeIdForContribution h item ∈ p.visibility.visible := by
  cases he with
  | applied => cases hc
  | shown => cases hc
  | refused _ hmap hvisibility =>
    rw [hmap, hvisibility]
    exact hvisible
  | renamed _ hr => exact hr.carried ho hitem hactive hvisible

end Step

theorem reached_snoc (calls : List Call) (c : Call) :
    reached h f extract allowed (calls ++ [c]) =
      (reached h f extract allowed calls).call h f extract c :=
  List.foldl_concat ..

theorem reached_keyed (calls : List Call) : Keyed (reached h f extract allowed calls).map := by
  induction calls using List.reverseRecOn with
  | nil =>
    intro key item hitem
    cases hitem
  | append_singleton calls c ih =>
    rw [reached_snoc]
    exact (call_effect ..).keyed ih

/-- What a snapshot returns is still known after calls that change no alias. -/
theorem reached_remembers {earlier later : List Call} {now : Option Int}
    (hsame : ∀ part, part <+: later →
      (reached h f extract allowed (earlier ++ .snapshot now :: part)).map.aliases =
        (reached h f extract allowed earlier).map.aliases) {id : String}
    (hid : id ∈ ((reached h f extract allowed earlier).returned h f now).ids) :
    id ∈ (reached h f extract allowed (earlier ++ .snapshot now :: later)).visibility.visible ∨
      id ∈ (reached h f extract allowed (earlier ++ .snapshot now :: later)).visibility.archived := by
  induction later using List.reverseRecOn with
  | nil =>
    rw [reached_snoc]
    exact snapshot_ids hid
  | append_singleton later c ih =>
    have hbefore := hsame later (List.prefix_append ..)
    have hafter := hsame _ (List.prefix_refl _)
    have hsplit : earlier ++ .snapshot now :: (later ++ [c]) =
        (earlier ++ .snapshot now :: later) ++ [c] := by simp
    rw [hsplit, reached_snoc] at hafter ⊢
    refine (call_effect ..).keeps (reached_keyed _) (hafter.trans hbefore.symm) (ih ?_)
    intro part hpart
    exact hsame part (hpart.trans (List.prefix_append ..))

/-- As long as each snapshot of a run finds a different id for each edge, what is visible and
what is archived stay coherent along the run. -/
theorem coherent_of_apart (h : Host) (f : Floats) (extract : PropositionExtractor)
    (allowed : Lateness) (calls : List Call)
    (hapart : Along (call h f extract) (FindsApart h) (fresh allowed) calls) :
    Coherent h f extract allowed calls := by
  have hpart : ∀ part rest, part ++ rest <+: calls →
      Along (call h f extract) (FindsApart h) (fresh allowed) part ∧
        Along (call h f extract) (FindsApart h) (reached h f extract allowed part) rest := by
    rintro part rest ⟨more, rfl⟩
    exact Along.append.mp (Along.append.mp hapart).1
  constructor
  · intro earlier hearlier
    refine Along.invariant (I := fun o => ∀ id ∈ o.visibility.visible, id ∉ o.visibility.archived)
      (fun o c ho hc => (call_effect ..).disjoint hc ho) ?_
      (hpart earlier [] (by rwa [List.append_nil])).1
    intro id hid
    cases hid
  · intro earlier now now' hcalls o p hinstant
    obtain ⟨-, hfinds, -⟩ := hpart _ _ hcalls
    have hp : p = o.call h f extract (.snapshot now) := reached_snoc ..
    rw [hp] at hinstant ⊢
    unfold returned
    rw [snapshot_instant hinstant]
    exact snapshot_again hfinds
  · intro earlier now later _ o p hsame id hid
    exact reached_remembers hsame hid
  · intro earlier c _ hc o p item hitem hactive hvisible
    have hp : p = o.call h f extract c := reached_snoc ..
    have hcarried : p.map.edgeIdForContribution h item ∈ p.visibility.visible := by
      rw [hp]
      exact (call_effect ..).carried hc (reached_keyed _) hitem hactive hvisible
    refine ⟨hcarried, fun now hband => ?_⟩
    have hedge : stableId h "edge" (p.map.edgeKey item) ∈ p.visibility.visible := hcarried
    unfold returned
    rw [mem_snapshot, threshold, if_pos hedge]
    exact hband

end Runs

/-- A remark about the sun is shown, the sun merged into another name, and the view repeated. -/
def sunCalls : List Call :=
  [ .apply ⟨sunRemark, []⟩, .snapshot (some 0), .mergeConcepts "sun" "star" none none,
    .snapshot (some 0) ]

theorem coherent_sun :
    (reached .ascii evenFloats (DeterministicEcosystemExtractor.extract .ascii)
      (.within (seconds 5)) (sunCalls.take 3)).visibility.visible ≠ [] ∧
    Coherent .ascii evenFloats (DeterministicEcosystemExtractor.extract .ascii)
      (.within (seconds 5)) sunCalls :=
  ⟨by decide +kernel, coherent_of_apart _ _ _ _ _ (by decide +kernel)⟩

/-- One remark about decomposers, and five hours later one about the soil. -/
def decomposerRemark : ChatEvent :=
  { sunRemark with text := "Decomposers return nutrients to the soil.", required := by decide }

theorem soilRemark_required :
    "e2" ≠ "" ∧ sunRemark.sessionId ≠ "" ∧ sunRemark.actorId ≠ "" := by decide

def soilRemark : ChatEvent :=
  { sunRemark with
    eventId := "e2", eventTime := seconds 18000, ingestTime := seconds 18000
    text := "The soil provides nutrients to producers.", required := soilRemark_required }

/-- Two concepts are merged into names that hold the separator, and the two edges get one id. -/
def separatorCalls : List Call :=
  [ .mergeConcepts "decomposers" "soil\x1fprovides nutrients to\x1fx" none none,
    .mergeConcepts "producers" "x\x1freturn nutrients to\x1fsoil" none none,
    .apply ⟨decomposerRemark, []⟩, .snapshot (some 0),
    .apply ⟨soilRemark, []⟩, .snapshot (some (seconds 18000)) ]

theorem separator_visible_archived :
    ¬Coherent .ascii evenFloats (DeterministicEcosystemExtractor.extract .ascii)
      (.within (seconds 5)) separatorCalls := by
  intro hcoherent
  have hdisjoint := hcoherent.disjoint separatorCalls (List.prefix_refl _)
  revert hdisjoint
  decide +kernel

end ConceptMapObject

end LearningOrbit.Projection
