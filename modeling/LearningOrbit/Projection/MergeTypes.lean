import LearningOrbit.Projection.MergeLog

/-!
# The types merges apply

Each concept keeps a stack of the types applied to it, under the id of the merge that
applied them, and below it the entry it had before the first. Undo takes the layer of
its own merge out, wherever in the stack it lies. Merge ids name the position of their
record in the log, so they are distinct unless the digest collides.
-/

namespace LearningOrbit.Projection

open LearningOrbit (Host Dict Along)
open LearningOrbit.Reference

/-! ## Merge ids -/

/-- The text the id of a merge is the digest of. -/
def mergeText (index : Nat) (merge : Merge) : String :=
  Text.join "\x1f"
    (ConceptMapObject.mergeParts index merge.aliasName merge.canonical merge.previous)

def mergeTexts (log : List MergeRecord) : List String :=
  log.zipIdx.filterMap fun entry => match entry.1 with
    | .conflict _ _ => none
    | .merged merge => some (mergeText entry.2 merge)

/-- The digest tells these texts apart by its first sixteen digits. -/
def CollisionFree (h : Host) (texts : List String) : Prop :=
  ∀ s ∈ texts, ∀ t ∈ texts,
    (h.sha256Hex s).toList.take 16 = (h.sha256Hex t).toList.take 16 → s = t

instance (h : Host) (texts : List String) : Decidable (CollisionFree h texts) :=
  inferInstanceAs (Decidable (∀ s ∈ texts, ∀ t ∈ texts, _))

theorem mem_mergeTexts {log : List MergeRecord} {text : String} :
    text ∈ mergeTexts log ↔ ∃ (i : Nat) (merge : Merge), log[i]? = some (.merged merge) ∧
      mergeText i merge = text := by
  unfold mergeTexts
  rw [List.mem_filterMap]
  constructor
  · rintro ⟨⟨record, i⟩, hmem, htext⟩
    rw [List.mem_zipIdx_iff_getElem?] at hmem
    cases record with
    | conflict aliasName canonical => cases htext
    | merged merge => exact ⟨i, merge, hmem, Option.some.inj htext⟩
  · rintro ⟨i, merge, hget, rfl⟩
    exact ⟨(.merged merge, i), List.mem_zipIdx_iff_getElem?.mpr hget, rfl⟩

/-- The number at the head of a text can be read off it. -/
theorem number_of_text {i j : Nat} {s t : String}
    (heq : toString i ++ "\x1f" ++ s = toString j ++ "\x1f" ++ t) : i = j := by
  have hdigits : ∀ (n : Nat) (rest : List Char),
      ((toString n).toList ++ '\x1f' :: rest).takeWhile (· ≠ '\x1f') = (toString n).toList := by
    intro n rest
    rw [List.takeWhile_append_of_pos]
    · simp
    · intro c hc
      have hdigit : c.isDigit = true := by
        apply Nat.isDigit_of_mem_toDigits (b := 10) (n := n) (by decide) (by decide)
        simpa [toString, Nat.repr] using hc
      have hsep : c ≠ '\x1f' := by
        rintro rfl
        revert hdigit
        decide
      simpa using hsep
  have hlists := congrArg String.toList heq
  simp only [String.toList_append] at hlists
  have hi := hdigits i s.toList
  have hj := hdigits j t.toList
  have hsep : "\x1f".toList = ['\x1f'] := by decide
  rw [hsep, List.append_assoc, List.append_assoc, List.singleton_append, List.singleton_append]
    at hlists
  rw [hlists, hj] at hi
  have hsame : Nat.toDigits 10 j = Nat.toDigits 10 i := by
    simpa [Nat.toString_eq_ofList_toDigits] using hi
  have hread := congrArg (Nat.ofDigitChars 10 · 0) hsame
  simpa [Nat.ofDigitChars_ten_toDigits] using hread.symm

theorem mergeText_index {i j : Nat} {m m' : Merge} (heq : mergeText i m = mergeText j m') :
    i = j := by
  apply number_of_text (s := m.aliasName ++ "\x1f" ++ m.canonical ++ "\x1f" ++
    m.previous.getD "None") (t := m'.aliasName ++ "\x1f" ++ m'.canonical ++ "\x1f" ++
    m'.previous.getD "None")
  simpa [mergeText, ConceptMapObject.mergeParts, Text.join, String.append_assoc] using heq

theorem stableId_digits {h : Host} {tag : String} {parts parts' : List String}
    (heq : stableId h tag parts = stableId h tag parts') :
    (h.sha256Hex (Text.join "\x1f" parts)).toList.take 16 =
      (h.sha256Hex (Text.join "\x1f" parts')).toList.take 16 := by
  have hlists := congrArg String.toList heq
  unfold stableId at hlists
  simpa using hlists

namespace ConceptMapObject

/-- Every merge of the log has the id of its text. -/
def Named (h : Host) (o : ConceptMapObject) : Prop :=
  ∀ (i : Nat) (merge : Merge), o.mergeLog[i]? = some (.merged merge) →
    merge.mergeId = stableId h "merge"
      (mergeParts i merge.aliasName merge.canonical merge.previous)

theorem Named.distinct {h : Host} {o : ConceptMapObject} (ho : Named h o)
    (hc : CollisionFree h (mergeTexts o.mergeLog)) {i j : Nat} {m m' : Merge}
    (hi : o.mergeLog[i]? = some (.merged m)) (hj : o.mergeLog[j]? = some (.merged m'))
    (hne : i ≠ j) : m.mergeId ≠ m'.mergeId := by
  intro heq
  rw [ho i m hi, ho j m' hj] at heq
  have htext : mergeText i m = mergeText j m' :=
    hc _ (mem_mergeTexts.mpr ⟨i, m, hi, rfl⟩) _ (mem_mergeTexts.mpr ⟨j, m', hj, rfl⟩)
      (stableId_digits heq)
  exact hne (mergeText_index htext)

/-- A list with one entry replaced. -/
theorem getElem?_replace {α : Type} (front back : List α) (a b : α) (i : Nat) :
    (front ++ b :: back)[i]? = if i = front.length then some b else (front ++ a :: back)[i]? := by
  by_cases hi : i = front.length
  · subst hi
    simp
  · rw [if_neg hi, List.getElem?_append, List.getElem?_append]
    split
    · rfl
    · obtain ⟨k, hk⟩ : ∃ k, i - front.length = k + 1 := ⟨i - front.length - 1, by omega⟩
      rw [hk]
      rfl

theorem Named.outcome {h : Host} {o p : ConceptMapObject} (ho : Named h o) (hp : Outcome h o p) :
    Named h p := by
  cases hp with
  | kept _ _ hlog =>
    intro i merge hget
    exact ho i merge (hlog ▸ hget)
  | conflict aliasName canonical =>
    intro i merge hget
    change (o.mergeLog ++ [.conflict aliasName canonical])[i]? = some (.merged merge) at hget
    rw [List.getElem?_append] at hget
    split at hget
    · exact ho i merge hget
    · rw [List.getElem?_singleton] at hget
      split at hget
      · cases hget
      · cases hget
  | accepted aliasName canonical aliasType canonicalType =>
    intro i merge hget
    rw [accept_mergeLog, List.getElem?_append] at hget
    split at hget
    · exact ho i merge hget
    · rename_i hlt
      rw [List.getElem?_singleton] at hget
      split at hget
      · rename_i hzero
        cases hget
        rw [show i = o.mergeLog.length by omega]
        rfl
      · cases hget
  | reverted wanted merge front back hlog =>
    intro i m hget
    rw [revert_mergeLog] at hget
    rw [getElem?_replace front back (.merged merge)] at hget
    split at hget
    · rename_i hi
      cases hget
      refine ho i merge ?_
      rw [hlog, hi]
      simp
    · rw [← hlog] at hget
      exact ho i m hget

/-- A log keeps the texts it has. -/
theorem Outcome.texts {h : Host} {o p : ConceptMapObject} (hp : Outcome h o p) :
    mergeTexts o.mergeLog ⊆ mergeTexts p.mergeLog := by
  intro text htext
  obtain ⟨i, m, hget, rfl⟩ := mem_mergeTexts.mp htext
  rw [mem_mergeTexts]
  have hlt : i < o.mergeLog.length := (List.getElem?_eq_some_iff.mp hget).1
  cases hp with
  | kept _ _ hlog => exact ⟨i, m, hlog ▸ hget, rfl⟩
  | conflict aliasName canonical =>
    exact ⟨i, m, by rw [← hget]; exact List.getElem?_append_left hlt, rfl⟩
  | accepted aliasName canonical aliasType canonicalType =>
    refine ⟨i, m, ?_, rfl⟩
    rw [accept_mergeLog, List.getElem?_append_left hlt]
    exact hget
  | reverted wanted merge front back hlog =>
    rw [revert_mergeLog]
    rw [hlog] at hget
    by_cases hi : i = front.length
    · refine ⟨i, { merge with undone := true }, ?_, ?_⟩
      · rw [getElem?_replace front back (.merged merge), if_pos hi]
      · rw [hi] at hget ⊢
        have hm : merge = m := by simpa using hget
        rw [← hm]
        rfl
    · refine ⟨i, m, ?_, rfl⟩
      rw [getElem?_replace front back (.merged merge), if_neg hi]
      exact hget

/-! ## Layers -/

/-- The layers the standing merges have put on a concept. -/
def layersOf (log : List MergeRecord) (concept : String) : List (String × String) :=
  (standing log).filterMap fun merge => (merge.appliedTo concept).map (merge.mergeId, ·)

theorem layersOf_last (log : List MergeRecord) (concept : String) :
    (layersOf log concept).getLast?.map Prod.snd = latestType log concept := by
  unfold layersOf latestType
  rw [← List.getLast?_map, List.map_filterMap]
  simp only [Option.map_map]
  congr 2
  funext merge
  exact Option.map_id'

/-- The types of an object whose concepts carry these layers. -/
structure Layered (o : ConceptMapObject) (L : String → List (String × String)) : Prop where
  layers : ∀ c, (o.mergeTypeLayers.get? c).getD [] = L c
  types : ∀ c, o.conceptTypes.get? c = ((L c).getLast?.map Prod.snd).or (KNOWN_TYPES.get? c)
  baselines : ∀ c, L c ≠ [] → o.mergeTypeBaselines.get? c = some (KNOWN_TYPES.get? c)

section

variable {o p : ConceptMapObject} {L : String → List (String × String)}

theorem Layered.congr (ho : Layered o L) (ht : p.conceptTypes = o.conceptTypes)
    (hl : p.mergeTypeLayers = o.mergeTypeLayers)
    (hb : p.mergeTypeBaselines = o.mergeTypeBaselines) : Layered p L := by
  constructor
  · rw [hl]
    exact ho.layers
  · rw [ht]
    exact ho.types
  · rw [hb]
    exact ho.baselines

theorem Layered.push (ho : Layered o L) (concept mergeId conceptType : String) :
    Layered (o.pushMergeType concept mergeId conceptType)
      fun c => L c ++ if c = concept then [(mergeId, conceptType)] else [] := by
  refine ⟨fun c => ?_, fun c => ?_, fun c hc => ?_⟩
  · change ((o.mergeTypeLayers.set concept _).get? c).getD [] = _
    rw [Dict.get?_set]
    split
    · rename_i heq
      rw [Option.getD_some, ho.layers, heq]
    · rw [List.append_nil]
      exact ho.layers c
  · change (o.conceptTypes.set concept conceptType).get? c = _
    rw [Dict.get?_set]
    split
    · rw [List.getLast?_concat]
      rfl
    · rw [List.append_nil]
      exact ho.types c
  · change (if (o.mergeTypeLayers.get? concept).getD [] = [] then _ else _ : Dict _ _).get? c = _
    rw [ho.layers]
    by_cases heq : c = concept
    · subst heq
      split
      · rename_i hempty
        rw [Dict.get?_set_self, ho.types, hempty]
        rfl
      · rename_i hsome
        exact ho.baselines c hsome
    · rw [if_neg heq, List.append_nil] at hc
      split
      · rw [Dict.get?_set_of_ne _ _ heq]
        exact ho.baselines c hc
      · exact ho.baselines c hc

theorem Layered.pushType (ho : Layered o L) (concept mergeId : String) (applied : Option String) :
    Layered (o.pushType concept mergeId applied)
      fun c => L c ++ if c = concept then (applied.map (mergeId, ·)).toList else [] := by
  cases applied with
  | none =>
    have hsame : (fun c => L c ++ if c = concept
        then ((none : Option String).map (mergeId, ·)).toList else []) = L := by
      funext c
      simp
    rw [hsame]
    exact ho
  | some conceptType => exact ho.push concept mergeId conceptType

theorem Layered.remove (ho : Layered o L) {concept : String} (mergeId : String)
    (hne : L concept ≠ []) :
    Layered (o.removeMergeType concept mergeId) fun c =>
      if c = concept then (L c).filter fun item => item.1 ≠ mergeId else L c := by
  unfold removeMergeType
  rw [ho.layers, ho.baselines concept hne, Option.getD_some]
  dsimp only
  cases hlast : ((L concept).filter fun item => item.1 ≠ mergeId).getLast? with
  | some last =>
    refine ⟨fun c => ?_, fun c => ?_, fun c hc => ?_⟩
    · change ((o.mergeTypeLayers.set concept _).get? c).getD [] = _
      rw [Dict.get?_set]
      split
      · rename_i heq
        rw [Option.getD_some, heq]
      · exact ho.layers c
    · change (o.conceptTypes.set concept last.2).get? c = _
      rw [Dict.get?_set]
      split
      · rename_i heq
        rw [heq, hlast]
        rfl
      · exact ho.types c
    · refine ho.baselines c ?_
      split at hc
      · rename_i heq
        rw [heq]
        exact hne
      · exact hc
  | none =>
    have hnil := List.getLast?_eq_none_iff.mp hlast
    refine ⟨fun c => ?_, fun c => ?_, fun c hc => ?_⟩
    · change ((o.mergeTypeLayers.erase concept).get? c).getD [] = _
      rw [Dict.get?_erase]
      split
      · rename_i heq
        rw [heq, hnil]
        rfl
      · exact ho.layers c
    · dsimp only
      by_cases heq : c = concept
      · subst heq
        rw [if_pos rfl, hnil]
        cases KNOWN_TYPES.get? c with
        | none =>
          change (o.conceptTypes.erase c).get? c = none
          rw [Dict.get?_erase, if_pos rfl]
        | some prior => exact Dict.get?_set_self ..
      · rw [if_neg heq, ← ho.types c]
        cases KNOWN_TYPES.get? concept with
        | none =>
          change (o.conceptTypes.erase concept).get? c = o.conceptTypes.get? c
          rw [Dict.get?_erase, if_neg heq]
        | some prior => exact Dict.get?_set_of_ne _ _ heq
    · change (o.mergeTypeBaselines.erase concept).get? c = _
      split at hc
      · rename_i heq
        rw [heq, hnil] at hc
        exact absurd rfl hc
      · rename_i heq
        rw [Dict.get?_erase, if_neg heq]
        exact ho.baselines c hc

theorem Layered.removeType (ho : Layered o L) {concept : String} (mergeId : String)
    (applied : Option String) (hne : applied ≠ none → L concept ≠ []) :
    Layered (o.removeType concept mergeId applied) fun c =>
      if c = concept ∧ applied ≠ none then (L c).filter fun item => item.1 ≠ mergeId
      else L c := by
  cases applied with
  | none =>
    have hsame : (fun c => if c = concept ∧ (none : Option String) ≠ none
        then (L c).filter (fun item => item.1 ≠ mergeId) else L c) = L := by
      funext c
      simp
    rw [hsame]
    exact ho
  | some conceptType =>
    have hsame : (fun c => if c = concept ∧ some conceptType ≠ none
        then (L c).filter (fun item => item.1 ≠ mergeId) else L c) =
        fun c => if c = concept then (L c).filter (fun item => item.1 ≠ mergeId) else L c := by
      funext c
      simp
    rw [hsame]
    exact ho.remove mergeId (hne (by simp))

theorem layersOf_append (front back : List MergeRecord) (c : String) :
    layersOf (front ++ back) c = layersOf front c ++ layersOf back c := by
  unfold layersOf
  rw [standing_append, List.filterMap_append]

theorem layersOf_merged {merge : Merge} (hm : merge.undone = false) (back : List MergeRecord)
    (c : String) :
    layersOf (.merged merge :: back) c =
      ((merge.appliedTo c).map (merge.mergeId, ·)).toList ++ layersOf back c := by
  have hstanding : standing (.merged merge :: back) = merge :: standing back :=
    @standing_split [] back merge hm
  unfold layersOf
  rw [hstanding, List.filterMap_cons]
  cases merge.appliedTo c <;> rfl

theorem layersOf_marked (merge : Merge) (back : List MergeRecord) (c : String) :
    layersOf (.merged { merge with undone := true } :: back) c = layersOf back c := by
  have hstanding : standing (.merged { merge with undone := true } :: back) = standing back :=
    @standing_undone [] back merge
  unfold layersOf
  rw [hstanding]

/-- The layers of a merge on its two concepts. -/
theorem appliedTo_layers {merge : Merge} (hne : merge.aliasName ≠ merge.canonical) (c : String) :
    ((merge.appliedTo c).map (merge.mergeId, ·)).toList =
      (if c = merge.aliasName then (merge.appliedAliasType.map (merge.mergeId, ·)).toList
        else []) ++
      if c = merge.canonical then (merge.appliedCanonicalType.map (merge.mergeId, ·)).toList
        else [] := by
  unfold Merge.appliedTo
  by_cases ha : c = merge.aliasName
  · subst ha
    simp [hne]
  · by_cases hc : c = merge.canonical
    · subst hc
      simp [hne, Ne.symm hne]
    · simp [ha, hc, Ne.symm ha, Ne.symm hc]

theorem Layered.accept {h : Host} (ho : Layered o (layersOf o.mergeLog))
    {aliasName canonical : String} (aliasType canonicalType : Option String)
    (hne : aliasName ≠ canonical) :
    Layered (o.accept h aliasName canonical aliasType canonicalType)
      (layersOf (o.accept h aliasName canonical aliasType canonicalType).mergeLog) := by
  have hbase : Layered { o with
      map := { o.map with aliases := o.map.aliases.set aliasName canonical } }
      (layersOf o.mergeLog) := ho.congr rfl rfl rfl
  have hpushed := (hbase.pushType aliasName
    (o.recordOf h aliasName canonical aliasType canonicalType).mergeId aliasType).pushType
    canonical (o.recordOf h aliasName canonical aliasType canonicalType).mergeId canonicalType
  have hlayers : layersOf (o.accept h aliasName canonical aliasType canonicalType).mergeLog =
      fun c => (layersOf o.mergeLog c ++ if c = aliasName then (aliasType.map
        ((o.recordOf h aliasName canonical aliasType canonicalType).mergeId, ·)).toList else []) ++
        if c = canonical then (canonicalType.map
          ((o.recordOf h aliasName canonical aliasType canonicalType).mergeId, ·)).toList
        else [] := by
    funext c
    have happlied :=
      @appliedTo_layers (o.recordOf h aliasName canonical aliasType canonicalType) hne c
    rw [accept_mergeLog, layersOf_append, layersOf_merged rfl, happlied,
      show layersOf [] c = [] from rfl, List.append_nil, ← List.append_assoc]
    rfl
  rw [hlayers]
  exact hpushed.congr rfl rfl rfl

/-- Layers of other merges are left where they are. -/
theorem layersOf_filter {log : List MergeRecord} {mergeId : String}
    (hother : ∀ merge ∈ standing log, merge.mergeId ≠ mergeId) (c : String) :
    ((layersOf log c).filter fun item => item.1 ≠ mergeId) = layersOf log c := by
  rw [List.filter_eq_self]
  intro item hitem
  obtain ⟨merge, hmerge, happlied⟩ := List.mem_filterMap.mp hitem
  obtain ⟨_, -, rfl⟩ := Option.map_eq_some_iff.mp happlied
  simpa using hother merge hmerge

theorem Layered.revert {h : Host} (ho : Layered o (layersOf o.mergeLog)) {merge : Merge}
    {front back : List MergeRecord} (hlog : o.mergeLog = front ++ .merged merge :: back)
    (hstands : merge.undone = false) (hne : merge.aliasName ≠ merge.canonical)
    (hfront : ∀ other ∈ standing front, other.mergeId ≠ merge.mergeId)
    (hback : ∀ other ∈ standing back, other.mergeId ≠ merge.mergeId) :
    Layered (o.revert h merge (front ++ .merged { merge with undone := true } :: back))
      (layersOf (front ++ .merged { merge with undone := true } :: back)) := by
  have hsplit : ∀ c, layersOf o.mergeLog c =
      layersOf front c ++ (((merge.appliedTo c).map (merge.mergeId, ·)).toList ++
        layersOf back c) := by
    intro c
    rw [hlog, layersOf_append, layersOf_merged hstands]
  have hmarked : ∀ c, layersOf (front ++ .merged { merge with undone := true } :: back) c =
      layersOf front c ++ layersOf back c := by
    intro c
    rw [layersOf_append, layersOf_marked]
  have hkept : ∀ c, merge.appliedTo c = none →
      layersOf o.mergeLog c = layersOf front c ++ layersOf back c := by
    intro c hnone
    rw [hsplit, hnone]
    rfl
  have hdropped : ∀ c, ((layersOf o.mergeLog c).filter fun item => item.1 ≠ merge.mergeId) =
      layersOf front c ++ layersOf back c := by
    intro c
    rw [hsplit, List.filter_append, List.filter_append, layersOf_filter hfront,
      layersOf_filter hback]
    cases merge.appliedTo c <;> simp
  have halias : merge.appliedAliasType ≠ none → layersOf o.mergeLog merge.aliasName ≠ [] := by
    intro hsome
    obtain ⟨t, ht⟩ := Option.ne_none_iff_exists'.mp hsome
    rw [hsplit]
    simp [Merge.appliedTo, ht]
  have hcanonical : merge.appliedCanonicalType ≠ none →
      layersOf o.mergeLog merge.canonical ≠ [] := by
    intro hsome
    obtain ⟨t, ht⟩ := Option.ne_none_iff_exists'.mp hsome
    rw [hsplit]
    simp [Merge.appliedTo, ht, hne]
  obtain ⟨base, hbase, htypes, hlayers, hbaselines⟩ : ∃ base : ConceptMapObject,
      Layered base (layersOf o.mergeLog) ∧
      (o.revert h merge (front ++ .merged { merge with undone := true } :: back)).conceptTypes =
        ((base.removeType merge.aliasName merge.mergeId merge.appliedAliasType).removeType
          merge.canonical merge.mergeId merge.appliedCanonicalType).conceptTypes ∧
      (o.revert h merge
          (front ++ .merged { merge with undone := true } :: back)).mergeTypeLayers =
        ((base.removeType merge.aliasName merge.mergeId merge.appliedAliasType).removeType
          merge.canonical merge.mergeId merge.appliedCanonicalType).mergeTypeLayers ∧
      (o.revert h merge
          (front ++ .merged { merge with undone := true } :: back)).mergeTypeBaselines =
        ((base.removeType merge.aliasName merge.mergeId merge.appliedAliasType).removeType
          merge.canonical merge.mergeId merge.appliedCanonicalType).mergeTypeBaselines :=
    ⟨_, ho.congr (by split <;> rfl) (by split <;> rfl) (by split <;> rfl), rfl, rfl, rfl⟩
  have hfirst := hbase.removeType merge.mergeId merge.appliedAliasType halias
  have hboth := hfirst.removeType merge.mergeId merge.appliedCanonicalType (by
    intro hsome
    rw [if_neg fun hboth => hne hboth.1.symm]
    exact hcanonical hsome)
  refine Layered.congr ?_ htypes hlayers hbaselines
  have hsame : (layersOf (front ++ .merged { merge with undone := true } :: back)) = fun c =>
      if c = merge.canonical ∧ merge.appliedCanonicalType ≠ none then
        ((if c = merge.aliasName ∧ merge.appliedAliasType ≠ none then
          (layersOf o.mergeLog c).filter fun item => item.1 ≠ merge.mergeId
          else layersOf o.mergeLog c).filter fun item => item.1 ≠ merge.mergeId)
      else if c = merge.aliasName ∧ merge.appliedAliasType ≠ none then
        (layersOf o.mergeLog c).filter fun item => item.1 ≠ merge.mergeId
      else layersOf o.mergeLog c := by
    funext c
    rw [hmarked]
    by_cases ha : c = merge.aliasName
    · have hskip : ¬(c = merge.canonical ∧ merge.appliedCanonicalType ≠ none) :=
        fun hboth => hne (ha.symm.trans hboth.1)
      rw [if_neg hskip]
      by_cases ht : merge.appliedAliasType = none
      · rw [if_neg fun hboth => hboth.2 ht, hkept c]
        rw [Merge.appliedTo, if_pos ha.symm, ht]
      · rw [if_pos ⟨ha, ht⟩, hdropped]
    · have hskip : ¬(c = merge.aliasName ∧ merge.appliedAliasType ≠ none) :=
        fun hboth => ha hboth.1
      rw [if_neg hskip]
      by_cases hc : c = merge.canonical ∧ merge.appliedCanonicalType ≠ none
      · rw [if_pos hc, hdropped]
      · rw [if_neg hc, hkept c]
        rw [Merge.appliedTo, if_neg (Ne.symm ha)]
        split
        · rename_i heq
          by_contra ht
          exact hc ⟨heq.symm, ht⟩
        · rfl
  rw [hsame]
  exact hboth

end

/-! ## Runs -/

theorem Layered.outcome {h : Host} {o p : ConceptMapObject} (ho : Tracked o) (hn : Named h o)
    (hp : Outcome h o p) (hc : CollisionFree h (mergeTexts p.mergeLog))
    (hl : CollisionFree h (mergeTexts o.mergeLog) → Layered o (layersOf o.mergeLog)) :
    Layered p (layersOf p.mergeLog) := by
  have hfree : CollisionFree h (mergeTexts o.mergeLog) := fun s hs t ht =>
    hc s (hp.texts hs) t (hp.texts ht)
  have hlayered := hl hfree
  cases hp with
  | kept _ _ hlog htypes hlayers hbaselines =>
    rw [hlog]
    exact hlayered.congr htypes hlayers hbaselines
  | conflict aliasName canonical =>
    have hsame : layersOf (o.mergeLog ++ [.conflict aliasName canonical]) =
        layersOf o.mergeLog := by
      funext c
      unfold layersOf
      rw [standing_conflict]
    change Layered _ (layersOf (o.mergeLog ++ [.conflict aliasName canonical]))
    rw [hsame]
    exact hlayered.congr rfl rfl rfl
  | accepted aliasName canonical aliasType canonicalType hne =>
    exact hlayered.accept aliasType canonicalType hne
  | reverted wanted merge front back hlog hstands hlater =>
    -- the merges before and after stand at other positions of the log
    have hmerge : o.mergeLog[front.length]? = some (.merged merge) := by
      rw [hlog]
      simp
    have hstood : ∀ {log : List MergeRecord} {other : Merge}, other ∈ standing log →
        ∃ k : Nat, log[k]? = some (MergeRecord.merged other) := by
      intro log other hother
      obtain ⟨record, hrecord, hsome⟩ := List.mem_filterMap.mp hother
      cases record with
      | conflict aliasName canonical => cases hsome
      | merged found =>
        obtain ⟨-, hfound⟩ : found.undone = false ∧ found = other := by
          simpa [MergeRecord.standing?] using hsome
        obtain ⟨k, hk⟩ := List.getElem?_of_mem hrecord
        exact ⟨k, by rw [hk, hfound]⟩
    have hproper : merge.aliasName ≠ merge.canonical := by
      apply ho.proper
      rw [hlog, standing_split hstands]
      simp
    apply hlayered.revert hlog hstands hproper
    · intro other hother
      obtain ⟨k, hk⟩ := hstood hother
      have hlt := (List.getElem?_eq_some_iff.mp hk).1
      refine hn.distinct hfree (i := k) (j := front.length) ?_ hmerge (by omega)
      rw [hlog, List.getElem?_append_left hlt]
      exact hk
    · intro other hother
      obtain ⟨k, hk⟩ := hstood hother
      refine hn.distinct hfree (i := front.length + 1 + k) (j := front.length) ?_ hmerge (by omega)
      rw [hlog, List.getElem?_append_right (by omega),
        show front.length + 1 + k - front.length = k + 1 by omega]
      exact hk

section

variable (h : Host) (f : Floats) (extract : PropositionExtractor)

theorem run_merges (allowed : Lateness) (calls : List Call) :
    let o := calls.foldl (call h f extract) (fresh allowed)
    Tracked o ∧ Named h o ∧
      (CollisionFree h (mergeTexts o.mergeLog) → Layered o (layersOf o.mergeLog)) := by
  induction calls using List.reverseRecOn with
  | nil =>
    refine ⟨Tracked.fresh allowed, fun i merge hget => ?_, fun _ => ⟨fun c => rfl, fun c => rfl,
      fun c hc => absurd rfl hc⟩⟩
    simp [fresh] at hget
  | append_singleton calls c ih =>
    obtain ⟨htracked, hnamed, hlayered⟩ := ih
    rw [List.foldl_append]
    have hp := call_outcome h f extract (calls.foldl (call h f extract) (fresh allowed)) c
    exact ⟨htracked.outcome hp, hnamed.outcome hp,
      fun hc => Layered.outcome htracked hnamed hp hc hlayered⟩

/-- Whatever was merged and undone, the aliases, the organization graph and the types are those
of the merges that stand, and the constructor's when none does. -/
theorem undo_restores (allowed : Lateness) (calls : List Call) :
    let o := calls.foldl (call h f extract) (fresh allowed)
    CollisionFree h (mergeTexts o.mergeLog) →
      (∀ a, o.map.aliases.get? a = (latest o.mergeLog a).map (·.canonical)) ∧
      (∀ a, o.organizationGraph.get? a =
        (latest o.mergeLog a).map fun merge => possiblySame a merge.canonical) ∧
      (∀ c, o.conceptTypes.get? c = (latestType o.mergeLog c).or (KNOWN_TYPES.get? c)) ∧
      (standing o.mergeLog = [] →
        (∀ a, o.map.aliases.get? a = (fresh allowed).map.aliases.get? a) ∧
        (∀ a, o.organizationGraph.get? a = (fresh allowed).organizationGraph.get? a) ∧
        ∀ c, o.conceptTypes.get? c = (fresh allowed).conceptTypes.get? c) := by
  intro o hc
  obtain ⟨htracked, -, hlayered⟩ := run_merges h f extract allowed calls
  have htypes : ∀ c, o.conceptTypes.get? c =
      (latestType o.mergeLog c).or (KNOWN_TYPES.get? c) := by
    intro c
    rw [← layersOf_last]
    exact (hlayered hc).types c
  refine ⟨htracked.aliases, htracked.graph, htypes, fun hnone => ⟨fun a => ?_, fun a => ?_,
    fun c => ?_⟩⟩
  · rw [htracked.aliases a, latest, standingOf, hnone]
    rfl
  · rw [htracked.graph a, latest, standingOf, hnone]
    rfl
  · rw [htypes c, latestType, hnone]
    rfl

end

/-- Merges in a chain, one of them with a type, undone in another order than they were made. -/
def soilCalls : List Call :=
  [ .mergeConcepts "dirt" "soil" (some "matter") none, .mergeConcepts "soil" "earth" none none,
    .mergeConcepts "dirt" "ground" none none, .mergeConcepts "snake" "python語言" none none,
    .undoMerge (some "soil"), .undoMerge none, .undoMerge (some "dirt") ]

theorem undo_restores_soil :
    let o := soilCalls.foldl (call .ascii evenFloats (DeterministicEcosystemExtractor.extract .ascii))
      (fresh (.within (seconds 5)))
    standing o.mergeLog = [] ∧ o.map.aliases.get? "dirt" = none ∧
      o.conceptTypes.get? "dirt" = KNOWN_TYPES.get? "dirt" := by
  intro o
  have hfacts : CollisionFree .ascii (mergeTexts o.mergeLog) ∧ standing o.mergeLog = [] := by
    decide +kernel
  obtain ⟨-, -, -, hinitial⟩ := undo_restores .ascii evenFloats _ _ soilCalls hfacts.1
  obtain ⟨haliases, -, htypes⟩ := hinitial hfacts.2
  exact ⟨hfacts.2, haliases "dirt", htypes "dirt"⟩

end ConceptMapObject

end LearningOrbit.Projection
