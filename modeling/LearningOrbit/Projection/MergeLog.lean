import LearningOrbit.Projection.Merges
import LearningOrbit.Runs

/-!
# What the merge log says

The merges of the log that are not undone determine the aliases, the organization graph
and the concept types, whatever the order in which merges were made and undone. Undo
takes the latest merge of an alias, so the previous alias a record has written down is
the one of the merge below it.
-/

namespace LearningOrbit.Projection

open LearningOrbit (Host Dict Along)
open LearningOrbit.Reference

/-- The merge of an entry that stands. -/
def MergeRecord.standing? : MergeRecord → Option Merge
  | .conflict _ _ => none
  | .merged merge => if merge.undone then none else some merge

/-- The merges of a log that are not undone, oldest first. -/
def standing (log : List MergeRecord) : List Merge := log.filterMap MergeRecord.standing?

/-- Those of one alias. -/
def standingOf (log : List MergeRecord) (aliasName : String) : List Merge :=
  (standing log).filter (·.aliasName = aliasName)

/-- The latest merge of an alias that is not undone. -/
def latest (log : List MergeRecord) (aliasName : String) : Option Merge :=
  (standingOf log aliasName).getLast?

/-- The type a merge applies to a concept. -/
def Merge.appliedTo (merge : Merge) (concept : String) : Option String :=
  if merge.aliasName = concept then merge.appliedAliasType
  else if merge.canonical = concept then merge.appliedCanonicalType
  else none

/-- The type the latest standing merge that applied one to a concept applied. -/
def latestType (log : List MergeRecord) (concept : String) : Option String :=
  ((standing log).filterMap (·.appliedTo concept)).getLast?

/-- The merges an undo looks for. -/
def Wanted (wanted : Option String) (merge : Merge) : Prop :=
  wanted = none ∨ wanted = some merge.aliasName

section Log

variable {log front back : List MergeRecord} {merge : Merge} {wanted : Option String}

@[simp] theorem standing_nil : standing [] = [] := rfl

theorem standing_append : standing (front ++ back) = standing front ++ standing back :=
  List.filterMap_append

theorem standing_snoc (hm : merge.undone = false) :
    standing (log ++ [.merged merge]) = standing log ++ [merge] := by
  simp [standing, MergeRecord.standing?, hm]

theorem standing_conflict (aliasName canonical : String) :
    standing (log ++ [.conflict aliasName canonical]) = standing log := by
  simp [standing, MergeRecord.standing?]

theorem standing_split (hm : merge.undone = false) :
    standing (front ++ .merged merge :: back) = standing front ++ merge :: standing back := by
  simp [standing, MergeRecord.standing?, hm]

theorem standing_undone :
    standing (front ++ .merged { merge with undone := true } :: back) =
      standing front ++ standing back := by
  simp [standing, MergeRecord.standing?]

/-- What an undo finds, in the log read backwards. -/
theorem undoLatest_spec {found : Merge × List MergeRecord}
    (hu : ConceptMapObject.undoLatest wanted log = some found) :
    ∃ front back, log = front ++ .merged found.1 :: back ∧
      found.2 = front ++ .merged { found.1 with undone := true } :: back ∧
      found.1.undone = false ∧ Wanted wanted found.1 ∧
      ∀ later ∈ standing front, ¬Wanted wanted later := by
  induction log generalizing found with
  | nil => cases hu
  | cons record rest ih =>
    cases record with
    | conflict aliasName canonical =>
      obtain ⟨inner, hinner, rfl⟩ := Option.map_eq_some_iff.mp hu
      obtain ⟨front, back, hlog, hafter, hrest⟩ := ih hinner
      exact ⟨.conflict aliasName canonical :: front, back, by rw [hlog, List.cons_append],
        by rw [hafter, List.cons_append], hrest⟩
    | merged merge =>
      rw [ConceptMapObject.undoLatest] at hu
      split at hu
      · rename_i hfirst
        cases hu
        exact ⟨[], rest, rfl, rfl, hfirst.1, hfirst.2, by simp⟩
      · rename_i hfirst
        obtain ⟨inner, hinner, rfl⟩ := Option.map_eq_some_iff.mp hu
        obtain ⟨front, back, hlog, hafter, hstands, hwanted, hlater⟩ := ih hinner
        refine ⟨.merged merge :: front, back, by rw [hlog, List.cons_append],
          by rw [hafter, List.cons_append], hstands, hwanted, fun later hl => ?_⟩
        cases hundone : merge.undone with
        | true =>
          refine hlater later ?_
          simpa [standing, MergeRecord.standing?, hundone] using hl
        | false =>
          have hl' : later = merge ∨ later ∈ standing front := by
            simpa [standing, MergeRecord.standing?, hundone] using hl
          rcases hl' with rfl | hl'
          · exact fun hw => hfirst ⟨hundone, hw⟩
          · exact hlater later hl'

/-- What an undo finds, in the log itself. -/
theorem undoLatest_reverse {found : Merge × List MergeRecord}
    (hu : ConceptMapObject.undoLatest wanted log.reverse = some found) :
    ∃ front back, log = front ++ .merged found.1 :: back ∧
      found.2.reverse = front ++ .merged { found.1 with undone := true } :: back ∧
      found.1.undone = false ∧ Wanted wanted found.1 ∧
      ∀ later ∈ standing back, ¬Wanted wanted later := by
  obtain ⟨back, front, hlog, hafter, hstands, hwanted, hlater⟩ := undoLatest_spec hu
  refine ⟨front.reverse, back.reverse, ?_, ?_, hstands, hwanted, fun later hl => ?_⟩
  · rw [← List.reverse_reverse log, hlog]
    simp
  · rw [hafter]
    simp
  · refine hlater later ?_
    unfold standing at hl ⊢
    rw [List.filterMap_reverse, List.mem_reverse] at hl
    exact hl

/-- The merge an undo takes back is the latest of its alias. -/
theorem standingOf_undone (hm : merge.undone = false)
    (hlater : ∀ later ∈ standing back, later.aliasName ≠ merge.aliasName) (aliasName : String) :
    standingOf (front ++ .merged merge :: back) aliasName =
      standingOf (front ++ .merged { merge with undone := true } :: back) aliasName ++
        if merge.aliasName = aliasName then [merge] else [] := by
  unfold standingOf
  rw [standing_split hm, standing_undone, List.filter_append, List.filter_append, List.filter_cons]
  by_cases ha : merge.aliasName = aliasName
  · have hnone : (standing back).filter (·.aliasName = aliasName) = [] := by
      rw [List.filter_eq_nil_iff]
      intro later hl
      simpa [← ha] using hlater later hl
    rw [hnone]
    simp [ha]
  · simp [ha]

end Log

namespace ConceptMapObject

/-! ## What each call writes -/

section Writes

variable (h : Host) (o : ConceptMapObject) (concept mergeId : String) (applied : Option String)

@[simp] theorem rekeyVisibility_map (before : Dict String String) :
    (o.rekeyVisibility h before).map = o.map := rfl

@[simp] theorem pushType_map : (o.pushType concept mergeId applied).map = o.map := by
  cases applied <;> rfl

@[simp] theorem pushType_organizationGraph :
    (o.pushType concept mergeId applied).organizationGraph = o.organizationGraph := by
  cases applied <;> rfl

@[simp] theorem pushType_mergeLog :
    (o.pushType concept mergeId applied).mergeLog = o.mergeLog := by
  cases applied <;> rfl

@[simp] theorem removeType_map : (o.removeType concept mergeId applied).map = o.map := by
  cases applied with
  | none => rfl
  | some _ =>
    unfold removeType removeMergeType
    dsimp only
    split <;> rfl

@[simp] theorem removeType_organizationGraph :
    (o.removeType concept mergeId applied).organizationGraph = o.organizationGraph := by
  cases applied with
  | none => rfl
  | some _ =>
    unfold removeType removeMergeType
    dsimp only
    split <;> rfl

end Writes

/-- The record of an accepted merge. -/
def recordOf (h : Host) (o : ConceptMapObject) (aliasName canonical : String)
    (aliasType canonicalType : Option String) : Merge where
  aliasName
  canonical
  mergeId := stableId h "merge"
    (mergeParts o.mergeLog.length aliasName canonical (o.map.aliases.get? aliasName))
  previous := o.map.aliases.get? aliasName
  appliedAliasType := aliasType
  appliedCanonicalType := canonicalType
  undone := false

section Accept

variable (h : Host) (o : ConceptMapObject) (aliasName canonical : String)
  (aliasType canonicalType : Option String)

theorem accept_aliases :
    (o.accept h aliasName canonical aliasType canonicalType).map.aliases =
      o.map.aliases.set aliasName canonical := by
  simp [accept]

theorem accept_organizationGraph :
    (o.accept h aliasName canonical aliasType canonicalType).organizationGraph =
      o.organizationGraph.set aliasName (possiblySame aliasName canonical) := by
  simp [accept, rekeyVisibility]

theorem accept_mergeLog :
    (o.accept h aliasName canonical aliasType canonicalType).mergeLog =
      o.mergeLog ++ [.merged (o.recordOf h aliasName canonical aliasType canonicalType)] := by
  simp [accept, rekeyVisibility, recordOf]

end Accept

section Revert

variable (h : Host) (o : ConceptMapObject) (merge : Merge) (log : List MergeRecord)

theorem revert_aliases :
    (o.revert h merge log).map.aliases = match merge.previous with
      | none => o.map.aliases.erase merge.aliasName
      | some previous => o.map.aliases.set merge.aliasName previous := by
  cases hp : merge.previous <;> simp [revert, hp]

theorem revert_organizationGraph :
    (o.revert h merge log).organizationGraph = match merge.previous with
      | none => o.organizationGraph.erase merge.aliasName
      | some previous => o.organizationGraph.set merge.aliasName
          (possiblySame merge.aliasName previous) := by
  cases hp : merge.previous <;> simp [revert, rekeyVisibility, hp]

theorem revert_mergeLog : (o.revert h merge log).mergeLog = log := rfl

end Revert

/-- What a call does to the merges. -/
inductive Outcome (h : Host) (o : ConceptMapObject) : ConceptMapObject → Prop
  | kept {p : ConceptMapObject} (haliases : p.map.aliases = o.map.aliases)
      (hgraph : p.organizationGraph = o.organizationGraph) (hlog : p.mergeLog = o.mergeLog)
      (htypes : p.conceptTypes = o.conceptTypes)
      (hlayers : p.mergeTypeLayers = o.mergeTypeLayers)
      (hbaselines : p.mergeTypeBaselines = o.mergeTypeBaselines) : Outcome h o p
  | conflict (aliasName canonical : String) :
    Outcome h o { o with mergeLog := o.mergeLog ++ [.conflict aliasName canonical] }
  | accepted (aliasName canonical : String) (aliasType canonicalType : Option String)
      (hne : aliasName ≠ canonical) :
    Outcome h o (o.accept h aliasName canonical aliasType canonicalType)
  | reverted (wanted : Option String) (merge : Merge) (front back : List MergeRecord)
      (hlog : o.mergeLog = front ++ .merged merge :: back) (hstands : merge.undone = false)
      (hlater : ∀ later ∈ standing back, later.aliasName ≠ merge.aliasName) :
    Outcome h o (o.revert h merge (front ++ .merged { merge with undone := true } :: back))

theorem call_outcome (h : Host) (f : Floats) (extract : PropositionExtractor)
    (o : ConceptMapObject) (c : Call) : Outcome h o (o.call h f extract c) := by
  cases c with
  | apply input =>
    exact .kept (StreamingConceptMap.calls_configuration h extract o.map [input]).2 rfl rfl rfl rfl
      rfl
  | snapshot now => exact .kept rfl rfl rfl rfl rfl rfl
  | mergeConcepts aliasName canonical aliasType canonicalType =>
    unfold call mergeConcepts
    dsimp only
    split
    · exact .conflict aliasName canonical
    split
    · exact .kept rfl rfl rfl rfl rfl rfl
    · rename_i hsame
      exact .accepted _ _ _ _ fun heq => hsame (.inl heq)
  | undoMerge wanted =>
    unfold call undoMerge
    dsimp only
    split
    · exact .kept rfl rfl rfl rfl rfl rfl
    · rename_i merge log hu
      obtain ⟨front, back, hlog, hafter, hstands, hwanted, hlater⟩ := undoLatest_reverse hu
      dsimp only at hafter hlog hstands hwanted
      rw [hafter]
      refine .reverted wanted merge front back hlog hstands fun later hl heq => ?_
      refine hlater later hl ?_
      rcases hwanted with hw | hw
      · exact .inl hw
      · exact .inr (heq ▸ hw)

/-! ## Aliases -/

/-- Each merge of an alias has written down the target of the one below it. -/
def Linked : Option String → List Merge → Prop
  | _, [] => True
  | below, merge :: merges => merge.previous = below ∧ Linked (some merge.canonical) merges

theorem linked_snoc {below : Option String} {merges : List Merge} {merge : Merge} :
    Linked below (merges ++ [merge]) ↔
      Linked below merges ∧ merge.previous = (merges.getLast?.map (·.canonical)).or below := by
  induction merges generalizing below with
  | nil => simp [Linked]
  | cons first merges ih =>
    simp only [List.cons_append, Linked, ih, and_assoc]
    cases hlast : merges.getLast? with
    | none =>
      obtain rfl := List.getLast?_eq_none_iff.mp hlast
      simp
    | some last => simp [List.getLast?_cons, hlast]

/-- The aliases and the organization graph are those of the standing merges. -/
structure Tracked (o : ConceptMapObject) : Prop where
  aliases : ∀ a, o.map.aliases.get? a = (latest o.mergeLog a).map (·.canonical)
  graph : ∀ a, o.organizationGraph.get? a =
    (latest o.mergeLog a).map fun merge => possiblySame a merge.canonical
  linked : ∀ a, Linked none (standingOf o.mergeLog a)
  proper : ∀ merge ∈ standing o.mergeLog, merge.aliasName ≠ merge.canonical

theorem Tracked.fresh (allowed : Lateness) : Tracked (fresh allowed) where
  aliases _ := rfl
  graph _ := rfl
  linked _ := trivial
  proper merge hm := by cases hm

section

variable {h : Host} {o : ConceptMapObject}

theorem Tracked.accept (ho : Tracked o) {aliasName canonical : String}
    (aliasType canonicalType : Option String) (hne : aliasName ≠ canonical) :
    Tracked (o.accept h aliasName canonical aliasType canonicalType) := by
  have hstanding : standing (o.accept h aliasName canonical aliasType canonicalType).mergeLog =
      standing o.mergeLog ++ [o.recordOf h aliasName canonical aliasType canonicalType] := by
    rw [accept_mergeLog, standing_snoc rfl]
  have hof : ∀ a, standingOf (o.accept h aliasName canonical aliasType canonicalType).mergeLog a =
      standingOf o.mergeLog a ++ if aliasName = a
        then [o.recordOf h aliasName canonical aliasType canonicalType] else [] := by
    intro a
    unfold standingOf
    rw [hstanding, List.filter_append]
    by_cases ha : aliasName = a
    · simp [recordOf, ha]
    · simp [recordOf, ha]
  refine ⟨fun a => ?_, fun a => ?_, fun a => ?_, fun merge hm => ?_⟩
  · rw [accept_aliases, Dict.get?_set, latest, hof]
    by_cases ha : a = aliasName
    · rw [if_pos ha, if_pos ha.symm, List.getLast?_concat]
      rfl
    · rw [if_neg ha, if_neg (Ne.symm ha), List.append_nil]
      exact ho.aliases a
  · rw [accept_organizationGraph, Dict.get?_set, latest, hof]
    by_cases ha : a = aliasName
    · rw [if_pos ha, if_pos ha.symm, List.getLast?_concat, ha]
      rfl
    · rw [if_neg ha, if_neg (Ne.symm ha), List.append_nil]
      exact ho.graph a
  · rw [hof]
    by_cases ha : aliasName = a
    · rw [if_pos ha, linked_snoc, Option.or_none, ← ha]
      exact ⟨ho.linked aliasName, ho.aliases aliasName⟩
    · rw [if_neg ha, List.append_nil]
      exact ho.linked a
  · rw [hstanding] at hm
    rcases List.mem_append.mp hm with hm | hm
    · exact ho.proper merge hm
    · rw [List.mem_singleton.mp hm]
      exact hne

theorem Tracked.revert (ho : Tracked o) {merge : Merge} {front back : List MergeRecord}
    (hlog : o.mergeLog = front ++ .merged merge :: back) (hstands : merge.undone = false)
    (hlater : ∀ later ∈ standing back, later.aliasName ≠ merge.aliasName) :
    Tracked (o.revert h merge (front ++ .merged { merge with undone := true } :: back)) := by
  have hof := fun a => @standingOf_undone front back merge hstands hlater a
  rw [← hlog] at hof
  -- what the record has written down is the target of the merge below it
  have hprevious : merge.previous =
      (latest (front ++ .merged { merge with undone := true } :: back) merge.aliasName).map
        (·.canonical) := by
    have hlinked := ho.linked merge.aliasName
    rw [hof, if_pos rfl, linked_snoc, Option.or_none] at hlinked
    exact hlinked.2
  have hother : ∀ a, a ≠ merge.aliasName →
      latest o.mergeLog a = latest (front ++ .merged { merge with undone := true } :: back) a := by
    intro a ha
    rw [latest, hof, if_neg (Ne.symm ha), List.append_nil]
    rfl
  refine ⟨fun a => ?_, fun a => ?_, fun a => ?_, fun other hm => ?_⟩
  · rw [revert_aliases, revert_mergeLog]
    by_cases ha : a = merge.aliasName
    · subst ha
      rw [← hprevious]
      cases merge.previous with
      | none => rw [Dict.get?_erase, if_pos rfl]
      | some previous => rw [Dict.get?_set_self]
    · rw [← hother a ha, ← ho.aliases a]
      cases merge.previous with
      | none => rw [Dict.get?_erase, if_neg ha]
      | some previous => rw [Dict.get?_set_of_ne _ _ ha]
  · rw [revert_organizationGraph, revert_mergeLog]
    by_cases ha : a = merge.aliasName
    · subst ha
      have hgraph : (latest (front ++ .merged { merge with undone := true } :: back)
          merge.aliasName).map (fun m => possiblySame merge.aliasName m.canonical) =
          merge.previous.map (possiblySame merge.aliasName) := by
        have hsame := congrArg (Option.map (possiblySame merge.aliasName)) hprevious
        rw [Option.map_map] at hsame
        exact hsame.symm
      rw [hgraph]
      cases merge.previous with
      | none => rw [Dict.get?_erase, if_pos rfl, Option.map_none]
      | some previous => rw [Dict.get?_set_self, Option.map_some]
    · rw [← hother a ha, ← ho.graph a]
      cases merge.previous with
      | none => rw [Dict.get?_erase, if_neg ha]
      | some previous => rw [Dict.get?_set_of_ne _ _ ha]
  · rw [revert_mergeLog]
    have hlinked := ho.linked a
    rw [hof] at hlinked
    by_cases ha : merge.aliasName = a
    · rw [if_pos ha, linked_snoc] at hlinked
      exact hlinked.1
    · rw [if_neg ha, List.append_nil] at hlinked
      exact hlinked
  · rw [revert_mergeLog, standing_undone] at hm
    refine ho.proper other ?_
    rw [hlog, standing_split hstands]
    rcases List.mem_append.mp hm with hm | hm
    · exact List.mem_append_left _ hm
    · exact List.mem_append_right _ (List.mem_cons_of_mem _ hm)

theorem Tracked.outcome (ho : Tracked o) {p : ConceptMapObject} (hp : Outcome h o p) :
    Tracked p := by
  cases hp with
  | kept haliases hgraph hlog =>
    constructor
    · rw [haliases, hlog]
      exact ho.aliases
    · rw [hgraph, hlog]
      exact ho.graph
    · rw [hlog]
      exact ho.linked
    · rw [hlog]
      exact ho.proper
  | conflict aliasName canonical =>
    have hof : ∀ a, standingOf (o.mergeLog ++ [.conflict aliasName canonical]) a =
        standingOf o.mergeLog a := by
      intro a
      unfold standingOf
      rw [standing_conflict]
    constructor
    · intro a
      rw [latest, hof]
      exact ho.aliases a
    · intro a
      rw [latest, hof]
      exact ho.graph a
    · intro a
      rw [hof]
      exact ho.linked a
    · rw [standing_conflict]
      exact ho.proper
  | accepted aliasName canonical aliasType canonicalType hne =>
    exact ho.accept aliasType canonicalType hne
  | reverted wanted merge front back hlog hstands hlater => exact ho.revert hlog hstands hlater

end

end ConceptMapObject

end LearningOrbit.Projection
