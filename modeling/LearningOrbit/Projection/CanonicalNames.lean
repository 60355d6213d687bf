import LearningOrbit.Projection.MergeLog

/-!
# One name for merged concepts

`_canonical` follows the aliases. As long as no merge and no undo closes a cycle, merged
concepts end at the same name; on a cycle every concept is its own canonical name, and
two merged concepts have two.
-/

namespace LearningOrbit.Projection

open LearningOrbit (Host Dict Along)
open LearningOrbit.Pointers (Points Acyclic root)
open LearningOrbit.Reference

theorem canonicalFrom_eq (aliases : Dict String String) (fuel : Nat) (seen : List String)
    (current : String) :
    StreamingConceptMap.canonicalFrom aliases fuel seen current =
      Pointers.follow aliases fuel seen current := by
  induction fuel generalizing seen current with
  | zero => rfl
  | succ fuel ih =>
    rw [StreamingConceptMap.canonicalFrom, Pointers.follow]
    split
    · rfl
    · cases aliases.get? current with
      | none => rfl
      | some next => exact ih (current :: seen) next

theorem canonical_eq (m : StreamingConceptMap) (concept : String) :
    m.canonical concept = root m.aliases concept :=
  canonicalFrom_eq ..

namespace ConceptMapObject

/-- The latest merge of the alias that is not undone is into this concept. -/
def Merged (o : ConceptMapObject) (aliasName canonical : String) : Prop :=
  (latest o.mergeLog aliasName).map (·.canonical) = some canonical

instance (o : ConceptMapObject) (aliasName canonical : String) :
    Decidable (o.Merged aliasName canonical) :=
  inferInstanceAs (Decidable (_ = _))

/-- Merged concepts have one canonical name, and so have concepts that a chain of merges
connects; the contributions about them share their edges. -/
structure OneName (o : ConceptMapObject) : Prop where
  merged : ∀ a c, o.Merged a c → o.map.canonical a = o.map.canonical c
  connected : ∀ x y, Relation.EqvGen o.Merged x y → o.map.canonical x = o.map.canonical y
  edges : ∀ p q : ConceptContribution, Relation.EqvGen o.Merged p.head q.head →
    Relation.EqvGen o.Merged p.tail q.tail → p.predicate = q.predicate →
    p.relationFamily = q.relationFamily → o.map.edgeKey p = o.map.edgeKey q

theorem OneName.of_merged {o : ConceptMapObject}
    (hm : ∀ a c, o.Merged a c → o.map.canonical a = o.map.canonical c) : OneName o := by
  have hconnected : ∀ x y, Relation.EqvGen o.Merged x y →
      o.map.canonical x = o.map.canonical y := by
    intro x y hxy
    induction hxy with
    | rel x y h => exact hm x y h
    | refl x => rfl
    | symm x y _ ih => exact ih.symm
    | trans x y z _ _ ihxy ihyz => exact ihxy.trans ihyz
  refine ⟨hm, hconnected, fun p q hhead htail hpredicate hfamily => ?_⟩
  unfold StreamingConceptMap.edgeKey
  rw [hconnected _ _ hhead, hconnected _ _ htail, hpredicate, hfamily]

theorem Tracked.merged_iff {o : ConceptMapObject} (ho : Tracked o) {a c : String} :
    o.Merged a c ↔ Points o.map.aliases a c := by
  unfold Merged Points
  rw [ho.aliases a]

theorem Tracked.no_self {o : ConceptMapObject} (ho : Tracked o) (a : String) :
    ¬Points o.map.aliases a a := by
  intro hself
  obtain ⟨merge, hmerge, hcanonical⟩ := Option.map_eq_some_iff.mp (ho.merged_iff.mpr hself)
  obtain ⟨hstanding, halias⟩ := List.mem_filter.mp (List.mem_of_getLast? hmerge)
  apply ho.proper merge hstanding
  rw [hcanonical]
  exact of_decide_eq_true halias

/-- Merged concepts have one name exactly if the aliases have no cycle. -/
theorem oneName_iff {o : ConceptMapObject} (ho : Tracked o) :
    OneName o ↔ Acyclic o.map.aliases := by
  constructor
  · intro hone x hx
    have hpoints := Pointers.cycle_points hx
    have hsame := hone.merged _ _ (ho.merged_iff.mpr hpoints)
    rw [canonical_eq, canonical_eq, Pointers.root_of_cycle hx,
      Pointers.root_of_cycle (Pointers.cycle_of_reaches hx (.single hpoints))] at hsame
    rw [← hsame] at hpoints
    exact ho.no_self x hpoints
  · intro hacyclic
    apply OneName.of_merged
    intro a c hmerged
    rw [canonical_eq, canonical_eq]
    exact Pointers.root_eq_of_points hacyclic (ho.merged_iff.mp hmerged)

/-- The merge is stored: the types agree and it says something new. -/
def Stores (h : Host) (o : ConceptMapObject) (aliasName canonical : String)
    (aliasType canonicalType : Option String) : Prop :=
  ¬(o.resolvedType h aliasType aliasName ≠ none ∧
      o.resolvedType h canonicalType canonical ≠ none ∧
      o.resolvedType h aliasType aliasName ≠ o.resolvedType h canonicalType canonical) ∧
    ¬(aliasName = canonical ∨ o.map.aliases.get? aliasName = some canonical)

/-- Sending the alias to this concept closes no cycle: followed without the alias's own link,
the concept does not lead back to the alias. -/
def Opens (o : ConceptMapObject) (aliasName canonical : String) : Prop :=
  root (o.map.aliases.erase aliasName) canonical ≠ aliasName

/-- A call that closes no cycle, neither with the link it stores nor with the one it
restores. -/
def Clears (h : Host) (o : ConceptMapObject) : Call → Prop
  | .apply _ => True
  | .snapshot _ => True
  | .mergeConcepts aliasName canonical aliasType canonicalType =>
    o.Stores h aliasName canonical aliasType canonicalType → o.Opens aliasName canonical
  | .undoMerge wanted =>
    ∀ found, undoLatest wanted o.mergeLog.reverse = some found →
      ∀ previous, found.1.previous = some previous → o.Opens found.1.aliasName previous

theorem clears_iff (h : Host) (f : Floats) (extract : PropositionExtractor)
    {o : ConceptMapObject} (hd : Acyclic o.map.aliases) (c : Call) :
    Acyclic (o.call h f extract c).map.aliases ↔ Clears h o c := by
  cases c with
  | apply input =>
    have hsame : (o.call h f extract (.apply input)).map.aliases = o.map.aliases :=
      (StreamingConceptMap.calls_configuration h extract o.map [input]).2
    rw [hsame]
    exact iff_of_true hd trivial
  | snapshot now => exact iff_of_true hd trivial
  | mergeConcepts aliasName canonical aliasType canonicalType =>
    by_cases hs : o.Stores h aliasName canonical aliasType canonicalType
    · have hcall : o.call h f extract (.mergeConcepts aliasName canonical aliasType canonicalType) =
          o.accept h aliasName canonical (o.resolvedType h aliasType aliasName)
            (o.resolvedType h canonicalType canonical) := by
        unfold call mergeConcepts
        dsimp only
        rw [if_neg hs.1, if_neg hs.2]
      rw [hcall, accept_aliases, Pointers.acyclic_set hd]
      exact ⟨fun hopen _ => hopen, fun hopen => hopen hs⟩
    · have hsame : (o.call h f extract
          (.mergeConcepts aliasName canonical aliasType canonicalType)).map.aliases =
          o.map.aliases := by
        unfold call mergeConcepts
        dsimp only
        split
        · rfl
        · rename_i hconflict
          split
          · rfl
          · rename_i hknown
            exact absurd ⟨hconflict, hknown⟩ hs
      rw [hsame]
      exact iff_of_true hd fun hstores => absurd hstores hs
  | undoMerge wanted =>
    unfold Clears call undoMerge
    dsimp only
    cases hu : undoLatest wanted o.mergeLog.reverse with
    | none => exact iff_of_true hd fun found hfound => by cases hfound
    | some found =>
      obtain ⟨merge, log⟩ := found
      dsimp only
      rw [revert_aliases]
      cases hp : merge.previous with
      | none =>
        refine iff_of_true (hd.erase _) fun found hfound previous hprevious => ?_
        cases hfound
        rw [hp] at hprevious
        cases hprevious
      | some previous =>
        dsimp only
        rw [Pointers.acyclic_set hd]
        constructor
        · intro hopen found hfound earlier hearlier
          cases hfound
          rw [hp] at hearlier
          cases hearlier
          exact hopen
        · intro hopen
          exact hopen (merge, log) rfl previous hp

/-- Merged concepts have one canonical name in every state of a run exactly if no call of the
run closes a cycle. -/
theorem one_name_iff (h : Host) (f : Floats) (extract : PropositionExtractor) (allowed : Lateness)
    (calls : List Call) :
    (∀ n, OneName ((calls.take n).foldl (call h f extract) (fresh allowed))) ↔
      Along (call h f extract) (Clears h) (fresh allowed) calls := by
  have hempty : Acyclic (fresh allowed).map.aliases := by
    intro x hx
    obtain ⟨y, hy, -⟩ := Relation.TransGen.head'_iff.mp hx
    cases hy
  apply Along.always_iff (I := Tracked)
  · exact fun o c _ htracked => htracked.outcome (call_outcome h f extract o c)
  · intro o c _ htracked hone
    have hnext := htracked.outcome (call_outcome h f extract o c)
    rw [oneName_iff hnext]
    exact clears_iff h f extract ((oneName_iff htracked).mp hone) c
  · exact Tracked.fresh allowed
  · exact (oneName_iff (Tracked.fresh allowed)).mpr hempty

/-- Two concepts merged into each other keep two names. -/
theorem mutual_merge_two_names :
    ¬OneName ([Call.mergeConcepts "sun" "star" none none, .mergeConcepts "star" "sun" none none].foldl
      (call .ascii evenFloats (DeterministicEcosystemExtractor.extract .ascii))
      (fresh (.within (seconds 5)))) := by
  intro hone
  have hnames := hone.merged "sun" "star" (by decide +kernel)
  revert hnames
  decide +kernel

end ConceptMapObject

end LearningOrbit.Projection
