import LearningOrbit.Pointers
import LearningOrbit.Projection.EchoSnapshot
import LearningOrbit.Reference.Replay
import LearningOrbit.Worker.Extractors

/-!
# Merging concepts

`merge_concepts` sends an alias to another concept unless their types conflict, and
`undo_merge` takes the latest merge back, of one alias or of all. Both change the names
the edges are aggregated under, so both carry the visible and the archived edges over.
The members of a merge record that nothing reads are left out.
-/

namespace LearningOrbit.Projection

open LearningOrbit (Host Dict)
open LearningOrbit.Reference
open LearningOrbit.Worker (truthy)

/-- `_known_types`. -/
def KNOWN_TYPES : Dict String String :=
  ((((Dict.empty.set "python_language" "language").set "python language" "language").set
    "python語言" "language").set "snake" "animal").set "蛇" "animal"

/-- An entry of `organization_graph`. -/
structure Organization where
  sourceId : String
  targetId : String
  relation : String
  deriving DecidableEq

def possiblySame (source target : String) : Organization := ⟨source, target, "possibly_same_as"⟩

/-- The record of an accepted merge. -/
structure Merge where
  aliasName : String
  canonical : String
  mergeId : String
  previous : Option String
  appliedAliasType : Option String
  appliedCanonicalType : Option String
  undone : Bool
  deriving DecidableEq

/-- An entry of `merge_log`: a `type_conflict`, or a merge. -/
inductive MergeRecord
  | conflict (aliasName canonical : String)
  | merged (merge : Merge)
  deriving DecidableEq

/-- The whole object: the map with its aliases, what it has shown, and its merges. -/
structure ConceptMapObject where
  map : StreamingConceptMap
  visibility : Visibility
  conceptTypes : Dict String String
  organizationGraph : Dict String Organization
  mergeLog : List MergeRecord
  mergeTypeBaselines : Dict String (Option String)
  mergeTypeLayers : Dict String (List (String × String))

namespace ConceptMapObject

/-- The constructor. -/
def fresh (allowed : Lateness) : ConceptMapObject where
  map := .fresh allowed
  visibility := .init
  conceptTypes := KNOWN_TYPES
  organizationGraph := .empty
  mergeLog := []
  mergeTypeBaselines := .empty
  mergeTypeLayers := .empty

/-! ## Edges under new names -/

/-- `_edge_identity_map`. -/
def edgeIdentityMap (h : Host) (m : StreamingConceptMap) : Dict String String :=
  (m.contributions.values.filter (·.active)).foldl
    (fun before item => before.set item.contributionId (m.edgeIdForContribution h item)) .empty

/-- The edges each old edge turns into. -/
def successors (h : Host) (m : StreamingConceptMap) (before : Dict String String) :
    Dict String (List String) :=
  before.entries.foldl (fun successors entry =>
    match m.contributions.get? entry.1 with
    | none => successors
    | some item =>
      if item.active then
        successors.modify entry.2 [] fun ids =>
          if m.edgeIdForContribution h item ∈ ids then ids
          else ids ++ [m.edgeIdForContribution h item]
      else successors) .empty

def carry (successors : Dict String (List String)) (edgeIds : List String) : List String :=
  edgeIds.flatMap fun edgeId => (successors.get? edgeId).getD [edgeId]

/-- `_rekey_visibility`. -/
def rekeyVisibility (h : Host) (o : ConceptMapObject) (before : Dict String String) :
    ConceptMapObject :=
  let successors := successors h o.map before
  let visible := carry successors o.visibility.visible
  { o with visibility := ⟨visible, (carry successors o.visibility.archived).filter (· ∉ visible)⟩ }

/-! ## Types -/

/-- `_push_merge_type`. -/
def pushMergeType (o : ConceptMapObject) (concept mergeId conceptType : String) :
    ConceptMapObject :=
  let layers := (o.mergeTypeLayers.get? concept).getD []
  { o with
    mergeTypeBaselines := if layers = [] then
        o.mergeTypeBaselines.set concept (o.conceptTypes.get? concept)
      else o.mergeTypeBaselines
    mergeTypeLayers := o.mergeTypeLayers.set concept (layers ++ [(mergeId, conceptType)])
    conceptTypes := o.conceptTypes.set concept conceptType }

/-- `_remove_merge_type`. -/
def removeMergeType (o : ConceptMapObject) (concept mergeId : String) : ConceptMapObject :=
  let layers := (o.mergeTypeLayers.get? concept).getD []
  let remaining := layers.filter fun item => item.1 ≠ mergeId
  match remaining.getLast? with
  | some last =>
    { o with
      mergeTypeLayers := o.mergeTypeLayers.set concept remaining
      conceptTypes := o.conceptTypes.set concept last.2 }
  | none =>
    { o with
      mergeTypeLayers := o.mergeTypeLayers.erase concept
      mergeTypeBaselines := o.mergeTypeBaselines.erase concept
      conceptTypes := match (o.mergeTypeBaselines.get? concept).getD none with
        | some prior => o.conceptTypes.set concept prior
        | none => o.conceptTypes.erase concept }

/-- The type a merge goes by: the explicit one, the map's, or the known one. -/
def resolvedType (h : Host) (o : ConceptMapObject) (explicit : Option String) (concept : String) :
    Option String :=
  (truthy explicit).or ((truthy (o.conceptTypes.get? concept)).or
    (KNOWN_TYPES.get? (h.casefold concept)))

/-- Push the type a merge applies to a concept, if it applies one. -/
def pushType (o : ConceptMapObject) (concept mergeId : String) (applied : Option String) :
    ConceptMapObject :=
  match applied with
  | some conceptType => o.pushMergeType concept mergeId conceptType
  | none => o

def removeType (o : ConceptMapObject) (concept mergeId : String) (applied : Option String) :
    ConceptMapObject :=
  match applied with
  | some _ => o.removeMergeType concept mergeId
  | none => o

/-! ## Merge and undo -/

/-- `_stable_id("merge", len(self.merge_log), alias, canonical, previous)`. -/
def mergeParts (index : Nat) (aliasName canonical : String) (previous : Option String) :
    List String :=
  [toString index, aliasName, canonical, previous.getD "None"]

/-- The writes of an accepted merge. -/
def accept (h : Host) (o : ConceptMapObject) (aliasName canonical : String)
    (aliasType canonicalType : Option String) : ConceptMapObject :=
  let previous := o.map.aliases.get? aliasName
  let mergeId := stableId h "merge" (mergeParts o.mergeLog.length aliasName canonical previous)
  let before := edgeIdentityMap h o.map
  let p : ConceptMapObject :=
    { o with map := { o.map with aliases := o.map.aliases.set aliasName canonical } }
  let p := (p.pushType aliasName mergeId aliasType).pushType canonical mergeId canonicalType
  let p : ConceptMapObject := { p with
    organizationGraph := p.organizationGraph.set aliasName (possiblySame aliasName canonical)
    mergeLog := p.mergeLog ++ [.merged
      { aliasName, canonical, mergeId, previous
        appliedAliasType := aliasType, appliedCanonicalType := canonicalType, undone := false }] }
  p.rekeyVisibility h before

/-- `merge_concepts`. -/
def mergeConcepts (h : Host) (o : ConceptMapObject) (aliasName canonical : String)
    (aliasType canonicalType : Option String) : ConceptMapObject × Bool :=
  let resolvedAliasType := o.resolvedType h aliasType aliasName
  let resolvedCanonicalType := o.resolvedType h canonicalType canonical
  if resolvedAliasType ≠ none ∧ resolvedCanonicalType ≠ none ∧
      resolvedAliasType ≠ resolvedCanonicalType then
    ({ o with mergeLog := o.mergeLog ++ [.conflict aliasName canonical] }, false)
  else if aliasName = canonical ∨ o.map.aliases.get? aliasName = some canonical then (o, true)
  else (o.accept h aliasName canonical resolvedAliasType resolvedCanonicalType, true)

/-- Mark the latest merge that stands and is looked for, in the log read backwards. -/
def undoLatest (wanted : Option String) : List MergeRecord → Option (Merge × List MergeRecord)
  | [] => none
  | .conflict aliasName canonical :: rest =>
    (undoLatest wanted rest).map fun found => (found.1, .conflict aliasName canonical :: found.2)
  | .merged merge :: rest =>
    if merge.undone = false ∧ (wanted = none ∨ wanted = some merge.aliasName) then
      some (merge, .merged { merge with undone := true } :: rest)
    else (undoLatest wanted rest).map fun found => (found.1, .merged merge :: found.2)

/-- The writes of an undo. -/
def revert (h : Host) (o : ConceptMapObject) (merge : Merge) (log : List MergeRecord) :
    ConceptMapObject :=
  let before := edgeIdentityMap h o.map
  let p : ConceptMapObject := match merge.previous with
    | none => { o with
        map := { o.map with aliases := o.map.aliases.erase merge.aliasName }
        organizationGraph := o.organizationGraph.erase merge.aliasName }
    | some previous => { o with
        map := { o.map with aliases := o.map.aliases.set merge.aliasName previous }
        organizationGraph := o.organizationGraph.set merge.aliasName
          (possiblySame merge.aliasName previous) }
  let p := (p.removeType merge.aliasName merge.mergeId merge.appliedAliasType).removeType
    merge.canonical merge.mergeId merge.appliedCanonicalType
  ({ p with mergeLog := log } : ConceptMapObject).rekeyVisibility h before

/-- `undo_merge`. -/
def undoMerge (h : Host) (o : ConceptMapObject) (wanted : Option String) :
    ConceptMapObject × Bool :=
  match undoLatest wanted o.mergeLog.reverse with
  | none => (o, false)
  | some (merge, log) => (o.revert h merge log.reverse, true)

/-! ## Calls -/

/-- A call of the object. -/
inductive Call
  | apply (input : ConceptInput)
  | snapshot (now : Option Int)
  | mergeConcepts (aliasName canonical : String) (aliasType canonicalType : Option String)
  | undoMerge (wanted : Option String)

section

variable (h : Host) (f : Floats) (extract : PropositionExtractor)

def call (o : ConceptMapObject) : Call → ConceptMapObject
  | .apply input => { o with map := o.map.call h extract input }
  | .snapshot now => { o with visibility := (Projection.snapshot h f o.map o.visibility now).2 }
  | .mergeConcepts aliasName canonical aliasType canonicalType =>
    (o.mergeConcepts h aliasName canonical aliasType canonicalType).1
  | .undoMerge wanted => (o.undoMerge h wanted).1

end

end ConceptMapObject

/-- Powers of two as a float computes them for a whole number of half-lives. -/
def evenFloats : Floats := ⟨fun x => 2 ^ x.floor, fun _ x => x⟩

end LearningOrbit.Projection
