import Mathlib.Data.List.Sort
import LearningOrbit.Utf16

/-!
# JSON values

The closed subset both encoders write: integers for numbers, texts of UTF-16 code units, and
objects whose keys are all different. Two values are the same up to the order of keys when
they have the same sorted form.
-/

namespace LearningOrbit.Canonical

open LearningOrbit.Utf16

inductive Json
  | null
  | bool (b : Bool)
  | num (n : Int)
  | str (s : Text)
  | arr (items : List Json)
  | obj (fields : List (Text × Json))

namespace Json

/-- Induction over the items of arrays and the values of objects. -/
@[elab_as_elim]
theorem induct {P : Json → Prop} (null : P .null) (bool : ∀ b, P (.bool b))
    (num : ∀ n, P (.num n)) (str : ∀ s, P (.str s))
    (arr : ∀ items, (∀ v ∈ items, P v) → P (.arr items))
    (obj : ∀ fields, (∀ field ∈ fields, P field.2) → P (.obj fields)) : ∀ v, P v
  | .null => null
  | .bool b => bool b
  | .num n => num n
  | .str s => str s
  | .arr items => arr items fun v _ => induct null bool num str arr obj v
  | .obj fields => obj fields fun field _ => induct null bool num str arr obj field.2
decreasing_by
  · have hlt := List.sizeOf_lt_of_mem ‹v ∈ items›
    simp only [Json.arr.sizeOf_spec]
    omega
  · have hlt := List.sizeOf_lt_of_mem ‹field ∈ fields›
    have hpair : sizeOf field = 1 + sizeOf field.1 + sizeOf field.2 := by cases field; rfl
    simp only [Json.obj.sizeOf_spec]
    omega

mutual

/-- How many values a value holds, itself included. -/
def nodes : Json → Nat
  | .arr items => 1 + nodesOfItems items
  | .obj fields => 1 + nodesOfFields fields
  | _ => 1

def nodesOfItems : List Json → Nat
  | [] => 0
  | v :: items => nodes v + nodesOfItems items

def nodesOfFields : List (Text × Json) → Nat
  | [] => 0
  | (_, v) :: fields => nodes v + nodesOfFields fields

end

mutual

/-- How deep the values of a value stand below it. -/
def height : Json → Nat
  | .arr items => heightOfItems items
  | .obj fields => heightOfFields fields
  | _ => 0

def heightOfItems : List Json → Nat
  | [] => 0
  | v :: items => max (1 + height v) (heightOfItems items)

def heightOfFields : List (Text × Json) → Nat
  | [] => 0
  | (_, v) :: fields => max (1 + height v) (heightOfFields fields)

end

mutual

/-- The strings and keys. -/
def texts : Json → List Text
  | .str s => [s]
  | .arr items => textsOfItems items
  | .obj fields => textsOfFields fields
  | _ => []

def textsOfItems : List Json → List Text
  | [] => []
  | v :: items => texts v ++ textsOfItems items

def textsOfFields : List (Text × Json) → List Text
  | [] => []
  | (key, v) :: fields => key :: texts v ++ textsOfFields fields

end

mutual

def numbers : Json → List Int
  | .num n => [n]
  | .arr items => numbersOfItems items
  | .obj fields => numbersOfFields fields
  | _ => []

def numbersOfItems : List Json → List Int
  | [] => []
  | v :: items => numbers v ++ numbersOfItems items

def numbersOfFields : List (Text × Json) → List Int
  | [] => []
  | (_, v) :: fields => numbers v ++ numbersOfFields fields

end

mutual

/-- The keys of every object are all different. -/
def Keyed : Json → Prop
  | .arr items => KeyedItems items
  | .obj fields => (fields.map Prod.fst).Nodup ∧ KeyedFields fields
  | _ => True

def KeyedItems : List Json → Prop
  | [] => True
  | v :: items => Keyed v ∧ KeyedItems items

def KeyedFields : List (Text × Json) → Prop
  | [] => True
  | (_, v) :: fields => Keyed v ∧ KeyedFields fields

end

/-- Fields in the order of their keys. -/
def byKey {α : Type} (fields : List (Text × α)) : List (Text × α) :=
  fields.insertionSort fun a b => a.1 ≤ b.1

mutual

/-- The value with the keys of its objects sorted. -/
def canon : Json → Json
  | .arr items => .arr (canonItems items)
  | .obj fields => .obj (byKey (canonFields fields))
  | v => v

def canonItems : List Json → List Json
  | [] => []
  | v :: items => canon v :: canonItems items

def canonFields : List (Text × Json) → List (Text × Json)
  | [] => []
  | (key, v) :: fields => (key, canon v) :: canonFields fields

end

section

variable {items : List Json} {fields : List (Text × Json)}

theorem nodesOfItems_eq : nodesOfItems items = (items.map nodes).sum := by
  induction items with
  | nil => rfl
  | cons v items ih => rw [nodesOfItems, ih, List.map_cons, List.sum_cons]

theorem nodesOfFields_eq : nodesOfFields fields = (fields.map fun field => nodes field.2).sum := by
  induction fields with
  | nil => rfl
  | cons field fields ih => rw [nodesOfFields, ih, List.map_cons, List.sum_cons]

theorem heightOfItems_le {n : Nat} :
    heightOfItems items ≤ n ↔ ∀ v ∈ items, 1 + height v ≤ n := by
  induction items with
  | nil => simp [heightOfItems]
  | cons v items ih => simp [heightOfItems, ih]

theorem heightOfFields_le {n : Nat} :
    heightOfFields fields ≤ n ↔ ∀ field ∈ fields, 1 + height field.2 ≤ n := by
  induction fields with
  | nil => simp [heightOfFields]
  | cons field fields ih => simp only [heightOfFields, Nat.max_le, ih, List.forall_mem_cons]

theorem mem_textsOfItems {s : Text} : s ∈ textsOfItems items ↔ ∃ v ∈ items, s ∈ texts v := by
  induction items with
  | nil => simp [textsOfItems]
  | cons v items ih => simp [textsOfItems, ih]

theorem mem_textsOfFields {s : Text} :
    s ∈ textsOfFields fields ↔ ∃ field ∈ fields, s = field.1 ∨ s ∈ texts field.2 := by
  induction fields with
  | nil => simp [textsOfFields]
  | cons field fields ih =>
    rw [textsOfFields, List.cons_append, List.mem_cons, List.mem_append, ih, ← or_assoc]
    simp only [List.mem_cons, exists_eq_or_imp]

theorem mem_numbersOfItems {n : Int} : n ∈ numbersOfItems items ↔ ∃ v ∈ items, n ∈ numbers v := by
  induction items with
  | nil => simp [numbersOfItems]
  | cons v items ih => simp [numbersOfItems, ih]

theorem mem_numbersOfFields {n : Int} :
    n ∈ numbersOfFields fields ↔ ∃ field ∈ fields, n ∈ numbers field.2 := by
  induction fields with
  | nil => simp [numbersOfFields]
  | cons field fields ih =>
    simp only [numbersOfFields, List.mem_append, ih, List.mem_cons, exists_eq_or_imp]

theorem keyedItems_iff : KeyedItems items ↔ ∀ v ∈ items, Keyed v := by
  induction items with
  | nil => simp [KeyedItems]
  | cons v items ih => simp [KeyedItems, ih]

theorem keyedFields_iff : KeyedFields fields ↔ ∀ field ∈ fields, Keyed field.2 := by
  induction fields with
  | nil => simp [KeyedFields]
  | cons field fields ih => simp only [KeyedFields, ih, List.forall_mem_cons]

theorem canonItems_eq : canonItems items = items.map canon := by
  induction items with
  | nil => rfl
  | cons v items ih => rw [canonItems, ih, List.map_cons]

theorem canonFields_eq :
    canonFields fields = fields.map fun field => (field.1, canon field.2) := by
  induction fields with
  | nil => rfl
  | cons field fields ih => rw [canonFields, ih, List.map_cons]

end

theorem byKey_perm {α : Type} (fields : List (Text × α)) : (byKey fields).Perm fields :=
  List.perm_insertionSort ..

theorem byKey_map {α β : Type} (f : α → β) (fields : List (Text × α)) :
    byKey (fields.map fun field => (field.1, f field.2)) =
      (byKey fields).map fun field => (field.1, f field.2) := by
  unfold byKey
  symm
  apply List.map_insertionSort
  intro a _ b _
  exact Iff.rfl

theorem byKey_sorted {α : Type} (fields : List (Text × α)) :
    (byKey fields).Pairwise fun a b => a.1 ≤ b.1 :=
  haveI : Std.Total fun a b : Text × α => a.1 ≤ b.1 := ⟨fun a b => le_total a.1 b.1⟩
  haveI : IsTrans (Text × α) fun a b => a.1 ≤ b.1 := ⟨fun _ _ _ => le_trans⟩
  List.pairwise_insertionSort _ fields

theorem byKey_byKey {α : Type} (fields : List (Text × α)) : byKey (byKey fields) = byKey fields :=
  (byKey_sorted fields).insertionSort_eq

/-- Equal up to the order of keys. -/
def Same (v w : Json) : Prop := v.canon = w.canon

theorem canon_canon (v : Json) : v.canon.Same v := by
  unfold Same
  induction v using Json.induct with
  | null | bool b | num n | str s => rfl
  | arr items ih =>
    rw [canon, canonItems_eq, canon, canonItems_eq, List.map_map]
    exact congrArg arr (List.map_congr_left ih)
  | obj fields ih =>
    rw [canon, canonFields_eq, canon, canonFields_eq, byKey_map, byKey_map, byKey_map, byKey_byKey,
      List.map_map]
    congr 1
    apply List.map_congr_left
    intro field hfield
    rw [Function.comp_apply, ih field ((byKey_perm fields).mem_iff.mp hfield)]

end Json

/-- A value as both languages hold it, with no key twice in an object. -/
structure Value where
  json : Json
  keyed : json.Keyed

end LearningOrbit.Canonical
