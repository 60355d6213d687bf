import Mathlib.Data.List.Sort
import Mathlib.Data.List.Dedup
import LearningOrbit.Digest

/-!
# Text: the part of `str` and `re` the worker uses

`Host` collects what comes from outside the repository's own text: the Unicode
tables and the digests of the Python runtime. `Pattern` is the fragment of
regular expressions that occurs in the extractors, with Python's greedy
backtracking order, so that `search` finds the same span `re.search` does.
-/

namespace LearningOrbit

/-- The Unicode tables and digests of the runtime. -/
structure Host where
  nfc : String → String
  casefold : String → String
  isAlnum : Char → Bool
  repr : String → String
  sha256Hex : String → String
  uuid5 : String → String → String

/-- The runtime on ASCII text. -/
def Host.ascii : Host where
  nfc := id
  casefold s := String.ofList (s.toList.map Char.toLower)
  isAlnum := Char.isAlphanum
  repr s := "'" ++ s ++ "'"
  sha256Hex := Digest.sha256Hex
  uuid5 := Digest.uuid5

namespace Text

/-- The characters `str.strip()` removes. -/
def isSpace (c : Char) : Bool :=
  let n := c.toNat
  (9 ≤ n && n ≤ 13) || (28 ≤ n && n ≤ 32) || n == 0x85 || n == 0xa0 || n == 0x1680 ||
  (0x2000 ≤ n && n ≤ 0x200a) || n == 0x2028 || n == 0x2029 || n == 0x202f || n == 0x205f ||
  n == 0x3000

def strip (s : String) : String :=
  String.ofList ((s.toList.dropWhile isSpace).reverse.dropWhile isSpace).reverse

/-- `needle in hay`. -/
def isSubstring (needle hay : String) : Bool :=
  hay.toList.tails.any fun t => needle.toList.isPrefixOf t

/-- `str(bool)`. -/
def strBool : Bool → String
  | true => "True"
  | false => "False"

/-- `str` of a tuple of strings. -/
def strTuple (h : Host) : List String → String
  | [] => "()"
  | [a] => "(" ++ h.repr a ++ ",)"
  | a :: l => "(" ++ l.foldl (fun acc b => acc ++ ", " ++ h.repr b) (h.repr a) ++ ")"

/-- `",".join(parts)` for a separator. -/
def join (sep : String) : List String → String
  | [] => ""
  | a :: l => l.foldl (fun acc b => acc ++ sep ++ b) a

/-- `tuple(sorted(set(items)))`. -/
def sortedSet (items : List String) : List String :=
  items.dedup.insertionSort (· ≤ ·)

/-- Case-insensitive comparison of a pattern character with a text character:
ASCII letters fold to both cases and to the few other letters that fold to them. -/
def sameLetter (p c : Char) : Bool :=
  p.toLower == c.toLower ||
  (p.toLower == 'i' && (c.toNat == 0x130 || c.toNat == 0x131)) ||
  (p.toLower == 'k' && c.toNat == 0x212a) ||
  (p.toLower == 's' && c.toNat == 0x17f)

/-- Regular expressions with `IGNORECASE` literals, `.*`, `\b` and alternation. -/
inductive Pattern
  | eps
  | lit (s : String)
  | dots
  | boundary
  | seq (a b : Pattern)
  | alt (a b : Pattern)

namespace Pattern

def opt (p : Pattern) : Pattern := alt p eps

def cat : List Pattern → Pattern
  | [] => eps
  | [p] => p
  | p :: ps => seq p (cat ps)

def oneOf : List String → Pattern
  | [] => eps
  | [s] => lit s
  | s :: ss => alt (lit s) (oneOf ss)

/-- What is left of a match in progress: the character before the position and
the text after it. -/
structure Cursor where
  prev : Option Char
  rest : List Char

def litFrom : List Char → Cursor → (Cursor → Option Cursor) → Option Cursor
  | [], cur, k => k cur
  | p :: ps, ⟨_, c :: rest⟩, k => if sameLetter p c then litFrom ps ⟨some c, rest⟩ k else none
  | _ :: _, ⟨_, []⟩, _ => none

/-- Greedy `.*`: take as much of the line as possible, then give back. -/
def dotsFrom (k : Cursor → Option Cursor) : Option Char → List Char → Option Cursor
  | prev, [] => k ⟨prev, []⟩
  | prev, c :: rest =>
    if c = '\n' then k ⟨prev, c :: rest⟩
    else (dotsFrom k (some c) rest).or (k ⟨prev, c :: rest⟩)

def isWord (h : Host) (c : Option Char) : Bool := c.any fun c => h.isAlnum c || c == '_'

/-- Match at the cursor and pass every end position to `k` in backtracking order. -/
def matchFrom (h : Host) : Pattern → Cursor → (Cursor → Option Cursor) → Option Cursor
  | eps, cur, k => k cur
  | lit s, cur, k => litFrom s.toList cur k
  | dots, cur, k => dotsFrom k cur.prev cur.rest
  | boundary, cur, k => if isWord h cur.prev != isWord h cur.rest.head? then k cur else none
  | seq a b, cur, k => matchFrom h a cur fun mid => matchFrom h b mid k
  | alt a b, cur, k => (matchFrom h a cur k).or (matchFrom h b cur k)

def searchFrom (h : Host) (p : Pattern) (start : Nat) (prev : Option Char) :
    List Char → Option (Nat × Nat)
  | [] => (matchFrom h p ⟨prev, []⟩ some).map fun _ => (start, start)
  | c :: rest =>
    match matchFrom h p ⟨prev, c :: rest⟩ some with
    | some fin => some (start, start + (rest.length + 1 - fin.rest.length))
    | none => searchFrom h p (start + 1) (some c) rest

/-- `re.search`: the span of the leftmost match. -/
def search (h : Host) (p : Pattern) (text : String) : Option (Nat × Nat) :=
  searchFrom h p 0 none text.toList

end Pattern

/-- `text[start:end]` in characters. -/
def slice (text : String) (span : Nat × Nat) : String :=
  String.ofList ((text.toList.drop span.1).take (span.2 - span.1))

end Text

end LearningOrbit
