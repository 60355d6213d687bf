import Mathlib.Algebra.Group.Nat.Defs
import Mathlib.Data.List.Basic

/-!
# Digests

SHA-256 and SHA-1 over `Nat` words, and the UUIDs of RFC 4122 version 5 built
from the latter. Words are below `2 ^ 32`; every round reduces.
-/

namespace LearningOrbit.Digest

def word : Nat := 2 ^ 32

def rotr (n x : Nat) : Nat := (x >>> n ||| x <<< (32 - n)) % word

def complement (x : Nat) : Nat := word - 1 - x

/-- The UTF-8 bytes of a character. -/
def utf8 (c : Char) : List Nat :=
  let n := c.toNat
  if n < 0x80 then [n]
  else if n < 0x800 then [0xc0 + n / 0x40, 0x80 + n % 0x40]
  else if n < 0x10000 then [0xe0 + n / 0x1000, 0x80 + n / 0x40 % 0x40, 0x80 + n % 0x40]
  else [0xf0 + n / 0x40000, 0x80 + n / 0x1000 % 0x40, 0x80 + n / 0x40 % 0x40, 0x80 + n % 0x40]

def bytes (s : String) : List Nat := s.toList.flatMap utf8

/-- `k` big-endian digits of base `2 ^ w`. -/
def digits (w : Nat) : Nat → Nat → List Nat
  | 0, _ => []
  | k + 1, x => digits w k (x >>> w) ++ [x % 2 ^ w]

def pad (message : List Nat) : List Nat :=
  let n := message.length
  message ++ 0x80 :: List.replicate ((119 - n % 64) % 64) 0 ++ digits 8 8 (8 * n)

/-- Regroup bytes into big-endian words. -/
def words : List Nat → List Nat
  | a :: b :: c :: d :: rest => (a <<< 24 + b <<< 16 + c <<< 8 + d) :: words rest
  | _ => []

/-- Cut a list into blocks of sixteen words, at most `n` of them. -/
def blocks : Nat → List Nat → List (List Nat)
  | 0, _ => []
  | _, [] => []
  | n + 1, ws => ws.take 16 :: blocks n (ws.drop 16)

def blocksOf (message : List Nat) : List (List Nat) :=
  let ws := words (pad message)
  blocks ws.length ws

/-- The message schedule, kept newest first so that its taps are near the head. -/
def schedule (next : List Nat → Nat) : Nat → List Nat → List Nat
  | 0, w => w.reverse
  | n + 1, w => schedule next n (next w :: w)

namespace Sha256

def constants : List Nat :=
  [0x428a2f98, 0x71374491, 0xb5c0fbcf, 0xe9b5dba5, 0x3956c25b, 0x59f111f1,
   0x923f82a4, 0xab1c5ed5, 0xd807aa98, 0x12835b01, 0x243185be, 0x550c7dc3,
   0x72be5d74, 0x80deb1fe, 0x9bdc06a7, 0xc19bf174, 0xe49b69c1, 0xefbe4786,
   0x0fc19dc6, 0x240ca1cc, 0x2de92c6f, 0x4a7484aa, 0x5cb0a9dc, 0x76f988da,
   0x983e5152, 0xa831c66d, 0xb00327c8, 0xbf597fc7, 0xc6e00bf3, 0xd5a79147,
   0x06ca6351, 0x14292967, 0x27b70a85, 0x2e1b2138, 0x4d2c6dfc, 0x53380d13,
   0x650a7354, 0x766a0abb, 0x81c2c92e, 0x92722c85, 0xa2bfe8a1, 0xa81a664b,
   0xc24b8b70, 0xc76c51a3, 0xd192e819, 0xd6990624, 0xf40e3585, 0x106aa070,
   0x19a4c116, 0x1e376c08, 0x2748774c, 0x34b0bcb5, 0x391c0cb3, 0x4ed8aa4a,
   0x5b9cca4f, 0x682e6ff3, 0x748f82ee, 0x78a5636f, 0x84c87814, 0x8cc70208,
   0x90befffa, 0xa4506ceb, 0xbef9a3f7, 0xc67178f2]

def start : List Nat :=
  [0x6a09e667, 0xbb67ae85, 0x3c6ef372, 0xa54ff53a,
   0x510e527f, 0x9b05688c, 0x1f83d9ab, 0x5be0cd19]

def nextWord (w : List Nat) : Nat :=
  let a := w.getD 14 0
  let b := w.getD 1 0
  let s0 := Nat.xor (Nat.xor (rotr 7 a) (rotr 18 a)) (a >>> 3)
  let s1 := Nat.xor (Nat.xor (rotr 17 b) (rotr 19 b)) (b >>> 10)
  (w.getD 15 0 + s0 + w.getD 6 0 + s1) % word

def round (state : List Nat) (kw : Nat × Nat) : List Nat :=
  match state with
  | [a, b, c, d, e, f, g, h] =>
    let s1 := Nat.xor (Nat.xor (rotr 6 e) (rotr 11 e)) (rotr 25 e)
    let ch := Nat.xor (e &&& f) (complement e &&& g)
    let t1 := h + s1 + ch + kw.1 + kw.2
    let s0 := Nat.xor (Nat.xor (rotr 2 a) (rotr 13 a)) (rotr 22 a)
    let maj := Nat.xor (Nat.xor (a &&& b) (a &&& c)) (b &&& c)
    [(t1 + s0 + maj) % word, a, b, c, (d + t1) % word, e, f, g]
  | other => other

def compress (state block : List Nat) : List Nat :=
  let w := schedule nextWord 48 block.reverse
  ((constants.zip w).foldl round state).zipWith (fun x y => (x + y) % word) state

def digest (message : List Nat) : List Nat :=
  (blocksOf message).foldl compress start |>.flatMap (digits 8 4)

end Sha256

namespace Sha1

def start : List Nat := [0x67452301, 0xefcdab89, 0x98badcfe, 0x10325476, 0xc3d2e1f0]

def nextWord (w : List Nat) : Nat :=
  rotr 31 (Nat.xor (Nat.xor (w.getD 2 0) (w.getD 7 0)) (Nat.xor (w.getD 13 0) (w.getD 15 0)))

def mix (i b c d : Nat) : Nat × Nat :=
  if i < 20 then ((b &&& c) ||| (complement b &&& d), 0x5a827999)
  else if i < 40 then (Nat.xor (Nat.xor b c) d, 0x6ed9eba1)
  else if i < 60 then ((b &&& c) ||| (b &&& d) ||| (c &&& d), 0x8f1bbcdc)
  else (Nat.xor (Nat.xor b c) d, 0xca62c1d6)

def round (state : List Nat) (wi : Nat × Nat) : List Nat :=
  match state with
  | [a, b, c, d, e] =>
    let fk := mix wi.2 b c d
    [(rotr 27 a + fk.1 + e + fk.2 + wi.1) % word, a, rotr 2 b, c, d]
  | other => other

def compress (state block : List Nat) : List Nat :=
  let w := schedule nextWord 64 block.reverse
  (w.zipIdx.foldl round state).zipWith (fun x y => (x + y) % word) state

def digest (message : List Nat) : List Nat :=
  (blocksOf message).foldl compress start |>.flatMap (digits 8 4)

end Sha1

def hexDigit (n : Nat) : Char := if n < 10 then Char.ofNat (48 + n) else Char.ofNat (87 + n)

def hex (bytes : List Nat) : List Char := bytes.flatMap fun b => [hexDigit (b / 16), hexDigit (b % 16)]

def sha256Hex (s : String) : String := String.ofList (hex (Sha256.digest (bytes s)))

def hexValue (c : Char) : Nat :=
  if c.toNat < 58 then c.toNat - 48 else if c.toNat < 97 then c.toNat - 55 else c.toNat - 87

/-- The sixteen bytes of a UUID in text form. -/
def uuidBytes (s : String) : List Nat :=
  pairs (s.toList.filter (· ≠ '-'))
where
  pairs : List Char → List Nat
    | a :: b :: rest => (hexValue a * 16 + hexValue b) :: pairs rest
    | _ => []

/-- A name-based UUID: version 5 and the RFC 4122 variant over a SHA-1 prefix. -/
def uuid5 (ns name : String) : String :=
  let d := (Sha1.digest (uuidBytes ns ++ bytes name)).take 16
  let d := d.mapIdx fun i b => if i = 6 then 0x50 + b % 16 else if i = 8 then 0x80 + b % 64 else b
  let h := hex d
  String.ofList (h.take 8 ++ '-' :: (h.drop 8).take 4 ++ '-' :: (h.drop 12).take 4 ++
    '-' :: (h.drop 16).take 4 ++ '-' :: h.drop 20)

end LearningOrbit.Digest
