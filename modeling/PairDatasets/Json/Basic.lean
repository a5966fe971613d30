import PairDatasets.Decimal.Shortest
import PairDatasets.Decimal.Literal
import PairDatasets.Plain

/-!
JSON documents as written: numbers keep their digits, objects keep the order and the repetitions of
their keys, and a string whose escapes name half of a surrogate pair has no text. What a reader of
typed values makes of these is decided there.
-/
namespace PairDatasets
open Plain

namespace Json

/-- A number as written: sign, digits before and after the point, exponent with its sign. -/
structure Literal where
  negative : Bool
  whole : List Char
  fraction : List Char
  exponent : Option (Bool × List Char)
  deriving DecidableEq, Repr

end Json

/-- A JSON document. A string or key without text is `none`. -/
inductive Json where
  | null
  | bool (b : Bool)
  | number (l : Json.Literal)
  | string (s : Option String)
  | array (items : List Json)
  | object (fields : List (Option String × Json))

namespace Json

/-- The literal of a natural number. -/
def ofNat (n : Nat) : Json := .number ⟨false, Decimal.digitChars n, [], none⟩

/-- The literal of an integer. -/
def ofInt (i : Int) : Json := .number ⟨i < 0, Decimal.digitChars i.natAbs, [], none⟩

def ofString (s : String) : Json := .string (some s)

namespace Literal

/-- Whether the literal is a plain whole number, without point and exponent. -/
def isWhole (l : Literal) : Bool := l.fraction.isEmpty && l.exponent.isNone

/-- A literal read as an unsigned whole number of 64 bits. -/
def nat64? (l : Literal) : Option Nat :=
  let n := Decimal.ofDigits l.whole
  if l.isWhole && !l.negative && n < 2 ^ (64 : Nat) then some n else none

/-- A literal read as a whole number of 64 bits, signed if it is negative. `-0` is not one. -/
def int64? (l : Literal) : Option Int :=
  let n := Decimal.ofDigits l.whole
  if !l.isWhole then none
  else if l.negative then if 0 < n ∧ n ≤ 2 ^ (63 : Nat) then some (-n) else none
  else if n < 2 ^ (64 : Nat) then some n else none

/-- Append digits to a number as long as it stays below 2⁶⁴; the digits that no longer fit remain. -/
def gather : Nat → List Char → Nat × List Char
  | n, [] => (n, [])
  | n, c :: cs =>
    let next := n * 10 + (c.toNat - '0'.toNat)
    if next < 2 ^ (64 : Nat) then gather next cs else (n, c :: cs)

/-- `x · 10 ^ e` with one rounding for each power in the table of powers up to 10³⁰⁸; nothing if it
is infinite. Two such steps bring every 64-bit number to zero. -/
def scale : Nat → Float → Int → Option Float
  | 0, x, _ => some x
  | steps + 1, x, e =>
    if e.natAbs ≤ 308 then
      let power := Float.ofScientific 1 false e.natAbs
      if e < 0 then some (x / power)
      else if (x * power).isInf then none else some (x * power)
    else if x == 0 then some x
    else if 0 ≤ e then none
    else scale steps (x / Float.ofScientific 1 false 308) (e + 308)

/-- A literal read as a double: the leading digits that 64 bits can hold, rounded once, then scaled
by a power of ten, rounded again. Nothing if it lies beyond the doubles. -/
def double? (l : Literal) : Option Float :=
  let (n, beyond) := gather 0 l.whole
  let (n, unread) := gather n l.fraction
  let places : Int := (beyond.length : Int) - (l.fraction.length - unread.length : Nat)
  let value := match l.exponent with
    | none => scale 4 (Float.ofNat n) places
    | some (negative, ds) =>
      let e := Decimal.ofDigits ds
      if e < 2 ^ (31 : Nat) then scale 4 (Float.ofNat n) (if negative then places - e else places + e)
      else if n ≠ 0 ∧ !negative then none
      else some 0.0
  value.map fun x => if l.negative then -x else x

end Literal

mutual
/-- How deep arrays and objects are nested; a scalar has depth 0. -/
def depth : Json → Nat
  | .array items => depthItems items + 1
  | .object fields => depthFields fields + 1
  | _ => 0

def depthItems : List Json → Nat
  | [] => 0
  | j :: js => max j.depth (depthItems js)

def depthFields : List (Option String × Json) → Nat
  | [] => 0
  | (_, j) :: fs => max j.depth (depthFields fs)
end

mutual
/-- Whether all strings and keys have text and all numbers lie within the doubles. -/
def isPlain : Json → Bool
  | .number l => l.double?.isSome
  | .string s => s.isSome
  | .array items => plainItems items
  | .object fields => plainFields fields
  | _ => true

def plainItems : List Json → Bool
  | [] => true
  | j :: js => j.isPlain && plainItems js

def plainFields : List (Option String × Json) → Bool
  | [] => true
  | (k, j) :: fs => k.isSome && j.isPlain && plainFields fs
end

/-- Set a key: the last value wins, at the place of the first. -/
def setKey {α : Type _} (key : String) (value : α) : List (String × α) → List (String × α)
  | [] => [(key, value)]
  | (k, v) :: rest => if k = key then (k, value) :: rest else (k, v) :: setKey key value rest

end Json
end PairDatasets
