import PairDatasets.Json.Basic
import PairDatasets.Text.Pieces

/-!
Compact JSON text: keys in order, a repeated key once with its last value, strings with as few
escapes as possible, whole numbers of 64 bits as they are and other numbers as doubles.
-/
namespace PairDatasets
namespace Json

/-- Doubles in JSON: shortest digits, a tie to the even digit, a point in every plain number, an
exponent below 10⁻⁵ and from 10¹⁶ on. -/
def doubleLayout : Decimal.Layout := ⟨.even, true, some (-5, 15)⟩

def hexChar (n : Nat) : Char := "0123456789abcdef".toList.getD n '0'

/-- A character inside a string. -/
def escapeChar (c : Char) : List Char :=
  if c = '"' then ['\\', '"']
  else if c = '\\' then ['\\', '\\']
  else if c = '\n' then ['\\', 'n']
  else if c = '\r' then ['\\', 'r']
  else if c = '\t' then ['\\', 't']
  else if c = '\x08' then ['\\', 'b']
  else if c = '\x0c' then ['\\', 'f']
  else if c.toNat < 0x20 then ['\\', 'u', '0', '0', hexChar (c.toNat / 16), hexChar (c.toNat % 16)]
  else [c]

def quote (s : String) : String :=
  "\"" ++ String.ofList (s.toList.flatMap escapeChar) ++ "\""

/-- The text of a number. -/
def Literal.print (l : Literal) : String :=
  match l.int64? with
  | some i => toString i
  | none =>
    match l.double? with
    | some x => doubleLayout.text x
    | none => "null"

/-- Rendered fields with each key once, in the order of the keys. -/
def orderFields (fields : List (String × String)) : List (String × String) :=
  (fields.foldl (fun acc (k, v) => setKey k v acc) []).mergeSort fun a b => a.1 ≤ b.1

mutual
def print : Json → String
  | .null => "null"
  | .bool b => if b then "true" else "false"
  | .number l => l.print
  | .string s => quote (s.getD "")
  | .array items => "[" ++ Text.join "," (printItems items) ++ "]"
  | .object fields =>
    let fields := (orderFields (printFields fields)).map fun (k, v) => quote k ++ ":" ++ v
    "\x7b" ++ Text.join "," fields ++ "\x7d"

def printItems : List Json → List String
  | [] => []
  | j :: js => j.print :: printItems js

def printFields : List (Option String × Json) → List (String × String)
  | [] => []
  | (k, j) :: fs => (k.getD "", j.print) :: printFields fs
end

end Json
end PairDatasets
