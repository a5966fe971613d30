import PairDatasets.Json.Basic

/-!
Reading JSON: one document, white space around it, nothing else. Control characters in strings,
leading zeros, trailing commas and comments are refused.
-/
namespace PairDatasets
namespace Json

def isSpace (c : Char) : Bool := c = ' ' || c = '\n' || c = '\t' || c = '\r'

def skipSpace (cs : List Char) : List Char := cs.dropWhile isSpace

/-- One element of a string body: a character, or a 16-bit unit named by an escape. -/
inductive Piece where
  | char (c : Char)
  | unit (n : Nat)
  deriving DecidableEq, Repr

def hexDigit? (c : Char) : Option Nat :=
  if '0' ≤ c ∧ c ≤ '9' then some (c.toNat - '0'.toNat)
  else if 'a' ≤ c ∧ c ≤ 'f' then some (c.toNat - 'a'.toNat + 10)
  else if 'A' ≤ c ∧ c ≤ 'F' then some (c.toNat - 'A'.toNat + 10)
  else none

def hexUnit? (a b c d : Char) : Option Nat := do
  return ((← hexDigit? a) * 16 + (← hexDigit? b)) * 256 + (← hexDigit? c) * 16 + (← hexDigit? d)

/-- The character that a one-letter escape names. -/
def escaped? (c : Char) : Option Char :=
  match c with
  | '"' => some '"'
  | '\\' => some '\\'
  | '/' => some '/'
  | 'b' => some '\x08'
  | 'f' => some '\x0c'
  | 'n' => some '\n'
  | 'r' => some '\r'
  | 't' => some '\t'
  | _ => none

/-- The body of a string up to its closing quote, and what follows it. -/
def stringBody? : List Char → Option (List Piece × List Char)
  | [] => none
  | '"' :: rest => some ([], rest)
  | '\\' :: 'u' :: a :: b :: c :: d :: rest => do
    let u ← hexUnit? a b c d
    let (ps, rest) ← stringBody? rest
    some (.unit u :: ps, rest)
  | '\\' :: c :: rest => do
    let c ← escaped? c
    let (ps, rest) ← stringBody? rest
    some (.char c :: ps, rest)
  | c :: rest =>
    if c.toNat < 0x20 || c = '\\' then none
    else (stringBody? rest).map fun (ps, rest) => (.char c :: ps, rest)

def isHighUnit (n : Nat) : Bool := 0xD800 ≤ n && n < 0xDC00

def isLowUnit (n : Nat) : Bool := 0xDC00 ≤ n && n < 0xE000

/-- Join pairs of surrogate units; a unit of a pair that stands alone has no character. -/
def joinUnits? : List Piece → Option (List Char)
  | [] => some []
  | .char c :: ps => (joinUnits? ps).map (c :: ·)
  | .unit h :: .unit l :: ps =>
    if isHighUnit h then
      if isLowUnit l then
        (joinUnits? ps).map (Char.ofNat (0x10000 + (h - 0xD800) * 0x400 + (l - 0xDC00)) :: ·)
      else none
    else if isLowUnit h then none
    else (joinUnits? (.unit l :: ps)).map (Char.ofNat h :: ·)
  | .unit n :: ps =>
    if isHighUnit n || isLowUnit n then none else (joinUnits? ps).map (Char.ofNat n :: ·)

/-- A string after its opening quote. -/
def text? (cs : List Char) : Option (Option String × List Char) :=
  (stringBody? cs).map fun (ps, rest) => ((joinUnits? ps).map String.ofList, rest)

/-- Digits before the point: a zero stands alone. -/
def wholePart? (cs : List Char) : Option (List Char × List Char) :=
  match cs with
  | '0' :: rest => some (['0'], rest)
  | _ =>
    let (ds, rest) := Decimal.spanDigits cs
    if ds.isEmpty then none else some (ds, rest)

/-- An optional point with at least one digit after it. -/
def fractionPart? (cs : List Char) : Option (List Char × List Char) :=
  match cs with
  | '.' :: rest =>
    let (ds, rest) := Decimal.spanDigits rest
    if ds.isEmpty then none else some (ds, rest)
  | _ => some ([], cs)

/-- An optional exponent with an optional sign and at least one digit. -/
def exponentPart? (cs : List Char) : Option (Option (Bool × List Char) × List Char) :=
  match cs with
  | c :: rest =>
    if c = 'e' || c = 'E' then
      let (negative, rest) := match rest with
        | '-' :: rest => (true, rest)
        | '+' :: rest => (false, rest)
        | rest => (false, rest)
      let (ds, rest) := Decimal.spanDigits rest
      if ds.isEmpty then none else some (some (negative, ds), rest)
    else some (none, cs)
  | [] => some (none, [])

def literal? (cs : List Char) : Option (Literal × List Char) := do
  let (negative, cs) := match cs with
    | '-' :: rest => (true, rest)
    | _ => (false, cs)
  let (whole, cs) ← wholePart? cs
  let (fraction, cs) ← fractionPart? cs
  let (exponent, cs) ← exponentPart? cs
  return (⟨negative, whole, fraction, exponent⟩, cs)

mutual
/-- A value at the front, after white space, and what follows it. -/
def value? : Nat → List Char → Option (Json × List Char)
  | 0, _ => none
  | fuel + 1, cs =>
    match skipSpace cs with
    | 'n' :: 'u' :: 'l' :: 'l' :: rest => some (.null, rest)
    | 't' :: 'r' :: 'u' :: 'e' :: rest => some (.bool true, rest)
    | 'f' :: 'a' :: 'l' :: 's' :: 'e' :: rest => some (.bool false, rest)
    | '"' :: rest => (text? rest).map fun (s, rest) => (.string s, rest)
    | '[' :: rest =>
      match skipSpace rest with
      | ']' :: rest => some (.array [], rest)
      | rest => (items? fuel rest).map fun (js, rest) => (.array js, rest)
    | '{' :: rest =>
      match skipSpace rest with
      | '}' :: rest => some (.object [], rest)
      | rest => (fields? fuel rest).map fun (fs, rest) => (.object fs, rest)
    | rest => (literal? rest).map fun (l, rest) => (.number l, rest)

/-- The items of an array from the first on, up to the closing bracket. -/
def items? : Nat → List Char → Option (List Json × List Char)
  | 0, _ => none
  | fuel + 1, cs => do
    let (j, rest) ← value? fuel cs
    match skipSpace rest with
    | ',' :: rest =>
      let (js, rest) ← items? fuel rest
      some (j :: js, rest)
    | ']' :: rest => some ([j], rest)
    | _ => none

/-- The fields of an object from the first on, up to the closing brace. -/
def fields? : Nat → List Char → Option (List (Option String × Json) × List Char)
  | 0, _ => none
  | fuel + 1, cs => do
    let '"' :: rest := skipSpace cs | none
    let (k, rest) ← text? rest
    let ':' :: rest := skipSpace rest | none
    let (j, rest) ← value? fuel rest
    match skipSpace rest with
    | ',' :: rest =>
      let (fs, rest) ← fields? fuel rest
      some ((k, j) :: fs, rest)
    | '}' :: rest => some ([(k, j)], rest)
    | _ => none
end

/-- Read a whole document. Every step takes a character, so the length of the text is enough. -/
def parse? (s : String) : Option Json := do
  let cs := s.toList
  let (j, rest) ← value? (2 * cs.length + 2) cs
  if (skipSpace rest).isEmpty then some j else none

end Json
end PairDatasets
