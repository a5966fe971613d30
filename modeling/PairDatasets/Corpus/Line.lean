import PairDatasets.Corpus.Basic
import PairDatasets.Decimal.Literal
import PairDatasets.Plain
import PairDatasets.Text.Pieces

/-!
One line of a tokenized file: the name of a solution, a colon, and token numbers between commas.
-/
namespace PairDatasets
open Plain

/-- Why a line is not a tokenized solution. -/
inductive LineError where
  | noColon
  | notANumber (text : String)
  | beyondVocabulary (token vocabulary : Nat)
  deriving DecidableEq, Repr

def LineError.message : LineError → String
  | noColon => "missing ':' delimiter"
  | notANumber text => s!"token '{text}' is not a valid number"
  | beyondVocabulary token vocabulary => s!"token {token} exceeds vocabulary size {vocabulary}"

namespace Solution

/-- One token between white space: a number of 64 bits below the vocabulary size, of which a
solution keeps the low 32 bits. -/
def readToken (vocabulary : Nat) (field : List Char) : Except LineError UInt32 :=
  let cs := Text.trimChars field
  match Decimal.whole (2 ^ (64 : Nat)) cs with
  | .error _ => .error (.notANumber (String.ofList cs))
  | .ok n => if n < vocabulary then .ok n.toUInt32 else .error (.beyondVocabulary n vocabulary)

/-- The tokens between commas; no text at all is no token. -/
def readTokens (vocabulary : Nat) (cs : List Char) : Except LineError (List UInt32) :=
  let cs := Text.trimChars cs
  if cs.isEmpty then .ok [] else (Text.pieces ',' cs).mapM (readToken vocabulary)

/-- Read a line; the first bad field from the left decides. -/
def ofLine (vocabulary : Nat) (line : String) : Except LineError Solution :=
  match Text.cutFirst? ':' line.toList with
  | none => .error .noColon
  | some (name, rest) =>
    (readTokens vocabulary rest).map fun tokens =>
      ⟨String.ofList (Text.trimChars name), tokens⟩

end Solution
end PairDatasets
