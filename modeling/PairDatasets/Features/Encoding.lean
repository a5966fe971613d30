import PairDatasets.Memory
import PairDatasets.Plain

/-!
What a model sees of one solution: how often each token occurs, the token ids in a row, or one row
for each step with a one at its token.
-/
namespace PairDatasets
open Plain

/-- How solutions are encoded; a row without a given length is as long as its solution. -/
inductive Encoding where
  | bag
  | sequence (length : Option Nat)
  | oneHot (length : Option Nat)
  deriving DecidableEq, Repr, Inhabited

/-- Fill in a length where none is given. -/
def Encoding.resolve (longest : Nat) : Encoding → Encoding
  | bag => bag
  | sequence length => sequence (length.getD longest)
  | oneHot length => oneHot (length.getD longest)

/-- The extents of one encoded solution, where `longest` stands for a length that is not given. -/
def Encoding.shape (vocabulary longest : Nat) : Encoding → List Nat
  | bag => [vocabulary]
  | sequence length => [length.getD longest]
  | oneHot length => [length.getD longest, vocabulary]

/-- Every token lies below the vocabulary size; the first that does not is named. -/
def checkVocabulary (vocabulary : Nat) (tokens : List UInt32) : Except DatasetError Unit :=
  match tokens.find? fun t => vocabulary ≤ t.toNat with
  | some t => .error (.configuration (.unknownToken t vocabulary))
  | none => .ok ()

theorem checkVocabulary_eq_ok {vocabulary : Nat} {tokens : List UInt32} :
    checkVocabulary vocabulary tokens = .ok () ↔ ∀ t ∈ tokens, t.toNat < vocabulary := by
  unfold checkVocabulary
  cases hfound : tokens.find? fun t => vocabulary ≤ t.toNat with
  | none => simpa using hfound
  | some t =>
    have ht : vocabulary ≤ t.toNat := by simpa using List.find?_some hfound
    refine iff_of_false nofun fun h => ?_
    exact Nat.not_lt.mpr ht (h t (List.mem_of_find?_eq_some hfound))

/-- Something is encoded if the tokens lie below the vocabulary size and memory holds the result. -/
theorem checked_eq_ok {α : Type} {vocabulary : Nat} {tokens : List UInt32} {fits : Bool}
    {rest : Except DatasetError α} {a : α} :
    (do checkVocabulary vocabulary tokens; Memory.require fits; rest) = .ok a ↔
      (∀ t ∈ tokens, t.toNat < vocabulary) ∧ fits = true ∧ rest = .ok a := by
  simp only [bind_eq_ok]
  constructor
  · rintro ⟨⟨⟩, htokens, ⟨⟩, hfits, hrest⟩
    exact ⟨checkVocabulary_eq_ok.mp htokens, Memory.require_eq_ok.mp hfits, hrest⟩
  · rintro ⟨htokens, hfits, hrest⟩
    exact ⟨(), checkVocabulary_eq_ok.mpr htokens, (), Memory.require_eq_ok.mpr hfits, hrest⟩

namespace Bag

/-- How often each token of the vocabulary occurs: for one token after the other its cell goes up by
one, in single precision, where from 2²⁴ on adding one changes nothing. -/
def tallies (vocabulary : Nat) (tokens : List UInt32) : Array Float32 :=
  tokens.foldl (fun cells t => cells.modify t.toNat (· + 1)) (Array.replicate vocabulary 0)

@[simp] theorem size_tallies (vocabulary : Nat) (tokens : List UInt32) :
    (tallies vocabulary tokens).size = vocabulary := by
  have hrun (cells : Array Float32) :
      (tokens.foldl (fun cells t => cells.modify t.toNat (· + 1)) cells).size = cells.size := by
    induction tokens generalizing cells with
    | nil => rfl
    | cons t tokens ih => rw [List.foldl_cons, ih, Array.size_modify]
  rw [tallies, hrun, Array.size_replicate]

/-- The sum of the squares at one of eight places, over all whole blocks of eight cells. -/
def squaresAt (cells : Array Float32) (place : Nat) : Float32 :=
  (List.range (cells.size / 8)).foldl
    (fun sum block =>
      let x := cells.getD (8 * block + place) 0
      sum + x * x) 0

/-- The sum of all squares in single precision, where the order of adding shows: places four apart
go together, and the cells behind the last block follow one by one. -/
def squares (cells : Array Float32) : Float32 :=
  let blocks := (List.range 4).foldl
    (fun sum place => sum + (squaresAt cells place + squaresAt cells (place + 4))) 0
  (cells.toList.drop (8 * (cells.size / 8))).foldl (fun sum x => sum + x * x) blocks

/-- The Euclidean length of a vector. -/
def norm (cells : Array Float32) : Float32 := (squares cells).sqrt

/-- Tallies scaled to length one. A solution without tokens has only zeros. -/
def cells (vocabulary : Nat) (tokens : List UInt32) : List Float32 :=
  let tallies := tallies vocabulary tokens
  let scale := norm tallies
  if 0 < scale then (tallies.map (· / scale)).toList else tallies.toList

@[simp] theorem length_cells (vocabulary : Nat) (tokens : List UInt32) :
    (cells vocabulary tokens).length = vocabulary := by
  unfold cells
  dsimp only
  split <;> simp

end Bag

namespace TokenRow

/-- Token ids move on by one, since zero is for padding. The largest signed number has no
successor; what lies beyond it stands for a negative number, and the last token for -1. -/
def shift (t : UInt32) : Except DatasetError Int32 :=
  if t = 0x7FFFFFFF then .error (.breakdown .tokenOverflow) else .ok (t + 1).toInt32

/-- The first `length` tokens, shifted, with zeros up to that length. -/
def cells (length : Nat) (tokens : List UInt32) : Except DatasetError (List Int32) := do
  let ids ← (tokens.take length).mapM shift
  .ok (ids ++ List.replicate (length - ids.length) 0)

end TokenRow

namespace OneHot

/-- A row of zeros for each step. -/
def blank (length width : Nat) : Array (Array Float32) :=
  Array.replicate length (Array.replicate width 0)

/-- Write a one into the row of each step, at the place of its token behind `offset` cells. Tokens
without a row are left out. -/
def mark (offset : Nat) (tokens : List UInt32) (rows : Array (Array Float32)) :
    Array (Array Float32) :=
  (tokens.take rows.size).zipIdx.foldl
    (fun rows (t, step) => rows.modify step (·.setIfInBounds (offset + t.toNat) 1)) rows

/-- The rows, cell by cell. -/
def toRows (rows : Array (Array Float32)) : List (List Float32) := rows.toList.map Array.toList

/-- A row for each step; after the last token the rows are zero. -/
def rows (vocabulary length : Nat) (tokens : List UInt32) : List (List Float32) :=
  toRows (mark 0 tokens (blank length vocabulary))

end OneHot

/-- One encoded solution. -/
inductive Encoded where
  | bag (cells : List Float32)
  | sequence (row : List Int32)
  | oneHot (rows : List (List Float32))
  deriving DecidableEq

/-- Encode the tokens of a solution. -/
def encode (vocabulary : Nat) (encoding : Encoding) (tokens : List UInt32) :
    Except DatasetError Encoded := do
  checkVocabulary vocabulary tokens
  Memory.require (Memory.holdsArray (encoding.shape vocabulary tokens.length))
  match encoding with
  | .bag => .ok (.bag (Bag.cells vocabulary tokens))
  | .sequence length => (TokenRow.cells (length.getD tokens.length) tokens).map .sequence
  | .oneHot length => .ok (.oneHot (OneHot.rows vocabulary (length.getD tokens.length) tokens))

end PairDatasets
