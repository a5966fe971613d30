import PairDatasets.Features.Record

/-!
All pairs of a split as arrays for a model, cell by cell. The first pair that cannot be encoded
decides.
-/
namespace PairDatasets

/-- The arrays of a split, row by row. -/
inductive Features where
  /-- For each pair twice the vocabulary: the left bag, then the right one. -/
  | bag (vocabulary : Nat) (rows : List (List Float32))
  /-- Two arrays of equal shape. -/
  | sequences (length : Nat) (left right : List (List Int32))
  /-- For each pair and step twice the vocabulary. -/
  | oneHot (vocabulary length : Nat) (slabs : List (List (List Float32)))
  deriving DecidableEq

namespace Features

/-- How many pairs there are. -/
def size : Features → Nat
  | bag _ rows => rows.length
  | sequences _ left _ => left.length
  | oneHot _ _ slabs => slabs.length

/-- The extent of each dimension; of two arrays, that of either. -/
def shape : Features → List Nat
  | bag vocabulary rows => [rows.length, 2 * vocabulary]
  | sequences length left _ => [left.length, length]
  | oneHot vocabulary length slabs => [slabs.length, length, 2 * vocabulary]

/-- A shape in brackets. -/
def shapeText (shape : List Nat) : String := "(" ++ Text.join ", " (shape.map toString) ++ ")"

/-- The shapes of the arrays in messages. -/
def text (f : Features) : String :=
  match f with
  | sequences .. => shapeText f.shape ++ " + " ++ shapeText f.shape
  | _ => shapeText f.shape

/-- A cell of a row with two halves: which half, and where in it. -/
def inHalves {α : Type} (width : Nat) (left right : Nat → α) (column : Nat) : α :=
  if column < width then left column else right (column - width)

/-- The bags of both sides in one row. -/
def bagRow (vocabulary : Nat) (left right : Solution) : List Float32 :=
  let l := (Bag.cells vocabulary left.tokens).toArray
  let r := (Bag.cells vocabulary right.tokens).toArray
  (List.range (2 * vocabulary)).map (inHalves vocabulary (l.getD · 0) (r.getD · 0))

/-- The tokens of both sides, step by step: the left ones before the right ones. -/
def oneHotSlab (vocabulary length : Nat) (left right : Solution) : List (List Float32) :=
  let slab := OneHot.blank length (2 * vocabulary)
  OneHot.toRows (OneHot.mark vocabulary right.tokens (OneHot.mark 0 left.tokens slab))

end Features

/-- Arrays and labels in the order of the pairs they belong to. -/
structure Assembled where
  features : Features
  labels : List Int
  pairs : List Pair
  deriving DecidableEq

def Assembled.size (a : Assembled) : Nat := a.pairs.length

namespace Corpus

/-- The arrays of all pairs. -/
def features (c : Corpus) (encoding : Encoding) (pairs : List Pair) :
    Except DatasetError Features :=
  match encoding with
  | .bag => do
    let rows ← pairs.mapM fun p => do
      let (left, right) ← c.sides p
      .ok (Features.bagRow c.vocabulary left right)
    .ok (.bag c.vocabulary rows)
  | .sequence length => do
    let length := length.getD c.longest
    let rows ← pairs.mapM fun p => do
      let (left, right) ← c.sides p
      let left ← TokenRow.cells length left.tokens
      let right ← TokenRow.cells length right.tokens
      .ok (left, right)
    .ok (.sequences length (rows.map (·.1)) (rows.map (·.2)))
  | .oneHot length => do
    let length := length.getD c.longest
    let slabs ← pairs.mapM fun p => do
      let (left, right) ← c.sides p
      .ok (Features.oneHotSlab c.vocabulary length left right)
    .ok (.oneHot c.vocabulary length slabs)

/-- Encode all pairs and label them. Memory must hold the arrays, with both sides of a pair side by
side. -/
def assemble (c : Corpus) (encoding : Encoding) (mode : LabelMode) (pairs : List Pair) :
    Except DatasetError Assembled := do
  Memory.require
    (Memory.holdsArray (pairs.length :: encoding.shape (2 * c.vocabulary) c.longest))
  let features ← c.features encoding pairs
  .ok ⟨features, pairs.map (Pair.label mode), pairs⟩

end Corpus
end PairDatasets
