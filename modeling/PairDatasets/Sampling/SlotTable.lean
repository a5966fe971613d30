import PairDatasets.Memory
import PairDatasets.Order.Occurrences
import PairDatasets.Plain
import PairDatasets.Random.Draw

/-!
A table of slots for drawing slices in proportion to their sizes. Walking over the slices, a cursor
moves on by each one's share of the slots; the last slice that has solutions takes what is left.
-/
namespace PairDatasets
open Plain

structure SlotTable where
  /-- The slice that each slot stands for. -/
  slots : Array Nat
  /-- How many slices have a slot. -/
  reachable : Nat
  deriving DecidableEq, Repr

namespace SlotTable

/-- The cursor after a slice with `n` of `total` solutions, in doubles, cut to a whole slot and held
within the table. -/
def advance (total size n cursor : Nat) : Nat :=
  let share := Float.ofNat n / Float.ofNat total
  min (Float.ofNat cursor + share * Float.ofNat size).toUInt64.toNat size

/-- Write a slice into `count` slots from `start` on. -/
def fill (slice : Nat) : Nat → Nat → Array Nat → Array Nat
  | _, 0, slots => slots
  | start, count + 1, slots => fill slice (start + 1) count (slots.setIfInBounds start slice)

/-- A table while it is filled. -/
structure Filling where
  slots : Array Nat
  /-- The first slot that is not filled. -/
  cursor : Nat
  /-- How many slices moved the cursor. -/
  distinct : Nat
  /-- The last slice so far that has solutions. -/
  last : Option Nat
  deriving DecidableEq, Repr

namespace Filling

/-- Before the first slice. -/
def start (size : Nat) : Filling := ⟨Array.replicate size 0, 0, 0, none⟩

/-- Give a slice with `n` solutions its share of the slots. A range of slots that ends before it begins
breaks off. -/
def add (total size slice n : Nat) (f : Filling) : Except DatasetError Filling :=
  if n = 0 then .ok f
  else
    let next := advance total size n f.cursor
    if next < f.cursor then .error (.breakdown .rangeReversed)
    else .ok {
      slots := fill slice f.cursor (next - f.cursor) f.slots
      cursor := next
      distinct := if f.cursor < next then f.distinct + 1 else f.distinct
      last := some slice }

/-- Give what is left to the last slice that has solutions. It counts once more if it gets its first
slots so. -/
def finish (size : Nat) (f : Filling) : SlotTable :=
  match f.last with
  | none => ⟨f.slots, f.distinct⟩
  | some slice =>
    let first := f.cursor < size && (f.slots.toList.take f.cursor).all (· != slice)
    ⟨fill slice f.cursor (size - f.cursor) f.slots, if first then f.distinct + 1 else f.distinct⟩

end Filling

/-- The table of `size` slots, if memory holds them. Without solutions all slots are 0 and no slice is
reachable. -/
def make (sizes : List Nat) (size : Nat) : Except DatasetError SlotTable := do
  Memory.require (Memory.holds 8 size)
  let filled ← sizes.zipIdx.foldlM (fun (f : Filling) (n, slice) => f.add sizes.sum size slice n)
    (Filling.start size)
  return filled.finish size

def size (t : SlotTable) : Nat := t.slots.size

/-- The slice of a uniformly drawn slot. -/
def draw (t : SlotTable) (g : Generator) : Nat × Generator :=
  let (i, g) := g.below t.size
  (t.slots.getD i 0, g)

/-- Like `draw`, but nothing from an empty table. -/
def draw? (t : SlotTable) (g : Generator) : Option (Nat × Generator) :=
  if t.size = 0 then none else some (t.draw g)

/-- The number of slots of each of the first `n` slices. -/
def slotCounts (t : SlotTable) (n : Nat) : List Nat :=
  (occurrences n t.slots.toList).toList

theorem slotCounts_eq_map_count (t : SlotTable) (n : Nat) :
    t.slotCounts n = (List.range n).map fun slice => t.slots.toList.count slice :=
  toList_occurrences n t.slots.toList

/-- The slot counts, if memory holds them. -/
def countSlots (t : SlotTable) (n : Nat) : Except DatasetError (List Nat) := do
  Memory.require (Memory.holds 8 n)
  return t.slotCounts n

end SlotTable
end PairDatasets
