import PairDatasets.Log
import PairDatasets.Partition.Strategy
import PairDatasets.Partition.Group
import PairDatasets.Random.Shuffle
import PairDatasets.Sampling.Share
import PairDatasets.Sampling.SlotTable

/-!
Drawing pairs. All draws look at slice sizes only and give places: which slice, and which of its
solutions. Similar pairs come first, problem by problem; dissimilar pairs make up the rest; then all
are shuffled. Labels and positions in the corpus are filled in at the end.
-/
namespace PairDatasets

/-- A solution of a group, by its slice and its index there. -/
structure Place where
  slice : Nat
  index : Nat
  deriving DecidableEq, Repr, Inhabited

structure PlacePair where
  left : Place
  right : Place
  deriving DecidableEq, Repr, Inhabited

namespace PlacePair

/-- Draw `count` pairs of different solutions of one slice of size `n`. -/
def drawSimilar (slice n : Nat) :
    Nat → Array PlacePair → Generator → Option (Array PlacePair) × Generator
  | 0, acc, g => (some acc, g)
  | count + 1, acc, g =>
    match Generator.distinct (Generator.below n) Generator.period g with
    | (none, g) => (none, g)
    | (some (a, b), g) => drawSimilar slice n count (acc.push ⟨⟨slice, a⟩, ⟨slice, b⟩⟩) g

/-- Draw the similar pairs of every slice that has a share. -/
def drawShares :
    List (Nat × Nat × Nat) → Array PlacePair → Generator → Option (Array PlacePair) × Generator
  | [], acc, g => (some acc, g)
  | (slice, n, share) :: rest, acc, g =>
    match drawSimilar slice n share acc g with
    | (none, g) => (none, g)
    | (some acc, g) => drawShares rest acc g

/-- Draw `count` pairs from different slices: first both slices, then a solution of each. -/
def drawDissimilar (table : SlotTable) (sizes : Array Nat) :
    Nat → Array PlacePair → Generator → Option (Array PlacePair) × Generator
  | 0, acc, g => (some acc, g)
  | count + 1, acc, g =>
    match Generator.distinct table.draw Generator.period g with
    | (none, g) => (none, g)
    | (some (a, b), g) =>
      let (i, g) := g.below (sizes.getD a 0)
      let (j, g) := g.below (sizes.getD b 0)
      drawDissimilar table sizes count (acc.push ⟨⟨a, i⟩, ⟨b, j⟩⟩) g

end PlacePair

/-- A double above zero rounded to a whole number, a half upwards. -/
def roundHalfUp (x : Float) : Nat :=
  let n := x.toUInt64
  if 0.5 ≤ x - n.toFloat then n.toNat + 1 else n.toNat

/-- How many of `target` pairs should be similar. -/
def similarBudget (target : Nat) (fraction : Float) : Nat :=
  roundHalfUp (Float.ofNat target * fraction)

/-- Places of `target` pairs, and how many of them are similar. -/
structure Draft where
  places : Array PlacePair
  similar : Nat
  deriving DecidableEq, Repr

namespace Draft

/-- Add dissimilar pairs up to `target` pairs. -/
def complete (sizes : List Nat) (slots target : Nat) (similar : Array PlacePair) (g : Generator) :
    Except DatasetError (Array PlacePair) × Generator :=
  let missing := target - similar.size
  if target < similar.size then (.error (.breakdown .sharesExceedTarget), g)
  else if missing = 0 then (.ok similar, g)
  else
    match SlotTable.make sizes slots with
    | .error e => (.error e, g)
    | .ok table =>
      if table.reachable < 2 then (.error (.sampling (.tooFewProblems missing table.reachable)), g)
      else
        match PlacePair.drawDissimilar table sizes.toArray missing similar g with
        | (none, g) => (.error (.breakdown .endlessDraw), g)
        | (some all, g) => (.ok all, g)

/-- Draw similar pairs up to a budget. Where none is wanted, no share is counted. -/
def drawSimilar (sizes : List Nat) (budget : Nat) (g : Generator) :
    Except DatasetError (Array PlacePair) × Generator :=
  if budget = 0 then (.ok #[], g)
  else
    match countPairs sizes with
    | .error e => (.error e, g)
    | .ok () =>
      match PlacePair.drawShares (similarShares sizes budget) #[] g with
      | (none, g) => (.error (.breakdown .endlessDraw), g)
      | (some similar, g) => (.ok similar, g)

/-- Draw pairs from slices of the given sizes. -/
def draw (sizes : List Nat) (slots target : Nat) (fraction : Float) (g : Generator) :
    Except DatasetError Draft × Generator :=
  if !isFraction fraction then (.error (.configuration (.similarFraction fraction)), g)
  else if !Memory.holds Pair.bytes target then (.error (.breakdown .outOfMemory), g)
  else
    match drawSimilar sizes (similarBudget target fraction) g with
    | (.error e, g) => (.error e, g)
    | (.ok similar, g) =>
      match complete sizes slots target similar g with
      | (.error e, g) => (.error e, g)
      | (.ok all, g) =>
        let (places, g) := g.shuffleArray all
        (.ok ⟨places, similar.size⟩, g)

end Draft

/-- Pairs of a split, with their counts by kind. -/
structure PairSet where
  pairs : List Pair
  similar : Nat
  dissimilar : Nat
  deriving DecidableEq, Repr, Inhabited

namespace PairSet

def size (s : PairSet) : Nat := s.pairs.length

/-- Observed share of similar pairs, 0 without pairs. -/
def similarFraction (s : PairSet) : Float :=
  if s.pairs.isEmpty then 0.0 else Float.ofNat s.similar / Float.ofNat s.size

/-- The numbers of the pairs, in their order. -/
def labels (s : PairSet) (mode : LabelMode) : List Int := s.pairs.map (Pair.label mode)

end PairSet

namespace Group

/-- Problem label and corpus position of a place. -/
def solutionAt (slices : Array (Nat × Array Nat)) (p : Place) : Nat × Nat :=
  let (problem, solutions) := slices.getD p.slice (0, #[])
  (problem, solutions.getD p.index 0)

/-- The slices of a group for access by index. -/
def indexed (g : Group) : Array (Nat × Array Nat) :=
  (g.slices.map fun s => (s.problem, s.solutions.toArray)).toArray

def pairAt (slices : Array (Nat × Array Nat)) (p : PlacePair) : Pair :=
  let (p1, s1) := solutionAt slices p.left
  let (p2, s2) := solutionAt slices p.right
  ⟨p1, s1, p2, s2⟩

/-- Draw pairs of a group. -/
def drawPairs (group : Group) (slots target : Nat) (fraction : Float) (g : Generator) :
    Except DatasetError PairSet × Generator :=
  let (draft, g) := Draft.draw group.sizes slots target fraction g
  (draft.map fun d =>
    ⟨d.places.toList.map (pairAt group.indexed), d.similar, target - d.similar⟩, g)

/-- What drawing reports: that no similar pair is possible, once drawing has begun, and what came
out. -/
def drawEvents (group : Group) (target : Nat) (fraction : Float)
    (outcome : Except DatasetError PairSet) : List Event :=
  let budget := similarBudget target fraction
  let begins := isFraction fraction && Memory.holds Pair.bytes target
  let skipped : List Event :=
    if begins && budget ≠ 0 && (group.similarShares budget).isEmpty then
      [⟨.debug, "no problem has two solutions; skipping similar pairs",
        [("start_problem", toString group.start)]⟩]
    else []
  let ready : List Event := match outcome with
    | .error _ => []
    | .ok s => [⟨.info, s!"[solution_pairs:sampler] pair dataset of {s.size} samples is ready " ++
        s!"({s.similar} similar, {s.dissimilar} dissimilar)", []⟩]
  skipped ++ ready

end Group

/-- Slots of a table where no number is named. -/
def defaultSlots : Nat := 131072

/-- Slots of a table, at least one. -/
def tableSize (slots : Option Nat) : Nat := max 1 (slots.getD defaultSlots)

end PairDatasets
