import PairDatasets.Order.Keyed
import PairDatasets.Partition.Group
import PairDatasets.Sampling.Pair

/-!
How much of a group its pairs use: for each side of similar and of dissimilar pairs, how many
different solutions occur there, and how often they come again. The pairs are gone through once, with
what is drawn of every problem; then the slices are gone through with what was drawn of them.
-/
namespace PairDatasets

/-- The usage of one side. -/
structure SideUsage where
  /-- The smallest part of a problem's solutions that occurs, and the largest. -/
  leastUsed : Float := 1.0
  mostUsed : Float := 0.0
  /-- The smallest number of different solutions by draws of a problem, and the largest. -/
  leastUnique : Float := 1.0
  mostUnique : Float := 0.0
  /-- Different solutions that occur, and solutions there are. -/
  used : Nat := 0
  total : Nat := 0
  deriving DecidableEq, Inhabited

namespace SideUsage

def smaller (a b : Float) : Float := if b < a then b else a

def larger (a b : Float) : Float := if a < b then b else a

/-- Take a problem in: different solutions, draws, and solutions there are. A problem without
solutions does not count. -/
def observe (u : SideUsage) (unique draws total : Nat) : SideUsage :=
  if total = 0 then u
  else
    let part := Float.ofNat unique / Float.ofNat total
    let fresh := Float.ofNat unique / Float.ofNat draws
    { leastUsed := smaller u.leastUsed part
      mostUsed := larger u.mostUsed part
      leastUnique := if 0 < draws then smaller u.leastUnique fresh else u.leastUnique
      mostUnique := if 0 < draws then larger u.mostUnique fresh else u.mostUnique
      used := u.used + unique
      total := u.total + total }

end SideUsage

/-- Positions of solutions, each once. -/
abbrev Positions := Keyed (compare : Nat → Nat → Ordering) Unit

/-- What pairs draw of one problem: the positions on each side, and how often one is drawn there. Both
sides of similar pairs are drawn together. -/
structure Drawn where
  similarLeft : Positions := {}
  similarRight : Positions := {}
  similarDraws : Nat := 0
  left : Positions := {}
  leftDraws : Nat := 0
  right : Positions := {}
  rightDraws : Nat := 0

namespace Drawn

/-- Count a similar pair of the problem. -/
def addSimilar (p : Pair) (d : Drawn) : Drawn :=
  { d with
    similarLeft := d.similarLeft.insert p.solution1
    similarRight := d.similarRight.insert p.solution2
    similarDraws := d.similarDraws + 1 }

/-- Count a dissimilar pair with the problem on the left. -/
def addLeft (p : Pair) (d : Drawn) : Drawn :=
  { d with left := d.left.insert p.solution1, leftDraws := d.leftDraws + 1 }

/-- Count a dissimilar pair with the problem on the right. -/
def addRight (p : Pair) (d : Drawn) : Drawn :=
  { d with right := d.right.insert p.solution2, rightDraws := d.rightDraws + 1 }

end Drawn

/-- What pairs draw, by problem. -/
abbrev DrawnByProblem := Keyed (compare : Nat → Nat → Ordering) Drawn

namespace DrawnByProblem

/-- Count a pair. -/
def observe (t : DrawnByProblem) (p : Pair) : DrawnByProblem :=
  if p.similar then t.update p.problem1 {} (Drawn.addSimilar p)
  else (t.update p.problem1 {} (Drawn.addLeft p)).update p.problem2 {} (Drawn.addRight p)

def ofPairs (pairs : List Pair) : DrawnByProblem := pairs.foldl observe {}

end DrawnByProblem

structure Usage where
  similarLeft : SideUsage := {}
  similarRight : SideUsage := {}
  dissimilarLeft : SideUsage := {}
  dissimilarRight : SideUsage := {}
  problems : Nat := 0
  solutions : Nat := 0
  /-- The first problem with the fewest solutions, and their number. -/
  smallest : Option (Nat × Nat) := none
  /-- The first problem with the most solutions, and their number. -/
  largest : Option (Nat × Nat) := none
  deriving DecidableEq

namespace Usage

/-- The best slice so far, or one that beats it in size. -/
def better (beats : Nat → Nat → Bool) (best : Option (Nat × Nat)) (s : Slice) : Option (Nat × Nat) :=
  match best with
  | none => some (s.problem, s.size)
  | some (p, n) => if beats s.size n then some (s.problem, s.size) else some (p, n)

/-- Take a slice in, with what is drawn of its problem. -/
def observe (drawn : DrawnByProblem) (u : Usage) (s : Slice) : Usage :=
  let d := drawn.getD s.problem {}
  { similarLeft := u.similarLeft.observe d.similarLeft.keys.length d.similarDraws s.size
    similarRight := u.similarRight.observe d.similarRight.keys.length d.similarDraws s.size
    dissimilarLeft := u.dissimilarLeft.observe d.left.keys.length d.leftDraws s.size
    dissimilarRight := u.dissimilarRight.observe d.right.keys.length d.rightDraws s.size
    problems := u.problems + 1
    solutions := u.solutions + s.size
    smallest := better (fun a b => a < b) u.smallest s
    largest := better (fun a b => b < a) u.largest s }

/-- The usage of a group by pairs. -/
def ofPairs (pairs : List Pair) (group : Group) : Usage :=
  group.slices.foldl (observe (DrawnByProblem.ofPairs pairs)) {}

end Usage
end PairDatasets
