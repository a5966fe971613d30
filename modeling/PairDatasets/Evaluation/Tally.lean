import PairDatasets.Order.Keyed
import PairDatasets.Sampling.Pair

/-!
Counting the answers of a model in one walk over the samples: which are right and wrong, how well each
problem is recognised, and how well each two problems are told apart in either order.
-/
namespace PairDatasets

/-- A pair with what it is and what the model takes it for; true is similar. -/
structure Sample where
  pair : Pair
  actual : Bool
  predicted : Bool
  deriving DecidableEq, Repr

namespace Sample

def correct (s : Sample) : Bool := s.actual == s.predicted

/-- A number read as a probability: bipolar numbers are moved into the unit interval. -/
def probability (mode : LabelMode) (x : Float) : Float :=
  match mode with
  | .binary => x
  | .bipolar => (x + 1.0) / 2.0

/-- Above one half is similar. -/
def decides (mode : LabelMode) (x : Float) : Bool := 0.5 < probability mode x

/-- Read a score and a label. Scores have single precision, and doubles hold them as they are. -/
def ofScore (mode : LabelMode) (score : Float) (label : Int) (pair : Pair) : Sample :=
  ⟨pair, decides mode (Float.ofInt label), decides mode score⟩

end Sample

/-- How many samples were tested, and how many answers were right. -/
structure Score where
  tests : Nat := 0
  correct : Nat := 0
  deriving DecidableEq, Repr, Inhabited

namespace Score

def add (a b : Score) : Score := ⟨a.tests + b.tests, a.correct + b.correct⟩

/-- Count one answer. -/
def observe (s : Score) (correct : Bool) : Score := ⟨s.tests + 1, s.correct + correct.toNat⟩

end Score

/-- The scores of the dissimilar pairs of two problems, by which of them is on the left. -/
structure Directions where
  /-- The smaller label on the left. -/
  forward : Score := {}
  /-- The larger label on the left. -/
  backward : Score := {}
  deriving DecidableEq, Repr, Inhabited

/-- The answers by what the pairs are and what they are taken for. -/
structure Answers where
  trueNegatives : Nat := 0
  falsePositives : Nat := 0
  falseNegatives : Nat := 0
  truePositives : Nat := 0
  deriving DecidableEq, Repr, Inhabited

/-- Count one answer. -/
def Answers.observe (a : Answers) (s : Sample) : Answers :=
  match s.actual, s.predicted with
  | false, false => { a with trueNegatives := a.trueNegatives + 1 }
  | false, true => { a with falsePositives := a.falsePositives + 1 }
  | true, false => { a with falseNegatives := a.falseNegatives + 1 }
  | true, true => { a with truePositives := a.truePositives + 1 }

/-- By the first label, then by the second. -/
def compareKeys : Nat × Nat → Nat × Nat → Ordering :=
  compareLex (compareOn Prod.fst) (compareOn Prod.snd)

instance : Std.TransCmp compareKeys :=
  inferInstanceAs (Std.TransCmp (compareLex (compareOn Prod.fst) (compareOn Prod.snd)))

theorem compareKeys_eq_lt {a b : Nat × Nat} :
    compareKeys a b = .lt ↔ a.1 < b.1 ∨ a.1 = b.1 ∧ a.2 < b.2 := by
  simp only [compareKeys, compareLex, compareOn, Ordering.then_eq_lt, Nat.compare_eq_lt,
    Nat.compare_eq_eq]

instance : Std.LawfulEqCmp compareKeys where
  compare_self := Std.ReflCmp.compare_self
  eq_of_compare h := by
    simp only [compareKeys, compareLex, compareOn, Ordering.then_eq_eq, Nat.compare_eq_eq] at h
    exact Prod.ext h.1 h.2

/-- What has been counted so far. -/
structure Tally where
  answers : Answers := {}
  /-- The scores of the similar pairs by problem. -/
  similar : Keyed (compare : Nat → Nat → Ordering) Score := {}
  /-- The scores of the dissimilar pairs by problems, the smaller label first. -/
  dissimilar : Keyed compareKeys Directions := {}
  /-- The problems that were met. -/
  tested : Keyed (compare : Nat → Nat → Ordering) Unit := {}

namespace Tally

/-- The problems of a pair, the smaller label first. -/
def key (p : Pair) : Nat × Nat := (min p.problem1 p.problem2, max p.problem1 p.problem2)

/-- Count an answer for a dissimilar pair on the side of its order. -/
def direct (p : Pair) (correct : Bool) (d : Directions) : Directions :=
  if p.problem1 = (key p).1 then { d with forward := d.forward.observe correct }
  else { d with backward := d.backward.observe correct }

/-- Count one sample. -/
def observe (t : Tally) (s : Sample) : Tally :=
  let p := s.pair
  let t := { t with
    answers := t.answers.observe s
    tested := (t.tested.insert p.problem1).insert p.problem2 }
  if p.similar then
    { t with similar := t.similar.update p.problem1 {} (·.observe s.correct) }
  else { t with dissimilar := t.dissimilar.update (key p) {} (direct p s.correct) }

def ofSamples (samples : List Sample) : Tally := samples.foldl observe {}

end Tally
end PairDatasets
