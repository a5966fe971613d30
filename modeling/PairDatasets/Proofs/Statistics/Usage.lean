import Mathlib.Algebra.Order.BigOperators.Group.List
import Mathlib.Algebra.Order.Ring.Nat
import Mathlib.Data.List.Perm.Subperm
import PairDatasets.Proofs.Order.Cardinality
import PairDatasets.Proofs.Partition.Group
import PairDatasets.Proofs.Statistics.Drawn

/-! What the pairs use of a group. The slices are taken in one by one: the sides add up what was drawn of
each, and the first slice with the fewest and the one with the most solutions are kept. Where every
problem has one slice, the sum for a side counts the different solutions that occur there. -/
namespace PairDatasets

lemma Side.offers_of_solution? {g : Group} {p : Pair} {side : Side} {q i : ℕ}
    (h1 : g.Offers p.problem1 p.solution1) (h2 : g.Offers p.problem2 p.solution2)
    (h : side.solution? p = some (q, i)) : g.Offers q i := by
  cases side <;> simp only [solution?] at h <;> split_ifs at h <;> cases h <;> assumption

namespace SideUsage

@[simp] lemma total_observe (u : SideUsage) (unique draws total : ℕ) :
    (u.observe unique draws total).total = u.total + total := by
  unfold observe
  by_cases h : total = 0
  · rw [if_pos h, h, Nat.add_zero]
  · rw [if_neg h]

@[simp] lemma used_observe (u : SideUsage) (unique draws total : ℕ) :
    (u.observe unique draws total).used = u.used + if total = 0 then 0 else unique := by
  unfold observe
  by_cases h : total = 0
  · rw [if_pos h, if_pos h, Nat.add_zero]
  · rw [if_neg h, if_neg h]

end SideUsage

namespace Usage
variable {drawn : DrawnByProblem} {pairs pairs' : List Pair} {g : Group} {slices : List Slice} {u : Usage}

def side (u : Usage) : Side → SideUsage
  | .similarLeft => u.similarLeft
  | .similarRight => u.similarRight
  | .dissimilarLeft => u.dissimilarLeft
  | .dissimilarRight => u.dissimilarRight

lemma side_observe (drawn : DrawnByProblem) (u : Usage) (s : Slice) (side : Side) :
    (u.observe drawn s).side side = (u.side side).observe
      ((drawn.getD s.problem {}).positions side).keys.length ((drawn.getD s.problem {}).draws side)
      s.size := by
  cases side <;> rfl

/-- The positions that are drawn on a side of a slice with solutions. -/
def drawnOf (drawn : DrawnByProblem) (side : Side) (s : Slice) : List ℕ :=
  if s.size = 0 then [] else ((drawn.getD s.problem {}).positions side).keys

/-- The first slice that no other one beats in size, by its problem and its size. Only without slices
there is none. -/
def FirstBest (beats : ℕ → ℕ → Bool) (slices : List Slice) : Option (ℕ × ℕ) → Prop
  | none => slices = []
  | some (p, n) => ∃ front s back, slices = front ++ s :: back ∧ s.problem = p ∧ s.size = n ∧
      (∀ r ∈ front, beats n r.size = true) ∧ ∀ r ∈ back, beats r.size n = false

section FirstBest
variable {beats : ℕ → ℕ → Bool}

/-- A slice that beats the best so far beats all before it. -/
lemma FirstBest.better (hasymm : ∀ a b, beats a b = true → beats b a = false)
    (htrans : ∀ a b c, beats a b = true → beats c b = false → beats a c = true)
    {best : Option (ℕ × ℕ)} (h : FirstBest beats slices best) (s : Slice) :
    FirstBest beats (slices ++ [s]) (Usage.better beats best s) := by
  cases best with
  | none =>
    obtain rfl : slices = [] := h
    exact ⟨[], s, [], rfl, rfl, rfl, nofun, nofun⟩
  | some x =>
    obtain ⟨p, n⟩ := x
    obtain ⟨front, r, back, rfl, hp, rfl, hfront, hback⟩ := h
    unfold Usage.better
    dsimp only
    split_ifs with hbeats
    · refine ⟨front ++ r :: back, s, [], rfl, rfl, rfl, fun r' hr' => ?_, nofun⟩
      rcases List.mem_append.mp hr' with hr' | hr'
      · exact htrans _ _ _ hbeats (hasymm _ _ (hfront r' hr'))
      · rcases List.mem_cons.mp hr' with rfl | hr'
        · exact hbeats
        · exact htrans _ _ _ hbeats (hback r' hr')
    · refine ⟨front, r, back ++ [s], by simp, hp, rfl, hfront, fun r' hr' => ?_⟩
      rcases List.mem_append.mp hr' with hr' | hr'
      · exact hback r' hr'
      · rw [List.mem_singleton.mp hr']
        exact eq_false_of_ne_true hbeats

end FirstBest

/-- What has been taken in of some slices. -/
structure Covers (drawn : DrawnByProblem) (slices : List Slice) (u : Usage) : Prop where
  used : ∀ side, (u.side side).used = (slices.map fun s => (drawnOf drawn side s).length).sum
  total : ∀ side, (u.side side).total = (slices.map Slice.size).sum
  problems : u.problems = slices.length
  solutions : u.solutions = (slices.map Slice.size).sum
  smallest : FirstBest (fun a b => a < b) slices u.smallest
  largest : FirstBest (fun a b => b < a) slices u.largest

lemma covers_nil (drawn : DrawnByProblem) : Covers drawn [] {} := by
  refine ⟨?_, ?_, rfl, rfl, rfl, rfl⟩ <;> intro side <;> cases side <;> rfl

lemma Covers.observe (h : u.Covers drawn slices) (s : Slice) :
    (u.observe drawn s).Covers drawn (slices ++ [s]) := by
  constructor
  · intro side
    rw [side_observe, SideUsage.used_observe, h.used, List.map_append, List.sum_append,
      List.map_singleton, List.sum_singleton, drawnOf]
    split_ifs <;> rfl
  · intro side
    rw [side_observe, SideUsage.total_observe, h.total, List.map_append, List.sum_append,
      List.map_singleton, List.sum_singleton]
  · rw [List.length_append, ← h.problems]
    rfl
  · rw [List.map_append, List.sum_append, ← h.solutions]
    rfl
  · exact h.smallest.better (by simp; omega) (by simp; omega) s
  · exact h.largest.better (by simp; omega) (by simp; omega) s

theorem covers_ofPairs (pairs : List Pair) (g : Group) :
    (ofPairs pairs g).Covers (DrawnByProblem.ofPairs pairs) g.slices :=
  foldl_keeps (P := Covers _) g.slices (covers_nil _) fun _ _ s h => h.observe s

/-- Pairs of a group use no more solutions of it than it has. -/
theorem used_le_total (side : Side) (hlabels : g.labels.Nodup) (hoffers : ∀ p ∈ pairs,
      g.Offers p.problem1 p.solution1 ∧ g.Offers p.problem2 p.solution2) :
    ((ofPairs pairs g).side side).used ≤ ((ofPairs pairs g).side side).total := by
  rw [(covers_ofPairs pairs g).used, (covers_ofPairs pairs g).total]
  refine List.sum_le_sum fun s hs => ?_
  unfold drawnOf
  split_ifs
  · exact Nat.zero_le _
  · refine ((Keyed.nodup_keys _).subperm fun i hi => ?_).length_le
    obtain ⟨p, hp, hsolution⟩ := ((DrawnByProblem.counts_ofPairs pairs s.problem).mem side i).mp hi
    obtain ⟨h1, h2⟩ := hoffers p hp
    have hgiven := Group.mem_given hlabels (Side.offers_of_solution? h1 h2 hsolution)
    rwa [Group.given_of_mem hlabels hs] at hgiven

/-- The different solutions that occur on a side of pairs, of problems of which a group has any. -/
def occurring (side : Side) (pairs : List Pair) (g : Group) : Set (ℕ × ℕ) :=
  {x | (∃ p ∈ pairs, side.solution? p = some x) ∧
    ∃ s ∈ g.slices, s.problem = x.1 ∧ s.solutions ≠ []}

lemma mem_drawnOf {side : Side} {s : Slice} {i : ℕ} :
    i ∈ drawnOf (DrawnByProblem.ofPairs pairs) side s ↔
      s.solutions ≠ [] ∧ ∃ p ∈ pairs, side.solution? p = some (s.problem, i) := by
  have hempty : s.size = 0 ↔ s.solutions = [] := List.length_eq_zero_iff
  rw [← (DrawnByProblem.counts_ofPairs pairs s.problem).mem side i, drawnOf, ne_eq, ← hempty]
  split_ifs with h <;> simp [h]

/-- What a side uses is the number of different solutions that occur on it. -/
lemma encard_occurring (side : Side) (pairs : List Pair) (hlabels : g.labels.Nodup) :
    (occurring side pairs g).encard = ((ofPairs pairs g).side side).used := by
  have hvalues (s : Slice) : (drawnOf (DrawnByProblem.ofPairs pairs) side s).Nodup := by
    unfold drawnOf
    split_ifs
    · exact List.nodup_nil
    · exact Keyed.nodup_keys _
  rw [encard_eq_length (nodup_tagged hlabels fun s _ => hvalues s)]
  · rw [List.length_flatMap, (covers_ofPairs pairs g).used]
    simp only [List.length_map]
  · rintro ⟨q, i⟩
    simp only [occurring, Set.mem_ofPred_eq, List.mem_flatMap, List.mem_map, Prod.mk.injEq, mem_drawnOf]
    constructor
    · rintro ⟨hdrawn, s, hs, rfl, hsome⟩
      exact ⟨s, hs, i, ⟨hsome, hdrawn⟩, rfl, rfl⟩
    · rintro ⟨s, hs, j, ⟨hsome, hdrawn⟩, rfl, rfl⟩
      exact ⟨hdrawn, s, hs, rfl, hsome⟩

/-- In another order the pairs use the same of a group. -/
lemma ofPairs_perm (h : pairs.Perm pairs') (g : Group) : ofPairs pairs g = ofPairs pairs' g := by
  have hobserve : observe (DrawnByProblem.ofPairs pairs) = observe (DrawnByProblem.ofPairs pairs') := by
    funext u s
    rw [observe, observe, DrawnByProblem.getD_ofPairs_perm h]
  rw [ofPairs, ofPairs, hobserve]

/-- The usage of a group by pairs: on each side the different solutions that occur, out of all that the
group has, and the first slices with the fewest and with the most solutions. -/
structure Describes (pairs : List Pair) (g : Group) (u : Usage) : Prop where
  used : ∀ side, ((u.side side).used : ℕ∞) = (occurring side pairs g).encard
  total : ∀ side, (u.side side).total = g.solutionCount
  solutions : u.solutions = g.solutionCount
  problems : u.problems = g.slices.length
  smallest : FirstBest (fun a b => a < b) g.slices u.smallest
  largest : FirstBest (fun a b => b < a) g.slices u.largest

/-- The usage tells exactly what pairs use of a group, in whatever order they come. -/
theorem ofPairs_describes (pairs : List Pair) (hlabels : g.labels.Nodup) :
    (ofPairs pairs g).Describes pairs g ∧
      ∀ pairs', pairs.Perm pairs' → ofPairs pairs' g = ofPairs pairs g := by
  have hcovers := covers_ofPairs pairs g
  constructor
  · exact ⟨fun side => (encard_occurring side pairs hlabels).symm, hcovers.total, hcovers.solutions,
      hcovers.problems, hcovers.smallest, hcovers.largest⟩
  · intro pairs' hperm
    exact (ofPairs_perm hperm g).symm

/-- Of problem 7 there are no solutions, and problem 9 is not in the group. -/
theorem ofPairs_describes_gappedGroup :
    let g : Group := ⟨5, [⟨5, [0, 1, 2]⟩, ⟨7, []⟩, ⟨6, [0, 1, 4]⟩]⟩
    let pairs : List Pair := [⟨5, 0, 5, 1⟩, ⟨5, 0, 5, 2⟩, ⟨7, 3, 7, 4⟩, ⟨9, 0, 6, 4⟩, ⟨5, 2, 6, 4⟩]
    g.labels.Nodup ∧ ((ofPairs pairs g).Describes pairs g ∧ ofPairs pairs.reverse g = ofPairs pairs g) ∧
      (ofPairs pairs g).similarLeft.used = 1 ∧ (ofPairs pairs g).similarRight.used = 2 ∧
      (ofPairs pairs g).dissimilarRight.used = 1 ∧ (ofPairs pairs g).smallest = some (7, 0) ∧
      (ofPairs pairs g).largest = some (5, 3) := by
  intro g pairs
  have hlabels : g.labels.Nodup := by decide
  obtain ⟨hdescribes, hperm⟩ := ofPairs_describes pairs hlabels
  exact ⟨hlabels, ⟨hdescribes, hperm _ pairs.reverse_perm.symm⟩, by decide, by decide, by decide,
    by decide, by decide⟩

end Usage
end PairDatasets
