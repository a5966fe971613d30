import Mathlib.Tactic.Common
import PairDatasets.Proofs.Order.Keyed
import PairDatasets.Proofs.Order.Mapping
import PairDatasets.Statistics.Usage

/-! What pairs draw of each problem. A pair adds to its own problems only, on the sides on which it has
them, so after all pairs each side of a problem holds the positions that occur there. The order of the
pairs does not show. -/
namespace PairDatasets

/-- The places in which a solution can occur. -/
inductive Side where
  | similarLeft
  | similarRight
  | dissimilarLeft
  | dissimilarRight
  deriving DecidableEq, Repr

/-- The solution that a pair has on a side: problem and position. -/
def Side.solution? (side : Side) (p : Pair) : Option (ℕ × ℕ) :=
  match side with
  | similarLeft => if p.similar then some (p.problem1, p.solution1) else none
  | similarRight => if p.similar then some (p.problem2, p.solution2) else none
  | dissimilarLeft => if p.similar then none else some (p.problem1, p.solution1)
  | dissimilarRight => if p.similar then none else some (p.problem2, p.solution2)

/-- Whether a pair has a problem on a side. -/
def Side.hasProblem (side : Side) (q : ℕ) (p : Pair) : Bool :=
  (side.solution? p).any fun x => x.1 = q

namespace Drawn

/-- The positions drawn on a side. -/
def positions (d : Drawn) : Side → Positions
  | .similarLeft => d.similarLeft
  | .similarRight => d.similarRight
  | .dissimilarLeft => d.left
  | .dissimilarRight => d.right

/-- How often a position is drawn on a side. -/
def draws (d : Drawn) : Side → ℕ
  | .similarLeft | .similarRight => d.similarDraws
  | .dissimilarLeft => d.leftDraws
  | .dissimilarRight => d.rightDraws

/-- What is drawn of a problem once one more pair is counted. -/
def after (p : Pair) (q : ℕ) (d : Drawn) : Drawn :=
  if p.similar then if q = p.problem1 then d.addSimilar p else d
  else if q = p.problem1 then d.addLeft p
  else if q = p.problem2 then d.addRight p
  else d

lemma mem_positions_after (p : Pair) (q : ℕ) (d : Drawn) (side : Side) (i : ℕ) :
    i ∈ ((d.after p q).positions side).keys ↔
      side.solution? p = some (q, i) ∨ i ∈ (d.positions side).keys := by
  unfold after
  split_ifs with hp h1 h1 h2
  · have heq : p.problem1 = p.problem2 := of_decide_eq_true hp
    cases side <;> simp [Side.solution?, positions, addSimilar, hp, h1, ← heq, eq_comm]
  · have heq : p.problem1 = p.problem2 := of_decide_eq_true hp
    cases side <;> simp [Side.solution?, hp, ← heq, Ne.symm h1]
  · have hne : p.problem2 ≠ p.problem1 := fun h => hp (decide_eq_true h.symm)
    cases side <;> simp [Side.solution?, positions, addLeft, hp, h1, hne, @eq_comm _ i]
  · cases side <;> simp [Side.solution?, positions, addRight, hp, Ne.symm h1, ← h2, @eq_comm _ i]
  · cases side <;> simp [Side.solution?, hp, Ne.symm h1, Ne.symm h2]

lemma draws_after (p : Pair) (q : ℕ) (d : Drawn) (side : Side) :
    (d.after p q).draws side = d.draws side + (side.hasProblem q p).toNat := by
  unfold after
  split_ifs with hp h1 h1 h2
  · have heq : p.problem1 = p.problem2 := of_decide_eq_true hp
    cases side <;> simp [Side.hasProblem, Side.solution?, draws, addSimilar, hp, h1, ← heq]
  · have heq : p.problem1 = p.problem2 := of_decide_eq_true hp
    cases side <;> simp [Side.hasProblem, Side.solution?, hp, ← heq, Ne.symm h1]
  · have hne : p.problem2 ≠ p.problem1 := fun h => hp (decide_eq_true h.symm)
    cases side <;> simp [Side.hasProblem, Side.solution?, draws, addLeft, hp, h1, hne]
  · cases side <;> simp [Side.hasProblem, Side.solution?, draws, addRight, hp, Ne.symm h1, ← h2]
  · cases side <;> simp [Side.hasProblem, Side.solution?, hp, Ne.symm h1, Ne.symm h2]

/-- Exactly what pairs draw of a problem. -/
structure Counts (pairs : List Pair) (q : ℕ) (d : Drawn) : Prop where
  mem : ∀ side i, i ∈ (d.positions side).keys ↔ ∃ p ∈ pairs, side.solution? p = some (q, i)
  draws : ∀ side, d.draws side = pairs.countP (side.hasProblem q)

variable {pairs pairs' : List Pair} {q : ℕ} {d d' : Drawn}

lemma counts_nil (q : ℕ) : Counts [] q {} := by
  constructor
  · intro side i
    cases side <;> exact iff_of_false List.not_mem_nil fun ⟨_, hp, _⟩ => List.not_mem_nil hp
  · intro side
    cases side <;> rfl

lemma Counts.after (h : d.Counts pairs q) (p : Pair) : (d.after p q).Counts (pairs ++ [p]) q := by
  constructor
  · intro side i
    rw [mem_positions_after, h.mem, or_comm]
    simp [or_and_right, exists_or]
  · intro side
    rw [draws_after, h.draws, List.countP_append, List.countP_singleton]
    cases side.hasProblem q p <;> rfl

/-- The order of the pairs does not show in what is drawn of a problem. -/
lemma Counts.eq_of_perm (h : d.Counts pairs q) (h' : d'.Counts pairs' q) (hperm : pairs.Perm pairs') :
    d = d' := by
  have hpositions (side : Side) : d.positions side = d'.positions side := by
    refine Keyed.ext_keys fun i => ?_
    rw [h.mem, h'.mem]
    exact exists_congr fun p => and_congr_left' hperm.mem_iff
  have hdraws (side : Side) : d.draws side = d'.draws side := by
    rw [h.draws, h'.draws, hperm.countP_eq]
  cases d
  cases d'
  exact mk.injEq .. ▸ ⟨hpositions .similarLeft, hpositions .similarRight, hdraws .similarLeft,
    hpositions .dissimilarLeft, hdraws .dissimilarLeft, hpositions .dissimilarRight,
    hdraws .dissimilarRight⟩

end Drawn

namespace DrawnByProblem
variable {pairs pairs' : List Pair}

/-- A pair changes what is drawn of its own problems. -/
lemma getD_observe (t : DrawnByProblem) (p : Pair) (q : ℕ) :
    (t.observe p).getD q {} = (t.getD q {}).after p q := by
  unfold observe Drawn.after
  cases hp : p.similar with
  | true =>
    rw [if_pos rfl, if_pos rfl, Keyed.getD_update]
    split_ifs with h1
    · rw [h1]
    · rfl
  | false =>
    have hne : p.problem1 ≠ p.problem2 := of_decide_eq_false hp
    rw [if_neg Bool.false_ne_true, if_neg Bool.false_ne_true, Keyed.getD_update, Keyed.getD_update,
      Keyed.getD_update, if_neg hne.symm]
    split_ifs with h2 h1 h1
    · exact absurd (h1.symm.trans h2) hne
    · rw [h2]
    · rw [h1]
    · rfl

/-- After all pairs every problem has what they draw of it. -/
theorem counts_ofPairs (pairs : List Pair) (q : ℕ) :
    ((ofPairs pairs).getD q {}).Counts pairs q := by
  have hempty : (({} : DrawnByProblem).getD q {}).Counts [] q := Drawn.counts_nil q
  refine foldl_keeps (P := fun pairs (t : DrawnByProblem) => (t.getD q {}).Counts pairs q) pairs hempty ?_
  intro pairs t p h
  rw [getD_observe]
  exact h.after p

/-- In another order the pairs draw the same of every problem. -/
theorem getD_ofPairs_perm (h : pairs.Perm pairs') (q : ℕ) :
    (ofPairs pairs).getD q {} = (ofPairs pairs').getD q {} :=
  (counts_ofPairs pairs q).eq_of_perm (counts_ofPairs pairs' q) h

end DrawnByProblem
end PairDatasets
