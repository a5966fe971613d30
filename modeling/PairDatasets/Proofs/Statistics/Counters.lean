import Mathlib.Algebra.Order.Ring.Nat
import Mathlib.Tactic.Common
import PairDatasets.Statistics.Distribution

/-! What the counters of a distribution hold after all pairs. Every pair within the range adds one where its
problems are, the others add one to those outside, so a counter is the number of pairs that belong to it. -/
namespace PairDatasets

lemma mapIdx_self {α : Type} (xs : Array α) : (xs.mapIdx fun _ x => x) = xs := by
  apply Array.ext_getElem?
  intro j
  rw [Array.getElem?_mapIdx, Option.map_id']

lemma modify_eq_mapIdx {α : Type} (xs : Array α) (i : ℕ) (f : α → α) :
    xs.modify i f = xs.mapIdx fun j x => if i = j then f x else x := by
  apply Array.ext_getElem?
  intro j
  rw [Array.getElem?_modify, Array.getElem?_mapIdx]
  split_ifs with heq
  · rfl
  · rw [Option.map_id']

/-- One more at one place. -/
lemma modify_succ (xs : Array ℕ) (i : ℕ) :
    xs.modify i (· + 1) = xs.mapIdx fun j k => k + if i = j then 1 else 0 := by
  rw [modify_eq_mapIdx]
  congr 1
  funext j k
  split_ifs <;> rfl

/-- One more at one place of one row. -/
lemma modify_modify_succ (rows : Array (Array ℕ)) (i j : ℕ) : rows.modify i (·.modify j (· + 1)) =
    rows.mapIdx fun i' row => row.mapIdx fun j' k => k + if i = i' ∧ j = j' then 1 else 0 := by
  rw [modify_eq_mapIdx]
  congr 1
  funext i' row
  by_cases hi : i = i'
  · rw [if_pos hi, modify_succ]
    simp only [hi, true_and]
  · rw [if_neg hi]
    simp only [hi, false_and, if_false, Nat.add_zero, mapIdx_self]

namespace Distribution
variable {start n : ℕ} {pairs ps qs : List Pair}

/-- Both problems of a pair lie in the range. -/
def inside (start n : ℕ) (p : Pair) : Bool :=
  p.problem1 ∈ List.range' start n && p.problem2 ∈ List.range' start n

/-- The pairs with both problems in the range. -/
def within (start n : ℕ) (pairs : List Pair) : List Pair := pairs.filter (inside start n)

/-- Pairs of two given problems. -/
def linking (pairs : List Pair) (a b : ℕ) : ℕ :=
  pairs.countP fun p => p.problem1 = a && p.problem2 = b

/-- Dissimilar pairs with a problem on the left. -/
def leading (pairs : List Pair) (a : ℕ) : ℕ :=
  pairs.countP fun p => p.problem1 = a && p.problem2 ≠ a

/-- Dissimilar pairs with a problem on the right. -/
def trailing (pairs : List Pair) (a : ℕ) : ℕ :=
  pairs.countP fun p => p.problem2 = a && p.problem1 ≠ a

/-- Whether a problem is one of the problems of a pair. -/
def appears (pairs : List Pair) (a : ℕ) : Bool :=
  pairs.any fun p => p.problem1 = a || p.problem2 = a

lemma linking_add_leading_add_trailing (pairs : List Pair) (a : ℕ) :
    linking pairs a a + leading pairs a + trailing pairs a =
      pairs.countP fun p => p.problem1 = a || p.problem2 = a := by
  unfold linking leading trailing
  induction pairs with
  | nil => rfl
  | cons p pairs ih =>
    simp only [List.countP_cons, ← ih]
    by_cases h1 : p.problem1 = a <;> by_cases h2 : p.problem2 = a <;> simp [h1, h2] <;> omega

lemma mem_within {p : Pair} : p ∈ within start n pairs ↔
    p ∈ pairs ∧ p.problem1 ∈ List.range' start n ∧ p.problem2 ∈ List.range' start n := by
  simp [within, inside]

/-- Where every problem of a pair is in the range, no pair is left out. -/
lemma within_eq_self (h : ∀ p ∈ pairs,
    p.problem1 ∈ List.range' start n ∧ p.problem2 ∈ List.range' start n) :
    within start n pairs = pairs := by
  unfold within
  rw [List.filter_eq_self]
  intro p hp
  simpa [inside] using h p hp

lemma place?_eq_some {label i : ℕ} :
    place? start n label = some i ↔ i < n ∧ label = start + i := by
  unfold place?
  split_ifs with h
  · rw [Bool.and_eq_true, decide_eq_true_eq, decide_eq_true_eq] at h
    rw [Option.some.injEq]
    omega
  · rw [Bool.and_eq_true, decide_eq_true_eq, decide_eq_true_eq] at h
    exact iff_of_false nofun (by omega)

lemma place?_eq_none {label : ℕ} : place? start n label = none ↔ label ∉ List.range' start n := by
  rw [List.mem_range'_1]
  simp [place?]

namespace Counters
variable {c d e : Counters}

/-- One set of counters is another one with these pairs counted in addition. -/
structure Adds (start n : ℕ) (pairs : List Pair) (c d : Counters) : Prop where
  matrix : d.matrix = c.matrix.mapIdx fun i row =>
    row.mapIdx fun j k => k + linking (within start n pairs) (start + i) (start + j)
  same : d.same = c.same.mapIdx fun i k =>
    k + linking (within start n pairs) (start + i) (start + i)
  left : d.left = c.left.mapIdx fun i k => k + leading (within start n pairs) (start + i)
  right : d.right = c.right.mapIdx fun i k => k + trailing (within start n pairs) (start + i)
  outside : d.outside = c.outside + pairs.countP fun p => !inside start n p

lemma adds_nil (c : Counters) : c.Adds start n [] c := by
  constructor <;> simp [within, linking, leading, trailing, mapIdx_self]

lemma Adds.trans (h : c.Adds start n ps d) (h' : d.Adds start n qs e) :
    c.Adds start n (ps ++ qs) e := by
  constructor
  · simp [h'.matrix, h.matrix, within, linking, Array.mapIdx_mapIdx, Function.comp_def, Nat.add_assoc]
  · simp [h'.same, h.same, within, linking, Array.mapIdx_mapIdx, Function.comp_def, Nat.add_assoc]
  · simp [h'.left, h.left, within, leading, Array.mapIdx_mapIdx, Function.comp_def, Nat.add_assoc]
  · simp [h'.right, h.right, within, trailing, Array.mapIdx_mapIdx, Function.comp_def, Nat.add_assoc]
  · rw [h'.outside, h.outside, List.countP_append, Nat.add_assoc]

/-- A pair that is not inside the range has a problem without a place. -/
lemma add_of_not_inside {p : Pair} (hp : inside start n p = false) :
    add start n c p = { c with outside := c.outside + 1 } := by
  have hout : p.problem1 ∉ List.range' start n ∨ p.problem2 ∉ List.range' start n := by
    by_contra! hboth
    simp [inside, hboth] at hp
  unfold add
  rcases hout with hout | hout
  · rw [place?_eq_none.mpr hout]
  · rw [place?_eq_none.mpr hout]
    cases place? start n p.problem1 <;> rfl

/-- What one pair adds. -/
lemma adds_add (c : Counters) (p : Pair) : c.Adds start n [p] (add start n c p) := by
  cases hp : inside start n p with
  | false =>
    have hnone : within start n [p] = [] := by simp [within, hp]
    rw [add_of_not_inside hp]
    constructor <;> simp [hnone, hp, linking, leading, trailing, mapIdx_self]
  | true =>
    have hone : within start n [p] = [p] := by simp [within, hp]
    obtain ⟨⟨a, ha, hp1⟩, b, hb, hp2⟩ :
        (∃ a < n, p.problem1 = start + a) ∧ ∃ b < n, p.problem2 = start + b := by
      simpa [inside, List.mem_range'] using hp
    have hlinking (i j : ℕ) : linking [p] (start + i) (start + j) = if a = i ∧ b = j then 1 else 0 := by
      simp [linking, hp1, hp2]
    have hleading (i : ℕ) : leading [p] (start + i) = if a = i ∧ b ≠ i then 1 else 0 := by
      simp [leading, hp1, hp2]
    have htrailing (i : ℕ) : trailing [p] (start + i) = if b = i ∧ a ≠ i then 1 else 0 := by
      simp [trailing, hp1, hp2]
    unfold add
    rw [place?_eq_some.mpr ⟨ha, hp1⟩, place?_eq_some.mpr ⟨hb, hp2⟩]
    dsimp only
    by_cases heq : a = b
    · subst heq
      rw [if_pos rfl]
      constructor
      · simp only [hone, hlinking, modify_modify_succ]
      · simp only [hone, hlinking, modify_succ, and_self]
      · simp only [hone, hleading, ne_eq, and_not_self, if_false, Nat.add_zero, mapIdx_self]
      · simp only [hone, htrailing, ne_eq, and_not_self, if_false, Nat.add_zero, mapIdx_self]
      · simp [hp]
    · have hsame (i : ℕ) : ¬(a = i ∧ b = i) := fun h => heq (h.1.trans h.2.symm)
      have hleft (i : ℕ) : (a = i ∧ b ≠ i) ↔ a = i := by omega
      have hright (i : ℕ) : (b = i ∧ a ≠ i) ↔ b = i := by omega
      rw [if_neg heq]
      constructor
      · simp only [hone, hlinking, modify_modify_succ]
      · simp only [hone, hlinking, hsame, if_false, Nat.add_zero, mapIdx_self]
      · simp only [hone, hleading, hleft, modify_succ]
      · simp only [hone, htrailing, hright, modify_succ]
      · simp [hp]

theorem adds_foldl (c : Counters) (pairs : List Pair) :
    c.Adds start n pairs (pairs.foldl (add start n) c) := by
  induction pairs generalizing c with
  | nil => exact adds_nil c
  | cons p pairs ih => exact (adds_add c p).trans (ih _)

section Totals
variable {i : ℕ} (start : ℕ) (pairs : List Pair) (hi : i < n)
include hi

lemma getD_mapIdx_zero (f : ℕ → ℕ) :
    ((Array.replicate n 0).mapIdx fun i k => k + f i).getD i 0 = f i := by
  simp [hi]

lemma same_ofPairs : (ofPairs start n pairs).same.getD i 0 =
    linking (within start n pairs) (start + i) (start + i) := by
  rw [ofPairs, (adds_foldl (zero n) pairs).same]
  exact getD_mapIdx_zero hi fun i => linking (within start n pairs) (start + i) (start + i)

lemma left_ofPairs : (ofPairs start n pairs).left.getD i 0 =
    leading (within start n pairs) (start + i) := by
  rw [ofPairs, (adds_foldl (zero n) pairs).left]
  exact getD_mapIdx_zero hi fun i => leading (within start n pairs) (start + i)

lemma right_ofPairs : (ofPairs start n pairs).right.getD i 0 =
    trailing (within start n pairs) (start + i) := by
  rw [ofPairs, (adds_foldl (zero n) pairs).right]
  exact getD_mapIdx_zero hi fun i => trailing (within start n pairs) (start + i)

end Totals

lemma toList_mapIdx_zero (n : ℕ) (f : ℕ → ℕ) :
    ((Array.replicate n 0).mapIdx fun i k => k + f i).toList = (List.range n).map f := by
  apply List.ext_getElem?
  intro i
  by_cases hi : i < n <;> simp [hi]

lemma matrix_ofPairs (start n : ℕ) (pairs : List Pair) :
    (ofPairs start n pairs).matrix.toList.map Array.toList =
      (List.range n).map fun i => (List.range n).map fun j =>
        linking (within start n pairs) (start + i) (start + j) := by
  rw [ofPairs, (adds_foldl (zero n) pairs).matrix]
  apply List.ext_getElem?
  intro i
  by_cases hi : i < n
  · have hrow := toList_mapIdx_zero n fun j => linking (within start n pairs) (start + i) (start + j)
    simp [zero, hi, ← hrow]
  · simp [zero, hi]

lemma outside_ofPairs (start n : ℕ) (pairs : List Pair) :
    (ofPairs start n pairs).outside + (within start n pairs).length = pairs.length := by
  have hsplit := List.length_eq_countP_add_countP (l := pairs) (inside start n)
  have hout : (ofPairs start n pairs).outside = pairs.countP fun p => !inside start n p := by
    rw [ofPairs, (adds_foldl (zero n) pairs).outside]
    exact Nat.zero_add _
  rw [hsplit, hout, within, ← List.countP_eq_length_filter, Nat.add_comm]
  simp

/-- A problem was counted if and only if it appears in a pair within the range. -/
lemma occurs_ofPairs {start n i : ℕ} (pairs : List Pair) (hi : i < n) :
    (ofPairs start n pairs).occurs i = appears (within start n pairs) (start + i) := by
  rw [Bool.eq_iff_iff, occurs, decide_eq_true_iff, same_ofPairs start pairs hi,
    left_ofPairs start pairs hi, right_ofPairs start pairs hi, linking_add_leading_add_trailing,
    ← Nat.pos_iff_ne_zero, List.countP_pos_iff, appears, List.any_eq_true]

end Counters
end Distribution
end PairDatasets
