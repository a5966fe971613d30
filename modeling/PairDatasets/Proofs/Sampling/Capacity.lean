import Mathlib
import PairDatasets.Proofs.Order.Cardinality
import PairDatasets.Proofs.Sampling.Pairs
import PairDatasets.Sampling.Capacity

/-! The capacity of a group is the number of its pairs. Counted from the left: each solution of a problem
with `n` of all `N` solutions has `n - 1` partners in its problem and `N - n` in the others. What is drawn
from a group are such pairs, so no more of them are different than the capacity tells. -/
namespace PairDatasets

namespace Group
variable {g : Group}

/-! ### The pairs of a group -/

/-- Ordered pairs of different solutions of one problem. -/
def similarPairs (g : Group) : Set Pair :=
  {p | g.Offers p.problem1 p.solution1 ∧ g.Offers p.problem2 p.solution2 ∧
    p.problem1 = p.problem2 ∧ p.solution1 ≠ p.solution2}

/-- Ordered pairs of solutions of two problems. -/
def dissimilarPairs (g : Group) : Set Pair :=
  {p | g.Offers p.problem1 p.solution1 ∧ g.Offers p.problem2 p.solution2 ∧ p.problem1 ≠ p.problem2}

/-- All solutions of a group: problem and position. -/
def solutions (g : Group) : List (ℕ × ℕ) :=
  g.slices.flatMap fun s => s.solutions.map fun i => (s.problem, i)

lemma mem_solutions {x : ℕ × ℕ} : x ∈ g.solutions ↔ g.Offers x.1 x.2 := by
  unfold solutions Offers
  rw [List.mem_flatMap]
  refine exists_congr fun s => and_congr_right fun _ => ?_
  rw [List.mem_map]
  constructor
  · rintro ⟨i, hi, rfl⟩
    exact ⟨rfl, hi⟩
  · rintro ⟨hproblem, hi⟩
    exact ⟨x.2, hi, Prod.ext hproblem rfl⟩

lemma length_solutions (g : Group) : g.solutions.length = g.solutionCount := by
  unfold solutions solutionCount sizes
  rw [List.length_flatMap]
  simp only [List.length_map]
  rfl

/-- Of a problem there are the solutions of its one slice. -/
lemma countP_solutions (hlabels : g.labels.Nodup) {s : Slice} (hs : s ∈ g.slices) (P : ℕ → Bool) :
    (g.solutions.countP fun y => s.problem = y.1 && P y.2) = s.solutions.countP P := by
  obtain ⟨front, back, hslices⟩ := List.append_of_mem hs
  have hothers (others : List Slice) (hne : ∀ r ∈ others, s.problem ≠ r.problem) :
      (others.flatMap fun r => r.solutions.map fun i => (r.problem, i)).countP
        (fun y => s.problem = y.1 && P y.2) = 0 := by
    rw [List.countP_eq_zero]
    intro y hy
    obtain ⟨r, hr, hy⟩ := List.mem_flatMap.mp hy
    obtain ⟨i, -, rfl⟩ := List.mem_map.mp hy
    simp [hne r hr]
  rw [labels, hslices, List.map_append, List.map_cons, List.nodup_middle, List.nodup_cons,
    List.mem_append] at hlabels
  have hfront : ∀ r ∈ front, s.problem ≠ r.problem := by
    intro r hr heq
    exact hlabels.1 (.inl (heq ▸ List.mem_map_of_mem hr))
  have hback : ∀ r ∈ back, s.problem ≠ r.problem := by
    intro r hr heq
    exact hlabels.1 (.inr (heq ▸ List.mem_map_of_mem hr))
  rw [solutions, hslices, List.flatMap_append, List.flatMap_cons, List.countP_append,
    List.countP_append, hothers front hfront, hothers back hback, List.countP_map]
  simp [Function.comp_def]

/-- The pairs of all solutions with their partners. -/
def pairings (g : Group) (partners : ℕ × ℕ → ℕ × ℕ → Bool) : List Pair :=
  (g.solutions.flatMap fun x => (g.solutions.filter (partners x)).map fun y => (x, y)).map
    fun (x, y) => ⟨x.1, x.2, y.1, y.2⟩

lemma mem_pairings {partners : ℕ × ℕ → ℕ × ℕ → Bool} {p : Pair} :
    p ∈ g.pairings partners ↔ g.Offers p.problem1 p.solution1 ∧ g.Offers p.problem2 p.solution2 ∧
      partners (p.problem1, p.solution1) (p.problem2, p.solution2) = true := by
  simp only [pairings, List.mem_map, List.mem_flatMap, List.mem_filter, mem_solutions]
  constructor
  · rintro ⟨-, ⟨x, hx, y, ⟨hy, hpartners⟩, rfl⟩, rfl⟩
    exact ⟨hx, hy, hpartners⟩
  · rintro ⟨hx, hy, hpartners⟩
    exact ⟨_, ⟨_, hx, _, ⟨hy, hpartners⟩, rfl⟩, rfl⟩

lemma nodup_pairings (hlabels : g.labels.Nodup) (hsolutions : ∀ s ∈ g.slices, s.solutions.Nodup)
    (partners : ℕ × ℕ → ℕ × ℕ → Bool) : (g.pairings partners).Nodup := by
  have hnodup : g.solutions.Nodup := nodup_tagged hlabels hsolutions
  have hkeys : (g.solutions.map id).Nodup := by rwa [List.map_id]
  refine (nodup_tagged hkeys fun x _ => hnodup.filter (partners x)).map ?_
  rintro ⟨⟨q, i⟩, ⟨r, j⟩⟩ ⟨⟨q', i'⟩, ⟨r', j'⟩⟩ heq
  cases heq
  rfl

lemma length_flatMap_solutions {α : Type} (g : Group) (block : ℕ × ℕ → List α) :
    (g.solutions.flatMap block).length =
      (g.slices.map fun s => (s.solutions.map fun i => (block (s.problem, i)).length).sum).sum := by
  rw [solutions, List.flatMap_assoc, List.length_flatMap]
  simp only [List.flatMap_map, List.length_flatMap]

/-- Where all solutions of a slice have as many partners, the pairs are counted slice by slice. -/
lemma length_pairings {partners : ℕ × ℕ → ℕ × ℕ → Bool} {share : ℕ → ℕ}
    (hshare : ∀ s ∈ g.slices, ∀ i ∈ s.solutions,
      g.solutions.countP (partners (s.problem, i)) = share s.size) :
    (g.pairings partners).length = (g.sizes.map fun n => n * share n).sum := by
  rw [pairings, List.length_map, length_flatMap_solutions, sizes, List.map_map]
  refine congrArg List.sum (List.map_congr_left fun s hs => ?_)
  have hconst : (s.solutions.map fun i =>
      ((g.solutions.filter (partners (s.problem, i))).map fun y => ((s.problem, i), y)).length) =
        s.solutions.map fun _ => share s.size := by
    refine List.map_congr_left fun i hi => ?_
    rw [List.length_map, ← List.countP_eq_length_filter, hshare s hs i hi]
  rw [hconst, List.map_const', List.sum_replicate, smul_eq_mul]
  rfl

/-- The other solutions of the same problem. -/
def partners (x y : ℕ × ℕ) : Bool := x.1 = y.1 && decide ¬x.2 = y.2

/-- The solutions of other problems. -/
def opponents (x y : ℕ × ℕ) : Bool := decide ¬x.1 = y.1

lemma countP_partners (hlabels : g.labels.Nodup) {s : Slice} (hs : s ∈ g.slices)
    (hsolutions : s.solutions.Nodup) {i : ℕ} (hi : i ∈ s.solutions) :
    g.solutions.countP (partners (s.problem, i)) = s.size - 1 := by
  have hself : (s.solutions.countP fun j => decide (i = j)) = 1 := by
    rw [← List.count_eq_one_of_mem hsolutions hi]
    exact List.countP_congr fun j _ => by rw [decide_eq_true_iff, beq_iff_eq, eq_comm]
  have hall := List.length_eq_countP_add_countP (fun j => decide (i = j)) (l := s.solutions)
  simp only [decide_eq_true_iff] at hall
  have hpartners : g.solutions.countP (partners (s.problem, i)) =
      s.solutions.countP fun j => decide ¬i = j := countP_solutions hlabels hs fun j => decide ¬i = j
  unfold Slice.size
  omega

lemma countP_opponents (hlabels : g.labels.Nodup) {s : Slice} (hs : s ∈ g.slices) (i : ℕ) :
    g.solutions.countP (opponents (s.problem, i)) = g.solutionCount - s.size := by
  have hown := countP_solutions hlabels hs fun _ => true
  simp only [Bool.and_true, List.countP_true] at hown
  have hall := List.length_eq_countP_add_countP (fun y => decide (s.problem = y.1)) (l := g.solutions)
  simp only [decide_eq_true_iff, length_solutions] at hall
  change (g.solutions.countP fun y => decide ¬s.problem = y.1) = _
  unfold Slice.size
  omega

/-- The similar pairs of a group are counted problem by problem. -/
lemma encard_similarPairs (hlabels : g.labels.Nodup) (hsolutions : ∀ s ∈ g.slices, s.solutions.Nodup) :
    g.similarPairs.encard = ((g.sizes.map fun n => n * (n - 1)).sum : ℕ) := by
  rw [encard_eq_length (nodup_pairings hlabels hsolutions partners)]
  · rw [@length_pairings g partners (fun n => n - 1) fun s hs i hi =>
      countP_partners hlabels hs (hsolutions s hs) hi]
  · intro p
    simp only [similarPairs, mem_pairings, partners, Set.mem_ofPred_eq, Bool.and_eq_true,
      decide_eq_true_iff, ne_eq]

/-- The dissimilar pairs of a group are counted by the problems on the left. -/
lemma encard_dissimilarPairs (hlabels : g.labels.Nodup)
    (hsolutions : ∀ s ∈ g.slices, s.solutions.Nodup) :
    g.dissimilarPairs.encard = ((g.sizes.map fun n => n * (g.solutionCount - n)).sum : ℕ) := by
  rw [encard_eq_length (nodup_pairings hlabels hsolutions opponents)]
  · rw [@length_pairings g opponents (fun n => g.solutionCount - n) fun s hs i _ =>
      countP_opponents hlabels hs i]
  · intro p
    simp only [dissimilarPairs, mem_pairings, opponents, Set.mem_ofPred_eq, decide_eq_true_iff, ne_eq]

end Group

namespace Capacity

/-! ### Sums over the problems -/

/-- Both numbers are sums over the problems. -/
lemma foldl_observe (solutions : ℕ) (counts : List ℕ) (c : Capacity) :
    counts.foldl (observe solutions) c =
      ⟨c.similar + (counts.map fun n => min (n * (n - 1)) limit).sum,
        c.dissimilar + (counts.map fun n => min (n * (solutions - n)) limit).sum⟩ := by
  induction counts generalizing c with
  | nil => rfl
  | cons n counts ih =>
    rw [List.foldl_cons, ih]
    simp only [observe, List.map_cons, List.sum_cons, Nat.add_assoc]

lemma foldl_observe_nothing (solutions : ℕ) (counts : List ℕ) :
    counts.foldl (observe solutions) {} =
      ⟨(counts.map fun n => min (n * (n - 1)) limit).sum,
        (counts.map fun n => min (n * (solutions - n)) limit).sum⟩ := by
  rw [foldl_observe, Nat.zero_add, Nat.zero_add]

/-- Products below the square of a 63-bit number have less than 128 bits. -/
lemma mul_le_limit {a b solutions : ℕ} (hsolutions : solutions < 2 ^ 63) (ha : a ≤ solutions)
    (hb : b ≤ solutions) : a * b ≤ limit := by
  calc a * b ≤ 2 ^ 63 * 2 ^ 63 := Nat.mul_le_mul (ha.trans hsolutions.le) (hb.trans hsolutions.le)
    _ ≤ limit := by decide

/-- What sums up factors below a bound is below the product with the bound. -/
lemma sum_mul_le (counts : List ℕ) {share : ℕ → ℕ} {bound : ℕ} (h : ∀ n ∈ counts, share n ≤ bound) :
    (counts.map fun n => n * share n).sum ≤ counts.sum * bound := by
  rw [← List.map_id counts, List.map_map, ← List.sum_map_mul_right]
  exact List.sum_le_sum fun n hn => Nat.mul_le_mul_left n (h n (by simpa using hn))

/-- The capacity of so many solutions that no product exceeds its limit. -/
lemma ofCounts_eq {counts : List ℕ} (h : counts.sum < 2 ^ 63) : ofCounts counts =
    ⟨(counts.map fun n => n * (n - 1)).sum, (counts.map fun n => n * (counts.sum - n)).sum⟩ := by
  have hle {n : ℕ} (hn : n ∈ counts) : n ≤ counts.sum := List.le_sum_of_mem hn
  have hwithin : counts.map (fun n => min (n * (n - 1)) limit) = counts.map fun n => n * (n - 1) :=
    List.map_congr_left fun n hn =>
      Nat.min_eq_left (mul_le_limit h (hle hn) ((Nat.sub_le n 1).trans (hle hn)))
  have hacross : counts.map (fun n => min (n * (counts.sum - n)) limit) =
      counts.map fun n => n * (counts.sum - n) :=
    List.map_congr_left fun n hn => Nat.min_eq_left (mul_le_limit h (hle hn) (Nat.sub_le ..))
  rw [ofCounts, foldl_observe_nothing, hwithin, hacross]

/-- Each solution has all others as partners, of its own problem or of another one. -/
lemma sum_add_sum (counts : List ℕ) :
    (counts.map fun n => n * (n - 1)).sum + (counts.map fun n => n * (counts.sum - n)).sum =
      counts.sum * (counts.sum - 1) := by
  have hpartners : ∀ n ∈ counts, n * (n - 1) + n * (counts.sum - n) = n * (counts.sum - 1) := by
    intro n hn
    have hle : n ≤ counts.sum := List.le_sum_of_mem hn
    rw [← Nat.mul_add]
    rcases Nat.eq_zero_or_pos n with rfl | hpos
    · rw [Nat.zero_mul, Nat.zero_mul]
    · congr 1
      omega
  rw [← List.sum_map_add, List.map_congr_left hpartners, List.sum_map_mul_right, List.map_id']

/-- No step in counting the pairs of problems exceeds 128 bits, and none subtracts too much. -/
structure Exact (counts : List ℕ) : Prop where
  sum : counts.sum ≤ limit
  le : ∀ n ∈ counts, n ≤ counts.sum
  within : ∀ n ∈ counts, n * (n - 1) ≤ limit
  across : ∀ n ∈ counts, n * (counts.sum - n) ≤ limit
  similar : ∀ front, front <+: counts → (front.foldl (observe counts.sum) {}).similar ≤ limit
  dissimilar : ∀ front, front <+: counts → (front.foldl (observe counts.sum) {}).dissimilar ≤ limit
  total : (ofCounts counts).similar + (ofCounts counts).dissimilar ≤ limit

theorem exact_of_lt {counts : List ℕ} (h : counts.sum < 2 ^ 63) : Exact counts := by
  have hle {n : ℕ} (hn : n ∈ counts) : n ≤ counts.sum := List.le_sum_of_mem hn
  -- a front of the problems has no more solutions than all of them
  have hfront {front : List ℕ} (hwithin : front <+: counts) {share : ℕ → ℕ}
      (hshare : ∀ n ∈ counts, share n ≤ counts.sum) :
      (front.map fun n => min (n * share n) limit).sum ≤ limit := by
    obtain ⟨back, rfl⟩ := hwithin
    have hsum : front.sum ≤ (front ++ back).sum := by
      rw [List.sum_append]
      exact Nat.le_add_right ..
    calc (front.map fun n => min (n * share n) limit).sum
        ≤ (front.map fun n => n * share n).sum := List.sum_le_sum fun n _ => Nat.min_le_left ..
      _ ≤ front.sum * (front ++ back).sum :=
          sum_mul_le front fun n hn => hshare n (List.mem_append_left back hn)
      _ ≤ limit := mul_le_limit h hsum le_rfl
  constructor
  · exact h.le.trans (by decide)
  · intro n hn
    exact hle hn
  · intro n hn
    exact mul_le_limit h (hle hn) ((Nat.sub_le n 1).trans (hle hn))
  · intro n hn
    exact mul_le_limit h (hle hn) (Nat.sub_le ..)
  · intro front hwithin
    rw [foldl_observe_nothing]
    exact hfront hwithin fun n hn => (Nat.sub_le n 1).trans (hle hn)
  · intro front hwithin
    rw [foldl_observe_nothing]
    exact hfront hwithin fun n _ => Nat.sub_le counts.sum n
  · rw [ofCounts_eq h, sum_add_sum]
    exact mul_le_limit h le_rfl (Nat.sub_le ..)

/-! ### The capacity of a group -/

/-- A capacity counts exactly the pairs of a group, of each kind and together. -/
structure Measures (g : Group) (c : Capacity) : Prop where
  similar : (c.similar : ℕ∞) = g.similarPairs.encard
  dissimilar : (c.dissimilar : ℕ∞) = g.dissimilarPairs.encard
  total : c.total = g.solutionCount * (g.solutionCount - 1)

section Groups
variable {g : Group}

lemma ofCorpus_eq (c : Corpus) : ofCorpus c = ofGroup (.whole c 0 c.problemCount) := by
  unfold ofCorpus ofGroup Group.sizes Group.whole Corpus.counts Corpus.problemCount
  rw [List.drop_zero, Nat.sub_zero, List.take_length, List.map_map]
  congr 1
  exact List.map_congr_left fun p _ => (List.length_range (n := p.size)).symm

/-- The capacity of a group of less than 2 ^ 63 solutions is the number of its pairs, reached without
meeting the limit, and that of a corpus is the capacity of the group of all its problems. Of the pairs that
are drawn from the group, no more are different. -/
theorem ofGroup_measures (hlabels : g.labels.Nodup) (hsolutions : ∀ s ∈ g.slices, s.solutions.Nodup)
    (hcount : g.solutionCount < 2 ^ 63) :
    (ofGroup g).Measures g ∧ Exact g.sizes ∧
      (∀ c : Corpus, ofCorpus c = ofGroup (.whole c 0 c.problemCount)) ∧
      ∀ slots target fraction gen r, (g.drawPairs slots target fraction gen).1 = .ok r →
        {p | p ∈ r.pairs ∧ p.similar = true}.encard ≤ (ofGroup g).similar ∧
        {p | p ∈ r.pairs ∧ p.similar = false}.encard ≤ (ofGroup g).dissimilar := by
  have hexact := exact_of_lt hcount
  have hmeasures : (ofGroup g).Measures g := by
    constructor
    · rw [ofGroup, ofCounts_eq hcount, Group.encard_similarPairs hlabels hsolutions]
    · rw [ofGroup, ofCounts_eq hcount, Group.encard_dissimilarPairs hlabels hsolutions]
      rfl
    · rw [ofGroup, total, Nat.min_eq_left hexact.total, ofCounts_eq hcount, sum_add_sum]
      rfl
  refine ⟨hmeasures, hexact, ofCorpus_eq, ?_⟩
  intro slots target fraction gen r hr
  have hsound := PairSet.sound_of_drawPairs hlabels hsolutions hr
  rw [hmeasures.similar, hmeasures.dissimilar]
  constructor
  · refine Set.encard_le_encard ?_
    rintro p ⟨hp, hsimilar⟩
    obtain ⟨hleft, hright⟩ := hsound.offers p hp
    exact ⟨hleft, hright, of_decide_eq_true hsimilar, hsound.ne p hp hsimilar⟩
  · refine Set.encard_le_encard ?_
    rintro p ⟨hp, hdissimilar⟩
    obtain ⟨hleft, hright⟩ := hsound.offers p hp
    exact ⟨hleft, hright, of_decide_eq_false hdissimilar⟩

/-- Of 6 solutions there are 30 pairs, 8 of them within a problem. -/
theorem ofGroup_measures_unevenGroup :
    unevenGroup.labels.Nodup ∧ (∀ s ∈ unevenGroup.slices, s.solutions.Nodup) ∧
      unevenGroup.solutionCount < 2 ^ 63 ∧ (ofGroup unevenGroup).Measures unevenGroup ∧
      Exact unevenGroup.sizes ∧ ofGroup unevenGroup = ⟨8, 22⟩ ∧ (ofGroup unevenGroup).total = 30 ∧
      ∃ r, (unevenGroup.drawPairs 16 10 0.5 ⟨1917⟩).1 = .ok r ∧
        {p | p ∈ r.pairs ∧ p.similar = true}.encard ≤ (8 : ℕ) ∧
        {p | p ∈ r.pairs ∧ p.similar = false}.encard ≤ (22 : ℕ) := by
  have hlabels : unevenGroup.labels.Nodup := by decide
  have hsolutions : ∀ s ∈ unevenGroup.slices, s.solutions.Nodup := by decide
  have hcount : unevenGroup.solutionCount < 2 ^ 63 := by decide
  obtain ⟨hmeasures, hexact, -, hdrawn⟩ := ofGroup_measures hlabels hsolutions hcount
  obtain ⟨r, hr⟩ := exists_of_isOk (x := (unevenGroup.drawPairs 16 10 0.5 ⟨1917⟩).1)
    (by decide +kernel)
  have hcapacity : ofGroup unevenGroup = ⟨8, 22⟩ := by decide
  have hbounds := hdrawn _ _ _ _ r hr
  rw [hcapacity] at hbounds
  exact ⟨hlabels, hsolutions, hcount, hmeasures, hexact, hcapacity, hmeasures.total, r, hr, hbounds⟩

end Groups
end Capacity
end PairDatasets
