import Mathlib.Algebra.BigOperators.Group.List.Basic
import Mathlib.Algebra.Order.Ring.Nat
import Mathlib.Tactic.Common
import PairDatasets.Proofs.Order.Canonical
import PairDatasets.Statistics.Skew

/-! The skew of counts by problem. The counts come in some order, which does not show: the extremes, the sum
and the number of counts are the same in any order, and no two problems may stand either way round. -/
namespace PairDatasets
namespace Skew
variable {counts counts' : List (ℕ × ℕ)} {x : Skew}

lemma precedes_iff {a b : ℕ × ℕ} :
    precedes a b = true ↔ b.2 < a.2 ∨ a.2 = b.2 ∧ a.1 ≤ b.1 := by
  simp [precedes]

lemma precedes_trans (a b c : ℕ × ℕ) (hab : precedes a b = true) (hbc : precedes b c = true) :
    precedes a c = true := by
  rw [precedes_iff] at *
  omega

lemma precedes_total (a b : ℕ × ℕ) : (precedes a b || precedes b a) = true := by
  rw [Bool.or_eq_true, precedes_iff, precedes_iff]
  omega

/-- Of different problems one stands strictly before the other. -/
lemma eq_of_precedes {a b : ℕ × ℕ} (hab : precedes a b = true) (hba : precedes b a = true) : a = b := by
  rw [precedes_iff] at *
  exact Prod.ext (by omega) (by omega)

/-- The smallest value does not depend on the order. -/
lemma min?_perm {xs ys : List ℕ} (h : xs.Perm ys) : xs.min? = ys.min? := by
  refine Option.ext fun n => ?_
  simp only [List.min?_eq_some_iff, h.mem_iff]

lemma max?_perm {xs ys : List ℕ} (h : xs.Perm ys) : xs.max? = ys.max? := by
  refine Option.ext fun n => ?_
  simp only [List.max?_eq_some_iff, h.mem_iff]

/-- In any order the same counts have the same skew. -/
theorem ofCounts?_perm (h : counts.Perm counts') : ofCounts? counts = ofCounts? counts' := by
  have hvalues : (counts.map Prod.snd).Perm (counts'.map Prod.snd) := h.map Prod.snd
  have hsorted : counts.mergeSort precedes = counts'.mergeSort precedes :=
    mergeSort_eq_of_antisymm precedes_trans precedes_total h fun _ _ _ _ => eq_of_precedes
  simp only [ofCounts?, min?_perm hvalues, max?_perm hvalues, hvalues.sum_eq, h.length_eq, hsorted]

lemma measure_eq_ok {skew : Option Skew} : measure counts = .ok skew ↔
    (counts.map Prod.snd).sum < 2 ^ 64 ∧ ofCounts? counts = skew := by
  unfold measure
  rw [bind_eq_ok]
  constructor
  · rintro ⟨_, hword, hskew⟩
    exact ⟨Memory.requireWord_eq_ok.mp hword, Except.ok.inj hskew⟩
  · rintro ⟨hword, hskew⟩
    exact ⟨(), Memory.requireWord_eq_ok.mpr hword, congrArg Except.ok hskew⟩

lemma measure_of_le (h : 2 ^ 64 ≤ (counts.map Prod.snd).sum) :
    measure counts = .error (.breakdown .wordOverflow) := by
  unfold measure Memory.requireWord
  rw [if_neg h.not_gt]
  rfl

lemma ofCounts?_eq_none : ofCounts? counts = none ↔ counts = [] := by
  unfold ofCounts?
  cases counts with
  | nil => exact iff_of_true rfl rfl
  | cons x counts =>
    simp [List.min?_cons, List.max?_cons]

/-- What the skew of counts is read off. -/
lemma fields_of_ofCounts? (h : ofCounts? counts = some x) :
    x.total = (counts.map Prod.snd).sum ∧ x.problems = counts.length ∧
      (counts.map Prod.snd).min? = some x.least ∧ (counts.map Prod.snd).max? = some x.most ∧
      x.shares.map (fun s => (s.problem, s.count)) = counts.mergeSort precedes := by
  unfold ofCounts? at h
  obtain ⟨least, hleast, h⟩ := Option.bind_eq_some_iff.mp h
  obtain ⟨most, hmost, h⟩ := Option.bind_eq_some_iff.mp h
  cases h
  refine ⟨rfl, rfl, hleast, hmost, ?_⟩
  rw [List.map_map]
  exact List.map_id _

/-- The skew tells all counts, each with its problem and once, the larger before the smaller and of equal ones
the smaller label before the larger, and between which extremes they lie. -/
structure Describes (counts : List (ℕ × ℕ)) (x : Skew) : Prop where
  entries : (x.shares.map fun s => (s.problem, s.count)).Perm counts
  sorted : x.shares.Pairwise fun s t => t.count < s.count ∨ s.count = t.count ∧ s.problem < t.problem
  total : x.total = (counts.map Prod.snd).sum
  problems : x.problems = counts.length
  most : (x.shares.map ProblemShare.count).head? = some x.most
  least : (x.shares.map ProblemShare.count).getLast? = some x.least

/-- The front of a sorted list is its extreme. -/
lemma head?_eq_some {R : ℕ → ℕ → Prop} (hantisymm : ∀ a b, R a b → R b a → a = b) {values : List ℕ}
    {n : ℕ} (h : values.Pairwise R) (hn : n ∈ values) (hall : ∀ m ∈ values, R n m) :
    values.head? = some n := by
  cases values with
  | nil => cases hn
  | cons v values =>
    rcases List.mem_cons.mp hn with rfl | hn
    · rfl
    · have heq := hantisymm v n (List.rel_of_pairwise_cons h hn) (hall v (.head values))
      rw [heq, List.head?_cons]

theorem describes_of_ofCounts? (hproblems : (counts.map Prod.fst).Nodup)
    (h : ofCounts? counts = some x) : Describes counts x := by
  obtain ⟨htotal, hlength, hleast, hmost, hshares⟩ := fields_of_ofCounts? h
  have hperm : (x.shares.map fun s => (s.problem, s.count)).Perm counts :=
    hshares ▸ List.mergeSort_perm counts precedes
  have hsorted : x.shares.Pairwise fun s t => precedes (s.problem, s.count) (t.problem, t.count) = true := by
    have hpairwise := List.pairwise_mergeSort precedes_trans precedes_total counts
    rw [← hshares] at hpairwise
    exact List.pairwise_map.mp hpairwise
  have hdistinct : x.shares.Pairwise fun s t => s.problem ≠ t.problem := by
    have hnodup := (hperm.map Prod.fst).nodup_iff.mpr hproblems
    rw [List.map_map] at hnodup
    exact List.pairwise_map.mp hnodup
  have hvalues : (x.shares.map ProblemShare.count).Perm (counts.map Prod.snd) := by
    have hmap := hperm.map Prod.snd
    rwa [List.map_map] at hmap
  have hfalling : (x.shares.map ProblemShare.count).Pairwise (· ≥ ·) := by
    refine List.pairwise_map.mpr (hsorted.imp fun hst => ?_)
    rw [precedes_iff] at hst
    omega
  rw [← min?_perm hvalues, List.min?_eq_some_iff] at hleast
  rw [← max?_perm hvalues, List.max?_eq_some_iff] at hmost
  constructor
  · exact hperm
  · refine (hsorted.and hdistinct).imp fun hst => ?_
    rw [precedes_iff] at hst
    omega
  · exact htotal
  · exact hlength
  · exact head?_eq_some (fun a b hab hba => Nat.le_antisymm hba hab) hfalling hmost.1 hmost.2
  · rw [← List.head?_reverse]
    refine head?_eq_some (fun a b => Nat.le_antisymm) (List.pairwise_reverse.mpr hfalling) ?_ ?_
    · exact List.mem_reverse.mpr hleast.1
    · intro m hm
      exact hleast.2 m (List.mem_reverse.mp hm)

/-- Counts of different problems have the same skew in any order, and if their sum is a word it describes them:
nothing exactly without counts. A larger sum breaks off in any order. -/
theorem measure_describes (hproblems : (counts.map Prod.fst).Nodup) :
    (∀ counts', counts.Perm counts' → measure counts' = measure counts) ∧
      ((counts.map Prod.snd).sum < 2 ^ 64 → (measure counts = .ok none ↔ counts = []) ∧
        (counts ≠ [] → ∃ x, measure counts = .ok (some x) ∧ Describes counts x)) ∧
      (2 ^ 64 ≤ (counts.map Prod.snd).sum → measure counts = .error (.breakdown .wordOverflow)) := by
  refine ⟨fun counts' hperm => ?_, fun hword => ⟨?_, fun hne => ?_⟩, measure_of_le⟩
  · rw [measure, measure, ofCounts?_perm hperm, (hperm.map Prod.snd).sum_eq]
  · rw [measure_eq_ok, ofCounts?_eq_none]
    exact and_iff_right hword
  · obtain ⟨x, hx⟩ := Option.ne_none_iff_exists'.mp (mt ofCounts?_eq_none.mp hne)
    exact ⟨x, measure_eq_ok.mpr ⟨hword, hx⟩, describes_of_ofCounts? hproblems hx⟩

/-- Three problems have the same count, and one has more. -/
theorem measure_describes_equalCounts :
    let counts : List (ℕ × ℕ) := [(9, 2), (1, 7), (3, 2), (5, 2)]
    (counts.map Prod.fst).Nodup ∧ (counts.map Prod.snd).sum < 2 ^ 64 ∧ counts ≠ [] ∧
      (measure counts = .ok none ↔ counts = []) ∧ measure counts.reverse = measure counts ∧
      ∃ x, measure counts = .ok (some x) ∧ Describes counts x ∧
        x.shares.map (fun s => (s.problem, s.count)) = [(1, 7), (3, 2), (5, 2), (9, 2)] ∧
        x.total = 13 ∧ x.most = 7 ∧ x.least = 2 := by
  intro counts
  have hproblems : (counts.map Prod.fst).Nodup := by decide
  have hword : (counts.map Prod.snd).sum < 2 ^ 64 := by decide
  obtain ⟨horder, hdescribes, -⟩ := measure_describes hproblems
  obtain ⟨hnone, hsome⟩ := hdescribes hword
  obtain ⟨x, hx, hdescribed⟩ := hsome (by decide)
  have hordered : [(1, 7), (3, 2), (5, 2), (9, 2)].Pairwise
      fun a b : ℕ × ℕ => b.2 < a.2 ∨ a.2 = b.2 ∧ a.1 < b.1 := by decide
  have hshares : x.shares.map (fun s => (s.problem, s.count)) = [(1, 7), (3, 2), (5, 2), (9, 2)] :=
    (hdescribed.entries.trans (by decide)).eq_of_pairwise (fun a b _ _ hab hba => by omega)
      (List.pairwise_map.mpr hdescribed.sorted) hordered
  have hvalues : x.shares.map ProblemShare.count = [7, 2, 2, 2] := by
    have hmap := congrArg (List.map Prod.snd) hshares
    rwa [List.map_map] at hmap
  have hmost := hdescribed.most
  have hleast := hdescribed.least
  rw [hvalues] at hmost hleast
  exact ⟨hproblems, hword, by decide, hnone, horder _ counts.reverse_perm.symm, x, hx, hdescribed, hshares,
    hdescribed.total, (Option.some.inj hmost).symm, (Option.some.inj hleast).symm⟩

/-- A sum that is no word breaks off, though every count is one. -/
theorem measure_twoCounts_breaks_off :
    let counts : List (ℕ × ℕ) := [(0, 2 ^ 64 - 1), (1, 1)]
    (counts.map Prod.fst).Nodup ∧ counts ≠ [] ∧ (∀ e ∈ counts, e.1 < 2 ^ 64 ∧ e.2 < 2 ^ 64) ∧
      measure counts = .error (.breakdown .wordOverflow) := by
  intro counts
  exact ⟨by decide, by decide, by decide, measure_of_le (by decide)⟩

end Skew
end PairDatasets
