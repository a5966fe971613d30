import Mathlib.Algebra.BigOperators.Group.List.Basic
import Mathlib.Algebra.Order.Ring.Nat
import Mathlib.Data.List.Nodup
import Mathlib.Tactic.Common
import PairDatasets.Proofs.Statistics.Counters
import PairDatasets.Statistics.Skew

/-! What the rows of a distribution add up to. A pair within the range is counted in the row of its
problem if it is similar, else once in the row on its left and once in the row on its right. -/
namespace PairDatasets

section Labels
variable {α : Type} (label : α → ℕ) (P : α → Bool) (xs : List α)

/-- Nothing has both a label and one of the others. -/
lemma countP_label_cons {l : ℕ} {labels : List ℕ} (hl : l ∉ labels) :
    xs.countP (fun x => label x = l && P x) + xs.countP (fun x => label x ∈ labels && P x) =
      xs.countP fun x => label x ∈ l :: labels && P x := by
  induction xs with
  | nil => rfl
  | cons x xs ih =>
    rw [List.countP_cons, List.countP_cons, List.countP_cons, ← ih]
    by_cases heq : label x = l
    · simp only [heq, hl, List.mem_cons, true_or, decide_true, decide_false, Bool.true_and,
        Bool.false_and, Bool.false_eq_true, if_false]
      omega
    · simp only [heq, List.mem_cons, false_or, decide_false, Bool.false_and, Bool.false_eq_true,
        if_false]
      omega

/-- Counting by distinct labels counts everything that has one of them. -/
lemma sum_countP_label {labels : List ℕ} (h : labels.Nodup) :
    (labels.map fun l => xs.countP fun x => label x = l && P x).sum =
      xs.countP fun x => label x ∈ labels && P x := by
  induction labels with
  | nil => simp
  | cons l labels ih =>
    rw [List.nodup_cons] at h
    rw [List.map_cons, List.sum_cons, ih h.2, countP_label_cons label P xs h.1]

end Labels

namespace Distribution
variable {start n : ℕ} {pairs : List Pair}

lemma checkRange_eq_ok :
    checkRange start n = .ok () ↔ Memory.holds 8 n = true ∧ start + n - 1 < 2 ^ 64 := by
  unfold checkRange
  rw [bind_eq_ok, Memory.requireWord_eq_ok]
  constructor
  · rintro ⟨_, hfits, hword⟩
    exact ⟨Memory.require_eq_ok.mp hfits, hword⟩
  · rintro ⟨hfits, hword⟩
    exact ⟨(), Memory.require_eq_ok.mpr hfits, hword⟩

lemma appears_of_mem {p : Pair} (hp : p ∈ pairs) :
    appears pairs p.problem1 = true ∧ appears pairs p.problem2 = true := by
  unfold appears
  rw [List.any_eq_true, List.any_eq_true]
  exact ⟨⟨p, hp, by simp⟩, ⟨p, hp, by simp⟩⟩

/-- What is read off the rows is read off the labels that appear. -/
lemma map_rows {α : Type} {pick : ProblemRow → α} {f : ℕ → α}
    (hpick : ∀ i < n, pick ((Counters.ofPairs start n pairs).row start i) = f (start + i)) :
    (ofPairs start n pairs).rows.map pick =
      ((List.range' start n).filter (appears (within start n pairs))).map f := by
  have hplaces : (List.range n).filter (Counters.ofPairs start n pairs).occurs =
      (List.range n).filter (appears (within start n pairs) ∘ (start + ·)) := by
    refine List.filter_congr fun i hi => ?_
    exact Counters.occurs_ofPairs pairs (List.mem_range.mp hi)
  change List.map pick (List.map _ _) = _
  rw [hplaces, List.map_map, List.range'_eq_map_range, List.filter_map, List.map_map]
  refine List.map_congr_left fun i hi => ?_
  exact hpick i (List.mem_range.mp (List.mem_of_mem_filter hi))

/-- The labels with a row are those that appear. -/
lemma problems_rows : (ofPairs start n pairs).rows.map ProblemRow.problem =
    (List.range' start n).filter (appears (within start n pairs)) := by
  rw [map_rows (f := id) fun i _ => rfl, List.map_id]

/-- What the rows count of the pairs with their label on one side is counted of all pairs. -/
lemma sum_rows (label : Pair → ℕ) {pick : ProblemRow → ℕ} {P : Pair → Bool}
    (hlabel : ∀ p, label p = p.problem1 ∨ label p = p.problem2)
    (hpick : ∀ i < n, pick ((Counters.ofPairs start n pairs).row start i) =
      (within start n pairs).countP fun p => label p = start + i && P p) :
    ((ofPairs start n pairs).rows.map pick).sum = (within start n pairs).countP P := by
  rw [map_rows (f := fun l => (within start n pairs).countP fun p => label p = l && P p) hpick,
    sum_countP_label label P _ (List.Nodup.filter _ List.nodup_range')]
  refine List.countP_congr fun p hp => ?_
  obtain ⟨-, h1, h2⟩ := mem_within.mp hp
  obtain ⟨happ1, happ2⟩ := appears_of_mem hp
  have hmem : label p ∈ (List.range' start n).filter (appears (within start n pairs)) := by
    rw [List.mem_filter]
    rcases hlabel p with heq | heq <;> rw [heq]
    · exact ⟨h1, happ1⟩
    · exact ⟨h2, happ2⟩
  simp only [hmem, decide_true, Bool.true_and]

/-- Every similar pair within the range is counted in one row. -/
theorem sum_same : ((ofPairs start n pairs).rows.map ProblemRow.same).sum =
    (within start n pairs).countP Pair.similar := by
  refine sum_rows Pair.problem1 (fun p => .inl rfl) fun i hi => ?_
  refine (Counters.same_ofPairs start pairs hi).trans (List.countP_congr fun p _ => ?_)
  simp only [Pair.similar, Bool.and_eq_true, decide_eq_true_eq]
  omega

/-- Every dissimilar pair within the range is counted in one row as a left one. -/
theorem sum_left : ((ofPairs start n pairs).rows.map ProblemRow.left).sum =
    (within start n pairs).countP fun p => !p.similar := by
  refine sum_rows Pair.problem1 (fun p => .inl rfl) fun i hi => ?_
  refine (Counters.left_ofPairs start pairs hi).trans (List.countP_congr fun p _ => ?_)
  simp only [Pair.similar, Bool.and_eq_true, decide_eq_true_eq, Bool.not_eq_true',
    decide_eq_false_iff_not]
  omega

/-- Every dissimilar pair within the range is counted in one row as a right one. -/
theorem sum_right : ((ofPairs start n pairs).rows.map ProblemRow.right).sum =
    (within start n pairs).countP fun p => !p.similar := by
  refine sum_rows Pair.problem2 (fun p => .inr rfl) fun i hi => ?_
  refine (Counters.right_ofPairs start pairs hi).trans (List.countP_congr fun p _ => ?_)
  simp only [Pair.similar, Bool.and_eq_true, decide_eq_true_eq, Bool.not_eq_true',
    decide_eq_false_iff_not]
  omega

lemma rows_eq_nil : (ofPairs start n pairs).rows = [] ↔ within start n pairs = [] := by
  rw [← List.map_eq_nil_iff (f := ProblemRow.problem), problems_rows, List.filter_eq_nil_iff]
  constructor
  · intro h
    rw [List.eq_nil_iff_forall_not_mem]
    intro p hp
    exact h p.problem1 (mem_within.mp hp).2.1 (appears_of_mem hp).1
  · intro h
    simp [h, appears]

end Distribution
end PairDatasets
