import Mathlib.Order.Basic
import PairDatasets.Proofs.Double.Half
import PairDatasets.Proofs.Order.Canonical
import PairDatasets.Proofs.Statistics.Marginals

/-! The statistics of a row of counts are order statistics. A scan finds the first of the extreme values, and
the median stands in the middle of the row in ascending order, so only the places of the extremes depend on the
order of the row. -/
namespace PairDatasets
namespace Row
open Double
variable {R : ℕ → ℕ → Prop} {row row' seen : List ℕ} {i j v w : ℕ}

/-! ### Extremes -/

/-- The first place of a row whose value is related to all values of the row. -/
structure First (R : ℕ → ℕ → Prop) (row : List ℕ) (i v : ℕ) : Prop where
  stands : row[i]? = some v
  best : ∀ w ∈ row, R v w
  first : ∀ j < i, row[j]? ≠ some v

/-- An extreme that a new value does not beat is kept. -/
lemma First.kept (h : First R seen i v) (hw : R v w) : First R (seen ++ [w]) i v := by
  have hi : i < seen.length := (List.getElem?_eq_some_iff.mp h.stands).1
  constructor
  · rw [List.getElem?_append_left hi]
    exact h.stands
  · exact List.forall_mem_append.mpr ⟨h.best, List.forall_mem_singleton.mpr hw⟩
  · intro j hj
    rw [List.getElem?_append_left (hj.trans hi)]
    exact h.first j hj

/-- A value that beats the extreme so far was not seen before. -/
lemma First.beaten [Std.Total R] [IsTrans ℕ R] (h : First R seen i v) (hw : ¬R v w) :
    First R (seen ++ [w]) seen.length w := by
  have hwv : R w v := (Std.Total.total w v).resolve_right hw
  constructor
  · simp
  · rw [List.forall_mem_append, List.forall_mem_singleton]
    exact ⟨fun u hu => IsTrans.trans w v u hwv (h.best u hu), Std.Refl.refl w⟩
  · intro j hj heq
    rw [List.getElem?_append_left hj] at heq
    exact hw (h.best w (List.mem_of_getElem? heq))

/-- The extremes of a row in two orders have the same value. -/
lemma First.value_eq [Std.Antisymm R] (h : First R row i v) (h' : First R row' j w)
    (hperm : row.Perm row') : v = w :=
  Std.Antisymm.antisymm v w (h.best w (hperm.mem_iff.mpr (List.mem_of_getElem? h'.stands)))
    (h'.best v (hperm.mem_iff.mp (List.mem_of_getElem? h.stands)))

section Scan
variable {beats : ℕ → ℕ → Bool} [Std.Total R] [IsTrans ℕ R]

/-- The scan keeps the first extreme of what it has seen. -/
theorem First.bestFrom (hbeats : ∀ w v, beats w v = true ↔ ¬R v w) (h : First R seen i v) (vs : List ℕ) :
    First R (seen ++ vs) (bestFrom beats vs seen.length (i, v)).1 (bestFrom beats vs seen.length (i, v)).2 := by
  induction vs generalizing seen i v with
  | nil => rwa [List.append_nil]
  | cons w vs ih =>
    have hlength : seen.length + 1 = (seen ++ [w]).length := by rw [List.length_append, List.length_singleton]
    rw [Row.bestFrom, List.append_cons, hlength]
    split_ifs with hw
    · exact ih (h.beaten ((hbeats w v).mp hw))
    · exact ih (h.kept (of_not_not (mt (hbeats w v).mpr hw)))

theorem first_best (hbeats : ∀ w v, beats w v = true ↔ ¬R v w) (h : row ≠ []) :
    First R row (best beats row).1 (best beats row).2 := by
  cases row with
  | nil => exact absurd rfl h
  | cons v vs =>
    have hone : First R [v] 0 v := by
      refine ⟨rfl, fun w hw => ?_, fun j hj => absurd hj (Nat.not_lt_zero j)⟩
      rw [List.mem_singleton.mp hw]
      exact Std.Refl.refl v
    exact hone.bestFrom hbeats vs

end Scan

lemma first_least (h : row ≠ []) : First (· ≤ ·) row (least row).1 (least row).2 :=
  first_best (by simp) h

lemma first_most (h : row ≠ []) : First (· ≥ ·) row (most row).1 (most row).2 :=
  first_best (by simp) h

/-! ### The middle -/

/-- The middle of a row in ascending order: twice its value and the double it is given as. -/
inductive Middle (row : List ℕ) : ℕ → Float → Prop
  | odd {a : ℕ} (front back : List ℕ) (perm : row.Perm (front ++ a :: back))
      (sorted : (front ++ a :: back).Pairwise (· ≤ ·)) (balanced : front.length = back.length) :
      Middle row (2 * a) (Float.ofNat a)
  | even {a b : ℕ} (front back : List ℕ) (perm : row.Perm (front ++ a :: b :: back))
      (sorted : (front ++ a :: b :: back).Pairwise (· ≤ ·)) (balanced : front.length = back.length) :
      Middle row (a + b) (Float.ofNat (a + b) / 2.0)

lemma drop_eq_getD_cons {xs : List ℕ} (h : i < xs.length) : xs.drop i = xs.getD i 0 :: xs.drop (i + 1) := by
  rw [List.getD_eq_getElem xs 0 h, List.cons_getElem_drop_succ]

theorem middle_median (h : row ≠ []) : ∃ m, Middle row m (median row) := by
  have hperm : row.Perm (row.mergeSort fun a b => a ≤ b) := (List.mergeSort_perm ..).symm
  have hsorted := pairwise_mergeSort_rank (fun a : ℕ => a) row
  have hpos : 0 < (row.mergeSort fun a b => a ≤ b).length :=
    hperm.length_eq ▸ List.length_pos_iff.mpr h
  unfold median
  rw [if_neg (by simpa using h)]
  generalize (row.mergeSort fun a b => a ≤ b) = xs at hperm hsorted hpos ⊢
  obtain ⟨k, hk⟩ : ∃ k, k = xs.length / 2 := ⟨_, rfl⟩
  rw [← hk]
  split_ifs with heven
  · have hparts : xs.take (k - 1) ++ xs.getD (k - 1) 0 :: xs.getD k 0 :: xs.drop (k + 1) = xs := by
      have hnext : k - 1 + 1 = k := by omega
      rw [← drop_eq_getD_cons (by omega), ← hnext, Nat.add_sub_cancel, ← drop_eq_getD_cons (by omega),
        List.take_append_drop]
    rw [← hparts] at hperm hsorted
    exact ⟨_, .even _ _ hperm hsorted (by rw [List.length_take, List.length_drop]; omega)⟩
  · have hparts : xs.take k ++ xs.getD k 0 :: xs.drop (k + 1) = xs := by
      rw [← drop_eq_getD_cons (by omega), List.take_append_drop]
    rw [← hparts] at hperm hsorted
    exact ⟨_, .odd _ _ hperm hsorted (by rw [List.length_take, List.length_drop]; omega)⟩

/-- The middle of counts whose sum is a word is given by the double nearest to it. -/
lemma Middle.hasUnits {m : ℕ} {x : Float} (h : Middle row m x) (hword : row.sum < 2 ^ 64) :
    HasUnits x (nearest (m * unity) 2) := by
  cases h with
  | @odd a front back perm =>
    have hscale : nearest (2 * a * unity) 2 = nearest (a * unity) 1 := by
      rw [Nat.mul_assoc, Nat.mul_comm 2, ← nearest_mul_right (a * unity) 1 Nat.two_pos, Nat.one_mul]
    rw [perm.sum_eq, List.sum_append, List.sum_cons] at hword
    rw [hscale]
    exact hasUnits_ofNat (by omega)
  | even front back perm =>
    rw [perm.sum_eq, List.sum_append, List.sum_cons, List.sum_cons] at hword
    exact hasUnits_half (by omega)

/-- In any order a row has the same median. -/
theorem median_perm (h : row.Perm row') : median row = median row' := by
  have hsorted : (row.mergeSort fun a b => a ≤ b) = row'.mergeSort fun a b => a ≤ b :=
    mergeSort_eq_of_antisymm (rank_le_trans id) (rank_le_total id) h fun a _ b _ hab hba =>
      Nat.le_antisymm (of_decide_eq_true hab) (of_decide_eq_true hba)
  have hempty : row.isEmpty = row'.isEmpty := by
    rw [Bool.eq_iff_iff, List.isEmpty_iff, List.isEmpty_iff, ← List.length_eq_zero_iff, h.length_eq,
      List.length_eq_zero_iff]
  unfold median
  rw [hsorted, hempty]

/-- The statistics of a row: its first extremes and its middle, of which the values do not depend on the order
of the row. -/
structure OrderStatistics (row : List ℕ) : Prop where
  least : First (· ≤ ·) row (least row).1 (least row).2
  most : First (· ≥ ·) row (most row).1 (most row).2
  median : ∃ m, Middle row m (median row) ∧
    (row.sum < 2 ^ 64 → HasUnits (median row) (nearest (m * unity) 2))
  perm : ∀ row', row.Perm row' → (Row.least row').2 = (Row.least row).2 ∧
    (Row.most row').2 = (Row.most row).2 ∧ Row.median row' = Row.median row

theorem orderStatistics (h : row ≠ []) : OrderStatistics row where
  least := first_least h
  most := first_most h
  median := by
    obtain ⟨m, hm⟩ := middle_median h
    exact ⟨m, hm, hm.hasUnits⟩
  perm row' hperm := by
    have h' : row' ≠ [] := fun hnil => h (hnil ▸ hperm).eq_nil
    exact ⟨((first_least h).value_eq (first_least h') hperm).symm,
      ((first_most h).value_eq (first_most h') hperm).symm, (median_perm hperm).symm⟩

/-! ### The partners of a problem -/

/-- The first label of a range that counts, with a count related to all counts of the range. -/
structure FirstPartner (R : ℕ → ℕ → Prop) (count : ℕ → ℕ) (start n l : ℕ) : Prop where
  mem : l ∈ List.range' start n
  pos : 0 < count l
  best : ∀ k ∈ List.range' start n, R (count l) (count k)
  first : ∀ k ∈ List.range' start n, k < l → count k ≠ count l

lemma getElem?_map_range' {count : ℕ → ℕ} {start n : ℕ} :
    ((List.range' start n).map count)[i]? = some v ↔ i < n ∧ count (start + i) = v := by
  by_cases hi : i < n
  · simp [hi]
  · simp [hi]

/-- The place of the extreme of a line tells the partner. -/
theorem First.partner_iff [Std.Antisymm R] {count : ℕ → ℕ} {start n l : ℕ}
    (h : First R ((List.range' start n).map count) i v) :
    (if 0 < v then some (start + i) else none) = some l ↔ FirstPartner R count start n l := by
  obtain ⟨hi, hv⟩ := getElem?_map_range'.mp h.stands
  have hrange : start + i ∈ List.range' start n := List.mem_range'_1.mpr (by omega)
  constructor
  · intro hl
    obtain ⟨hpos, hl⟩ := Option.ite_none_right_eq_some.mp hl
    obtain rfl := Option.some.inj hl
    subst hv
    refine ⟨hrange, hpos, fun k hk => h.best _ (List.mem_map_of_mem hk), fun k hk hlt heq => ?_⟩
    rw [List.mem_range'_1] at hk
    refine h.first (k - start) (by omega) (getElem?_map_range'.mpr ⟨by omega, ?_⟩)
    rwa [Nat.add_sub_cancel' hk.1]
  · intro hl
    have hmem := List.mem_range'_1.mp hl.mem
    have hvalue : count l = v := by
      subst hv
      exact Std.Antisymm.antisymm _ _ (hl.best _ hrange) (h.best _ (List.mem_map_of_mem hl.mem))
    rcases lt_trichotomy (start + i) l with hlt | rfl | hgt
    · exact absurd (hv.trans hvalue.symm) (hl.first _ hrange hlt)
    · rw [if_pos (hvalue ▸ hl.pos)]
    · refine absurd (getElem?_map_range'.mpr ⟨?_, ?_⟩) (h.first (l - start) (by omega))
      · omega
      · rwa [Nat.add_sub_cancel' hmem.1]

end Row

namespace Distribution
variable {start n i : ℕ}
open Row

/-- The pairs of a problem on the left, by the labels of the range. -/
def line (start n : ℕ) (pairs : List Pair) (problem : ℕ) : List ℕ :=
  (List.range' start n).map (linking pairs problem)

/-- The line of a problem is what is counted at its place. -/
lemma line_ofPairs (start : ℕ) (pairs : List Pair) (hi : i < n) :
    ((Counters.ofPairs start n pairs).matrix.getD i #[]).toList = line start n pairs (start + i) := by
  obtain ⟨lines, hlines⟩ : ∃ lines, lines = (Counters.ofPairs start n pairs).matrix := ⟨_, rfl⟩
  have htable := Counters.matrix_ofPairs start n pairs
  have hsize : i < lines.size := by
    have hlength := congrArg List.length htable
    rw [List.length_map, List.length_map, List.length_range, ← hlines, Array.length_toList] at hlength
    omega
  have hline : lines[i].toList =
      (List.range n).map fun j => linking (within start n pairs) (start + i) (start + j) := by
    have hget := congrArg (·[i]?) htable
    simpa [← hlines, hi, hsize] using hget
  rw [← hlines, Array.getD_eq_getD_getElem?, Array.getElem?_eq_getElem hsize, Option.getD_some, hline,
    line, List.range'_eq_map_range, List.map_map]
  exact List.map_congr_left fun j hj => linking_within hi (List.mem_range.mp hj)

/-- The row of a problem gives the order statistics of its pairs with every problem of the range, and of the
extremes that are not zero the first partner. -/
structure Summarizes (start n : ℕ) (pairs : List Pair) (r : ProblemRow) : Prop where
  inside : r.problem ∈ List.range' start n
  total : (line start n pairs r.problem).sum ≤ pairs.length
  fewest : r.fewest = (least (line start n pairs r.problem)).2
  most : r.most = (most (line start n pairs r.problem)).2
  median : r.median = median (line start n pairs r.problem)
  leastPartner : ∀ l, r.leastPartner = some l ↔ FirstPartner (· ≤ ·) (linking pairs r.problem) start n l
  mostPartner : ∀ l, r.mostPartner = some l ↔ FirstPartner (· ≥ ·) (linking pairs r.problem) start n l

lemma sum_line_le (start n : ℕ) (pairs : List Pair) (problem : ℕ) :
    (line start n pairs problem).sum ≤ pairs.length := by
  rw [line, List.range'_eq_map_range, List.map_map]
  exact (sum_line pairs problem List.nodup_range).trans_le List.countP_le_length

lemma summarizes_row (start : ℕ) (pairs : List Pair) (hi : i < n) :
    Summarizes start n pairs ((Counters.ofPairs start n pairs).row start i) := by
  have hinside : start + i ∈ List.range' start n := List.mem_range'_1.mpr (by omega)
  have hne : line start n pairs (start + i) ≠ [] := List.ne_nil_of_mem (List.mem_map_of_mem hinside)
  unfold Counters.row
  rw [line_ofPairs start pairs hi]
  exact ⟨hinside, sum_line_le start n pairs _, rfl, rfl, rfl, fun l => (first_least hne).partner_iff,
    fun l => (first_most hne).partner_iff⟩

/-- The statistics of every row with an entry are order statistics, and those of a problem are of the counts of
its pairs, with the first partners for its extremes. -/
theorem measure_orderStatistics : (∀ row : List ℕ, row ≠ [] → OrderStatistics row) ∧
    ∀ start n pairs d, measure start n pairs = .ok d →
      ∀ r ∈ d.rows, Summarizes start n pairs r := by
  refine ⟨fun row => orderStatistics, fun start n pairs d hd r hr => ?_⟩
  obtain ⟨-, -, hd⟩ := bind_eq_ok.mp hd
  obtain rfl : ofPairs start n pairs = d := Except.ok.inj hd
  obtain ⟨i, hi, -, rfl⟩ := mem_rows.mp hr
  exact summarizes_row start pairs hi

/-- Both extremes of a row stand twice, and two partners have as many pairs as any. -/
theorem measure_orderStatistics_ties :
    let row := [3, 1, 3, 1]
    let pairs : List Pair := [⟨4, 0, 6, 0⟩, ⟨4, 0, 5, 0⟩, ⟨4, 1, 6, 0⟩, ⟨4, 1, 5, 2⟩, ⟨4, 0, 4, 1⟩]
    row ≠ [] ∧ OrderStatistics row ∧ least row = (1, 1) ∧ most row = (0, 3) ∧ Row.median row = 2.0 ∧
      ∃ d, measure 4 3 pairs = .ok d ∧ (∀ r ∈ d.rows, Summarizes 4 3 pairs r) ∧
        d.rows.map (fun r => (r.problem, r.leastPartner, r.mostPartner)) =
          [(4, some 4, some 5), (5, none, none), (6, none, none)] := by
  intro row pairs
  obtain ⟨hrows, hproblems⟩ := measure_orderStatistics
  have hne : row ≠ [] := by decide
  have hmedian : Row.median [1, 1, 3, 3] = 2.0 := by
    unfold Row.median
    rw [List.mergeSort_of_pairwise (by decide)]
    decide +kernel
  have hsorted := ((hrows row hne).perm [1, 1, 3, 3] (by decide)).2.2
  obtain ⟨d, hd⟩ : ∃ d, measure 4 3 pairs = .ok d := ⟨_, rfl⟩
  refine ⟨hne, hrows row hne, rfl, rfl, hsorted.symm.trans hmedian, d, hd, hproblems 4 3 pairs d hd, ?_⟩
  obtain ⟨-, -, hd⟩ := bind_eq_ok.mp hd
  obtain rfl := Except.ok.inj hd
  rfl

end Distribution
end PairDatasets
