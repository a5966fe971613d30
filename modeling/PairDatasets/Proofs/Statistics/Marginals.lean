import PairDatasets.Proofs.Statistics.Distribution

/-! The rows of a distribution are the margins of its table. The table has a cell for every two problems
of the range with the number of their pairs; what a row counts is the cell on the diagonal, the rest of
its line and the rest of its column. -/
namespace PairDatasets
namespace Distribution
variable {start n : ℕ} {pairs : List Pair}

/-- The pairs in one cell of the table, by the places of their problems. -/
def cell (d : Distribution) (i j : ℕ) : ℕ := (d.pairCounts.getD i []).getD j 0

/-- The problems that have a row. -/
def labels (d : Distribution) : List ℕ := d.rows.map ProblemRow.problem

/-- All places of the range but one. -/
def others (n i : ℕ) : List ℕ := (List.range n).filter (· ≠ i)

/-- A list of exactly those problems that have a property, in ascending order. -/
structure Lists (P : ℕ → Prop) (problems : List ℕ) : Prop where
  ascending : problems.Pairwise (· < ·)
  mem : ∀ l, l ∈ problems ↔ P l

/-- A distribution counts every pair once, in its table or outside the range, and its rows and lists of
problems tell what stands in the table. -/
structure Tabulates (start n : ℕ) (pairs : List Pair) (d : Distribution) : Prop where
  samples : d.samples = pairs.length
  total : d.outOfRange + (d.pairCounts.map List.sum).sum = d.samples
  square : d.pairCounts.length = n ∧ ∀ line ∈ d.pairCounts, line.length = n
  cell : ∀ i j, i < n → j < n →
    d.cell i j = pairs.countP fun p => p.problem1 = start + i && p.problem2 = start + j
  present : Lists (fun l => ∃ p ∈ pairs, (p.problem1 ∈ List.range' start n ∧
    p.problem2 ∈ List.range' start n) ∧ (p.problem1 = l ∨ p.problem2 = l)) d.labels
  absent : d.absent.Pairwise (· < ·)
  disjoint : d.labels.Disjoint d.absent
  together : ∀ l, l ∈ d.labels ∨ l ∈ d.absent ↔ start ≤ l ∧ l < start + n
  row : ∀ r ∈ d.rows, ∀ i, r.problem = start + i → r.same = d.cell i i ∧
    r.left = ((others n i).map fun j => d.cell i j).sum ∧
    r.right = ((others n i).map fun j => d.cell j i).sum
  balanced : (d.rows.map ProblemRow.left).sum = (d.rows.map ProblemRow.right).sum
  withoutSame : Lists (fun l => ∃ r ∈ d.rows, r.problem = l ∧ r.same = 0) d.withoutSame
  withoutLeft : Lists (fun l => ∃ r ∈ d.rows, r.problem = l ∧ r.left = 0) d.withoutLeft
  withoutRight : Lists (fun l => ∃ r ∈ d.rows, r.problem = l ∧ r.right = 0) d.withoutRight
  withoutDifferent : Lists (fun l => ∃ r ∈ d.rows, r.problem = l ∧ r.left + r.right = 0)
    d.withoutDifferent
  apart : d.withoutSame.Disjoint d.withoutDifferent

/-! ### Sums over lines and columns -/

lemma nodup_others (n i : ℕ) : (others n i).Nodup := List.nodup_range.filter _

lemma mem_others {i j : ℕ} : j ∈ others n i ↔ j < n ∧ j ≠ i := by
  simp [others]

/-- Pairs left out of the range have none of two problems in it. -/
lemma linking_within {i j : ℕ} (hi : i < n) (hj : j < n) :
    linking (within start n pairs) (start + i) (start + j) =
      linking pairs (start + i) (start + j) := by
  unfold linking within
  rw [List.countP_filter]
  refine List.countP_congr fun p _ => ?_
  simp only [inside, List.mem_range'_1, Bool.and_eq_true, decide_eq_true_eq]
  omega

/-- The line of a problem, at some of its places. -/
lemma sum_line (ps : List Pair) (a : ℕ) {places : List ℕ} (h : places.Nodup) :
    (places.map fun j => linking ps a (start + j)).sum =
      ps.countP fun p => p.problem2 ∈ places.map (start + ·) && p.problem1 = a := by
  have hlabels : (places.map (start + ·)).Nodup := h.map (add_right_injective start)
  rw [← sum_countP_label Pair.problem2 (fun p => p.problem1 = a) ps hlabels, List.map_map]
  refine congrArg List.sum (List.map_congr_left fun j _ => ?_)
  exact List.countP_congr fun p _ => by rw [Bool.and_comm]

/-- The column of a problem, at some of its places. -/
lemma sum_column (ps : List Pair) (b : ℕ) {places : List ℕ} (h : places.Nodup) :
    (places.map fun i => linking ps (start + i) b).sum =
      ps.countP fun p => p.problem1 ∈ places.map (start + ·) && p.problem2 = b := by
  have hlabels : (places.map (start + ·)).Nodup := h.map (add_right_injective start)
  rw [← sum_countP_label Pair.problem1 (fun p => p.problem2 = b) ps hlabels, List.map_map]
  rfl

/-- Of the pairs within the range a place off the diagonal tells one problem from the other. -/
lemma mem_map_others {a i : ℕ} (ha : a ∈ List.range' start n) :
    a ∈ (others n i).map (start + ·) ↔ a ≠ start + i := by
  rw [List.mem_range'_1] at ha
  simp only [List.mem_map, mem_others]
  constructor
  · rintro ⟨j, hj, rfl⟩
    omega
  · intro hne
    exact ⟨a - start, by omega, by omega⟩

lemma sum_line_others (start : ℕ) (pairs : List Pair) (n i : ℕ) :
    ((others n i).map fun j => linking (within start n pairs) (start + i) (start + j)).sum =
      leading (within start n pairs) (start + i) := by
  rw [sum_line _ _ (nodup_others n i)]
  refine List.countP_congr fun p hp => ?_
  rw [Bool.and_eq_true, Bool.and_eq_true, decide_eq_true_iff, decide_eq_true_iff,
    decide_eq_true_iff, mem_map_others (mem_within.mp hp).2.2, and_comm]

lemma sum_column_others (start : ℕ) (pairs : List Pair) (n i : ℕ) :
    ((others n i).map fun j => linking (within start n pairs) (start + j) (start + i)).sum =
      trailing (within start n pairs) (start + i) := by
  rw [sum_column _ _ (nodup_others n i)]
  refine List.countP_congr fun p hp => ?_
  rw [Bool.and_eq_true, Bool.and_eq_true, decide_eq_true_iff, decide_eq_true_iff,
    decide_eq_true_iff, mem_map_others (mem_within.mp hp).2.1, and_comm]

/-- The whole table holds the pairs within the range. -/
lemma sum_table (start n : ℕ) (pairs : List Pair) :
    ((List.range n).map fun i => ((List.range n).map fun j =>
      linking (within start n pairs) (start + i) (start + j)).sum).sum =
        (within start n pairs).length := by
  have hline (i : ℕ) : ((List.range n).map fun j =>
      linking (within start n pairs) (start + i) (start + j)).sum =
        (within start n pairs).countP fun p => p.problem1 = start + i && true := by
    rw [sum_line _ _ List.nodup_range, ← List.range'_eq_map_range]
    refine List.countP_congr fun p hp => ?_
    simp [(mem_within.mp hp).2.2]
  have hlines := sum_countP_label Pair.problem1 (fun _ => true) (within start n pairs)
    (@List.nodup_range' start n 1 (by decide))
  rw [List.range'_eq_map_range, List.map_map] at hlines
  simp only [hline]
  refine hlines.trans ?_
  rw [List.countP_eq_length]
  intro p hp
  rw [← List.range'_eq_map_range]
  simp [(mem_within.mp hp).2.1]

/-! ### What the counters show -/

lemma pairCounts_ofPairs (start n : ℕ) (pairs : List Pair) : (ofPairs start n pairs).pairCounts =
    (List.range n).map fun i => (List.range n).map fun j =>
      linking (within start n pairs) (start + i) (start + j) :=
  Counters.matrix_ofPairs start n pairs

lemma cell_ofPairs {i j : ℕ} (hi : i < n) (hj : j < n) :
    (ofPairs start n pairs).cell i j = linking (within start n pairs) (start + i) (start + j) := by
  rw [cell, pairCounts_ofPairs]
  simp [List.getD_eq_getElem?_getD, hi, hj]

lemma mem_rows {r : ProblemRow} : r ∈ (ofPairs start n pairs).rows ↔ ∃ i < n,
    (Counters.ofPairs start n pairs).occurs i = true ∧
      (Counters.ofPairs start n pairs).row start i = r := by
  change r ∈ List.map _ (List.filter _ (List.range n)) ↔ _
  simp only [List.mem_map, List.mem_filter, List.mem_range, and_assoc]

/-- A row tells the diagonal, the line and the column of its problem. -/
lemma row_ofPairs {r : ProblemRow} (hr : r ∈ (ofPairs start n pairs).rows) {i : ℕ}
    (hi : r.problem = start + i) : r.same = (ofPairs start n pairs).cell i i ∧
      r.left = ((others n i).map fun j => (ofPairs start n pairs).cell i j).sum ∧
      r.right = ((others n i).map fun j => (ofPairs start n pairs).cell j i).sum := by
  obtain ⟨k, hk, -, rfl⟩ := mem_rows.mp hr
  obtain rfl : k = i := Nat.add_left_cancel hi
  have hline : ((others n k).map fun j => (ofPairs start n pairs).cell k j) =
      (others n k).map fun j => linking (within start n pairs) (start + k) (start + j) :=
    List.map_congr_left fun j hj => cell_ofPairs hk (mem_others.mp hj).1
  have hcolumn : ((others n k).map fun j => (ofPairs start n pairs).cell j k) =
      (others n k).map fun j => linking (within start n pairs) (start + j) (start + k) :=
    List.map_congr_left fun j hj => cell_ofPairs (mem_others.mp hj).1 hk
  rw [cell_ofPairs hk hk, hline, hcolumn, sum_line_others, sum_column_others]
  exact ⟨Counters.same_ofPairs start pairs hk, Counters.left_ofPairs start pairs hk,
    Counters.right_ofPairs start pairs hk⟩

/-- A row is only written for a problem that was counted. -/
lemma row_pos {r : ProblemRow} (hr : r ∈ (ofPairs start n pairs).rows) :
    0 < r.same + (r.left + r.right) := by
  obtain ⟨i, -, hoccurs, rfl⟩ := mem_rows.mp hr
  rw [Counters.occurs, decide_eq_true_iff, Nat.add_assoc] at hoccurs
  exact Nat.pos_of_ne_zero hoccurs

/-- There is one row for a problem. -/
lemma row_unique {r r' : ProblemRow} (hr : r ∈ (ofPairs start n pairs).rows)
    (hr' : r' ∈ (ofPairs start n pairs).rows) (h : r.problem = r'.problem) : r = r' := by
  obtain ⟨i, -, -, rfl⟩ := mem_rows.mp hr
  obtain ⟨j, -, -, rfl⟩ := mem_rows.mp hr'
  obtain rfl : i = j := Nat.add_left_cancel h
  rfl

lemma absent_ofPairs : (ofPairs start n pairs).absent =
    (List.range' start n).filter fun l => !appears (within start n pairs) l := by
  change ((List.range n).filter _).map _ = _
  rw [List.range'_eq_map_range, List.filter_map]
  refine congrArg (List.map _) (List.filter_congr fun i hi => ?_)
  rw [Counters.occurs_ofPairs pairs (List.mem_range.mp hi), Function.comp_apply]

lemma ascending_filter (start n : ℕ) (P : ℕ → Bool) :
    ((List.range' start n).filter P).Pairwise (· < ·) :=
  List.Pairwise.filter P (List.pairwise_lt_range' 1)

/-- The problems whose rows lack something. -/
lemma lists_lacking (count : ProblemRow → ℕ) :
    Lists (fun l => ∃ r ∈ (ofPairs start n pairs).rows, r.problem = l ∧ count r = 0)
      (((ofPairs start n pairs).rows.filter (count · = 0)).map ProblemRow.problem) where
  ascending := by
    have hrows : (ofPairs start n pairs).labels.Pairwise (· < ·) := by
      rw [labels, problems_rows]
      exact ascending_filter ..
    exact hrows.sublist (List.filter_sublist.map _)
  mem := by
    intro l
    simp only [List.mem_map, List.mem_filter, decide_eq_true_eq, and_assoc]
    exact exists_congr fun r => and_congr_right fun _ => and_comm

lemma lists_labels : Lists (fun l => ∃ p ∈ pairs, (p.problem1 ∈ List.range' start n ∧
    p.problem2 ∈ List.range' start n) ∧ (p.problem1 = l ∨ p.problem2 = l))
      (ofPairs start n pairs).labels := by
  rw [labels, problems_rows]
  refine ⟨ascending_filter .., fun l => ?_⟩
  rw [List.mem_filter, appears, List.any_eq_true]
  constructor
  · rintro ⟨-, p, hp, hl⟩
    obtain ⟨hmem, hin⟩ := mem_within.mp hp
    exact ⟨p, hmem, hin, by simpa using hl⟩
  · rintro ⟨p, hmem, hin, hl⟩
    have hrange : l ∈ List.range' start n := by
      rcases hl with rfl | rfl
      · exact hin.1
      · exact hin.2
    exact ⟨hrange, p, mem_within.mpr ⟨hmem, hin⟩, by simpa using hl⟩

/-- Every problem of the range either has a row or is absent. -/
lemma labels_or_absent (l : ℕ) : l ∈ (ofPairs start n pairs).labels ∨
    l ∈ (ofPairs start n pairs).absent ↔ start ≤ l ∧ l < start + n := by
  rw [labels, problems_rows, absent_ofPairs, List.mem_filter, List.mem_filter, ← and_or_left,
    List.mem_range'_1, Bool.not_eq_true']
  exact and_iff_left (Bool.eq_false_or_eq_true _)

theorem tabulates_ofPairs (start n : ℕ) (pairs : List Pair) :
    (ofPairs start n pairs).Tabulates start n pairs where
  samples := rfl
  total := by
    have hout := Counters.outside_ofPairs start n pairs
    rw [← sum_table start n pairs] at hout
    rw [pairCounts_ofPairs, List.map_map]
    exact hout
  square := by
    rw [pairCounts_ofPairs]
    simp
  cell i j hi hj := (cell_ofPairs hi hj).trans (linking_within hi hj)
  present := lists_labels
  absent := by
    rw [absent_ofPairs]
    exact ascending_filter ..
  disjoint := by
    rw [labels, problems_rows, absent_ofPairs]
    intro l hrow habsent
    simp [(List.mem_filter.mp hrow).2] at habsent
  together := labels_or_absent
  row _ hr _ hi := row_ofPairs hr hi
  balanced := sum_left.trans sum_right.symm
  withoutSame := lists_lacking _
  withoutLeft := lists_lacking _
  withoutRight := lists_lacking _
  withoutDifferent := lists_lacking _
  apart := by
    intro l hsame hdifferent
    obtain ⟨r, hr, hl, hzero⟩ := ((lists_lacking ProblemRow.same).mem l).mp hsame
    obtain ⟨r', hr', hl', hzero'⟩ := ((lists_lacking fun r => r.left + r.right).mem l).mp hdifferent
    obtain rfl := row_unique hr hr' (hl.trans hl'.symm)
    have hpos := row_pos hr
    omega

/-- A range whose labels are words and whose lines memory holds is counted, and whatever is counted is
told exactly. -/
theorem measure_tabulates (start n : ℕ) (pairs : List Pair) :
    (Memory.holds 24 n = true → start + n ≤ 2 ^ 64 → ∃ d, measure start n pairs = .ok d) ∧
      ∀ d, measure start n pairs = .ok d → d.Tabulates start n pairs := by
  constructor
  · intro hlines hlast
    have hcheck : checkRange start n = .ok () := by
      rw [Memory.holds_iff] at hlines
      rw [checkRange_eq_ok, Memory.holds_iff]
      omega
    exact ⟨ofPairs start n pairs, bind_eq_ok.mpr ⟨(), hcheck, rfl⟩⟩
  · intro d hd
    obtain ⟨-, -, hd⟩ := bind_eq_ok.mp hd
    obtain rfl : ofPairs start n pairs = d := Except.ok.inj hd
    exact tabulates_ofPairs start n pairs

theorem measure_tabulates_fivePairs :
    Memory.holds 24 6 = true ∧ 2 + 6 ≤ 2 ^ 64 ∧
      ∃ d, measure 2 6 [⟨2, 0, 2, 1⟩, ⟨2, 1, 3, 0⟩, ⟨5, 0, 4, 0⟩, ⟨6, 0, 6, 1⟩, ⟨9, 0, 2, 0⟩] = .ok d ∧
        d.Tabulates 2 6 [⟨2, 0, 2, 1⟩, ⟨2, 1, 3, 0⟩, ⟨5, 0, 4, 0⟩, ⟨6, 0, 6, 1⟩, ⟨9, 0, 2, 0⟩] ∧
        d.outOfRange = 1 ∧ d.labels = [2, 3, 4, 5, 6] ∧ d.absent = [7] ∧
        d.withoutSame = [3, 4, 5] ∧ d.withoutDifferent = [6] := by
  obtain ⟨hcounted, htold⟩ := measure_tabulates 2 6
    [⟨2, 0, 2, 1⟩, ⟨2, 1, 3, 0⟩, ⟨5, 0, 4, 0⟩, ⟨6, 0, 6, 1⟩, ⟨9, 0, 2, 0⟩]
  obtain ⟨d, hd⟩ := hcounted (by decide) (by decide)
  refine ⟨by decide, by decide, d, hd, htold d hd, ?_⟩
  obtain ⟨-, -, hd⟩ := bind_eq_ok.mp hd
  obtain rfl := Except.ok.inj hd
  exact ⟨rfl, rfl, rfl, rfl, rfl⟩

end Distribution
end PairDatasets
