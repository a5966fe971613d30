import PairDatasets.Proofs.Partition.Separation
import PairDatasets.Proofs.Statistics.Distribution
import PairDatasets.Proofs.Statistics.Skew
import PairDatasets.Proofs.Statistics.Usage
import PairDatasets.Statistics.Split

/-! The statistics of a split account for every pair that was drawn for it. The distribution takes the
labels of a group to be a range from its start on, and so they are in every division. -/
namespace PairDatasets

namespace Group
variable {g : Group} {c : Corpus}

/-- The labels follow the first one without a gap and end before `last`. -/
structure Consecutive (last : ℕ) (g : Group) : Prop where
  labels : g.labels = List.range' g.start g.problemCount
  le : g.start + g.problemCount ≤ last

lemma consecutive_of_labels {first n last : ℕ} (hstart : g.start = first)
    (hlabels : g.labels = List.range' first n) (hle : first + n ≤ last) : g.Consecutive last := by
  have hcount : g.problemCount = n := by
    have hlength := congrArg List.length hlabels
    rwa [Group.labels, List.length_map, List.length_range'] at hlength
  constructor
  · rw [hstart, hcount, hlabels]
  · rw [hstart, hcount]
    exact hle

lemma Spans.consecutive {first last n : ℕ} (h : g.Spans c first last) (hle : first ≤ last)
    (hlast : last ≤ n) : g.Consecutive n :=
  consecutive_of_labels h.start h.labels (by omega)

lemma consecutive_of_range {last n : ℕ} (h : g.start = 0 ∧ g.labels = List.range last)
    (hlast : last ≤ n) : g.Consecutive n := by
  obtain ⟨hstart, hlabels⟩ := h
  rw [List.range_eq_range'] at hlabels
  exact consecutive_of_labels hstart hlabels (by omega)

end Group

namespace Partition
variable {c : Corpus} {p : Partition} {f : Float} {v rest : ℕ}

lemma SetsAside.consecutive {test : Option Group} (h : SetsAside c rest test) {g : Group}
    (hg : test = some g) : g.Consecutive c.problemCount :=
  (h.fills.spans g hg).consecutive h.rest_le le_rfl

lemma CutByProblems.consecutive (h : p.CutByProblems c f v rest) {split : Split} {g : Group}
    (hg : p.group? split = some g) : g.Consecutive c.problemCount := by
  have hrest := h.test.rest_le
  cases split with
  | training =>
    cases hg
    exact h.training.consecutive h.le hrest
  | validation => exact (h.validation.spans g hg).consecutive (Nat.zero_le v) (h.le.trans hrest)
  | test => exact h.test.consecutive hg

lemma CutBySolutions.consecutive (h : p.CutBySolutions c f rest) {split : Split} {g : Group}
    (hg : p.group? split = some g) : g.Consecutive c.problemCount := by
  have hrest := h.test.rest_le
  cases split with
  | training =>
    cases hg
    exact Group.consecutive_of_range h.training hrest
  | validation => exact Group.consecutive_of_range (h.validation g hg) hrest
  | test => exact h.test.consecutive hg

/-- Whatever the strategy, the labels of a group are consecutive labels of the corpus. -/
theorem consecutive_of_divide (hc : c.Labelled) {strategy : Strategy} {s : Seeds}
    (h : c.divide strategy s = .ok p) {split : Split} {g : Group} (hg : p.group? split = some g) :
    g.Consecutive c.problemCount := by
  cases strategy with
  | disjointProblems test validation =>
    obtain ⟨v, rest, hcut⟩ := byProblems_cut hc h
    exact hcut.consecutive hg
  | sameProblems test validation =>
    obtain ⟨rest, hcut⟩ := bySolutions_cut hc h
    exact hcut.consecutive hg
  | balanced test validation =>
    have hgroups := (balanced_balances hc h).groups split g hg
    exact Group.consecutive_of_range hgroups le_rfl

lemma given_eq (p : Partition) {split : Split} {g : Group} (hg : p.group? split = some g) (q : ℕ) :
    p.given split q = g.given q := by
  rw [given, hg]
  rfl

lemma labels_eq (p : Partition) {split : Split} {g : Group} (hg : p.group? split = some g) :
    p.labels split = g.labels := by
  rw [labels, hg]
  rfl

/-- No slice of a group lists a solution twice. -/
lemma Exact.nodup_solutions (h : p.Exact c) {split : Split} {g : Group}
    (hg : p.group? split = some g) {s : Slice} (hs : s ∈ g.slices) : s.solutions.Nodup := by
  have hlabels : g.labels.Nodup := p.labels_eq hg ▸ h.nodup split
  have hall : (Split.all.flatMap fun r => p.given r s.problem).Nodup :=
    (h.perm s.problem).nodup_iff.mpr List.nodup_range
  have hgiven := (List.nodup_flatMap.mp hall).1 split (Split.mem_all split)
  rwa [p.given_eq hg, Group.given_of_mem hlabels hs] at hgiven

end Partition

namespace SplitStatistics

/-- The statistics account for the pairs of a set: no pair lies outside the range, each is counted by
its kind, and on no side more solutions occur than the group has. -/
structure Accounts (g : Group) (r : PairSet) (x : SplitStatistics) : Prop where
  outOfRange : x.distribution.outOfRange = 0
  samples : x.distribution.samples = r.size
  same : (x.distribution.rows.map ProblemRow.same).sum = r.similar
  left : (x.distribution.rows.map ProblemRow.left).sum = r.dissimilar
  right : (x.distribution.rows.map ProblemRow.right).sum = r.dissimilar
  skew_eq_none : x.skew = none ↔ r.pairs = []
  total : ∀ skew, x.skew = some skew → skew.total = 2 * r.dissimilar
  solutions : x.usage.solutions = g.solutionCount
  similarLeft : x.usage.similarLeft.used ≤ x.usage.similarLeft.total
  similarRight : x.usage.similarRight.used ≤ x.usage.similarRight.total
  dissimilarLeft : x.usage.dissimilarLeft.used ≤ x.usage.dissimilarLeft.total
  dissimilarRight : x.usage.dissimilarRight.used ≤ x.usage.dissimilarRight.total

theorem accounts_of_sound {g : Group} {r : PairSet} {n budget target : ℕ} (split : Split)
    (hg : g.Consecutive n) (hr : r.Sound g budget target) : (ofPairs split r.pairs g).Accounts g r := by
  have hlabels : g.labels.Nodup := hg.labels ▸ List.nodup_range'
  have hwithin : Distribution.within g.start g.problemCount r.pairs = r.pairs := by
    refine Distribution.within_eq_self fun p hp => ?_
    obtain ⟨h1, h2⟩ := hr.offers p hp
    rw [← hg.labels]
    exact ⟨Group.mem_labels h1, Group.mem_labels h2⟩
  have hsame := @Distribution.sum_same g.start g.problemCount r.pairs
  have hleft := @Distribution.sum_left g.start g.problemCount r.pairs
  have hright := @Distribution.sum_right g.start g.problemCount r.pairs
  rw [hwithin, hr.similar] at hsame
  rw [hwithin, hr.dissimilar] at hleft hright
  have hsolutions := (Usage.covers_ofPairs r.pairs g).solutions
  have hused (side : Side) := Usage.used_le_total side hlabels hr.offers
  refine ⟨?_, rfl, hsame, hleft, hright, ?_, ?_, hsolutions, hused .similarLeft,
    hused .similarRight, hused .dissimilarLeft, hused .dissimilarRight⟩
  · have hout := Distribution.Counters.outside_ofPairs g.start g.problemCount r.pairs
    rw [hwithin] at hout
    exact Nat.add_eq_right.mp hout
  · change Skew.ofCounts? _ = none ↔ _
    rw [Skew.ofCounts?_eq_none, Distribution.crossCounts, List.map_eq_nil_iff, Distribution.rows_eq_nil,
      hwithin]
  · intro skew hskew
    have hadd : (fun row : ProblemRow => row.left + row.right) =
        Prod.snd ∘ fun row => (row.problem, row.left + row.right) := rfl
    rw [(Skew.fields_of_ofCounts? hskew).1, Distribution.crossCounts, List.map_map, ← hadd,
      List.sum_map_add]
    change (List.map _ (Distribution.ofPairs g.start g.problemCount r.pairs).rows).sum +
      (List.map _ (Distribution.ofPairs g.start g.problemCount r.pairs).rows).sum = _
    rw [hleft, hright, Nat.two_mul]

/-- A range of labels of a corpus that memory holds can be counted. -/
lemma measure_eq_ok {g : Group} {n : ℕ} (split : Split) (pairs : List Pair) (hg : g.Consecutive n)
    (hn : n < 2 ^ 60) : measure split pairs g = .ok (ofPairs split pairs g) := by
  have hle := hg.le
  have hcheck : Distribution.checkRange g.start g.problemCount = .ok () := by
    rw [Distribution.checkRange_eq_ok, Memory.holds_iff]
    omega
  unfold measure
  rw [hcheck]
  rfl

end SplitStatistics

/-- The statistics of pairs that were drawn for a split of a division account for all of them, whatever
the strategy, and are always computed. -/
theorem statistics_account {t : String} {k : ℕ} {ps : List (String × List Solution)}
    {strategy : Strategy} {s : Seeds} {p : Partition}
    (h : (Corpus.ofProblems t k ps).divide strategy s = .ok p) {split : Split} {g : Group}
    (hg : p.group? split = some g) {slots target : ℕ} {fraction : Float} {gen : Generator}
    {r : PairSet} (hr : (g.drawPairs slots target fraction gen).1 = .ok r) :
    (SplitStatistics.ofPairs split r.pairs g).Accounts g r ∧
      (ps.length < 2 ^ 60 →
        SplitStatistics.measure split r.pairs g = .ok (SplitStatistics.ofPairs split r.pairs g)) := by
  have hc : (Corpus.ofProblems t k ps).Labelled := Corpus.labelled_ofProblems t k ps
  have hcount : (Corpus.ofProblems t k ps).problemCount = ps.length := by
    simp [Corpus.problemCount, Corpus.ofProblems]
  have hconsecutive := Partition.consecutive_of_divide hc h hg
  have hexact := Partition.exact_of_divide hc h
  have hlabels : g.labels.Nodup := p.labels_eq hg ▸ hexact.nodup split
  have hsound := PairSet.sound_of_drawPairs hlabels (fun s hs => hexact.nodup_solutions hg hs) hr
  constructor
  · exact SplitStatistics.accounts_of_sound split hconsecutive hsound
  · intro hsmall
    exact SplitStatistics.measure_eq_ok split r.pairs hconsecutive (hcount ▸ hsmall)

theorem statistics_account_sixProblems :
    ∃ p g r, (Corpus.ofProblems "tokens" 3 sixProblems).divide (.balanced 0.2 0.5) ⟨101⟩ = .ok p ∧
      p.group? .training = some g ∧ (g.drawPairs 16 10 0.5 ⟨1937⟩).1 = .ok r ∧
      SplitStatistics.measure .training r.pairs g =
        .ok (SplitStatistics.ofPairs .training r.pairs g) ∧
      (SplitStatistics.ofPairs .training r.pairs g).Accounts g r := by
  obtain ⟨p, hp⟩ := exists_of_isOk (x := (Corpus.ofProblems "tokens" 3 sixProblems).divide
    (.balanced 0.2 0.5) ⟨101⟩) (by decide +kernel)
  have hdraw : ((((Corpus.ofProblems "tokens" 3 sixProblems).divide (.balanced 0.2 0.5)
      ⟨101⟩).toOption.map fun p => (p.training.drawPairs 16 10 0.5 ⟨1937⟩).1.isOk).getD false) =
        true := by decide +kernel
  rw [hp] at hdraw
  obtain ⟨r, hr⟩ := exists_of_isOk (x := (p.training.drawPairs 16 10 0.5 ⟨1937⟩).1) hdraw
  have hg : p.group? .training = some p.training := rfl
  obtain ⟨haccounts, hmeasure⟩ := statistics_account hp hg hr
  exact ⟨p, p.training, r, hp, hg, hr, hmeasure (by decide), haccounts⟩

end PairDatasets
