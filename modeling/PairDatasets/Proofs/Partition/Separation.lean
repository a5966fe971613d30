import PairDatasets.Proofs.Partition.Balanced
import PairDatasets.Proofs.Partition.Positional
import PairDatasets.Proofs.Sampling.Pairs

/-! Separation of the splits. Whatever is drawn for a split lies in what the split is given, and no
solution is given to two splits; the divisions by position also keep labels apart. -/
namespace PairDatasets
variable {c : Corpus} {p : Partition} {f : Float} {v rest : ℕ}

namespace Partition

theorem exact_of_divide (hc : c.Labelled) {strategy : Strategy} {s : Seeds}
    (h : c.divide strategy s = .ok p) : p.Exact c := by
  cases strategy with
  | disjointProblems test validation =>
    obtain ⟨v, rest, hcut⟩ := byProblems_cut hc h
    exact hcut.exact
  | sameProblems test validation =>
    obtain ⟨rest, hcut⟩ := bySolutions_cut hc h
    exact hcut.exact
  | balanced test validation => exact (balanced_balances hc h).exact

/-- Divided by problems, two splits have no label in common. -/
theorem CutByProblems.labels_disjoint (h : p.CutByProblems c f v rest) {a b : Split} (hne : a ≠ b) :
    (p.labels a).Disjoint (p.labels b) := by
  obtain ⟨hvalidation, htraining, htest⟩ := h.labels
  have hle := h.le
  intro q ha hb
  cases a <;> cases b <;> first
    | exact absurd rfl hne
    | simp only [hvalidation, htraining, htest, List.mem_range'_1] at ha hb
      omega

/-- Divided by solutions, a test problem is no problem of training or validation. -/
theorem CutBySolutions.labels_disjoint (h : p.CutBySolutions c f rest) {b : Split} (hne : .test ≠ b) :
    (p.labels .test).Disjoint (p.labels b) := by
  have htest : p.labels .test = List.range' rest (c.problemCount - rest) := h.test.fills.labels
  have htraining : p.labels .training = List.range rest := h.training.2
  intro q ha hb
  rw [htest, List.mem_range'_1] at ha
  have hlt : q < rest := by
    cases b with
    | training => simpa [htraining] using hb
    | validation => rcases h.labels_validation with hv | hv <;> simp_all
    | test => exact absurd rfl hne
  omega

/-- Pairs that may be drawn for a split, with any table, target, fraction and generator. -/
def Draws (p : Partition) (s : Split) (r : PairSet) : Prop :=
  ∃ group slots target fraction g,
    p.group? s = some group ∧ (Group.drawPairs group slots target fraction g).1 = .ok r

end Partition

/-- A solution stands on either side of one of the pairs. -/
def PairSet.Uses (r : PairSet) (problem solution : ℕ) : Prop :=
  ∃ x ∈ r.pairs, (x.problem1 = problem ∧ x.solution1 = solution) ∨
    (x.problem2 = problem ∧ x.solution2 = solution)

namespace Partition

lemma Draws.offers {s : Split} {r : PairSet} (h : p.Draws s r) {q i : ℕ} (hi : r.Uses q i) :
    ∃ group, p.group? s = some group ∧ group.Offers q i := by
  obtain ⟨group, slots, target, fraction, g, hgroup, hr⟩ := h
  obtain ⟨x, hx, ⟨rfl, rfl⟩ | ⟨rfl, rfl⟩⟩ := hi
  · exact ⟨group, hgroup, (Group.drawPairs_offers hr hx).1⟩
  · exact ⟨group, hgroup, (Group.drawPairs_offers hr hx).2⟩

lemma Draws.mem_labels {s : Split} {r : PairSet} (h : p.Draws s r) {q i : ℕ} (hi : r.Uses q i) :
    q ∈ p.labels s := by
  obtain ⟨group, hgroup, hoffers⟩ := h.offers hi
  rw [labels, hgroup]
  exact Group.mem_labels hoffers

lemma Draws.mem_given {s : Split} {r : PairSet} (h : p.Draws s r) (hp : p.Exact c) {q i : ℕ}
    (hi : r.Uses q i) : i ∈ p.given s q := by
  obtain ⟨group, hgroup, hoffers⟩ := h.offers hi
  exact Partition.mem_given hp.nodup hgroup hoffers

end Partition

/-- No leakage between splits: no solution is used by two of them, and every solution that is used
exists. Divided by problems no two splits share a label; divided by solutions test shares none. -/
theorem divide_separates {t : String} {k : ℕ} {ps : List (String × List Solution)}
    {strategy : Strategy} {s : Seeds}
    (h : (Corpus.ofProblems t k ps).divide strategy s = .ok p) :
    (∀ a r, p.Draws a r → ∀ q i, r.Uses q i →
      ((Corpus.ofProblems t k ps).solution? q i).isSome) ∧
    ∀ a b r r', a ≠ b → p.Draws a r → p.Draws b r' →
      (∀ q i, r.Uses q i → ¬ r'.Uses q i) ∧
      (∀ test f, strategy = .disjointProblems test f → ∀ q i j, r.Uses q i → ¬ r'.Uses q j) ∧
      (∀ test f, strategy = .sameProblems test f → a = .test →
        ∀ q i j, r.Uses q i → ¬ r'.Uses q j) := by
  have hc : (Corpus.ofProblems t k ps).Labelled := Corpus.labelled_ofProblems t k ps
  have hexact := Partition.exact_of_divide hc h
  refine ⟨?_, ?_⟩
  · intro a r hr q i hi
    exact hexact.solution?_isSome (hr.mem_given hexact hi)
  · intro a b r r' hne hr hr'
    refine ⟨?_, ?_, ?_⟩
    · intro q i hi hi'
      exact hexact.disjoint hne q (hr.mem_given hexact hi) (hr'.mem_given hexact hi')
    · rintro test f rfl q i j hi hj
      obtain ⟨v, rest, hcut⟩ := Partition.byProblems_cut hc h
      exact hcut.labels_disjoint hne (hr.mem_labels hi) (hr'.mem_labels hj)
    · rintro test f rfl rfl q i j hi hj
      obtain ⟨rest, hcut⟩ := Partition.bySolutions_cut hc h
      exact hcut.labels_disjoint hne (hr.mem_labels hi) (hr'.mem_labels hj)

/-- Half of four problems validate, the others train, and two more are for testing. -/
def dividedSix : Partition :=
  let c := Corpus.ofProblems "tokens" 3 sixProblems
  ⟨.disjointProblems (.count 2) 0.5, .whole c 2 4, some (.whole c 0 2), some (.whole c 4 6)⟩

theorem divide_sixProblems_separates :
    (Corpus.ofProblems "tokens" 3 sixProblems).divide (.disjointProblems (.count 2) 0.5) ⟨101⟩ =
        .ok dividedSix ∧
      ∃ r r', dividedSix.Draws .training r ∧ dividedSix.Draws .test r' ∧
        ∀ q i j, r.Uses q i → ¬ r'.Uses q j := by
  have hp : (Corpus.ofProblems "tokens" 3 sixProblems).divide (.disjointProblems (.count 2) 0.5)
      ⟨101⟩ = .ok dividedSix := eq_ok_of_toOption (by decide +kernel)
  obtain ⟨r, hr⟩ := exists_of_isOk (x := (dividedSix.training.drawPairs 16 6 0.5 ⟨1917⟩).1)
    (by decide +kernel)
  obtain ⟨r', hr'⟩ := exists_of_isOk
    (x := ((dividedSix.test.getD default).drawPairs 8 4 0.25 ⟨1941⟩).1) (by decide +kernel)
  have htraining : dividedSix.Draws .training r := ⟨_, _, _, _, _, rfl, hr⟩
  have htest : dividedSix.Draws .test r' := ⟨_, _, _, _, _, rfl, hr'⟩
  have hsplits := (divide_separates hp).2 .training .test r r' (by decide) htraining htest
  exact ⟨hp, r, r', htraining, htest, hsplits.2.1 _ _ rfl⟩

end PairDatasets
