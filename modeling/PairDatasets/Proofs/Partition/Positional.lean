import Mathlib.Data.List.Sort
import PairDatasets.Proofs.Partition.Fraction
import PairDatasets.Proofs.Partition.Group

/-! The divisions by position. Whatever the amounts, the runs of problems follow one another without
a gap, and no run has a single problem. -/
namespace PairDatasets
variable {c : Corpus} {p : Partition} {test : TestAmount} {f : Float} {v rest n : ℕ}

lemma TestAmount.resolve_eq_ok (h : test.resolve n = .ok v) : v ≤ n ∧ v ≠ 1 := by
  unfold TestAmount.resolve at h
  obtain ⟨count, -, h⟩ := bind_eq_ok.mp h
  split_ifs at h with hone hmany
  · cases h
    exact ⟨by omega, hone⟩

namespace Partition

/-- What is set aside for testing: the problems from `rest` on, never a single one. -/
structure SetsAside (c : Corpus) (rest : ℕ) (test : Option Group) : Prop where
  rest_le : rest ≤ c.problemCount
  fills : Group.Fills c rest c.problemCount test
  two_le : c.problemCount - rest = 0 ∨ 2 ≤ c.problemCount - rest

lemma setTestAside_eq_ok (hc : c.Labelled) {g : Option Group}
    (h : setTestAside c test = .ok (rest, g)) : SetsAside c rest g := by
  unfold setTestAside at h
  obtain ⟨k, hk, h⟩ := bind_eq_ok.mp h
  obtain ⟨hle, hone⟩ := TestAmount.resolve_eq_ok hk
  simp only [Except.ok.injEq, Prod.mk.injEq] at h
  obtain ⟨rfl, rfl⟩ := h
  refine ⟨by omega, ?_, by omega⟩
  have hfills := Group.fills_whole hc (Nat.sub_le c.problemCount k) le_rfl
  have hpos : c.problemCount - k < c.problemCount ↔ 0 < k := by omega
  simpa only [hpos] using hfills

/-- Validation holds the problems up to `v`, training those up to `rest`, test all others. -/
structure CutByProblems (c : Corpus) (f : Float) (v rest : ℕ) (p : Partition) : Prop where
  le : v ≤ rest
  validation : Group.Fills c 0 v p.validation
  eq_zero : v = 0 ↔ (f == 0.0) = true
  two_le_validation : v = 0 ∨ 2 ≤ v
  training : p.training.Spans c v rest
  two_le_training : 2 ≤ rest - v
  test : SetsAside c rest p.test

lemma byProblems_eq_ok (h : byProblems c test f = .ok p) :
    ∃ rest g, isProperFraction f = true ∧ setTestAside c test = .ok (rest, g) ∧
      (0.0 < f → 2 ≤ cut f rest) ∧ 2 ≤ rest - cut f rest ∧
      p = ⟨.disjointProblems test f, Group.whole c (cut f rest) rest,
        if 0 < cut f rest then some (Group.whole c 0 (cut f rest)) else none, g⟩ := by
  unfold byProblems at h
  obtain ⟨_, hf, h⟩ := bind_eq_ok.mp h
  obtain ⟨⟨rest, g⟩, haside, h⟩ := bind_eq_ok.mp h
  dsimp only at h
  split at h
  · contradiction
  · rename_i hvalidation
    split at h
    · contradiction
    · rename_i htraining
      unfold minProblems at hvalidation htraining
      exact ⟨rest, g, checkValidation_eq_ok.mp hf, haside, fun hpos => by
        by_contra hfew
        exact hvalidation ⟨hpos, by omega⟩, by omega, (Except.ok.inj h).symm⟩

theorem byProblems_cut (hc : c.Labelled) (h : byProblems c test f = .ok p) :
    ∃ v rest, p.CutByProblems c f v rest := by
  obtain ⟨rest, g, hf, haside, hvalidation, htraining, rfl⟩ := byProblems_eq_ok h
  have htest := setTestAside_eq_ok hc haside
  have hle : cut f rest ≤ rest := cut_le hf rest
  have hzero : cut f rest = 0 ↔ ¬ 0.0 < f := by
    constructor
    · intro hnone hpos
      have := hvalidation hpos
      omega
    · intro hnone
      exact cut_of_zero hf hnone rest
  refine ⟨cut f rest, rest, hle, ?_, ?_, ?_, ?_, htraining, htest⟩
  · exact Group.fills_whole hc (Nat.zero_le _) (hle.trans htest.rest_le)
  · rw [hzero, beq_zero_iff hf]
  · by_cases hpos : 0.0 < f
    · exact .inr (hvalidation hpos)
    · exact .inl (hzero.mpr hpos)
  · exact Group.spans_whole hc htest.rest_le

lemma CutByProblems.labels (h : p.CutByProblems c f v rest) :
    p.labels .validation = List.range' 0 (v - 0) ∧ p.labels .training = List.range' v (rest - v) ∧
      p.labels .test = List.range' rest (c.problemCount - rest) :=
  ⟨h.validation.labels, h.training.labels, h.test.fills.labels⟩

lemma range'_join {a b d : ℕ} (hab : a ≤ b) (hbd : b ≤ d) :
    List.range' a (b - a) ++ List.range' b (d - b) = List.range' a (d - a) := by
  obtain ⟨m, rfl⟩ := Nat.exists_eq_add_of_le hab
  obtain ⟨k, rfl⟩ := Nat.exists_eq_add_of_le hbd
  rw [Nat.add_sub_cancel_left, Nat.add_sub_cancel_left, Nat.add_assoc, Nat.add_sub_cancel_left,
    List.range'_append_1]

/-- The labels run through the corpus: validation, training, test. -/
theorem CutByProblems.labels_append (h : p.CutByProblems c f v rest) :
    p.labels .validation ++ p.labels .training ++ p.labels .test = List.range c.problemCount := by
  obtain ⟨hvalidation, htraining, htest⟩ := h.labels
  rw [hvalidation, htraining, htest, range'_join (Nat.zero_le v) h.le,
    range'_join (Nat.zero_le rest) h.test.rest_le, List.range_eq_range', Nat.sub_zero]

lemma seenLabels_eq_range (h : ∀ q, q ∈ p.labels .training ∨ q ∈ p.labels .validation ↔ q < n) :
    p.seenLabels = List.range n := by
  refine (pairwise_distinctNats _).eq_of_mem_iff List.pairwise_lt_range fun q => ?_
  rw [mem_distinctNats, List.mem_append, List.mem_range]
  exact h q

theorem CutByProblems.seenLabels (h : p.CutByProblems c f v rest) :
    p.seenLabels = List.range rest := by
  have hle := h.le
  obtain ⟨hvalidation, htraining, -⟩ := h.labels
  apply seenLabels_eq_range
  intro q
  rw [hvalidation, htraining, List.mem_range'_1, List.mem_range'_1]
  omega

theorem CutByProblems.exact (h : p.CutByProblems c f v rest) : p.Exact c := by
  obtain ⟨hvalidation, htraining, htest⟩ := h.labels
  constructor
  · intro s
    cases s with
    | training => rw [htraining]; exact List.nodup_range'
    | validation => rw [hvalidation]; exact List.nodup_range'
    | test => rw [htest]; exact List.nodup_range'
  · intro q
    have hle := h.le
    have hrest := h.test.rest_le
    have gtraining : p.given .training q = _ := h.training.given q
    have gvalidation : p.given .validation q = _ := h.validation.given q
    have gtest : p.given .test q = _ := h.test.fills.given q
    simp only [Split.all, List.flatMap_cons, List.flatMap_nil, gtraining, gvalidation, gtest]
    rcases Nat.lt_or_ge q c.problemCount with hq | hq
    · split_ifs <;> first | omega | simp
    · rw [if_neg (by omega), if_neg (by omega), if_neg (by omega), Corpus.sizeOf_eq_zero hq]
      exact .refl _

/-- Training and validation share the problems up to `rest`, validation from the front of each. -/
structure CutBySolutions (c : Corpus) (f : Float) (rest : ℕ) (p : Partition) : Prop where
  two_le_rest : 2 ≤ rest
  training : p.training.start = 0 ∧ p.training.labels = List.range rest
  isSome_validation : p.validation.isSome = true ↔ 0.0 < f
  validation : ∀ g, p.validation = some g → g.start = 0 ∧ g.labels = List.range rest
  append : ∀ q < rest, p.given .validation q ++ p.given .training q = List.range (c.sizeOf q)
  test : SetsAside c rest p.test

/-- The solutions of a problem that validate where problems are shared. -/
def first (f : Float) (x : Problem) : List ℕ := List.range (cut f x.size)

/-- The solutions of a problem that train where problems are shared. -/
def later (f : Float) (x : Problem) : List ℕ := (List.range x.size).drop (cut f x.size)

lemma first_append_later (hf : isProperFraction f = true) (x : Problem) :
    first f x ++ later f x = List.range x.size := by
  have hcut : cut f x.size ≤ x.size := cut_le hf x.size
  have htake : first f x = (List.range x.size).take (cut f x.size) := by
    rw [first, List.take_range, Nat.min_eq_left hcut]
  rw [htake, later, List.take_append_drop]

lemma first_of_zero (hf : isProperFraction f = true) (h : ¬ 0.0 < f) (x : Problem) :
    first f x = [] := by
  rw [first, cut_of_zero hf h]
  rfl

lemma bySolutions_eq_ok (h : bySolutions c test f = .ok p) :
    ∃ rest g, isProperFraction f = true ∧ setTestAside c test = .ok (rest, g) ∧ 2 ≤ rest ∧
      p = ⟨.sameProblems test f, .each (c.problems.take rest) Problem.label (later f),
        if 0.0 < f then some (.each (c.problems.take rest) Problem.label (first f)) else none,
        g⟩ := by
  unfold bySolutions at h
  obtain ⟨_, hf, h⟩ := bind_eq_ok.mp h
  obtain ⟨⟨rest, g⟩, haside, h⟩ := bind_eq_ok.mp h
  dsimp only at h
  split at h
  · contradiction
  · rename_i hrest
    unfold minProblems at hrest
    exact ⟨rest, g, checkValidation_eq_ok.mp hf, haside, by omega, (Except.ok.inj h).symm⟩

theorem bySolutions_cut (hc : c.Labelled) (h : bySolutions c test f = .ok p) :
    ∃ rest, p.CutBySolutions c f rest := by
  obtain ⟨rest, g, hf, haside, hrest, rfl⟩ := bySolutions_eq_ok h
  have htest := setTestAside_eq_ok hc haside
  have hlabels := hc.map_take htest.rest_le
  have hnodup : ((c.problems.take rest).map Problem.label).Nodup := hlabels ▸ List.nodup_range
  refine ⟨rest, hrest, ⟨rfl, by simp [hlabels]⟩, ?_, ?_, ?_, htest⟩
  · split_ifs <;> simp_all
  · intro x hx
    dsimp only at hx
    split_ifs at hx
    cases hx
    exact ⟨rfl, by simp [hlabels]⟩
  · intro q hq
    rw [← List.mem_range, ← hlabels, List.mem_map] at hq
    obtain ⟨x, hx, rfl⟩ := hq
    rw [hc.sizeOf_label (List.mem_of_mem_take hx), ← first_append_later hf x]
    congr 1
    · by_cases hpos : 0.0 < f
      · simp only [Partition.given, group?, if_pos hpos]
        exact Group.given_each _ hnodup hx
      · simp only [Partition.given, group?, if_neg hpos]
        exact (first_of_zero hf hpos x).symm
    · exact Group.given_each _ hnodup hx

lemma CutBySolutions.labels_validation (h : p.CutBySolutions c f rest) :
    p.labels .validation = [] ∨ p.labels .validation = List.range rest := by
  cases hv : p.validation with
  | none => simp [Partition.labels, group?, hv]
  | some g => simp [Partition.labels, group?, hv, (h.validation g hv).2]

theorem CutBySolutions.seenLabels (h : p.CutBySolutions c f rest) :
    p.seenLabels = List.range rest := by
  have htraining : p.labels .training = List.range rest := h.training.2
  apply seenLabels_eq_range
  intro q
  rw [htraining, List.mem_range]
  rcases h.labels_validation with hv | hv <;> simp [hv]

theorem CutBySolutions.exact (h : p.CutBySolutions c f rest) : p.Exact c := by
  have htraining : p.labels .training = List.range rest := h.training.2
  have htest : p.labels .test = List.range' rest (c.problemCount - rest) := h.test.fills.labels
  constructor
  · intro s
    cases s with
    | training => rw [htraining]; exact List.nodup_range
    | validation => rcases h.labels_validation with hv | hv <;> simp [hv, List.nodup_range]
    | test => rw [htest]; exact List.nodup_range'
  · intro q
    have gtest : p.given .test q = _ := h.test.fills.given q
    simp only [Split.all, List.flatMap_cons, List.flatMap_nil, gtest, List.append_nil]
    by_cases hq : q < rest
    · rw [if_neg (by omega), List.append_nil, ← h.append q hq]
      exact List.perm_append_comm
    · have gtraining : p.given .training q = [] := given_of_not_mem (by simp [htraining, hq])
      have gvalidation : p.given .validation q = [] := by
        apply given_of_not_mem
        rcases h.labels_validation with hv | hv <;> simp [hv, hq]
      rw [gtraining, gvalidation]
      rcases Nat.lt_or_ge q c.problemCount with hlt | hge
      · rw [if_pos (by omega)]
        exact .refl _
      · rw [if_neg (by omega), Corpus.sizeOf_eq_zero hge]
        exact .refl _

end Partition

/-- Both divisions by position cover the corpus exactly: run after run of whole problems, or shared
problems of which validation has the front and training the rest. -/
theorem divide_by_position (t : String) (k : ℕ) (ps : List (String × List Solution)) (s : Seeds)
    (test : TestAmount) (f : Float) (p : Partition) :
    ((Corpus.ofProblems t k ps).divide (.disjointProblems test f) s = .ok p →
      ∃ v rest, p.CutByProblems (.ofProblems t k ps) f v rest ∧
        p.labels .validation ++ p.labels .training ++ p.labels .test = List.range ps.length ∧
        p.seenLabels = List.range rest) ∧
    ((Corpus.ofProblems t k ps).divide (.sameProblems test f) s = .ok p →
      ∃ rest, p.CutBySolutions (.ofProblems t k ps) f rest ∧ p.seenLabels = List.range rest) := by
  have hc : (Corpus.ofProblems t k ps).Labelled := Corpus.labelled_ofProblems t k ps
  have hn : (Corpus.ofProblems t k ps).problemCount = ps.length := by
    simp [Corpus.problemCount, Corpus.ofProblems]
  constructor
  · intro h
    obtain ⟨v, rest, hcut⟩ := Partition.byProblems_cut hc h
    refine ⟨v, rest, hcut, ?_, hcut.seenLabels⟩
    rw [← hn]
    exact hcut.labels_append
  · intro h
    obtain ⟨rest, hcut⟩ := Partition.bySolutions_cut hc h
    exact ⟨rest, hcut, hcut.seenLabels⟩

/-- Two problems for testing; of the other four, or of their solutions, half for validation. -/
theorem divide_sixProblems_by_position :
    ∃ p q, ((Corpus.ofProblems "tokens" 3 sixProblems).divide
        (.disjointProblems (.count 2) 0.5) ⟨101⟩ = .ok p ∧
      ∃ v rest, p.CutByProblems (.ofProblems "tokens" 3 sixProblems) 0.5 v rest) ∧
    (Corpus.ofProblems "tokens" 3 sixProblems).divide (.sameProblems (.count 2) 0.5) ⟨101⟩ = .ok q ∧
      ∃ rest, q.CutBySolutions (.ofProblems "tokens" 3 sixProblems) 0.5 rest := by
  have hp := divide_by_position "tokens" 3 sixProblems ⟨101⟩ (.count 2) 0.5
  obtain ⟨v, rest, hcut, -, -⟩ := (hp _).1 rfl
  obtain ⟨rest', hcut', -⟩ := (hp _).2 rfl
  exact ⟨_, _, ⟨rfl, v, rest, hcut⟩, rfl, rest', hcut'⟩

end PairDatasets
