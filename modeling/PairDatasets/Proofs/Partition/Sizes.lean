import PairDatasets.Proofs.Order.Mapping
import PairDatasets.Proofs.Partition.Balanced

/-! How much every split gets of a problem in the balanced division, and when there is none. Both depend on
the numbers of solutions and the fractions alone: the cuts fit into what they are made of, and the first
problem that leaves nothing to train decides the error, whatever the generators draw. -/
namespace PairDatasets

namespace Corpus
variable {c : Corpus}

lemma Labelled.pairwise_label (h : c.Labelled) :
    c.problems.Pairwise fun x y => x.label < y.label := by
  rw [← List.pairwise_map, h]
  exact List.pairwise_lt_range

/-- Problems with one label are one. -/
lemma Labelled.eq_of_label (h : c.Labelled) {x y : Problem} (hx : x ∈ c.problems)
    (hy : y ∈ c.problems) (heq : x.label = y.label) : x = y := by
  have hnodup : (c.problems.map Problem.label).Nodup := h ▸ List.nodup_range
  exact List.inj_on_of_nodup_map hnodup hx hy heq

end Corpus

namespace Partition
variable {c : Corpus} {test validation : Float} {n : ℕ}

lemma share_le {f : Float} (hf : isProperFraction f = true) (hn : 0 < n) : share f n ≤ n := by
  have hcut := cut_lt hf hn
  unfold share
  split_ifs <;> omega

/-- A share of two things or more is not all of them. -/
lemma share_lt {f : Float} (hf : isProperFraction f = true) (hn : 0 < n) (htwo : 0.0 < f → 2 ≤ n) :
    share f n < n := by
  have hcut := cut_lt hf hn
  unfold share
  split_ifs with hpos
  · exact Nat.max_lt.mpr ⟨htwo hpos, hcut⟩
  · exact hn

/-- What is left of `n` solutions for validation and training. -/
def remaining (test : Float) (n : ℕ) : ℕ := n - share test n

/-- How many of `n` solutions validate. -/
def validating (test validation : Float) (n : ℕ) : ℕ := share validation (remaining test n)

/-- How many of `n` solutions train. -/
def trained (test validation : Float) (n : ℕ) : ℕ := remaining test n - validating test validation n

/-- There are enough of `n` solutions for all splits that are asked for, and the cuts leave some to
train. -/
structure Divisible (test validation : Float) (n : ℕ) : Prop where
  enough : minSolutions test validation ≤ n
  training : 1 ≤ trained test validation n

lemma divisible_iff : Divisible test validation n ↔
    minSolutions test validation ≤ n ∧ 1 ≤ trained test validation n :=
  ⟨fun h => ⟨h.enough, h.training⟩, fun h => ⟨h.1, h.2⟩⟩

instance : DecidablePred (Divisible test validation) := fun _ => decidable_of_iff' _ divisible_iff

/-- Neither cut takes more than there is. -/
structure Within (test validation : Float) (n : ℕ) : Prop where
  validation : validating test validation n ≤ remaining test n
  test : share test n ≤ n

lemma within_of_enough (htest : isProperFraction test = true)
    (hvalidation : isProperFraction validation = true) (h : minSolutions test validation ≤ n) :
    Within test validation n := by
  have hpos : 0 < n := by
    unfold minSolutions at h
    omega
  have htwo : 0.0 < test → 2 ≤ n := by
    intro hasked
    unfold minSolutions at h
    rw [if_pos hasked] at h
    omega
  have hlt := share_lt htest hpos htwo
  exact ⟨share_le hvalidation (Nat.sub_pos_of_lt hlt), hlt.le⟩

/-- The error for a problem that cannot be divided. -/
def refusal (test validation : Float) (x : Problem) : DatasetError :=
  if x.size < minSolutions test validation then
    .tooFewSolutions x.name x.size (minSolutions test validation)
  else
    .configuration
      (.nothingToTrain x.name x.size (share test x.size) (validating test validation x.size))

/-- The parts of a problem have the sizes that its number of solutions gives. -/
structure Measured (test validation : Float) (x : Problem) (r : Parts) : Prop where
  divisible : Divisible test validation x.size
  training : r.training.length = trained test validation x.size
  validation : r.validation.length = validating test validation x.size
  test : r.test.length = share test x.size

lemma divideProblem_measured (htest : isProperFraction test = true)
    (hvalidation : isProperFraction validation = true) {x : Problem} {k k' : Cutters} {r : Parts}
    (h : divideProblem test validation x k = .ok (r, k')) : Measured test validation x r := by
  obtain ⟨order, rest, hmin, horder, hrest, hleft, htraining, -, hr, hv⟩ := divideProblem_eq_ok h
  have hwithin := within_of_enough htest hvalidation hmin
  have hlength : order.length = x.size := by simpa using horder.length_eq
  have hremaining : rest.length = remaining test x.size := by
    rw [hrest.length_eq, List.length_take, hlength]
    exact Nat.min_eq_left (Nat.sub_le _ _)
  have hdropped : (rest.drop (share validation rest.length)).length = trained test validation x.size := by
    rw [List.length_drop, hremaining]
    rfl
  refine ⟨⟨hmin, ?_⟩, ?_, ?_, ?_⟩
  · rw [← hdropped]
    exact List.length_pos_iff.mpr hleft
  · rw [htraining.length_eq, hdropped]
  · rw [hv, List.length_take, hremaining]
    exact Nat.min_eq_left hwithin.validation
  · rw [hr, List.length_drop, hlength]
    exact Nat.sub_sub_self hwithin.test

lemma divideProblem_eq_error {x : Problem} {k : Cutters} {e : DatasetError}
    (h : divideProblem test validation x k = .error e) :
    ¬ Divisible test validation x.size ∧ e = refusal test validation x := by
  unfold divideProblem at h
  dsimp only at h
  have hremaining : ((k.validation.shuffle
      (((k.test.shuffle (List.range x.size)).1).take (x.size - share test x.size))).1).length =
        remaining test x.size := by
    rw [Generator.length_shuffle, List.length_take, Generator.length_shuffle, List.length_range]
    exact Nat.min_eq_left (Nat.sub_le _ _)
  rw [hremaining] at h
  split at h
  · rename_i hfew
    cases h
    exact ⟨fun hd => hfew.not_ge hd.enough, (if_pos hfew).symm⟩
  · rename_i henough
    split at h
    · rename_i hleft
      cases h
      have hnone : trained test validation x.size = 0 := by
        rw [List.isEmpty_iff, ← List.length_eq_zero_iff, List.length_drop, hremaining] at hleft
        exact hleft
      exact ⟨fun hd => absurd hd.training (by omega), (if_neg henough).symm⟩
    · cases h

lemma divideAll_measured (htest : isProperFraction test = true)
    (hvalidation : isProperFraction validation = true) {xs : List Problem} {k : Cutters}
    {rs : List Parts} (h : divideAll test validation xs k = .ok rs) :
    List.Forall₂ (Measured test validation) xs rs := by
  induction xs generalizing k rs with
  | nil =>
    cases h
    exact .nil
  | cons x xs ih =>
    rw [divideAll] at h
    obtain ⟨⟨r, k'⟩, hr, h⟩ := bind_eq_ok.mp h
    obtain ⟨rest, hrest, h⟩ := bind_eq_ok.mp h
    cases h
    exact .cons (divideProblem_measured htest hvalidation hr) (ih hrest)

/-- The problems in front of the one that is refused are all divided. -/
lemma divideAll_eq_error (htest : isProperFraction test = true)
    (hvalidation : isProperFraction validation = true) {xs : List Problem} {k : Cutters}
    {e : DatasetError} (h : divideAll test validation xs k = .error e) :
    ∃ front x back, xs = front ++ x :: back ∧ (∀ y ∈ front, Divisible test validation y.size) ∧
      ¬ Divisible test validation x.size ∧ e = refusal test validation x := by
  induction xs generalizing k with
  | nil => cases h
  | cons x xs ih =>
    rw [divideAll] at h
    rcases bind_eq_error.mp h with hx | ⟨⟨r, k'⟩, hr, h⟩
    · obtain ⟨hnot, he⟩ := divideProblem_eq_error hx
      exact ⟨[], x, xs, rfl, by simp, hnot, he⟩
    · rcases bind_eq_error.mp h with hxs | ⟨rest, -, h⟩
      · obtain ⟨front, y, back, rfl, hfront, hy⟩ := ih hxs
        have hx := (divideProblem_measured htest hvalidation hr).divisible
        exact ⟨x :: front, y, back, rfl, List.forall_mem_cons.mpr ⟨hx, hfront⟩, hy⟩
      · cases h

/-- The groups of a balanced division have one slice for each problem, of the size that its number of
solutions gives. -/
structure Sized (c : Corpus) (test validation : Float) (p : Partition) : Prop where
  labels : ∀ s g, p.group? s = some g → g.labels = List.range c.problemCount
  training : p.training.sizes = c.counts.map (trained test validation)
  validation : p.validation.map Group.sizes =
    if 0.0 < validation then some (c.counts.map (validating test validation)) else none
  test : p.test.map Group.sizes = if 0.0 < test then some (c.counts.map (share test)) else none

lemma sizes_each {xs : List Problem} {rs : List Parts}
    (h : List.Forall₂ (Measured test validation) xs rs) {pick : Parts → List ℕ} {size : ℕ → ℕ}
    (hpick : ∀ x r, Measured test validation x r → (pick r).length = size x.size) :
    (Group.each rs Parts.problem pick).sizes = (xs.map Problem.size).map size := by
  unfold Group.sizes Group.each
  rw [List.map_map, List.map_map]
  exact (map_eq_map_of_forall₂ (fun x r hr => (hpick x r hr).symm) h).symm

lemma map_sizes_asked (f : Float) (g : Group) :
    (if 0.0 < f then some g else none).map Group.sizes = if 0.0 < f then some g.sizes else none := by
  split_ifs <;> rfl

theorem balanced_sized (hc : c.Labelled) {s : Seeds} {p : Partition}
    (h : balanced c test validation s = .ok p) :
    (∀ x ∈ c.problems, Divisible test validation x.size) ∧ p.Sized c test validation := by
  have hgroups := (balanced_balances hc h).groups
  unfold balanced at h
  obtain ⟨_, htest, h⟩ := bind_eq_ok.mp h
  obtain ⟨_, hvalidation, h⟩ := bind_eq_ok.mp h
  obtain ⟨rs, hrs, h⟩ := bind_eq_ok.mp h
  have hmeasured :=
    divideAll_measured (checkTest_eq_ok.mp htest) (checkValidation_eq_ok.mp hvalidation) hrs
  obtain rfl : ofParts test validation rs = p := Except.ok.inj h
  constructor
  · intro x hx
    obtain ⟨r, -, hr⟩ := exists_of_forall₂_right hmeasured.flip hx
    exact hr.divisible
  · refine ⟨fun s g hg => (hgroups s g hg).2, ?_, ?_, ?_⟩
    · exact sizes_each hmeasured fun _ _ hr => hr.training
    · rw [ofParts, map_sizes_asked, sizes_each hmeasured fun _ _ hr => hr.validation]
      rfl
    · rw [ofParts, map_sizes_asked, sizes_each hmeasured fun _ _ hr => hr.test]
      rfl

/-- The problem with the least label among those that cannot be divided. -/
structure Refuses (c : Corpus) (test validation : Float) (x : Problem) : Prop where
  mem : x ∈ c.problems
  not_divisible : ¬ Divisible test validation x.size
  least : ∀ y ∈ c.problems, ¬ Divisible test validation y.size → x.label ≤ y.label

lemma balanced_eq_error (hc : c.Labelled) (htest : isProperFraction test = true)
    (hvalidation : isProperFraction validation = true) {s : Seeds} {e : DatasetError}
    (h : balanced c test validation s = .error e) :
    ∃ x, Refuses c test validation x ∧ e = refusal test validation x := by
  unfold balanced at h
  rcases bind_eq_error.mp h with hfail | ⟨_, -, h⟩
  · rw [checkTest_eq_ok.mpr htest] at hfail
    cases hfail
  rcases bind_eq_error.mp h with hfail | ⟨_, -, h⟩
  · rw [checkValidation_eq_ok.mpr hvalidation] at hfail
    cases hfail
  rcases bind_eq_error.mp h with hfail | ⟨rs, -, h⟩
  · obtain ⟨front, x, back, hsplit, hfront, hnot, he⟩ := divideAll_eq_error htest hvalidation hfail
    refine ⟨x, ⟨by simp [hsplit], hnot, ?_⟩, he⟩
    intro y hy hynot
    have hsorted := hc.pairwise_label
    rw [hsplit] at hy hsorted
    rcases List.mem_append.mp hy with hy | hy
    · exact absurd (hfront y hy) hynot
    · rcases List.mem_cons.mp hy with rfl | hy
      · exact le_rfl
      · exact (List.rel_of_pairwise_cons (List.pairwise_append.mp hsorted).2.1 hy).le
  · cases h

end Partition

/-- The balanced division never cuts more than there is. It succeeds for every seed exactly if all
problems can be divided, then with the sizes that the fractions give, and otherwise the error is that of
the first problem that cannot be divided. -/
theorem divide_balanced_exact (t : String) (k : ℕ) (ps : List (String × List Solution))
    {test validation : Float} (htest : isProperFraction test = true)
    (hvalidation : isProperFraction validation = true) (s : Seeds) :
    (∀ n, Partition.minSolutions test validation ≤ n → Partition.Within test validation n) ∧
      ((∃ p, (Corpus.ofProblems t k ps).divide (.balanced test validation) s = .ok p) ↔
        ∀ x ∈ (Corpus.ofProblems t k ps).problems, Partition.Divisible test validation x.size) ∧
      (∀ p, (Corpus.ofProblems t k ps).divide (.balanced test validation) s = .ok p →
        p.Sized (.ofProblems t k ps) test validation) ∧
      ∀ e, (Corpus.ofProblems t k ps).divide (.balanced test validation) s = .error e ↔
        ∃ x, Partition.Refuses (.ofProblems t k ps) test validation x ∧
          e = Partition.refusal test validation x := by
  have hc : (Corpus.ofProblems t k ps).Labelled := Corpus.labelled_ofProblems t k ps
  generalize Corpus.ofProblems t k ps = c at hc ⊢
  change _ ∧ ((∃ p, Partition.balanced c test validation s = .ok p) ↔ _) ∧
    (∀ p, Partition.balanced c test validation s = .ok p → _) ∧
    ∀ e, Partition.balanced c test validation s = .error e ↔ _
  refine ⟨fun n => Partition.within_of_enough htest hvalidation, ?_, ?_, ?_⟩
  · constructor
    · rintro ⟨p, hp⟩
      exact (Partition.balanced_sized hc hp).1
    · intro hall
      cases h : Partition.balanced c test validation s with
      | ok p => exact ⟨p, rfl⟩
      | error e =>
        obtain ⟨x, hx, -⟩ := Partition.balanced_eq_error hc htest hvalidation h
        exact absurd (hall x hx.mem) hx.not_divisible
  · intro p hp
    exact (Partition.balanced_sized hc hp).2
  · intro e
    constructor
    · exact Partition.balanced_eq_error hc htest hvalidation
    · rintro ⟨x, hx, rfl⟩
      cases h : Partition.balanced c test validation s with
      | ok p => exact absurd ((Partition.balanced_sized hc h).1 x hx.mem) hx.not_divisible
      | error e =>
        obtain ⟨y, hy, rfl⟩ := Partition.balanced_eq_error hc htest hvalidation h
        rw [hc.eq_of_label hx.mem hy.mem
          (le_antisymm (hx.least y hy.mem hy.not_divisible) (hy.least x hx.mem hx.not_divisible))]

/-- Six and three solutions. -/
def sixAndThree : List (String × List Solution) :=
  [("first", List.replicate 6 ⟨"solution", [1, 2]⟩), ("second", List.replicate 3 ⟨"solution", [1, 2]⟩)]

/-- Two thirds of three solutions for testing and one for validation leave none to train, half of them
leave one. -/
theorem divide_sixAndThree_exact :
    (Corpus.ofProblems "tokens" 3 sixAndThree).divide (.balanced 0.67 0.2) ⟨101⟩ =
        .error (.configuration (.nothingToTrain "second" 3 2 1)) ∧
      ∃ p, (Corpus.ofProblems "tokens" 3 sixAndThree).divide (.balanced 0.5 0.2) ⟨101⟩ = .ok p ∧
        p.Sized (.ofProblems "tokens" 3 sixAndThree) 0.5 0.2 := by
  have htwoThirds : isProperFraction 0.67 = true := by decide +kernel
  have hhalf : isProperFraction 0.5 = true := by decide +kernel
  have hfifth : isProperFraction 0.2 = true := by decide +kernel
  constructor
  · let second : Problem := ⟨"second", 1, List.replicate 3 ⟨"solution", [1, 2]⟩⟩
    have hrefuses : Partition.Refuses (.ofProblems "tokens" 3 sixAndThree) 0.67 0.2 second :=
      ⟨by decide, by decide +kernel, by decide +kernel⟩
    have hsize : second.size = 3 := rfl
    have hcuts : ¬ 3 < Partition.minSolutions 0.67 0.2 ∧ Partition.share 0.67 3 = 2 ∧
      Partition.validating 0.67 0.2 3 = 1 := by decide +kernel
    refine ((divide_balanced_exact "tokens" 3 sixAndThree htwoThirds hfifth ⟨101⟩).2.2.2 _).mpr
      ⟨second, hrefuses, ?_⟩
    rw [Partition.refusal, hsize, if_neg hcuts.1, hcuts.2.1, hcuts.2.2]
  · have hexact := divide_balanced_exact "tokens" 3 sixAndThree hhalf hfifth ⟨101⟩
    obtain ⟨p, hp⟩ := hexact.2.1.mpr (by decide +kernel)
    exact ⟨p, hp, hexact.2.2.1 p hp⟩

end PairDatasets
