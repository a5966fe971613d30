import PairDatasets.Proofs.Order.Mapping
import PairDatasets.Proofs.Partition.Fraction
import PairDatasets.Proofs.Partition.Group
import PairDatasets.Proofs.Random.Permutation

/-! The balanced division. One problem is shuffled and cut without loss, and no split that is asked
for goes empty; by induction on the problems this holds along the whole corpus, although the
generators go on from problem to problem. -/
namespace PairDatasets
namespace Partition
variable {c : Corpus} {p : Partition} {test validation : Float}

/-- The solutions of one problem go to the splits that are asked for, all of them and each once. -/
structure Shares (test validation : Float) (x : Problem) (r : Parts) : Prop where
  problem : r.problem = x.label
  perm : (r.training ++ (r.validation ++ r.test)).Perm (List.range x.size)
  training : r.training ≠ []
  validation : r.validation ≠ [] ↔ 0.0 < validation
  test : r.test ≠ [] ↔ 0.0 < test

lemma share_pos_iff {f : Float} {n : ℕ} : 0 < share f n ↔ 0.0 < f := by
  unfold share
  split_ifs with h
  · exact iff_of_true (Nat.lt_of_lt_of_le Nat.one_pos (Nat.le_max_left _ _)) h
  · simp [h]

/-- What one division does: a shuffle, a cut from the end, a shuffle, a cut from the front and a last
shuffle, of which only the cuts depend on the fractions. -/
lemma divideProblem_eq_ok {x : Problem} {k k' : Cutters} {r : Parts}
    (h : divideProblem test validation x k = .ok (r, k')) :
    ∃ order rest : List ℕ, minSolutions test validation ≤ x.size ∧ order.Perm (List.range x.size) ∧
      rest.Perm (order.take (x.size - share test x.size)) ∧
      rest.drop (share validation rest.length) ≠ [] ∧
      r.training.Perm (rest.drop (share validation rest.length)) ∧ r.problem = x.label ∧
      r.test = order.drop (x.size - share test x.size) ∧
      r.validation = rest.take (share validation rest.length) := by
  unfold divideProblem at h
  dsimp only at h
  split at h
  · contradiction
  · rename_i hmin
    split at h
    · contradiction
    · rename_i hleft
      cases h
      exact ⟨_, _, Nat.le_of_not_lt hmin, Generator.shuffle_perm _ _, Generator.shuffle_perm _ _,
        by simpa using hleft, Generator.shuffle_perm _ _, rfl, rfl, rfl⟩

theorem divideProblem_shares {x : Problem} {k k' : Cutters} {r : Parts}
    (h : divideProblem test validation x k = .ok (r, k')) : Shares test validation x r := by
  obtain ⟨order, rest, hmin, horder, hrest, hleft, htraining, hproblem, htest, hvalidation⟩ :=
    divideProblem_eq_ok h
  set t := share test x.size with ht
  set v := share validation rest.length with hv
  have hlength : order.length = x.size := by simpa using horder.length_eq
  refine ⟨hproblem, ?_, ?_, ?_, ?_⟩
  · have hfront : (r.training ++ rest.take v).Perm (order.take (x.size - t)) := by
      refine List.perm_append_comm.trans (((List.Perm.refl _).append htraining).trans ?_)
      rw [List.take_append_drop]
      exact hrest
    rw [hvalidation, htest, ← List.append_assoc]
    refine (hfront.append_right _).trans ?_
    rw [List.take_append_drop]
    exact horder
  · intro hnil
    rw [hnil] at htraining
    exact hleft htraining.symm.eq_nil
  · -- Something is left to train, so validation takes all of its share.
    have hlong : v < rest.length := by simpa using hleft
    rw [← share_pos_iff (n := rest.length), ← hv, hvalidation, ← List.length_pos_iff,
      List.length_take]
    omega
  · -- The problem has solutions, so a share of them is cut off at the end and is not empty.
    have hsome : 0 < x.size := by
      unfold minSolutions at hmin
      omega
    rw [← share_pos_iff (n := x.size), ← ht, htest, ← List.length_pos_iff, List.length_drop, hlength]
    omega

theorem divideAll_shares {xs : List Problem} {k : Cutters} {rs : List Parts}
    (h : divideAll test validation xs k = .ok rs) : List.Forall₂ (Shares test validation) xs rs := by
  induction xs generalizing k rs with
  | nil =>
    cases h
    exact .nil
  | cons x xs ih =>
    rw [divideAll] at h
    obtain ⟨⟨r, k'⟩, hr, h⟩ := bind_eq_ok.mp h
    obtain ⟨rest, hrest, h⟩ := bind_eq_ok.mp h
    cases h
    exact .cons (divideProblem_shares hr) (ih hrest)

/-- The lists of a problem, one of each split that there is. -/
def parts (p : Partition) (problem : ℕ) : List (List ℕ) :=
  Split.all.filterMap fun s => (p.group? s).map fun g => g.given problem

lemma flatten_parts (p : Partition) (q : ℕ) :
    (p.parts q).flatten = Split.all.flatMap fun s => p.given s q := by
  unfold parts given
  generalize Split.all = splits
  induction splits with
  | nil => rfl
  | cons s splits ih =>
    rw [List.filterMap_cons, List.flatMap_cons, ← ih]
    cases p.group? s <;> rfl

/-- Every split that is asked for takes a part of every problem. -/
structure Balances (c : Corpus) (test validation : Float) (p : Partition) : Prop where
  isSome_test : p.test.isSome = true ↔ 0.0 < test
  isSome_validation : p.validation.isSome = true ↔ 0.0 < validation
  groups : ∀ s g, p.group? s = some g → g.start = 0 ∧ g.labels = List.range c.problemCount
  perm : ∀ q < c.problemCount, (p.parts q).flatten.Perm (List.range (c.sizeOf q))
  ne_nil : ∀ q < c.problemCount, ∀ part ∈ p.parts q, part ≠ []

/-- The groups made of the parts of all problems. -/
def ofParts (test validation : Float) (rs : List Parts) : Partition :=
  ⟨.balanced test validation, .each rs Parts.problem Parts.training,
    if 0.0 < validation then some (.each rs Parts.problem Parts.validation) else none,
    if 0.0 < test then some (.each rs Parts.problem Parts.test) else none⟩

lemma balanced_eq_ok {s : Seeds} (h : balanced c test validation s = .ok p) :
    isProperFraction test = true ∧ isProperFraction validation = true ∧
      ∃ rs, List.Forall₂ (Shares test validation) c.problems rs ∧
        p = ofParts test validation rs := by
  unfold balanced at h
  obtain ⟨_, htest, h⟩ := bind_eq_ok.mp h
  obtain ⟨_, hvalidation, h⟩ := bind_eq_ok.mp h
  obtain ⟨rs, hrs, h⟩ := bind_eq_ok.mp h
  exact ⟨checkTest_eq_ok.mp htest, checkValidation_eq_ok.mp hvalidation, rs, divideAll_shares hrs,
    (Except.ok.inj h).symm⟩

lemma group?_ofParts {rs : List Parts} {s : Split} {g : Group}
    (h : (ofParts test validation rs).group? s = some g) :
    ∃ pick : Parts → List ℕ, g = .each rs Parts.problem pick := by
  cases s with
  | training =>
    cases h
    exact ⟨_, rfl⟩
  | validation =>
    simp only [ofParts, group?] at h
    split_ifs at h
    cases h
    exact ⟨_, rfl⟩
  | test =>
    simp only [ofParts, group?] at h
    split_ifs at h
    cases h
    exact ⟨_, rfl⟩

lemma parts_ofParts {rs : List Parts} (h : (rs.map Parts.problem).Nodup) {r : Parts} (hr : r ∈ rs) :
    (ofParts test validation rs).parts r.problem = r.training ::
      ((if 0.0 < validation then [r.validation] else []) ++
        (if 0.0 < test then [r.test] else [])) := by
  have hgiven (pick : Parts → List ℕ) := Group.given_each pick h hr
  simp only [parts, ofParts, Split.all, group?]
  split_ifs <;> simp [hgiven]

lemma flatten_asked {f : Float} {xs : List ℕ} (h : xs ≠ [] ↔ 0.0 < f) :
    (if 0.0 < f then [xs] else []).flatten = xs := by
  split_ifs with h0
  · simp
  · exact (not_not.mp (mt h.mp h0)).symm

lemma ne_nil_of_asked {f : Float} {xs part : List ℕ} (h : xs ≠ [] ↔ 0.0 < f)
    (hp : part ∈ if 0.0 < f then [xs] else []) : part ≠ [] := by
  split_ifs at hp with h0
  · rw [List.mem_singleton.mp hp]
    exact h.mpr h0
  · cases hp

theorem balanced_balances (hc : c.Labelled) {s : Seeds} (h : balanced c test validation s = .ok p) :
    p.Balances c test validation := by
  obtain ⟨-, -, rs, hrs, rfl⟩ := balanced_eq_ok h
  have hlabels : rs.map Parts.problem = List.range c.problemCount := by
    rw [← map_eq_map_of_forall₂ (fun _ _ h => h.problem.symm) hrs, hc]
  have hnodup : (rs.map Parts.problem).Nodup := hlabels ▸ List.nodup_range
  have hparts {q : ℕ} (hq : q < c.problemCount) : ∃ x r, r ∈ rs ∧ Shares test validation x r ∧
      r.problem = q ∧ x.size = c.sizeOf q := by
    rw [← List.mem_range, ← hc, List.mem_map] at hq
    obtain ⟨x, hx, rfl⟩ := hq
    obtain ⟨r, hr, hshares⟩ := exists_of_forall₂_right hrs.flip hx
    exact ⟨x, r, hr, hshares, hshares.problem, (hc.sizeOf_label hx).symm⟩
  refine ⟨?_, ?_, ?_, ?_, ?_⟩
  · unfold ofParts
    split_ifs <;> simp_all
  · unfold ofParts
    split_ifs <;> simp_all
  · intro s g hg
    obtain ⟨pick, rfl⟩ := group?_ofParts hg
    exact ⟨rfl, by rw [Group.labels_each, hlabels]⟩
  · intro q hq
    obtain ⟨x, r, hr, hshares, rfl, hsize⟩ := hparts hq
    rw [parts_ofParts hnodup hr, List.flatten_cons, List.flatten_append, flatten_asked hshares.validation,
      flatten_asked hshares.test, ← hsize]
    exact hshares.perm
  · intro q hq part hpart
    obtain ⟨x, r, hr, hshares, rfl, -⟩ := hparts hq
    rw [parts_ofParts hnodup hr, List.mem_cons, List.mem_append] at hpart
    rcases hpart with rfl | hpart | hpart
    · exact hshares.training
    · exact ne_nil_of_asked hshares.validation hpart
    · exact ne_nil_of_asked hshares.test hpart

theorem Balances.exact (h : p.Balances c test validation) : p.Exact c := by
  have hlabels (s : Split) : p.labels s = [] ∨ p.labels s = List.range c.problemCount := by
    cases hg : p.group? s with
    | none => simp [Partition.labels, hg]
    | some g => simp [Partition.labels, hg, (h.groups s g hg).2]
  constructor
  · intro s
    rcases hlabels s with hs | hs <;> simp [hs, List.nodup_range]
  · intro q
    by_cases hq : q < c.problemCount
    · rw [← flatten_parts]
      exact h.perm q hq
    · have hnone (s : Split) : p.given s q = [] := by
        apply given_of_not_mem
        rcases hlabels s with hs | hs <;> simp [hs, hq]
      simp [hnone, Corpus.sizeOf_eq_zero (Nat.le_of_not_lt hq)]

end Partition

/-- The balanced division is an exact split of every problem. -/
theorem divide_balanced {t : String} {k : ℕ} {ps : List (String × List Solution)}
    {test validation : Float} {s : Seeds} {p : Partition}
    (h : (Corpus.ofProblems t k ps).divide (.balanced test validation) s = .ok p) :
    p.Balances (.ofProblems t k ps) test validation :=
  Partition.balanced_balances (Corpus.labelled_ofProblems t k ps) h

/-- A fifth of four solutions is cut to none and raised to one. -/
theorem divide_sixProblems_balanced :
    ∃ p, (Corpus.ofProblems "tokens" 3 sixProblems).divide (.balanced 0.2 0.5) ⟨101⟩ = .ok p ∧
      p.Balances (.ofProblems "tokens" 3 sixProblems) 0.2 0.5 := by
  obtain ⟨p, hp⟩ := exists_of_isOk (x := (Corpus.ofProblems "tokens" 3 sixProblems).divide
    (.balanced 0.2 0.5) ⟨101⟩) (by decide +kernel)
  exact ⟨p, hp, divide_balanced hp⟩

end PairDatasets
