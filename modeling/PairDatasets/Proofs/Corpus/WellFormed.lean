import PairDatasets.Proofs.Corpus.Lines
import PairDatasets.Proofs.Corpus.Load
import PairDatasets.Proofs.Features.Records
import PairDatasets.Proofs.Partition.Separation
import PairDatasets.Proofs.Report.Samples

/-! Well-formed corpora. What loading lets into a corpus keeps to its limits and to the vocabulary, so
pairs drawn from a division of it can always be looked up, encoded and written. -/
namespace PairDatasets

namespace Solution
variable {vocabulary : ℕ}

lemma toNat_of_ofLine {line : String} {s : Solution} (h : ofLine vocabulary line = .ok s) :
    ∀ token ∈ s.tokens, token.toNat < vocabulary := by
  intro token htoken
  obtain ⟨fields, -, hfields⟩ := ofLine_eq_ok_iff.mp h
  obtain ⟨field, -, n, -, -, hlt, rfl⟩ := exists_of_forall₂_right hfields htoken
  exact (Nat.mod_le _ _).trans_lt hlt

lemma toNat_of_mem_ofText {text : String} {s : Solution} (h : s ∈ ofText vocabulary text) :
    ∀ token ∈ s.tokens, token.toNat < vocabulary := by
  obtain ⟨line, -, hline⟩ := List.mem_filterMap.mp h
  cases hs : ofLine vocabulary line with
  | error e =>
    rw [hs] at hline
    cases hline
  | ok s' =>
    rw [hs] at hline
    cases hline
    exact toNat_of_ofLine hs

end Solution

lemma Candidates.length_select {c : CorpusConfig} {seeds : Seeds} {names order : List String}
    (h : select c seeds names = .ok order) {n : ℕ} (hn : c.maxProblems = some n) :
    order.length ≤ n := by
  unfold select at h
  rw [hn] at h
  dsimp only at h
  split_ifs at h
  cases h
  exact List.length_take_le _ _

/-- The largest of some numbers bounds them, and is one of them if there are any. -/
lemma foldl_max_spec {ns : List ℕ} (h : ns ≠ []) :
    ns.foldl max 0 ∈ ns ∧ ∀ n ∈ ns, n ≤ ns.foldl max 0 := by
  -- the start 0 counts as a number only if all of them are 0
  have hmax : (0 :: ns).max? = some (ns.foldl max 0) := List.max?_cons'
  obtain ⟨hmem, hle⟩ := List.max?_eq_some_iff.mp hmax
  refine ⟨?_, fun n hn => hle n (List.mem_cons_of_mem 0 hn)⟩
  rcases List.mem_cons.mp hmem with hzero | hmem
  · obtain ⟨n, hn⟩ := List.exists_mem_of_ne_nil ns h
    have hn0 := hle n (List.mem_cons_of_mem 0 hn)
    rw [hzero] at hn0 ⊢
    rwa [Nat.le_zero.mp hn0] at hn
  · exact hmem

namespace Corpus
variable {t : FileTree} {c : CorpusConfig} {seeds : Seeds} {x : Corpus}

/-- A corpus that keeps to the limits of its configuration. -/
structure WellFormed (c : CorpusConfig) (x : Corpus) : Prop where
  labelled : x.Labelled
  populated : ∀ p ∈ x.problems, max 1 c.minSolutions ≤ p.size
  admitted : ∀ p ∈ x.problems, ∀ s ∈ p.solutions,
    c.minTokens ≤ s.size ∧ ∀ long, c.maxTokens = some long → s.size ≤ long
  tokens : ∀ p ∈ x.problems, ∀ s ∈ p.solutions, ∀ token ∈ s.tokens, token.toNat < x.vocabulary
  vocabulary_pos : 0 < x.vocabulary
  le_longest : ∀ p ∈ x.problems, ∀ s ∈ p.solutions, s.size ≤ x.longest
  exists_longest : ∃ p ∈ x.problems, ∃ s ∈ p.solutions, s.size = x.longest
  two_le : 2 ≤ x.problemCount
  le_solutionCount : 2 * x.problemCount ≤ x.solutionCount
  le_maxProblems : ∀ n, c.maxProblems = some n → x.problemCount ≤ n

lemma longest_spec {info : DatasetInfo} {absent : List String} {readings : List Reading}
    (h : x.Holds info c absent readings) (hsome : ∀ p ∈ x.problems, p.solutions ≠ []) :
    (∀ p ∈ x.problems, ∀ s ∈ p.solutions, s.size ≤ x.longest) ∧
      ∃ p ∈ x.problems, ∃ s ∈ p.solutions, s.size = x.longest := by
  obtain ⟨p, hp⟩ : ∃ p, p ∈ x.problems :=
    List.exists_mem_of_length_pos (Nat.zero_lt_two.trans_le h.two_le)
  obtain ⟨s, hs⟩ := List.exists_mem_of_ne_nil _ (hsome p hp)
  have hne : (x.problems.flatMap Problem.solutions).map Solution.size ≠ [] :=
    List.ne_nil_of_mem (List.mem_map_of_mem (List.mem_flatMap.mpr ⟨p, hp, hs⟩))
  obtain ⟨hmem, hle⟩ := foldl_max_spec hne
  rw [h.longest]
  constructor
  · intro p hp s hs
    exact hle _ (List.mem_map_of_mem (List.mem_flatMap.mpr ⟨p, hp, hs⟩))
  · obtain ⟨s, hs, hsize⟩ := List.mem_map.mp hmem
    obtain ⟨p, hp, hs⟩ := List.mem_flatMap.mp hs
    exact ⟨p, hp, s, hs, hsize⟩

theorem wellFormed_of_load (h : (load t c seeds).outcome = .ok x) : x.WellFormed c := by
  obtain ⟨info, found, names, hinfo, -, hnames, hx⟩ := holds_of_load h
  have hsolution (p : Problem) (hp : p ∈ x.problems) (s : Solution) (hs : s ∈ p.solutions) :
      ∃ text, s ∈ Solution.ofText info.vocabulary text ∧ c.admits s.size = true := by
    obtain ⟨text, -, hperm, -, -⟩ := hx.exists_text hp
    exact ⟨text, by simpa using hperm.mem_iff.mp hs⟩
  have hlongest := longest_spec hx fun p hp => (hx.exists_text hp).choose_spec.2.2.1
  refine ⟨hx.labelled, ?_, ?_, ?_, ?_, hlongest.1, hlongest.2, hx.two_le, hx.le_solutionCount, ?_⟩
  · intro p hp
    obtain ⟨text, -, -, hsome, hmany⟩ := hx.exists_text hp
    exact max_le (List.length_pos_iff.mpr hsome) hmany
  · intro p hp s hs
    obtain ⟨text, -, hadmits⟩ := hsolution p hp s hs
    exact CorpusConfig.admits_iff.mp hadmits
  · intro p hp s hs
    obtain ⟨text, htext, -⟩ := hsolution p hp s hs
    rw [hx.vocabulary]
    exact Solution.toNat_of_mem_ofText htext
  · rw [hx.vocabulary]
    exact DatasetInfo.vocabulary_pos hinfo
  · intro n hn
    have hlength := hx.keeps.length_eq
    have hfilter := List.length_filter_le (Reading.accepted c)
      (names.map (Reading.ofProblem t c info.vocabulary))
    rw [hlength, List.length_map] at hfilter
    exact hfilter.trans (Candidates.length_select hnames hn)

end Corpus

lemma TokenRow.cells_eq_error {length vocabulary : ℕ} {tokens : List UInt32} {e : DatasetError}
    (htokens : ∀ token ∈ tokens, token.toNat < vocabulary) (h : cells length tokens = .error e) :
    e = .breakdown .tokenOverflow ∧ 2 ^ 31 ≤ vocabulary := by
  unfold cells at h
  cases hids : (tokens.take length).mapM shift with
  | ok ids =>
    rw [hids] at h
    cases h
  | error e' =>
    rw [hids] at h
    cases h
    obtain ⟨token, htoken, hshift⟩ := exists_of_mapM_eq_error hids
    have hlt := htokens token (List.mem_of_mem_take htoken)
    unfold shift at hshift
    split_ifs at hshift with hlast
    cases hshift
    rw [hlast] at hlt
    exact ⟨rfl, hlt⟩

namespace Corpus
variable {c : CorpusConfig} {x : Corpus} {encoding : Encoding}

/-- Both solutions of a pair are there. -/
def HasSides (x : Corpus) (p : Pair) : Prop :=
  (x.solution? p.problem1 p.solution1).isSome ∧ (x.solution? p.problem2 p.solution2).isSome

lemma mem_of_solution? {q i : ℕ} {s : Solution} (h : x.solution? q i = some s) :
    ∃ p ∈ x.problems, s ∈ p.solutions := by
  obtain ⟨p, hp, hs⟩ := Option.bind_eq_some_iff.mp h
  exact ⟨p, List.mem_of_getElem? hp, List.mem_of_getElem? hs⟩

lemma WellFormed.sides (h : x.WellFormed c) {p : Pair} (hp : x.HasSides p) :
    ∃ left right, x.sides p = .ok (left, right) ∧
      (∀ token ∈ left.tokens, token.toNat < x.vocabulary) ∧
      ∀ token ∈ right.tokens, token.toNat < x.vocabulary := by
  obtain ⟨left, hleft⟩ := Option.isSome_iff_exists.mp hp.1
  obtain ⟨right, hright⟩ := Option.isSome_iff_exists.mp hp.2
  obtain ⟨q, hq, hmem⟩ := mem_of_solution? hleft
  obtain ⟨q', hq', hmem'⟩ := mem_of_solution? hright
  have htokens := h.tokens q hq left hmem
  have htokens' := h.tokens q' hq' right hmem'
  exact ⟨left, right, sides_eq_ok.mpr ⟨hleft, hright, htokens, htokens'⟩, htokens, htokens'⟩

lemma WellFormed.row_eq_error (h : x.WellFormed c) {p : Pair} (hp : x.HasSides p)
    {e : DatasetError} (he : x.row encoding p = .error e) :
    e = .breakdown .tokenOverflow ∧ 2 ^ 31 ≤ x.vocabulary ∧
      ∃ length, encoding = .sequence length := by
  obtain ⟨left, right, hsides, hleft, hright⟩ := h.sides hp
  unfold row at he
  rw [hsides] at he
  cases encoding with
  | bag => cases he
  | oneHot length => cases he
  | sequence length =>
    suffices hcells : e = .breakdown .tokenOverflow ∧ 2 ^ 31 ≤ x.vocabulary from
      ⟨hcells.1, hcells.2, length, rfl⟩
    cases hl : TokenRow.cells (length.getD x.longest) left.tokens with
    | error e' =>
      simp only [bind, Except.bind, hl] at he
      cases he
      exact TokenRow.cells_eq_error hleft hl
    | ok l =>
      cases hr : TokenRow.cells (length.getD x.longest) right.tokens with
      | error e' =>
        simp only [bind, Except.bind, hl, hr] at he
        cases he
        exact TokenRow.cells_eq_error hright hr
      | ok r =>
        simp only [bind, Except.bind, hl, hr] at he
        cases he

/-- Pairs that a corpus can encode and write: what stops this are the limits of memory and of signed
cells, and failures of files. -/
structure Serves (x : Corpus) (pairs : List Pair) : Prop where
  assembles : ∀ (encoding : Encoding) mode,
    Memory.holdsArray (pairs.length :: encoding.shape (2 * x.vocabulary) x.longest) = true →
    (∀ length, encoding = .sequence length → x.vocabulary < 2 ^ 31) →
      ∃ a, x.assemble encoding mode pairs = .ok a
  breakdown : ∀ encoding mode e, x.assemble encoding mode pairs = .error e → ∃ b, e = .breakdown b
  writes : ∀ dir split session p,
    ((Report.writeSamples dir x split pairs).run session).1 ≠ .error (.report (.missingSolution p))

theorem WellFormed.serves (h : x.WellFormed c) {pairs : List Pair}
    (hpairs : ∀ p ∈ pairs, x.HasSides p) : x.Serves pairs := by
  -- the arrays fail with the error of some row, and a row fails for its cells alone
  have hfeatures (encoding : Encoding) (e : DatasetError)
      (he : x.features encoding pairs = .error e) : e = .breakdown .tokenOverflow ∧
        2 ^ 31 ≤ x.vocabulary ∧ ∃ length, encoding = .sequence length := by
    have hfills := features_fills x encoding pairs
    rw [he] at hfills
    obtain ⟨p, hp, hrow⟩ := exists_of_mapM_eq_error hfills
    exact h.row_eq_error (hpairs p hp) hrow
  refine ⟨?_, ?_, ?_⟩
  · intro encoding mode hfits hsmall
    rw [assemble_eq hfits]
    cases hf : x.features encoding pairs with
    | ok f => exact ⟨_, rfl⟩
    | error e =>
      obtain ⟨-, hlarge, length, hlength⟩ := hfeatures encoding e hf
      exact absurd (hsmall length hlength) (Nat.not_lt.mpr hlarge)
  · intro encoding mode e he
    cases hfits : Memory.holdsArray
        (pairs.length :: encoding.shape (2 * x.vocabulary) x.longest) with
    | false =>
      unfold assemble at he
      rw [hfits] at he
      cases he
      exact ⟨_, rfl⟩
    | true =>
      rw [assemble_eq hfits] at he
      cases hf : x.features encoding pairs with
      | ok f =>
        rw [hf] at he
        cases he
      | error e' =>
        rw [hf] at he
        cases he
        exact ⟨_, (hfeatures encoding e hf).1⟩
  · intro dir split session p hmissing
    have hnames (p : Pair) (hp : p ∈ pairs) : (x.sampleNames? p).isSome :=
      isSome_sampleNames? (hpairs p hp).1 (hpairs p hp).2
    obtain ⟨fault, hfile | hreport⟩ := Report.raises_writeSamples hnames dir split session _ hmissing
    · cases hfile
    · cases hreport

end Corpus

/-- A loaded corpus is well formed, and pairs drawn from any division of it can be encoded and
written. -/
theorem load_wellFormed {t : FileTree} {c : CorpusConfig} {seeds : Seeds} {x : Corpus}
    (h : (Corpus.load t c seeds).outcome = .ok x) :
    x.WellFormed c ∧ ∀ strategy s p split r, x.divide strategy s = .ok p →
      p.Draws split r → x.Serves r.pairs := by
  have hx := Corpus.wellFormed_of_load h
  refine ⟨hx, fun strategy s p split r hp hr => hx.serves fun pair hpair => ?_⟩
  have hexact := Partition.exact_of_divide hx.labelled hp
  have huses1 : r.Uses pair.problem1 pair.solution1 := ⟨pair, hpair, .inl ⟨rfl, rfl⟩⟩
  have huses2 : r.Uses pair.problem2 pair.solution2 := ⟨pair, hpair, .inr ⟨rfl, rfl⟩⟩
  exact ⟨hexact.solution?_isSome (hr.mem_given hexact huses1),
    hexact.solution?_isSome (hr.mem_given hexact huses2)⟩

theorem load_mixedDataset_wellFormed :
    (Corpus.load mixedDataset mixedConfig ⟨101⟩).outcome = .ok mixedCorpus ∧
      mixedCorpus.WellFormed mixedConfig ∧ ∃ p r,
        mixedCorpus.divide (.disjointProblems .none 0) ⟨101⟩ = .ok p ∧ p.Draws .training r ∧
          r.pairs.length = 4 ∧ ∃ a, mixedCorpus.assemble .bag .binary r.pairs = .ok a := by
  have hdivide : mixedCorpus.divide (.disjointProblems .none 0) ⟨101⟩ =
      .ok ⟨.disjointProblems .none 0, .whole mixedCorpus 0 2, none, none⟩ :=
    eq_ok_of_toOption (by decide +kernel)
  have hdrawn : ((Group.whole mixedCorpus 0 2).drawPairs 16 4 0.5 ⟨1917⟩).1.toOption.map
      PairSet.size = some 4 := by decide +kernel
  obtain ⟨r, hr, hlength⟩ := Option.map_eq_some_iff.mp hdrawn
  obtain ⟨hwell, hserves⟩ := load_wellFormed load_mixedDataset
  have hdraws : Partition.Draws ⟨.disjointProblems .none 0, .whole mixedCorpus 0 2, none, none⟩
      .training r := ⟨_, _, _, _, _, rfl, eq_ok_of_toOption hr⟩
  refine ⟨load_mixedDataset, hwell, _, r, hdivide, hdraws, hlength, ?_⟩
  refine (hserves _ _ _ _ r hdivide hdraws).assembles .bag .binary ?_ (by simp)
  rw [show r.pairs.length = 4 from hlength]
  decide

end PairDatasets
