import PairDatasets.Proofs.Features.Records

/-! Bags do not show the order of tokens. Each token adds one to its own cell, so two of them may change
places, and all that follows is computed from the cells. -/
namespace PairDatasets

lemma modify_comm {α : Type} (xs : Array α) (i j : ℕ) (f : α → α) :
    (xs.modify i f).modify j f = (xs.modify j f).modify i f := by
  apply Array.ext_getElem?
  intro k
  simp only [Array.getElem?_modify]
  by_cases hi : i = k <;> by_cases hj : j = k <;> simp [hi, hj]

namespace Bag
variable {vocabulary : ℕ} {xs ys : List UInt32}

theorem tallies_perm (h : xs.Perm ys) : tallies vocabulary xs = tallies vocabulary ys := by
  apply h.foldl_eq'
  intro x _ y _ cells
  exact modify_comm cells x.toNat y.toNat (· + 1)

theorem cells_perm (h : xs.Perm ys) : cells vocabulary xs = cells vocabulary ys := by
  unfold cells
  rw [tallies_perm h]

lemma encode_eq_ok {e : Encoded} : encode vocabulary .bag xs = .ok e ↔
    (∀ t ∈ xs, t.toNat < vocabulary) ∧ Memory.holdsArray [vocabulary] = true ∧
      .bag (cells vocabulary xs) = e := by
  rw [encode, checked_eq_ok, Except.ok.injEq]
  rfl

theorem encode_perm (h : xs.Perm ys) (e : Encoded) :
    encode vocabulary .bag xs = .ok e ↔ encode vocabulary .bag ys = .ok e := by
  have hmem : (∀ t ∈ xs, t.toNat < vocabulary) ↔ ∀ t ∈ ys, t.toNat < vocabulary :=
    forall_congr' fun t => imp_congr_left h.mem_iff
  rw [encode_eq_ok, encode_eq_ok, hmem, cells_perm h]

end Bag

/-- Two solutions have the same tokens in whatever order, or there is neither of them. -/
def Anagrams (s t : Option Solution) : Prop :=
  Option.Rel (fun s t => s.tokens.Perm t.tokens) s t

lemma Anagrams.symm {s t : Option Solution} (h : Anagrams s t) : Anagrams t s := by
  cases h with
  | none => exact .none
  | some h => exact .some h.symm

lemma Anagrams.exists {s : Solution} {t : Option Solution} (h : Anagrams (some s) t) :
    ∃ t', t = some t' ∧ s.tokens.Perm t'.tokens := by
  cases h with
  | some h => exact ⟨_, rfl, h⟩

namespace Corpus
variable {c d : Corpus} {p q : Pair} {row row' : List Float32}

/-- A pair of one corpus and a pair of another one have the same tokens on each side. -/
def Rearranges (c d : Corpus) (p q : Pair) : Prop :=
  Anagrams (c.solution? p.problem1 p.solution1) (d.solution? q.problem1 q.solution1) ∧
    Anagrams (c.solution? p.problem2 p.solution2) (d.solution? q.problem2 q.solution2)

/-- The row of the bags of a pair that can be encoded. -/
def BagRow (c : Corpus) (p : Pair) (row : List Float32) : Prop :=
  ∃ left right, c.sides p = .ok (left, right) ∧ Features.bagRow c.vocabulary left right = row

lemma BagRow.unique (h : c.BagRow p row) (h' : c.BagRow p row') : row = row' := by
  obtain ⟨left, right, hsides, rfl⟩ := h
  obtain ⟨left', right', hsides', rfl⟩ := h'
  cases hsides.symm.trans hsides'
  rfl

lemma features_bag_eq_ok {pairs : List Pair} {f : Features} : c.features .bag pairs = .ok f ↔
    ∃ rows, List.Forall₂ c.BagRow pairs rows ∧ .bag c.vocabulary rows = f := by
  unfold features
  simp only [bind_eq_ok, mapM_eq_ok, Prod.exists, Except.ok.injEq]
  exact Iff.rfl

lemma Rearranges.symm (h : c.Rearranges d p q) : d.Rearranges c q p := ⟨h.1.symm, h.2.symm⟩

/-- Anagrams fill the same row. -/
lemma Rearranges.bagRow (h : c.Rearranges d p q) (hv : c.vocabulary = d.vocabulary)
    (hrow : c.BagRow p row) : d.BagRow q row := by
  obtain ⟨left, right, hsides, rfl⟩ := hrow
  obtain ⟨hl, hr, hleft, hright⟩ := sides_eq_ok.mp hsides
  obtain ⟨hfirst, hsecond⟩ := h
  rw [hl] at hfirst
  rw [hr] at hsecond
  obtain ⟨left', hl', hpermLeft⟩ := hfirst.exists
  obtain ⟨right', hr', hpermRight⟩ := hsecond.exists
  refine ⟨left', right', sides_eq_ok.mpr ⟨hl', hr', ?_, ?_⟩, ?_⟩
  · exact fun t ht => hv ▸ hleft t (hpermLeft.mem_iff.mpr ht)
  · exact fun t ht => hv ▸ hright t (hpermRight.mem_iff.mpr ht)
  · rw [Features.bagRow_eq, Features.bagRow_eq, ← hv, Bag.cells_perm hpermLeft,
      Bag.cells_perm hpermRight]

lemma assemble_bag_eq_ok {mode : LabelMode} {pairs : List Pair} {a : Assembled} :
    c.assemble .bag mode pairs = .ok a ↔
      Memory.holdsArray [pairs.length, 2 * c.vocabulary] = true ∧
        ∃ rows, List.Forall₂ c.BagRow pairs rows ∧
          ⟨.bag c.vocabulary rows, pairs.map (Pair.label mode), pairs⟩ = a := by
  unfold assemble
  constructor
  · intro h
    obtain ⟨_, hfits, h⟩ := bind_eq_ok.mp h
    obtain ⟨f, hf, h⟩ := bind_eq_ok.mp h
    obtain ⟨rows, hrows, rfl⟩ := features_bag_eq_ok.mp hf
    exact ⟨Memory.require_eq_ok.mp hfits, rows, hrows, Except.ok.inj h⟩
  · rintro ⟨hfits, rows, hrows, rfl⟩
    exact bind_eq_ok.mpr ⟨(), Memory.require_eq_ok.mpr hfits,
      bind_eq_ok.mpr ⟨_, features_bag_eq_ok.mpr ⟨rows, hrows, rfl⟩, rfl⟩⟩

/-- Pairs are encoded if their anagrams are, and with the same rows. -/
lemma assemble_bag_rearranged {ps qs : List Pair} {mode : LabelMode} (mode' : LabelMode)
    (hv : c.vocabulary = d.vocabulary) (h : List.Forall₂ (c.Rearranges d) ps qs) {a : Assembled}
    (ha : c.assemble .bag mode ps = .ok a) :
    ∃ b, d.assemble .bag mode' qs = .ok b ∧ b.features = a.features := by
  obtain ⟨hfits, rows, hrows, rfl⟩ := assemble_bag_eq_ok.mp ha
  rw [h.length_eq, hv] at hfits
  have hrows' : List.Forall₂ d.BagRow qs rows := by
    clear hfits ha
    induction h generalizing rows with
    | nil => cases hrows; exact .nil
    | cons hpq _ ih =>
      cases hrows with
      | cons hrow hrows => exact .cons (hpq.bagRow hv hrow) (ih _ hrows)
  exact ⟨_, assemble_bag_eq_ok.mpr ⟨hfits, rows, hrows', rfl⟩, by rw [hv]⟩

lemma exists_bagRow {pairs : List Pair} {rows : List (List Float32)}
    (h : List.Forall₂ c.BagRow pairs rows) {i : ℕ} (hp : pairs[i]? = some p) :
    ∃ row, rows[i]? = some row ∧ c.BagRow p row := by
  obtain ⟨hlength, hall⟩ := List.forall₂_iff_get.mp h
  obtain ⟨hi, rfl⟩ := List.getElem?_eq_some_iff.mp hp
  exact ⟨rows[i], List.getElem?_eq_getElem (hlength ▸ hi), hall i hi (hlength ▸ hi)⟩

end Corpus

/-- Bags depend on the tokens and not on their order. Of two orders of the same tokens both are encoded, with
equal cells, or neither is; two lists of pairs whose solutions differ in the order of their tokens alone
are both encoded, with equal arrays, or neither is; and wherever two such pairs stand in arrays, their rows are
equal. -/
theorem bag_of_rearranged {c d : Corpus} (hv : c.vocabulary = d.vocabulary) (mode mode' : LabelMode)
    (ps qs : List Pair) :
    (∀ vocabulary xs ys, xs.Perm ys → ∀ e,
      encode vocabulary .bag xs = .ok e ↔ encode vocabulary .bag ys = .ok e) ∧
    (List.Forall₂ (c.Rearranges d) ps qs → ∀ f,
      (∃ a, c.assemble .bag mode ps = .ok a ∧ a.features = f) ↔
        ∃ b, d.assemble .bag mode' qs = .ok b ∧ b.features = f) ∧
    ∀ a b, c.assemble .bag mode ps = .ok a → d.assemble .bag mode' qs = .ok b →
      ∃ rows rows', a.features = .bag c.vocabulary rows ∧ b.features = .bag d.vocabulary rows' ∧
        ∀ (i j : ℕ) p q, ps[i]? = some p → qs[j]? = some q → c.Rearranges d p q →
          ∃ row, rows[i]? = some row ∧ rows'[j]? = some row := by
  refine ⟨fun vocabulary xs ys h e => Bag.encode_perm h e, fun h f => ⟨?_, ?_⟩, ?_⟩
  · rintro ⟨a, ha, rfl⟩
    exact Corpus.assemble_bag_rearranged mode' hv h ha
  · rintro ⟨b, hb, rfl⟩
    have hflip : List.Forall₂ (d.Rearranges c) qs ps := (h.imp fun _ _ hpq => hpq.symm).flip
    exact Corpus.assemble_bag_rearranged mode hv.symm hflip hb
  · intro a b ha hb
    obtain ⟨-, rows, hrows, rfl⟩ := Corpus.assemble_bag_eq_ok.mp ha
    obtain ⟨-, rows', hrows', rfl⟩ := Corpus.assemble_bag_eq_ok.mp hb
    refine ⟨rows, rows', rfl, rfl, fun i j p q hp hq hpq => ?_⟩
    obtain ⟨row, hi, hrow⟩ := Corpus.exists_bagRow hrows hp
    obtain ⟨row', hj, hrow'⟩ := Corpus.exists_bagRow hrows' hq
    obtain rfl := (hpq.bagRow hv hrow).unique hrow'
    exact ⟨row, hi, hj⟩

/-- The two solutions of the first problem are anagrams. -/
def anagramCorpus : Corpus :=
  .ofProblems "tokens" 4 [("p", [⟨"a", [0, 1, 1, 3]⟩, ⟨"b", [1, 3, 1, 0]⟩]), ("q", [⟨"c", [2]⟩])]

theorem bag_of_rearranged_anagramCorpus : ∃ e a b row,
    encode 4 .bag [0, 1, 1, 3] = .ok e ∧ encode 4 .bag [1, 3, 1, 0] = .ok e ∧
      anagramCorpus.assemble .bag .binary [⟨0, 0, 1, 0⟩] = .ok a ∧
      anagramCorpus.assemble .bag .bipolar [⟨0, 1, 1, 0⟩] = .ok b ∧
      b.features = a.features ∧ ∃ rows, a.features = .bag 4 rows ∧ rows[0]? = some row := by
  have hpair : anagramCorpus.Rearranges anagramCorpus ⟨0, 0, 1, 0⟩ ⟨0, 1, 1, 0⟩ :=
    ⟨.some (by decide), .some (by decide)⟩
  obtain ⟨hencode, hassemble, hrows⟩ := bag_of_rearranged (c := anagramCorpus) (d := anagramCorpus) rfl
    .binary .bipolar [⟨0, 0, 1, 0⟩] [⟨0, 1, 1, 0⟩]
  obtain ⟨e, he⟩ := exists_of_isOk (x := encode 4 .bag [0, 1, 1, 3]) (by decide +kernel)
  obtain ⟨a, ha⟩ := exists_of_isOk
    (x := anagramCorpus.assemble .bag .binary [⟨0, 0, 1, 0⟩]) (by decide +kernel)
  obtain ⟨b, hb, hfeatures⟩ := (hassemble (.cons hpair .nil) a.features).mp ⟨a, ha, rfl⟩
  obtain ⟨rows, rows', hbag, -, hequal⟩ := hrows a b ha hb
  obtain ⟨row, hrow, -⟩ := hequal 0 0 _ _ rfl rfl hpair
  exact ⟨e, a, b, row, he, (hencode 4 _ _ (by decide) e).mp he, ha, hb, hfeatures, rows, hbag, hrow⟩

end PairDatasets
