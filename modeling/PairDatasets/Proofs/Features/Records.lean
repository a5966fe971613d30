import Mathlib.Algebra.Order.Ring.Int
import Mathlib.Data.List.Forall2
import PairDatasets.Proofs.Features.OneHot

/-! Encoding all pairs at once and one pair at a time. The arrays are filled row by row from both
sides together, a record joins two sides that were encoded alone; the rows are the records, and the
first pair that fails decides in both ways. -/
namespace PairDatasets

namespace Memory

lemma product_cons (n : ℕ) (shape : List ℕ) : product (n :: shape) = n * product shape := by
  unfold product
  rw [List.foldl_cons, Nat.one_mul, ← Nat.mul_one n, List.foldl_assoc, Nat.mul_one]

/-- Of an array that fits every item fits. -/
lemma holdsArray_of_cons {n : ℕ} {shape : List ℕ} (hn : n ≠ 0)
    (h : holdsArray (n :: shape) = true) : holdsArray shape = true := by
  simp only [holdsArray, holds, List.filter_cons, hn, ne_eq, not_false_eq_true, decide_true,
    if_true, product_cons, Bool.and_eq_true, decide_eq_true_eq] at h ⊢
  have hpos : 1 ≤ n := Nat.one_le_iff_ne_zero.mpr hn
  constructor
  · exact (Nat.le_mul_of_pos_left _ hpos).trans_lt h.1
  · exact (Nat.mul_le_mul_left 4 (Nat.le_mul_of_pos_left _ hpos)).trans_lt h.2

/-- An array fits if one fits that is at least as long in each dimension and empty in the same. -/
lemma holdsArray_of_le {xs ys : List ℕ} (hle : List.Forall₂ (fun x y => x ≤ y ∧ (x = 0 ↔ y = 0)) xs ys)
    (h : holdsArray ys = true) : holdsArray xs = true := by
  have hproducts : product xs ≤ product ys ∧
      product (xs.filter (· ≠ 0)) ≤ product (ys.filter (· ≠ 0)) := by
    clear h
    induction hle with
    | nil => exact ⟨le_rfl, le_rfl⟩
    | @cons x y xs ys hxy _ ih =>
      obtain ⟨hle, hzero⟩ := hxy
      refine ⟨?_, ?_⟩
      · rw [product_cons, product_cons]
        exact Nat.mul_le_mul hle ih.1
      · by_cases hx : x = 0
        · simpa [hx, hzero.mp hx] using ih.2
        · have hy : y ≠ 0 := fun hy => hx (hzero.mpr hy)
          simp only [List.filter_cons, hx, hy, ne_eq, not_false_eq_true, decide_true, if_true,
            product_cons]
          exact Nat.mul_le_mul hle (by simpa using ih.2)
  simp only [holdsArray, holds, Bool.and_eq_true, decide_eq_true_eq] at h ⊢
  exact ⟨hproducts.2.trans_lt h.1, (Nat.mul_le_mul_left 4 hproducts.1).trans_lt h.2⟩

end Memory

lemma Encoding.shape_resolve (encoding : Encoding) (vocabulary longest n : ℕ) :
    (encoding.resolve longest).shape vocabulary n = encoding.shape vocabulary longest := by
  cases encoding <;> rfl

/-- If the arrays of all pairs fit, so does each side of a pair, which is half as wide. -/
lemma Encoding.holdsArray_side {encoding : Encoding} {n vocabulary longest : ℕ} (hn : n ≠ 0)
    (h : Memory.holdsArray (n :: encoding.shape (2 * vocabulary) longest) = true) :
    Memory.holdsArray (encoding.shape vocabulary longest) = true := by
  refine Memory.holdsArray_of_le ?_ (Memory.holdsArray_of_cons hn h)
  cases encoding with
  | bag => exact .cons (by omega) .nil
  | sequence length => exact .cons (by omega) .nil
  | oneHot length => exact .cons (by omega) (.cons (by omega) .nil)

namespace Features

lemma map_inHalves {α : Type} (width : ℕ) (left right : ℕ → α) :
    (List.range (2 * width)).map (inHalves width left right) =
      (List.range width).map left ++ (List.range width).map right := by
  rw [Nat.two_mul, List.range_add, List.map_append, List.map_map]
  congr 1
  · apply List.map_congr_left
    intro i hi
    exact if_pos (List.mem_range.mp hi)
  · apply List.map_congr_left
    intro i _
    simp [inHalves]

lemma map_getD_range {α : Type} (xs : List α) (d : α) {n : ℕ} (hn : xs.length = n) :
    (List.range n).map (xs.toArray.getD · d) = xs := by
  subst hn
  apply List.ext_getElem
  · simp
  · intro i h1 h2
    simp [h2]

theorem bagRow_eq (vocabulary : ℕ) (left right : Solution) :
    bagRow vocabulary left right =
      Bag.cells vocabulary left.tokens ++ Bag.cells vocabulary right.tokens := by
  unfold bagRow
  dsimp only
  rw [map_inHalves, map_getD_range _ _ (Bag.length_cells ..), map_getD_range _ _ (Bag.length_cells ..)]

/-- A slab joins what the sides have alone, as long as the left one keeps to the vocabulary. -/
theorem oneHotSlab_eq_join {vocabulary length : ℕ} {left right : Solution}
    (hleft : ∀ t ∈ left.tokens, t.toNat < vocabulary) : oneHotSlab vocabulary length left right =
      List.zipWith (· ++ ·) (OneHot.rows vocabulary length left.tokens)
        (OneHot.rows vocabulary length right.tokens) := by
  rw [oneHotSlab_eq hleft, OneHot.rows_eq, OneHot.rows_eq, List.zipWith_map, List.zipWith_self]

/-- The arrays hold these encoded pairs, one in each row. -/
inductive Rows : Features → List PairRecord → Prop
  | bag (vocabulary : ℕ) (rows : List (List Float32)) : Rows (.bag vocabulary rows) (rows.map .bag)
  | sequences (length : ℕ) (rows : List (List Int32 × List Int32)) :
    Rows (.sequences length (rows.map (·.1)) (rows.map (·.2)))
      (rows.map fun row => .sequences row.1 row.2)
  | oneHot (vocabulary length : ℕ) (slabs : List (List (List Float32))) :
    Rows (.oneHot vocabulary length slabs) (slabs.map .oneHot)

end Features

namespace Corpus
variable {c : Corpus} {encoding : Encoding}

/-- One side of a pair, once its tokens are known and memory holds it. -/
def encodedSide (c : Corpus) (encoding : Encoding) (s : Solution) : Except DatasetError Encoded :=
  match encoding with
  | .bag => .ok (.bag (Bag.cells c.vocabulary s.tokens))
  | .sequence length => (TokenRow.cells (length.getD c.longest) s.tokens).map .sequence
  | .oneHot length => .ok (.oneHot (OneHot.rows c.vocabulary (length.getD c.longest) s.tokens))

lemma encode_eq_encodedSide {s : Solution} (hs : ∀ t ∈ s.tokens, t.toNat < c.vocabulary)
    (hfits : Memory.holdsArray (encoding.shape c.vocabulary c.longest) = true) :
    encode c.vocabulary (encoding.resolve c.longest) s.tokens = c.encodedSide encoding s := by
  unfold encode
  rw [checkVocabulary_eq_ok.mpr hs, Encoding.shape_resolve, Memory.require_eq_ok.mpr hfits]
  cases encoding <;> rfl

/-- The row that a pair fills when all pairs are encoded at once. -/
def row (c : Corpus) (encoding : Encoding) (p : Pair) : Except DatasetError PairRecord := do
  let (left, right) ← c.sides p
  match encoding with
  | .bag => .ok (.bag (Features.bagRow c.vocabulary left right))
  | .sequence length => do
    let left ← TokenRow.cells (length.getD c.longest) left.tokens
    let right ← TokenRow.cells (length.getD c.longest) right.tokens
    .ok (.sequences left right)
  | .oneHot length =>
    .ok (.oneHot (Features.oneHotSlab c.vocabulary (length.getD c.longest) left right))

/-- The row of a pair is its record: both look the pair up, check its tokens and encode the left
side before the right one. -/
theorem record_eq_row (hfits : Memory.holdsArray (encoding.shape c.vocabulary c.longest) = true)
    (p : Pair) : c.record encoding p = c.row encoding p := by
  unfold record row
  cases hsides : c.sides p with
  | error e => rfl
  | ok sides =>
    obtain ⟨left, right⟩ := sides
    obtain ⟨-, -, hleft, hright⟩ := sides_eq_ok.mp hsides
    simp only [bind, Except.bind, encode_eq_encodedSide hleft hfits, encode_eq_encodedSide hright hfits]
    cases encoding with
    | bag => simp only [encodedSide, PairRecord.join?, Features.bagRow_eq]
    | sequence length =>
      simp only [encodedSide]
      cases TokenRow.cells (length.getD c.longest) left.tokens with
      | error e => rfl
      | ok l => cases TokenRow.cells (length.getD c.longest) right.tokens <;> rfl
    | oneHot length => simp only [encodedSide, PairRecord.join?, Features.oneHotSlab_eq_join hleft]

/-- Arrays stand for rows if they hold them, or if the same error keeps both from being made. -/
def Fills (rows : Except DatasetError (List PairRecord)) : Except DatasetError Features → Prop
  | .ok f => ∃ rs, rows = .ok rs ∧ f.Rows rs
  | .error e => rows = .error e

lemma fills_mapM {α : Type} {row : Pair → Except DatasetError PairRecord}
    {cells : Pair → Except DatasetError α} {item : α → PairRecord} {stack : List α → Features}
    (hrow : ∀ p, row p = (cells p).map item) (hstack : ∀ ys, (stack ys).Rows (ys.map item))
    (pairs : List Pair) : Fills (pairs.mapM row) (pairs.mapM cells >>= fun ys => .ok (stack ys)) := by
  rw [funext hrow, mapM_map]
  cases pairs.mapM cells with
  | error e => rfl
  | ok ys => exact ⟨ys.map item, rfl, hstack ys⟩

theorem features_fills (c : Corpus) (encoding : Encoding) (pairs : List Pair) :
    Fills (pairs.mapM (c.row encoding)) (c.features encoding pairs) := by
  cases encoding with
  | bag =>
    refine fills_mapM (fun p => ?_) (fun rows => .bag c.vocabulary rows) pairs
    unfold row
    cases c.sides p <;> rfl
  | sequence length =>
    refine fills_mapM (fun p => ?_) (fun rows => .sequences (length.getD c.longest) rows) pairs
    unfold row
    cases c.sides p with
    | error e => rfl
    | ok sides =>
      obtain ⟨left, right⟩ := sides
      simp only [bind, Except.bind]
      cases TokenRow.cells (length.getD c.longest) left.tokens with
      | error e => rfl
      | ok l => cases TokenRow.cells (length.getD c.longest) right.tokens <;> rfl
  | oneHot length =>
    refine fills_mapM (fun p => ?_) (fun slabs => .oneHot c.vocabulary (length.getD c.longest) slabs)
      pairs
    unfold row
    cases c.sides p <;> rfl

/-- The row of a pair with its label. -/
def labelledRow (c : Corpus) (encoding : Encoding) (mode : LabelMode) (p : Pair) :
    Except DatasetError (PairRecord × ℤ) :=
  (c.row encoding p).map fun r => (r, p.label mode)

/-- Without the labels these are the rows that the arrays are filled with. -/
lemma mapM_row (c : Corpus) (encoding : Encoding) (mode : LabelMode) (pairs : List Pair) :
    pairs.mapM (c.row encoding) =
      (pairs.mapM (c.labelledRow encoding mode)).map (List.map Prod.fst) := by
  rw [← mapM_map]
  congr 1
  funext p
  unfold labelledRow
  cases c.row encoding p <;> rfl

lemma snd_labelledRow {p : Pair} {mode : LabelMode} {item : PairRecord × ℤ}
    (h : c.labelledRow encoding mode p = .ok item) : item.2 = p.label mode := by
  unfold labelledRow at h
  cases hrow : c.row encoding p with
  | error e =>
    rw [hrow] at h
    cases h
  | ok r =>
    rw [hrow] at h
    cases h
    rfl

lemma records_eq {pairs : List Pair}
    (hfits : Memory.holdsArray
      (pairs.length :: encoding.shape (2 * c.vocabulary) c.longest) = true) (mode : LabelMode) :
    c.records encoding mode pairs = pairs.map (c.labelledRow encoding mode) := by
  apply List.map_congr_left
  intro p hp
  have hpairs : pairs.length ≠ 0 := (List.length_pos_of_mem hp).ne'
  rw [record_eq_row (Encoding.holdsArray_side hpairs hfits)]
  rfl

lemma assemble_eq {pairs : List Pair}
    (hfits : Memory.holdsArray
      (pairs.length :: encoding.shape (2 * c.vocabulary) c.longest) = true) (mode : LabelMode) :
    c.assemble encoding mode pairs =
      (c.features encoding pairs).map fun f => ⟨f, pairs.map (Pair.label mode), pairs⟩ := by
  unfold assemble
  rw [Memory.require_eq_ok.mpr hfits]
  cases c.features encoding pairs <;> rfl

/-- Both ways succeed with the same rows and labels, or both meet the same first error. -/
theorem assemble_cases {pairs : List Pair}
    (hfits : Memory.holdsArray
      (pairs.length :: encoding.shape (2 * c.vocabulary) c.longest) = true) (mode : LabelMode) :
    (∃ (a : Assembled) (items : List (PairRecord × ℤ)), c.assemble encoding mode pairs = .ok a ∧
      c.records encoding mode pairs = items.map .ok ∧ a.features.Rows (items.map Prod.fst) ∧
      a.labels = items.map Prod.snd) ∨
    ∃ (e : DatasetError) (items : List (PairRecord × ℤ)) (rest : _),
      c.assemble encoding mode pairs = .error e ∧
        c.records encoding mode pairs = items.map .ok ++ .error e :: rest := by
  have hcollects : Collects (c.records encoding mode pairs)
      (pairs.mapM (c.labelledRow encoding mode)) := by
    rw [records_eq hfits]
    exact collects_mapM (c.labelledRow encoding mode) pairs
  have hrows := mapM_row c encoding mode pairs
  have hfills := features_fills c encoding pairs
  rw [assemble_eq hfits]
  cases hfeatures : c.features encoding pairs with
  | ok f =>
    rw [hfeatures] at hfills
    obtain ⟨rs, hrs, hf⟩ := hfills
    rw [hrows] at hrs
    cases hitems : pairs.mapM (c.labelledRow encoding mode) with
    | error e =>
      rw [hitems] at hrs
      cases hrs
    | ok items =>
      rw [hitems] at hrs hcollects
      cases hrs
      have hlabels : pairs.map (Pair.label mode) = items.map Prod.snd := by
        refine map_eq_map_of_forall₂ ?_ (mapM_eq_ok.mp hitems)
        exact fun p item h => (snd_labelledRow h).symm
      exact .inl ⟨_, items, rfl, hcollects, hf, hlabels⟩
  | error e =>
    rw [hfeatures] at hfills
    have herror := hrows.symm.trans hfills
    cases hitems : pairs.mapM (c.labelledRow encoding mode) with
    | ok items =>
      rw [hitems] at herror
      cases herror
    | error e' =>
      rw [hitems] at herror hcollects
      cases herror
      obtain ⟨items, rest, hrecords⟩ := hcollects
      exact .inr ⟨e, items, rest, rfl, hrecords⟩

end Corpus

/-- Encoding all pairs at once agrees with encoding them one at a time: it succeeds if and only if
every record does, its rows and labels are those of the records, and it fails with their first
error. -/
theorem assemble_agrees_with_records (c : Corpus) (encoding : Encoding) (mode : LabelMode)
    (pairs : List Pair)
    (hfits : Memory.holdsArray
      (pairs.length :: encoding.shape (2 * c.vocabulary) c.longest) = true) :
    (c.records encoding mode pairs).length = pairs.length ∧
      ((∃ a, c.assemble encoding mode pairs = .ok a) ↔
        ∀ r ∈ c.records encoding mode pairs, ∃ item, r = .ok item) ∧
      (∀ a, c.assemble encoding mode pairs = .ok a →
        ∃ items : List (PairRecord × ℤ), c.records encoding mode pairs = items.map .ok ∧
          a.features.Rows (items.map Prod.fst) ∧ a.labels = items.map Prod.snd) ∧
      ∀ e, c.assemble encoding mode pairs = .error e →
        ∃ (items : List (PairRecord × ℤ)) (rest : _),
          c.records encoding mode pairs = items.map .ok ++ .error e :: rest := by
  refine ⟨Corpus.length_records .., ?_⟩
  rcases Corpus.assemble_cases hfits mode with
    ⟨a, items, ha, hrecords, hrows, hlabels⟩ | ⟨e, items, rest, he, hrecords⟩
  · refine ⟨⟨fun _ r hr => ?_, fun _ => ⟨a, ha⟩⟩, fun a' ha' => ?_, fun e he => ?_⟩
    · rw [hrecords] at hr
      obtain ⟨item, -, rfl⟩ := List.mem_map.mp hr
      exact ⟨item, rfl⟩
    · obtain rfl : a = a' := Except.ok.inj (ha.symm.trans ha')
      exact ⟨items, hrecords, hrows, hlabels⟩
    · cases ha.symm.trans he
  · refine ⟨⟨fun ⟨a, ha⟩ => ?_, fun hall => ?_⟩, fun a ha => ?_, fun e' he' => ?_⟩
    · cases he.symm.trans ha
    · obtain ⟨item, hitem⟩ := hall (.error e) (by simp [hrecords])
      cases hitem
    · cases he.symm.trans ha
    · obtain rfl : e = e' := Except.error.inj (he.symm.trans he')
      exact ⟨items, rest, hrecords⟩

/-- Of three tokens the second solution of the first problem uses an unknown one. -/
def strayToken : Corpus :=
  .ofProblems "tokens" 3 [("p", [⟨"a", [0, 1]⟩, ⟨"b", [2, 7]⟩]), ("q", [⟨"c", [1, 1, 0]⟩])]

/-- The second pair decides in both ways, although the third has no solutions. -/
theorem assemble_strayToken_agrees :
    Memory.holdsArray [3, 3] = true ∧ ∃ (items : List (PairRecord × ℤ)) (rest : _),
      strayToken.records (.sequence none) .binary [⟨0, 0, 1, 0⟩, ⟨0, 0, 0, 1⟩, ⟨0, 0, 5, 0⟩] =
        items.map .ok ++ .error (.configuration (.unknownToken 7 3)) :: rest := by
  have hagree := assemble_agrees_with_records strayToken (.sequence none) .binary
    [⟨0, 0, 1, 0⟩, ⟨0, 0, 0, 1⟩, ⟨0, 0, 5, 0⟩] (by decide)
  exact ⟨by decide, hagree.2.2.2 _ rfl⟩

end PairDatasets
