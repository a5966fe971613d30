import Mathlib.Data.List.Forall2
import PairDatasets.Features.Assembly
import PairDatasets.Proofs.Order.Mapping

/-! What the one-hot arrays of pairs hold. Both sides of a pair write into the same rows, the right one
behind the columns of the left one; since the tokens of the left one keep to the vocabulary, each half
is what its own side would have written alone, and the tokens can be read back from it. -/
namespace PairDatasets
namespace OneHot
variable {vocabulary length offset : ℕ} {tokens : List UInt32} {token : Option UInt32}
  {rows : Array (Array Float32)} {xs ys : List Float32}

/-- A row after its token was written, if there is one. -/
def put (offset : ℕ) (token : Option UInt32) (row : List Float32) : List Float32 :=
  token.elim row fun t => row.set (offset + t.toNat) 1

lemma put_append_left (ht : ∀ t ∈ token, t.toNat < xs.length) :
    put 0 token (xs ++ ys) = put 0 token xs ++ ys := by
  cases token with
  | none => rfl
  | some t => exact List.set_append_left _ _ (by simpa using ht t rfl)

lemma put_append_right : put xs.length token (xs ++ ys) = xs ++ put 0 token ys := by
  cases token with
  | none => rfl
  | some t =>
    change (xs ++ ys).set (xs.length + t.toNat) 1 = xs ++ ys.set (0 + t.toNat) 1
    rw [List.set_append_right _ _ (Nat.le_add_right ..), Nat.add_sub_cancel_left, Nat.zero_add]

/-- The rows before and after writing from one step on: each token goes into a row of its own. -/
lemma toRows_foldl (first step : ℕ) :
    (toRows ((tokens.zipIdx first).foldl
      (fun rows (t, step) => rows.modify step (·.setIfInBounds (offset + t.toNat) 1)) rows))[step]? =
      (toRows rows)[step]?.map (put offset (if first ≤ step then tokens[step - first]? else none)) := by
  induction tokens generalizing first rows with
  | nil => cases hrow : (toRows rows)[step]? <;> simp [put, hrow]
  | cons t tokens ih =>
    have hmodify : (toRows (rows.modify first (·.setIfInBounds (offset + t.toNat) 1)))[step]? =
        if first = step then (toRows rows)[step]?.map (put offset (some t))
        else (toRows rows)[step]? := by
      by_cases heq : first = step <;>
        simp [toRows, heq, Function.comp_def, put]
    rw [List.zipIdx_cons, List.foldl_cons, ih, hmodify]
    rcases Nat.lt_trichotomy step first with hlt | rfl | hgt
    · rw [if_neg (Nat.ne_of_gt hlt), if_neg (by omega), if_neg (by omega)]
    · rw [if_pos rfl, if_neg (by omega), if_pos (Nat.le_refl _), Nat.sub_self, Option.map_map]
      rfl
    · rw [if_neg (Nat.ne_of_lt hgt), if_pos (by omega), if_pos (Nat.le_of_lt hgt),
        show step - first = (step - (first + 1)) + 1 by omega, List.getElem?_cons_succ]

/-- Every row gets the token of its step. -/
theorem toRows_mark (step : ℕ) : (toRows (mark offset tokens rows))[step]? =
    (toRows rows)[step]?.map (put offset tokens[step]?) := by
  unfold mark
  rw [toRows_foldl, if_pos (Nat.zero_le step), Nat.sub_zero]
  by_cases hstep : step < rows.size
  · rw [List.getElem?_take_of_lt hstep]
  · have hnone : (toRows rows)[step]? = none := by simpa [toRows] using hstep
    rw [hnone, Option.map_none, Option.map_none]

/-- What one side has in one step. -/
def cells (vocabulary : ℕ) (token : Option UInt32) : List Float32 :=
  put 0 token (List.replicate vocabulary 0)

lemma length_cells (vocabulary : ℕ) (token : Option UInt32) :
    (cells vocabulary token).length = vocabulary := by
  cases token <;> simp [cells, put]

theorem rows_eq (vocabulary length : ℕ) (tokens : List UInt32) : OneHot.rows vocabulary length tokens =
    (List.range length).map fun step => cells vocabulary tokens[step]? := by
  apply List.ext_getElem?
  intro step
  unfold OneHot.rows
  rw [toRows_mark]
  by_cases hstep : step < length <;> simp [toRows, blank, cells, hstep]

/-- The left token is written into the left half alone, and the right one into the right half. -/
lemma put_put {left right : Option UInt32} (hleft : ∀ t ∈ left, t.toNat < vocabulary) :
    put vocabulary right (put 0 left (List.replicate (2 * vocabulary) 0)) =
      cells vocabulary left ++ cells vocabulary right := by
  have hright : put (cells vocabulary left).length right
      (cells vocabulary left ++ List.replicate vocabulary 0) =
        cells vocabulary left ++ cells vocabulary right := put_append_right
  rw [length_cells] at hright
  rw [Nat.two_mul, ← List.replicate_append_replicate, put_append_left (by simpa using hleft)]
  exact hright

end OneHot

/-- The halves of a slab are what the sides have alone. -/
theorem Features.oneHotSlab_eq {vocabulary length : ℕ} {left right : Solution}
    (hleft : ∀ t ∈ left.tokens, t.toNat < vocabulary) : oneHotSlab vocabulary length left right =
      (List.range length).map fun step =>
        OneHot.cells vocabulary left.tokens[step]? ++ OneHot.cells vocabulary right.tokens[step]? := by
  apply List.ext_getElem?
  intro step
  have htoken : ∀ t ∈ left.tokens[step]?, t.toNat < vocabulary :=
    fun t ht => hleft t (List.mem_of_getElem? ht)
  unfold oneHotSlab
  rw [OneHot.toRows_mark, OneHot.toRows_mark]
  by_cases hstep : step < length <;> simp [OneHot.toRows, OneHot.blank, OneHot.put_put htoken, hstep]

namespace OneHot
variable {vocabulary length : ℕ} {tokens : List UInt32} {token : Option UInt32}

/-- Cells of which the one at the token is one, if there is a token, and all others are zero. -/
structure Marks (vocabulary : ℕ) (token : Option UInt32) (cells : List Float32) : Prop where
  length : cells.length = vocabulary
  ones : cells.countP (· = 1) = if token.isSome then 1 else 0
  hot : ∀ t ∈ token, cells[t.toNat]? = some 1
  cold : ∀ cell ∈ cells, cell ≠ 1 → cell = 0

/-- The tokens that rows stand for: the places of the ones, up to the first row without one. -/
def decode : List (List Float32) → List ℕ
  | [] => []
  | cells :: rows =>
    match cells.findIdx? (· = 1) with
    | some v => v :: decode rows
    | none => []

/-- A slab of two sides, each in its half: the tokens of its steps, and nothing else. -/
structure Shows (vocabulary length : ℕ) (left right : List UInt32) (slab : List (List Float32)) :
    Prop where
  steps : slab.length = length
  width : ∀ row ∈ slab, row.length = 2 * vocabulary
  marks_left : ∀ (step : ℕ) (row : List Float32), slab[step]? = some row →
    Marks vocabulary left[step]? (row.take vocabulary)
  marks_right : ∀ (step : ℕ) (row : List Float32), slab[step]? = some row →
    Marks vocabulary right[step]? (row.drop vocabulary)
  decode_left : decode (slab.map (List.take vocabulary)) = (left.take length).map UInt32.toNat
  decode_right : decode (slab.map (List.drop vocabulary)) = (right.take length).map UInt32.toNat

lemma marks_cells (ht : ∀ t ∈ token, t.toNat < vocabulary) :
    Marks vocabulary token (cells vocabulary token) := by
  have hne : (0 : Float32) ≠ 1 := by decide
  cases token with
  | none =>
    constructor
    · exact length_cells ..
    · simp [cells, put, List.countP_replicate, hne]
    · exact nofun
    · intro cell hcell _
      exact List.eq_of_mem_replicate hcell
  | some t =>
    have hlt : t.toNat < vocabulary := ht t rfl
    constructor
    · exact length_cells ..
    · simp [cells, put, List.countP_set, List.countP_replicate, hlt, hne]
    · rintro _ ⟨⟩
      simp [cells, put, hlt]
    · intro cell hcell hone
      rcases List.mem_or_eq_of_mem_set hcell with hzero | heq
      · exact List.eq_of_mem_replicate hzero
      · exact absurd heq hone

/-- A place where something holds that holds of one entry alone is the first such place. -/
lemma findIdx?_of_countP_eq_one {α : Type} {p : α → Bool} {as : List α} {i : ℕ} {a : α}
    (hcount : as.countP p = 1) (hi : as[i]? = some a) (ha : p a = true) :
    as.findIdx? p = some i := by
  obtain ⟨hlt, rfl⟩ := List.getElem?_eq_some_iff.mp hi
  rw [List.findIdx?_eq_some_iff_getElem]
  refine ⟨hlt, ha, fun j hj hp => ?_⟩
  have hfront : 0 < (as.take i).countP p := List.countP_pos_iff.mpr
    ⟨as[j], List.mem_take_iff_getElem.mpr ⟨j, by omega, rfl⟩, hp⟩
  have hback : 0 < (as.drop i).countP p := List.countP_pos_iff.mpr
    ⟨as[i], List.mem_drop_iff_getElem.mpr ⟨0, by omega, rfl⟩, ha⟩
  rw [← List.take_append_drop i as, List.countP_append] at hcount
  omega

lemma Marks.findIdx? {cells : List Float32} (h : Marks vocabulary token cells) :
    cells.findIdx? (· = 1) = token.map UInt32.toNat := by
  have hones := h.ones
  cases token with
  | none =>
    rw [Option.map_none, List.findIdx?_eq_none_iff]
    intro cell hcell
    have hnot := List.countP_eq_zero.mp hones cell hcell
    simpa using hnot
  | some t => exact findIdx?_of_countP_eq_one hones (h.hot t rfl) (by simp)

/-- Rows that stand for tokens one by one are read back as these tokens. -/
theorem decode_of_marks {rows : List (List Float32)}
    (h : ∀ (step : ℕ) (cells : List Float32), rows[step]? = some cells →
      Marks vocabulary tokens[step]? cells) : decode rows = (tokens.take rows.length).map UInt32.toNat := by
  induction rows generalizing tokens with
  | nil => rw [List.length_nil, List.take_zero]; rfl
  | cons cells rows ih =>
    have hfirst := (h 0 cells rfl).findIdx?
    unfold decode
    cases tokens with
    | nil =>
      rw [hfirst]
      rfl
    | cons t tokens =>
      have hrest := @ih tokens fun step cells hstep => h (step + 1) cells hstep
      rw [hfirst, hrest]
      rfl

theorem shows_oneHotSlab {left right : Solution} (hleft : ∀ t ∈ left.tokens, t.toNat < vocabulary)
    (hright : ∀ t ∈ right.tokens, t.toNat < vocabulary) :
    Shows vocabulary length left.tokens right.tokens
      (Features.oneHotSlab vocabulary length left right) := by
  have hslab := @Features.oneHotSlab_eq vocabulary length left right hleft
  generalize Features.oneHotSlab vocabulary length left right = slab at hslab ⊢
  have hsteps : slab.length = length := by rw [hslab, List.length_map, List.length_range]
  have hrow (step : ℕ) (row : List Float32) (h : slab[step]? = some row) :
      row = cells vocabulary left.tokens[step]? ++ cells vocabulary right.tokens[step]? := by
    rw [hslab, List.getElem?_map, Option.map_eq_some_iff] at h
    obtain ⟨k, hk, rfl⟩ := h
    obtain ⟨-, rfl⟩ := List.getElem?_eq_some_iff.mp hk
    rw [List.getElem_range]
  have hmarks (step : ℕ) (row : List Float32) (h : slab[step]? = some row) :
      Marks vocabulary left.tokens[step]? (row.take vocabulary) ∧
        Marks vocabulary right.tokens[step]? (row.drop vocabulary) := by
    rw [hrow step row h, List.take_left' (length_cells ..), List.drop_left' (length_cells ..)]
    exact ⟨marks_cells fun t ht => hleft t (List.mem_of_getElem? ht),
      marks_cells fun t ht => hright t (List.mem_of_getElem? ht)⟩
  constructor
  · exact hsteps
  · intro row hmem
    obtain ⟨step, hstep⟩ := List.mem_iff_getElem?.mp hmem
    rw [hrow step row hstep, List.length_append, length_cells, length_cells, Nat.two_mul]
  · exact fun step row h => (hmarks step row h).1
  · exact fun step row h => (hmarks step row h).2
  · rw [@decode_of_marks vocabulary left.tokens, List.length_map, hsteps]
    intro step cells h
    rw [List.getElem?_map, Option.map_eq_some_iff] at h
    obtain ⟨row, hstep, rfl⟩ := h
    exact (hmarks step row hstep).1
  · rw [@decode_of_marks vocabulary right.tokens, List.length_map, hsteps]
    intro step cells h
    rw [List.getElem?_map, Option.map_eq_some_iff] at h
    obtain ⟨row, hstep, rfl⟩ := h
    exact (hmarks step row hstep).2

end OneHot

/-- The one-hot arrays of pairs show the tokens of both sides of every pair: where a step has a token its
cell is one, all other cells are zero, and the tokens are read back from the halves of the rows. -/
theorem assemble_oneHot_shows {c : Corpus} {length : Option ℕ} {mode : LabelMode} {pairs : List Pair}
    {a : Assembled} (h : c.assemble (.oneHot length) mode pairs = .ok a) :
    ∃ slabs, a.features = .oneHot c.vocabulary (length.getD c.longest) slabs ∧
      a.features.shape = [pairs.length, length.getD c.longest, 2 * c.vocabulary] ∧
      List.Forall₂ (fun p slab => ∃ left right : Solution,
        c.solution? p.problem1 p.solution1 = some left ∧
        c.solution? p.problem2 p.solution2 = some right ∧
        OneHot.Shows c.vocabulary (length.getD c.longest) left.tokens right.tokens slab) pairs slabs := by
  obtain ⟨_, -, h⟩ := bind_eq_ok.mp h
  obtain ⟨features, hfeatures, h⟩ := bind_eq_ok.mp h
  cases h
  obtain ⟨slabs, hslabs, h⟩ := bind_eq_ok.mp hfeatures
  cases h
  have hrows := mapM_eq_ok.mp hslabs
  refine ⟨slabs, rfl, ?_, hrows.imp fun p slab hslab => ?_⟩
  · simp only [Features.shape, hrows.length_eq]
  · obtain ⟨⟨left, right⟩, hsides, hslab⟩ := bind_eq_ok.mp hslab
    cases hslab
    obtain ⟨hl, hr, hleft, hright⟩ := Corpus.sides_eq_ok.mp hsides
    exact ⟨left, right, hl, hr, OneHot.shows_oneHotSlab hleft hright⟩

/-- Of the first problem the second solution is shorter than two tokens, that of the second problem is longer. -/
def unevenSides : Corpus :=
  .ofProblems "tokens" 4 [("p", [⟨"a", [0, 3]⟩, ⟨"b", [2]⟩]), ("q", [⟨"c", [1, 1, 0]⟩])]

/-- In two steps the left side is filled up and the right one cut off. -/
theorem assemble_oneHot_unevenSides : ∃ a slab,
    unevenSides.assemble (.oneHot (some 2)) .binary [⟨0, 1, 1, 0⟩] = .ok a ∧
      a.features = .oneHot 4 2 [slab] ∧ OneHot.Shows 4 2 [2] [1, 1, 0] slab ∧
      OneHot.decode (slab.map (List.take 4)) = [2] ∧ OneHot.decode (slab.map (List.drop 4)) = [1, 1] := by
  obtain ⟨a, ha⟩ := exists_of_isOk
    (x := unevenSides.assemble (.oneHot (some 2)) .binary [⟨0, 1, 1, 0⟩]) (by decide +kernel)
  obtain ⟨slabs, hfeatures, -, hslabs⟩ := assemble_oneHot_shows ha
  obtain ⟨slab, rest, hslab, hrest, rfl⟩ := List.forall₂_cons_left_iff.mp hslabs
  obtain rfl := List.forall₂_nil_left_iff.mp hrest
  obtain ⟨left, right, hleft, hright, hshows⟩ := hslab
  cases hleft
  cases hright
  exact ⟨a, slab, ha, hfeatures, hshows, hshows.decode_left, hshows.decode_right⟩

end PairDatasets
