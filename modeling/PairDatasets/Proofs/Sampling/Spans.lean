import Mathlib.Algebra.Order.Ring.Nat
import Mathlib.Data.List.Basic
import Mathlib.Data.Nat.Notation
import Mathlib.Tactic.Common
import PairDatasets.Sampling.SlotTable

/-! A table as spans of slots. The loop that fills it keeps slots, cursor, counter and last slice apart; while
the cursor does not move back they all tell the same spans, one for each slice that has solutions, and what
is left at the end makes the last of them longer. -/
namespace PairDatasets

/-- How many slots in a row belong to a slice. -/
structure Span where
  slice : ℕ
  width : ℕ
  deriving DecidableEq, Repr

namespace Span
variable {spans : List Span} {slice : ℕ}

/-- The slots of spans, laid out one after the other. -/
def layOut (spans : List Span) : List ℕ := spans.flatMap fun s => List.replicate s.width s.slice

/-- How many spans have slots. -/
def count (spans : List Span) : ℕ := spans.countP fun s => 0 < s.width

lemma mem_layOut : slice ∈ layOut spans ↔ ∃ s ∈ spans, 0 < s.width ∧ s.slice = slice := by
  simp [layOut, List.mem_replicate, Nat.pos_iff_ne_zero, eq_comm]

lemma length_layOut : (layOut spans).length = (spans.map Span.width).sum := by
  simp [layOut, List.length_flatMap]

lemma count_cons (s : Span) (spans : List Span) :
    count (s :: spans) = count spans + if 0 < s.width then 1 else 0 := by
  simp [count, List.countP_cons]

lemma count_append (spans spans' : List Span) : count (spans ++ spans') = count spans + count spans' :=
  List.countP_append

lemma count_singleton (s : Span) : count [s] = if 0 < s.width then 1 else 0 := by
  simp [count]

lemma layOut_append (spans : List Span) (s : Span) :
    layOut (spans ++ [s]) = layOut spans ++ List.replicate s.width s.slice := by
  simp [layOut]

end Span

namespace SlotTable
variable {sizes : List ℕ} {total size slice n cursor : ℕ} {xs : List (ℕ × ℕ)}

/-! ### Spans of the slices -/

/-- Spans for slices that have solutions, each given with its size. The last one takes what is left. -/
def spans (total size : ℕ) : List (ℕ × ℕ) → ℕ → List Span
  | [], _ => []
  | [(slice, _)], cursor => [⟨slice, size - cursor⟩]
  | (slice, n) :: rest, cursor =>
    let next := advance total size n cursor
    ⟨slice, next - cursor⟩ :: spans total size rest next

/-- Those of some slices that have solutions, with their sizes behind them. -/
def taken (entries : List (ℕ × ℕ)) : List (ℕ × ℕ) :=
  (entries.filter fun (n, _) => n ≠ 0).map fun (n, slice) => (slice, n)

/-- The slices that have solutions, with their sizes. -/
def occupied (sizes : List ℕ) : List (ℕ × ℕ) := taken sizes.zipIdx

/-- The spans of a table of `size` slots. -/
def allSpans (sizes : List ℕ) (size : ℕ) : List Span := spans sizes.sum size (occupied sizes) 0

/-- How many slices have a slot in a table of `size` slots. -/
def reach (sizes : List ℕ) (size : ℕ) : ℕ := Span.count (allSpans sizes size)

/-- The table of `size` slots that the spans lay out. -/
def ofSizes (sizes : List ℕ) (size : ℕ) : SlotTable :=
  let slots := match allSpans sizes size with
    | [] => Array.replicate size 0
    | all => (Span.layOut all).toArray
  ⟨slots, reach sizes size⟩

/-- No slice takes the cursor back. -/
def Onward (total size : ℕ) : List (ℕ × ℕ) → ℕ → Prop
  | [], _ => True
  | (_, n) :: rest, cursor =>
    cursor ≤ advance total size n cursor ∧ Onward total size rest (advance total size n cursor)

/-- On its way over the slices the cursor of a table never moves back. -/
def Forward (sizes : List ℕ) (size : ℕ) : Prop := Onward sizes.sum size (occupied sizes) 0

/-- The spans that the steps of the cursor lay out, before the last slice takes what is left. -/
def strides (total size : ℕ) : List (ℕ × ℕ) → ℕ → List Span
  | [], _ => []
  | (slice, n) :: rest, cursor =>
    let next := advance total size n cursor
    ⟨slice, next - cursor⟩ :: strides total size rest next

instance decidableOnward (total size : ℕ) :
    (xs : List (ℕ × ℕ)) → (cursor : ℕ) → Decidable (Onward total size xs cursor)
  | [], _ => .isTrue trivial
  | (_, _) :: rest, _ => @instDecidableAnd _ _ inferInstance (decidableOnward total size rest _)

instance : Decidable (Forward sizes size) := decidableOnward ..

lemma advance_le (total size n cursor : ℕ) : advance total size n cursor ≤ size := Nat.min_le_right _ _

lemma spans_cons (slice n : ℕ) (hne : xs ≠ []) : spans total size ((slice, n) :: xs) cursor =
    ⟨slice, advance total size n cursor - cursor⟩ ::
      spans total size xs (advance total size n cursor) := by
  rw [spans]
  exact hne

/-! ### Filling -/

/-- Slots that are written stand between those before and behind them. -/
lemma toList_fill {slots : Array ℕ} {front old back : List ℕ} (slice : ℕ)
    (hslots : slots.toList = front ++ old ++ back) : (fill slice front.length old.length slots).toList =
      front ++ List.replicate old.length slice ++ back := by
  induction old generalizing front slots with
  | nil => exact hslots
  | cons x old ih =>
    have hwritten : (slots.setIfInBounds front.length slice).toList = (front ++ [slice]) ++ old ++ back := by
      rw [Array.toList_setIfInBounds, hslots]
      simp
    have hrest := ih hwritten
    rw [List.length_append, List.length_singleton] at hrest
    rw [List.length_cons, fill, hrest, List.replicate_succ]
    simp

namespace Filling
variable {f : Filling} {done : List Span}

/-- What a filling holds when it has laid out some spans. -/
structure Holds (size : ℕ) (done : List Span) (f : Filling) : Prop where
  slots : f.slots.toList = Span.layOut done ++ List.replicate (size - f.cursor) 0
  cursor : f.cursor = (done.map Span.width).sum
  le : f.cursor ≤ size
  distinct : f.distinct = Span.count done
  last : f.last = (done.map Span.slice).getLast?

lemma holds_start (size : ℕ) : Holds size [] (start size) := by
  constructor <;> simp [start, Span.layOut, Span.count]

/-- Filling from the cursor on lays out one more span. -/
lemma Holds.toList_fill (h : Holds size done f) {next : ℕ} (hle : f.cursor ≤ next) (hnext : next ≤ size)
    (slice : ℕ) : (fill slice f.cursor (next - f.cursor) f.slots).toList =
      Span.layOut (done ++ [⟨slice, next - f.cursor⟩]) ++ List.replicate (size - next) 0 := by
  have hsplit : List.replicate (size - f.cursor) 0 =
      List.replicate (next - f.cursor) 0 ++ List.replicate (size - next) 0 := by
    rw [List.replicate_append_replicate]
    congr 1
    omega
  have hslots := h.slots
  rw [hsplit, ← List.append_assoc] at hslots
  have hfilled := SlotTable.toList_fill slice hslots
  rw [Span.length_layOut, ← h.cursor, List.length_replicate] at hfilled
  rw [hfilled, Span.layOut_append]

/-- A slice without solutions is passed over. -/
lemma add_zero (total size slice : ℕ) (f : Filling) : f.add total size slice 0 = .ok f := if_pos rfl

/-- A slice that does not take the cursor back adds its span. -/
lemma Holds.add (h : Holds size done f) (slice : ℕ) (hn : n ≠ 0) (hle : f.cursor ≤ advance total size n f.cursor) :
    ∃ f', f.add total size slice n = .ok f' ∧ f'.cursor = advance total size n f.cursor ∧
      Holds size (done ++ [⟨slice, advance total size n f.cursor - f.cursor⟩]) f' := by
  have hnext := advance_le total size n f.cursor
  generalize hadvance : advance total size n f.cursor = next at hle hnext ⊢
  refine ⟨⟨fill slice f.cursor (next - f.cursor) f.slots, next,
    if f.cursor < next then f.distinct + 1 else f.distinct, some slice⟩, ?_, rfl, ?_⟩
  · rw [Filling.add, if_neg hn, hadvance]
    exact if_neg (Nat.not_lt_of_le hle)
  constructor
  · exact h.toList_fill hle hnext slice
  · have hcursor := h.cursor
    simp only [List.map_append, List.sum_append, ← hcursor, List.map_singleton, List.sum_singleton]
    omega
  · exact hnext
  · have hdistinct : f.distinct = done.countP fun s => 0 < s.width := h.distinct
    by_cases hmoved : f.cursor < next
    · simp [Span.count, hdistinct, hmoved, Nat.sub_pos_of_lt hmoved]
    · simp [Span.count, hdistinct, hmoved, Nat.sub_eq_zero_of_le (Nat.le_of_not_lt hmoved)]
  · simp

/-- A slice that takes the cursor back breaks off. -/
lemma add_backward (hn : n ≠ 0) (hlt : advance total size n f.cursor < f.cursor) :
    f.add total size slice n = .error (.breakdown .rangeReversed) := by
  rw [Filling.add, if_neg hn]
  exact if_pos hlt

/-- Take in slices, each given with its size in front. -/
def run (total size : ℕ) (entries : List (ℕ × ℕ)) (f : Filling) : Except DatasetError Filling :=
  entries.foldlM (fun (f : Filling) (n, slice) => f.add total size slice n) f

lemma run_cons (total size slice n : ℕ) (entries : List (ℕ × ℕ)) (f : Filling) :
    run total size ((n, slice) :: entries) f = f.add total size slice n >>= run total size entries := rfl

lemma taken_cons (hn : n ≠ 0) (slice : ℕ) (entries : List (ℕ × ℕ)) :
    taken ((n, slice) :: entries) = (slice, n) :: taken entries := by
  simp [taken, hn]

/-- While the cursor moves onward all slices are taken in, each with its span. -/
theorem Holds.run (h : Holds size done f) {entries : List (ℕ × ℕ)}
    (honward : Onward total size (taken entries) f.cursor) :
    ∃ f', run total size entries f = .ok f' ∧
      Holds size (done ++ strides total size (taken entries) f.cursor) f' := by
  -- over the slices; a slice without solutions leaves the filling and its spans as they are
  induction entries generalizing f done with
  | nil => exact ⟨f, rfl, by simpa [taken, strides] using h⟩
  | cons entry entries ih =>
    obtain ⟨n, slice⟩ := entry
    rw [run_cons]
    by_cases hn : n = 0
    · subst hn
      rw [add_zero]
      exact ih h honward
    · rw [taken_cons hn] at honward ⊢
      obtain ⟨f', hadd, hcursor, hholds⟩ := h.add slice hn honward.1
      have hrest := ih hholds (hcursor ▸ honward.2)
      rw [hcursor, List.append_assoc] at hrest
      rw [hadd]
      exact hrest

/-- A slice that takes the cursor back is the end of the run. -/
theorem Holds.run_backward {entries : List (ℕ × ℕ)} (h : Holds size done f)
    (hback : ¬Onward total size (taken entries) f.cursor) :
    Filling.run total size entries f = .error (.breakdown .rangeReversed) := by
  induction entries generalizing f done with
  | nil => exact absurd trivial hback
  | cons entry entries ih =>
    obtain ⟨n, slice⟩ := entry
    rw [run_cons]
    by_cases hn : n = 0
    · subst hn
      rw [add_zero]
      exact ih h hback
    · rw [taken_cons hn] at hback
      rcases Nat.lt_or_ge (advance total size n f.cursor) f.cursor with hlt | hle
      · rw [add_backward hn hlt]
        rfl
      · obtain ⟨f', hadd, hcursor, hholds⟩ := h.add slice hn hle
        rw [hadd]
        exact ih hholds fun honward => hback ⟨hle, hcursor ▸ honward⟩

/-- The slices that have slots so far are those of spans that are not empty. -/
lemma Holds.mem_front (h : Holds size done f) :
    slice ∈ f.slots.toList.take f.cursor ↔ ∃ s ∈ done, 0 < s.width ∧ s.slice = slice := by
  rw [h.slots, List.take_left' (Span.length_layOut.trans h.cursor.symm), Span.mem_layOut]

/-- A slice that was taken in once has no slots before the cursor where its span is empty. -/
lemma Holds.all_ne_iff {s : Span} (h : Holds size (done ++ [s]) f) (hfresh : s.slice ∉ done.map Span.slice) :
    (f.slots.toList.take f.cursor).all (· != s.slice) = true ↔ s.width = 0 := by
  have hmem : s.slice ∈ f.slots.toList.take f.cursor ↔ 0 < s.width := by
    rw [h.mem_front]
    constructor
    · rintro ⟨t, ht, hpos, hslice⟩
      rcases List.mem_append.mp ht with ht | ht
      · exact absurd (hslice ▸ List.mem_map_of_mem ht) hfresh
      · rwa [List.mem_singleton.mp ht] at hpos
    · exact fun hpos => ⟨s, by simp, hpos, rfl⟩
  have hall : (f.slots.toList.take f.cursor).all (· != s.slice) = true ↔
      s.slice ∉ f.slots.toList.take f.cursor := by
    rw [List.all_eq_true]
    exact ⟨fun hne hs => by simpa using hne _ hs, fun hs x hx => by simpa using ne_of_mem_of_not_mem hx hs⟩
  rw [hall, hmem, Nat.pos_iff_ne_zero, not_not]

/-- What is left goes to the last slice, which counts if it has slots then. -/
lemma Holds.finish {s : Span} (h : Holds size (done ++ [s]) f) (hfresh : s.slice ∉ done.map Span.slice) :
    (f.finish size).slots.toList = Span.layOut (done ++ [⟨s.slice, s.width + (size - f.cursor)⟩]) ∧
      (f.finish size).reachable = Span.count (done ++ [⟨s.slice, s.width + (size - f.cursor)⟩]) := by
  have hlast : f.last = some s.slice := by simpa using h.last
  unfold Filling.finish
  rw [hlast]
  dsimp only
  constructor
  · rw [h.toList_fill h.le (Nat.le_refl size)]
    simp [Span.layOut, List.replicate_append_replicate]
  · simp only [Bool.and_eq_true, decide_eq_true_iff, h.all_ne_iff hfresh, h.distinct, Span.count_append,
      Span.count_singleton]
    split_ifs <;> omega

/-- The spans of the slices are those of the steps, up to the last. -/
lemma spans_eq (honward : Onward total size xs cursor) (hne : xs ≠ []) :
    ∃ front s, strides total size xs cursor = front ++ [s] ∧ spans total size xs cursor =
      front ++ [⟨s.slice, s.width + (size - (cursor + ((strides total size xs cursor).map Span.width).sum))⟩] := by
  induction xs generalizing cursor with
  | nil => exact absurd rfl hne
  | cons x xs ih =>
    obtain ⟨slice, n⟩ := x
    have hnext := advance_le total size n cursor
    have hle := honward.1
    by_cases hxs : xs = []
    · subst hxs
      refine ⟨[], ⟨slice, advance total size n cursor - cursor⟩, rfl, ?_⟩
      simp [spans, strides]
      omega
    · obtain ⟨front, s, hstrides, hspans⟩ := ih honward.2 hxs
      refine ⟨⟨slice, advance total size n cursor - cursor⟩ :: front, s, ?_, ?_⟩
      · rw [strides, hstrides]
        rfl
      · have hcursor : ∀ k, cursor + (advance total size n cursor - cursor + k) =
            advance total size n cursor + k := fun k => by omega
        rw [spans_cons slice n hxs, hspans, strides, List.map_cons, List.sum_cons, hcursor]
        rfl

end Filling

/-! ### The table -/

lemma pairwise_occupied (sizes : List ℕ) : ((occupied sizes).map Prod.fst).Pairwise (· < ·) := by
  have hsub : ((occupied sizes).map Prod.fst).Sublist (sizes.zipIdx.map Prod.snd) := by
    unfold occupied taken
    rw [List.map_map]
    exact List.filter_sublist.map _
  rw [List.zipIdx_map_snd] at hsub
  exact List.Pairwise.sublist hsub List.pairwise_lt_range'

lemma map_slice_strides : (strides total size xs cursor).map Span.slice = xs.map Prod.fst := by
  induction xs generalizing cursor with
  | nil => rfl
  | cons x xs ih =>
    rw [strides, List.map_cons, List.map_cons, ih]

lemma ofSizes_of_ne_nil (h : allSpans sizes size ≠ []) :
    ofSizes sizes size = ⟨(Span.layOut (allSpans sizes size)).toArray, reach sizes size⟩ := by
  unfold ofSizes
  cases hs : allSpans sizes size with
  | nil => exact absurd hs h
  | cons s rest => rfl

lemma toList_slots (h : allSpans sizes size ≠ []) :
    (ofSizes sizes size).slots.toList = Span.layOut (allSpans sizes size) := by
  rw [ofSizes_of_ne_nil h]

/-- When all slices are taken in, finishing gives the table that the spans lay out. -/
lemma Filling.Holds.finish_eq {f : Filling}
    (h : Filling.Holds size (strides sizes.sum size (occupied sizes) 0) f) (hforward : Forward sizes size) :
    f.finish size = ofSizes sizes size := by
  by_cases hnone : occupied sizes = []
  · have hspans : allSpans sizes size = [] := by rw [allSpans, hnone, spans]
    rw [hnone, strides] at h
    have hcursor : f.cursor = 0 := h.cursor
    have hslots : f.slots = Array.replicate size 0 := by
      apply Array.toList_inj.mp
      rw [h.slots, hcursor, Array.toList_replicate]
      rfl
    have hlast : f.last = none := h.last
    rw [ofSizes, reach, hspans, Filling.finish, hlast, hslots, h.distinct]
  · obtain ⟨front, s, hstrides, hspans⟩ := Filling.spans_eq hforward hnone
    have hslices := pairwise_occupied sizes
    have hmap : (strides sizes.sum size (occupied sizes) 0).map Span.slice = (occupied sizes).map Prod.fst :=
      map_slice_strides
    rw [← hmap, hstrides, List.map_append, List.map_singleton, List.pairwise_append] at hslices
    have hfresh : s.slice ∉ front.map Span.slice := fun hmem =>
      Nat.lt_irrefl _ (hslices.2.2 _ hmem _ (List.mem_singleton_self _))
    rw [Nat.zero_add, ← h.cursor] at hspans
    have hall : allSpans sizes size = front ++ [⟨s.slice, s.width + (size - f.cursor)⟩] := hspans
    rw [hstrides] at h
    obtain ⟨hslots, hreachable⟩ := h.finish hfresh
    rw [ofSizes_of_ne_nil (by simp [hall]), reach, hall, ← hreachable, ← hslots]

lemma make_eq_run (hmemory : Memory.holds 8 size = true) : make sizes size =
    (Filling.run sizes.sum size sizes.zipIdx (Filling.start size)).map (Filling.finish size) := by
  rw [make, Memory.require_eq_ok.mpr hmemory]
  change Filling.run sizes.sum size sizes.zipIdx (Filling.start size) >>= _ = _
  cases Filling.run sizes.sum size sizes.zipIdx (Filling.start size) <;> rfl

/-- Where memory holds the table and the cursor never moves back, the table is what its spans lay out. -/
theorem make_of_forward (hmemory : Memory.holds 8 size = true) (h : Forward sizes size) :
    make sizes size = .ok (ofSizes sizes size) := by
  obtain ⟨f, hrun, hholds⟩ : ∃ f, Filling.run sizes.sum size sizes.zipIdx (Filling.start size) = .ok f ∧
      Filling.Holds size (strides sizes.sum size (occupied sizes) 0) f := (Filling.holds_start size).run h
  rw [make_eq_run hmemory, hrun]
  exact congrArg Except.ok (hholds.finish_eq h)

/-- Where the cursor would move back, making the table breaks off. -/
theorem make_of_not_forward (hmemory : Memory.holds 8 size = true) (h : ¬Forward sizes size) :
    make sizes size = .error (.breakdown .rangeReversed) := by
  rw [make_eq_run hmemory, (Filling.holds_start size).run_backward h]
  rfl

lemma make_of_not_holds (hmemory : ¬Memory.holds 8 size = true) :
    make sizes size = .error (.breakdown .outOfMemory) := by
  rw [make, Memory.require, if_neg hmemory]
  rfl

/-- These are the only tables. -/
theorem make_eq_ok_iff {t : SlotTable} : make sizes size = .ok t ↔
    Memory.holds 8 size = true ∧ Forward sizes size ∧ ofSizes sizes size = t := by
  by_cases hmemory : Memory.holds 8 size = true
  · by_cases hforward : Forward sizes size
    · simp [make_of_forward hmemory hforward, hmemory, hforward]
    · simp [make_of_not_forward hmemory hforward, hforward]
  · simp [make_of_not_holds hmemory, hmemory]

/-- Making a table breaks off for want of memory or where the cursor would move back. -/
lemma error_of_make {e : DatasetError} (h : make sizes size = .error e) :
    e = .breakdown .outOfMemory ∨ e = .breakdown .rangeReversed := by
  by_cases hmemory : Memory.holds 8 size = true
  · by_cases hforward : Forward sizes size
    · rw [make_of_forward hmemory hforward] at h
      cases h
    · rw [make_of_not_forward hmemory hforward] at h
      exact .inr (Except.error.inj h).symm
  · rw [make_of_not_holds hmemory] at h
    exact .inl (Except.error.inj h).symm

end SlotTable
end PairDatasets
