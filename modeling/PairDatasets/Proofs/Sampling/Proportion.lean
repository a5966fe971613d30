import PairDatasets.Proofs.Order.Mapping
import PairDatasets.Proofs.Sampling.Table

/-! How close a table comes to the shares of the slices. Each step cuts the cursor to a whole slot, so a
slice gets its share cut to whole slots, or one less, and never more. What all of them lose together goes
to the last slice that has solutions: it may get as many slots too many as slices come before it. -/
namespace PairDatasets
namespace SlotTable
variable {total size n cursor : ℕ}

lemma lt_of_mul_lt (htotal : 0 < total) (hsize : 0 < size) (hslots : total * size < 2 ^ 51) :
    total < 2 ^ 53 ∧ size < 2 ^ 53 :=
  ⟨(Nat.le_mul_of_pos_right total hsize).trans_lt (hslots.trans (by decide)),
    (Nat.le_mul_of_pos_left size htotal).trans_lt (hslots.trans (by decide))⟩

/-- While the cursor has room for the share of a slice, holding it within the table changes nothing. -/
lemma advance_fair (hn : 0 < n) (htotal : 0 < total) (hslots : total * size < 2 ^ 51)
    (hroom : total * cursor + n * size ≤ total * size) :
    total * advance total size n cursor ≤ total * cursor + n * size ∧
      total * cursor + n * size ≤ total * (advance total size n cursor + 1) := by
  have hcursor : cursor ≤ size :=
    Nat.le_of_mul_le_mul_left ((Nat.le_add_right _ _).trans hroom) htotal
  obtain ⟨next, hnext⟩ : ∃ next, next = advance total size n cursor := ⟨_, rfl⟩
  rw [← hnext]
  rw [advance_eq] at hnext
  rcases Nat.eq_zero_or_pos size with rfl | hsize
  · have hstays : next = cursor := by omega
    rw [hstays, Nat.mul_zero, Nat.add_zero]
    exact ⟨le_rfl, Nat.mul_le_mul_left _ (Nat.le_succ cursor)⟩
  · have hle : n ≤ total := Nat.le_of_mul_le_mul_right ((Nat.le_add_left _ _).trans hroom) hsize
    obtain ⟨htotal', hsize'⟩ := lt_of_mul_lt htotal hsize hslots
    obtain ⟨hcut, hrest⟩ := step_fair hn hle htotal' hsize' hslots hcursor
    have hstep : next ≤ step total size n cursor := hnext ▸ Nat.min_le_left _ _
    refine ⟨(Nat.mul_le_mul_left _ hstep).trans hcut, ?_⟩
    rcases (show next = size ∨ next = step total size n cursor by omega) with rfl | rfl
    · exact hroom.trans (Nat.mul_le_mul_left _ (Nat.le_succ _))
    · exact hrest

/-- Where solutions times slots stay below 2⁵¹ the cursor never moves back. -/
lemma forward_of_mul_lt {sizes : List ℕ} (h : 0 < sizes.sum) (hslots : sizes.sum * size < 2 ^ 51) :
    Forward sizes size := by
  rcases Nat.eq_zero_or_pos size with rfl | hsize
  · exact forward_zero sizes
  · obtain ⟨hsum, hsmall⟩ := lt_of_mul_lt h hsize hslots
    exact forward_of_lt hsum hsmall

/-- A slice with `n` of `total` solutions has its share of the slots, cut to whole slots, or one less. -/
structure Fair (total size n width : ℕ) : Prop where
  le : total * width ≤ n * size
  ge : n * size ≤ total * (width + 1)

/-- The span of a slice is fair. -/
structure Allots (total size : ℕ) (e : ℕ × ℕ) (s : Span) : Prop where
  slice : s.slice = e.1
  fair : Fair total size e.2 s.width

/-- All spans but the last are fair. -/
theorem spans_fair {front : List (ℕ × ℕ)} (last : ℕ × ℕ) (hpos : ∀ e ∈ front, 0 < e.2)
    (htotal : 0 < total) (hslots : total * size < 2 ^ 51)
    (honward : Onward total size (front ++ [last]) cursor)
    (hroom : total * cursor + (front.map Prod.snd).sum * size ≤ total * size) :
    ∃ earlier width, spans total size (front ++ [last]) cursor = earlier ++ [⟨last.1, width⟩] ∧
      List.Forall₂ (Allots total size) front earlier := by
  induction front generalizing cursor with
  | nil => exact ⟨[], size - cursor, rfl, .nil⟩
  | cons e front ih =>
    obtain ⟨slice, n⟩ := e
    rw [List.forall_mem_cons] at hpos
    rw [List.map_cons, List.sum_cons, Nat.add_mul, ← Nat.add_assoc] at hroom
    obtain ⟨hcut, hrest⟩ := advance_fair hpos.1 htotal hslots ((Nat.le_add_right _ _).trans hroom)
    obtain ⟨hforward, honward⟩ := honward
    obtain ⟨earlier, width, hspans, hfair⟩ := ih hpos.2 honward ((Nat.add_le_add_right hcut _).trans hroom)
    refine ⟨⟨slice, advance total size n cursor - cursor⟩ :: earlier, width, ?_, .cons ⟨rfl, ?_⟩ hfair⟩
    · rw [List.cons_append, spans_cons slice n (by simp), hspans, List.cons_append]
    · obtain ⟨moved, hmoved⟩ := Nat.exists_eq_add_of_le hforward
      rw [hmoved] at hcut hrest ⊢
      rw [Nat.add_sub_cancel_left]
      constructor
      · refine Nat.le_of_add_le_add_left (a := total * cursor) ?_
        rwa [← Nat.mul_add]
      · refine Nat.le_of_add_le_add_left (a := total * cursor) ?_
        rwa [← Nat.mul_add, ← Nat.add_assoc]

/-- Fair spans together are short of their share by at most one slot each. -/
lemma sum_allots {front : List (ℕ × ℕ)} {earlier : List Span}
    (h : List.Forall₂ (Allots total size) front earlier) :
    total * (earlier.map Span.width).sum ≤ (front.map Prod.snd).sum * size ∧
      (front.map Prod.snd).sum * size ≤ total * ((earlier.map Span.width).sum + front.length) := by
  induction h with
  | nil => simp
  | cons hfair hrest ih =>
    obtain ⟨-, hle, hge⟩ := hfair
    simp only [List.map_cons, List.sum_cons, List.length_cons]
    constructor <;> linarith [ih.1, ih.2]

lemma mem_occupied_iff {sizes : List ℕ} {slice n : ℕ} :
    (slice, n) ∈ occupied sizes ↔ sizes[slice]? = some n ∧ 0 < n := by
  simp only [occupied, taken, List.mem_map, List.mem_filter, List.mem_zipIdx_iff_getElem?, Prod.exists,
    Prod.mk.injEq, decide_eq_true_eq, Nat.pos_iff_ne_zero]
  constructor
  · rintro ⟨m, i, ⟨hget, hne⟩, rfl, rfl⟩
    exact ⟨hget, hne⟩
  · rintro ⟨hget, hne⟩
    exact ⟨n, slice, ⟨hget, hne⟩, rfl, rfl⟩

lemma sum_occupied (sizes : List ℕ) : ((occupied sizes).map Prod.snd).sum = sizes.sum := by
  rw [map_snd_occupied]
  induction sizes with
  | nil => rfl
  | cons n sizes ih =>
    rcases Nat.eq_zero_or_pos n with rfl | hn
    · simpa using ih
    · rw [List.filter_cons_of_pos (by simpa using hn), List.sum_cons, List.sum_cons, ih]

lemma sum_front {sizes : List ℕ} {front : List (ℕ × ℕ)} {last : ℕ × ℕ}
    (h : occupied sizes = front ++ [last]) : (front.map Prod.snd).sum + last.2 = sizes.sum := by
  have hall := sum_occupied sizes
  rw [h, List.map_append, List.sum_append] at hall
  simpa using hall

/-- A table taken apart: fair spans for all slices with solutions but the last, then the span of that
one. -/
structure Parts (sizes : List ℕ) (size : ℕ) where
  front : List (ℕ × ℕ)
  last : ℕ × ℕ
  earlier : List Span
  width : ℕ
  forward : Forward sizes size
  occupied : occupied sizes = front ++ [last]
  spans : allSpans sizes size = earlier ++ [⟨last.1, width⟩]
  allots : List.Forall₂ (Allots sizes.sum size) front earlier

variable {sizes : List ℕ}

lemma exists_parts (h : 0 < sizes.sum) (hslots : sizes.sum * size < 2 ^ 51) :
    Nonempty (Parts sizes size) := by
  obtain hnil | ⟨front, last, heq⟩ := List.eq_nil_or_concat' (occupied sizes)
  · exact absurd hnil (occupied_ne_nil h)
  have hsum := sum_front heq
  have hpos : ∀ e ∈ front, 0 < e.2 := fun e he =>
    (mem_occupied_iff.mp (heq ▸ List.mem_append_left _ he)).2
  have hroom : sizes.sum * 0 + (front.map Prod.snd).sum * size ≤ sizes.sum * size := by
    rw [Nat.mul_zero, Nat.zero_add]
    exact Nat.mul_le_mul_right _ (by omega)
  have hforward := forward_of_mul_lt h hslots
  have honward := hforward
  rw [Forward, heq] at honward
  obtain ⟨earlier, width, hspans, hallots⟩ := spans_fair last hpos h hslots honward hroom
  exact ⟨⟨front, last, earlier, width, hforward, heq, by rw [allSpans, heq, hspans], hallots⟩⟩

lemma count_slots_of_zero (h : 0 < sizes.sum) {slice : ℕ} (hzero : sizes[slice]? = some 0) :
    (ofSizes sizes size).slots.toList.count slice = 0 := by
  rw [List.count_eq_zero, Array.mem_toList_iff]
  intro hslot
  have hpos := getD_pos_of_mem_slots (allSpans_ne_nil_of_sum h) hslot
  rw [List.getD_eq_getElem?_getD, hzero] at hpos
  exact hpos.ne rfl

lemma eq_count_of_slotCounts {t : SlotTable} {m slice w : ℕ} (h : (t.slotCounts m)[slice]? = some w) :
    w = t.slots.toList.count slice := by
  rw [slotCounts_eq_map_count, List.getElem?_map, Option.map_eq_some_iff] at h
  obtain ⟨j, hj, rfl⟩ := h
  obtain ⟨_, hslice⟩ := List.getElem?_eq_some_iff.mp hj
  rw [← hslice, List.getElem_range]

namespace Parts
variable (p : Parts sizes size)
include p

lemma sum_width : (p.earlier.map Span.width).sum + p.width = size := by
  have hne : SlotTable.occupied sizes ≠ [] := by simp [p.occupied]
  have hall : ((allSpans sizes size).map Span.width).sum = size :=
    sum_width_spans p.forward hne
  rw [p.spans, List.map_append, List.sum_append] at hall
  simpa using hall

lemma length_front : p.front.length = populated sizes - 1 := by
  rw [← length_occupied, p.occupied, List.length_append]
  rfl

lemma lt_last {e : ℕ × ℕ} (h : e ∈ p.front) : e.1 < p.last.1 := by
  have hascends := pairwise_occupied sizes
  rw [p.occupied, List.map_append, List.pairwise_append] at hascends
  exact hascends.2.2 _ (List.mem_map_of_mem h) _ (by simp)

lemma mem_iff {slice n : ℕ} :
    (slice, n) ∈ p.front ∨ (slice, n) = p.last ↔ sizes[slice]? = some n ∧ 0 < n := by
  rw [← mem_occupied_iff, p.occupied, List.mem_append, List.mem_singleton]

/-- What the spans leave to the last slice. -/
theorem last_bounds : p.last.2 * size ≤ sizes.sum * p.width ∧
    sizes.sum * p.width ≤ p.last.2 * size + (populated sizes - 1) * sizes.sum := by
  obtain ⟨hle, hge⟩ := sum_allots p.allots
  have hfront := congrArg (· * size) (sum_front p.occupied)
  have hwidth := congrArg (sizes.sum * ·) p.sum_width
  simp only [Nat.add_mul, Nat.mul_add] at hfront hwidth
  rw [p.length_front, Nat.mul_add, Nat.mul_comm _ (populated sizes - 1)] at hge
  constructor <;> omega

lemma count_slots (h : 0 < sizes.sum) {s : Span} (hs : s ∈ p.earlier ++ [⟨p.last.1, p.width⟩]) :
    (ofSizes sizes size).slots.toList.count s.slice = s.width := by
  rw [toList_slots (allSpans_ne_nil_of_sum h)]
  exact Span.count_layOut nodup_allSpans (p.spans ▸ hs)

end Parts
end SlotTable

namespace Group
open SlotTable
variable {g : Group} {slots : ℕ}

/-- The place of the last slice that has solutions. -/
structure IsLast (g : Group) (slot : ℕ) : Prop where
  solutions : 0 < g.sizes.getD slot 0
  none_later : ∀ later, slot < later → g.sizes.getD later 0 = 0

/-- What a table gives the slices of a group. -/
structure Apportioned (g : Group) (slots : ℕ) (counts : List ℕ) : Prop where
  fair : ∀ i n w, g.sizes[i]? = some n → counts[i]? = some w → ¬ g.IsLast i →
    Fair g.solutionCount slots n w
  /-- Each slice before the last leaves it at most one slot beyond its share. -/
  last : ∀ i n w, g.sizes[i]? = some n → counts[i]? = some w → g.IsLast i →
    n * slots ≤ g.solutionCount * w ∧
      g.solutionCount * w ≤ n * slots + (g.populated - 1) * g.solutionCount
  /-- Other slices with equally many solutions differ by at most one slot. -/
  even : ∀ i j n w v, g.sizes[i]? = some n → g.sizes[j]? = some n → counts[i]? = some w →
    counts[j]? = some v → ¬ g.IsLast i → ¬ g.IsLast j → w ≤ v + 1

lemma isLast_last (p : Parts g.sizes slots) : g.IsLast p.last.1 := by
  obtain ⟨hget, hpos⟩ := p.mem_iff.mp (.inr rfl : _ ∨ (p.last.1, p.last.2) = p.last)
  refine ⟨by rwa [List.getD_eq_getElem?_getD, hget], ?_⟩
  intro later hlater
  by_contra hsome
  obtain ⟨m, hm⟩ : ∃ m, g.sizes[later]? = some m := by
    rw [← Option.isSome_iff_exists]
    by_contra hnone
    rw [List.getD_eq_getElem?_getD, Option.not_isSome_iff_eq_none.mp hnone] at hsome
    exact hsome rfl
  have hm' : m ≠ 0 := by rwa [List.getD_eq_getElem?_getD, hm] at hsome
  rcases p.mem_iff.mpr ⟨hm, Nat.pos_of_ne_zero hm'⟩ with hfront | hlast
  · exact (p.lt_last hfront).not_gt hlater
  · exact hlater.ne (congrArg Prod.fst hlast).symm

/-- A slice other than the last has no solutions or is one of those in front. -/
lemma mem_front (p : Parts g.sizes slots) {i n : ℕ} (hget : g.sizes[i]? = some n) (hn : 0 < n)
    (hlast : ¬ g.IsLast i) : (i, n) ∈ p.front := by
  rcases p.mem_iff.mpr ⟨hget, hn⟩ with hfront | heq
  · exact hfront
  · have hi : i = p.last.1 := congrArg Prod.fst heq
    exact absurd (hi ▸ isLast_last p) hlast

lemma eq_last (p : Parts g.sizes slots) {i n : ℕ} (hget : g.sizes[i]? = some n)
    (hlast : g.IsLast i) : (i, n) = p.last := by
  have hn : 0 < n := by
    have hpos := hlast.solutions
    rwa [List.getD_eq_getElem?_getD, hget] at hpos
  rcases p.mem_iff.mpr ⟨hget, hn⟩ with hfront | heq
  · have hnone := hlast.none_later _ (p.lt_last hfront)
    exact absurd hnone (isLast_last p).solutions.ne'
  · exact heq

lemma fair_count (p : Parts g.sizes slots) (h : 0 < g.solutionCount) {i n : ℕ}
    (hget : g.sizes[i]? = some n) (hlast : ¬ g.IsLast i) :
    Fair g.solutionCount slots n ((ofSizes g.sizes slots).slots.toList.count i) := by
  rcases Nat.eq_zero_or_pos n with rfl | hn
  · rw [count_slots_of_zero h hget]
    constructor <;> simp
  · obtain ⟨s, hs, hslice, hfair⟩ := exists_of_forall₂_right p.allots.flip (mem_front p hget hn hlast)
    have hcount := p.count_slots h (List.mem_append_left _ hs)
    rw [hslice] at hcount
    rwa [hcount]

lemma last_count (p : Parts g.sizes slots) (h : 0 < g.solutionCount) {i n : ℕ}
    (hget : g.sizes[i]? = some n) (hlast : g.IsLast i) :
    n * slots ≤ g.solutionCount * (ofSizes g.sizes slots).slots.toList.count i ∧
      g.solutionCount * (ofSizes g.sizes slots).slots.toList.count i ≤
        n * slots + (g.populated - 1) * g.solutionCount := by
  have hbounds := p.last_bounds
  have hcount := p.count_slots h (List.mem_append_right p.earlier (.head _))
  rw [← eq_last p hget hlast] at hbounds hcount
  rw [hcount]
  exact hbounds

end Group

/-- Where solutions times slots stay below 2⁵¹ every slice but the last has its share of the slots, cut to
whole slots, or one less; the last one has at least its share. -/
theorem make_apportions {g : Group} {slots : ℕ} (h : 0 < g.solutionCount)
    (hslots : g.solutionCount * slots < 2 ^ 51) :
    ∃ t, SlotTable.make g.sizes slots = .ok t ∧
      g.Apportioned slots (t.slotCounts g.problemCount) := by
  have hsmall : slots < 2 ^ 51 := (Nat.le_mul_of_pos_left slots h).trans_lt hslots
  have hmemory : Memory.holds 8 slots = true := Memory.holds_iff.mpr (by omega)
  obtain ⟨p⟩ := SlotTable.exists_parts h hslots
  have hfair : ∀ i n w, g.sizes[i]? = some n →
      ((SlotTable.ofSizes g.sizes slots).slotCounts g.problemCount)[i]? = some w →
        ¬ g.IsLast i → SlotTable.Fair g.solutionCount slots n w := by
    intro i n w hget hw hlast
    rw [SlotTable.eq_count_of_slotCounts hw]
    exact Group.fair_count p h hget hlast
  refine ⟨_, SlotTable.make_of_forward hmemory p.forward, hfair, ?_, ?_⟩
  · intro i n w hget hw hlast
    rw [SlotTable.eq_count_of_slotCounts hw]
    exact Group.last_count p h hget hlast
  · intro i j n w v hi hj hw hv hi' hj'
    have hle := (hfair i n w hi hw hi').le
    have hge := (hfair j n v hj hv hj').ge
    exact Nat.le_of_mul_le_mul_left (hle.trans hge) h

/-- As many problems with one solution each. -/
def evenGroup (problems : ℕ) : Group := ⟨0, (List.range problems).map fun problem => ⟨problem, [0]⟩⟩

/-- Of twelve slots for eight problems the last gets five, less than seven above its share. -/
theorem make_evenGroup_apportions : ∃ t, SlotTable.make (evenGroup 8).sizes 12 = .ok t ∧
    (evenGroup 8).Apportioned 12 (t.slotCounts 8) ∧ t.slotCounts 8 = [1, 1, 1, 1, 1, 1, 1, 5] := by
  have hsolutions : 0 < (evenGroup 8).solutionCount := by decide
  have hslots : (evenGroup 8).solutionCount * 12 < 2 ^ 51 := by decide
  obtain ⟨t, hmake, hshares⟩ := make_apportions hsolutions hslots
  refine ⟨t, hmake, hshares, ?_⟩
  obtain ⟨-, -, rfl⟩ := SlotTable.make_eq_ok_iff.mp hmake
  decide +kernel

/-- Every slice has its share of the slots up to less than one slot. -/
def Group.Proportional (g : Group) (slots : ℕ) (counts : List ℕ) : Prop :=
  ∀ i n w : ℕ, g.sizes[i]? = some n → counts[i]? = some w →
    g.solutionCount * w < n * slots + g.solutionCount ∧ n * slots < g.solutionCount * w + g.solutionCount

/-- One slot for each of 49 problems is their share, but a double below one is cut to no slot, and all
slots go to the last problem. -/
theorem make_evenGroup_disproportional : ∃ t, SlotTable.make (evenGroup 49).sizes 49 = .ok t ∧
    t.slotCounts 49 = List.replicate 48 0 ++ [49] ∧
    ¬ (evenGroup 49).Proportional 49 (t.slotCounts 49) := by
  have hcounts : (SlotTable.ofSizes (evenGroup 49).sizes 49).slotCounts 49 = List.replicate 48 0 ++ [49] := by
    decide +kernel
  have hforward : SlotTable.Forward (evenGroup 49).sizes 49 := SlotTable.forward_of_lt (by decide) (by decide)
  refine ⟨_, SlotTable.make_of_forward (by decide) hforward, hcounts, ?_⟩
  intro hall
  rw [hcounts] at hall
  have hlast := (hall 48 1 49 (by decide) (by decide)).1
  revert hlast
  decide

end PairDatasets
