import PairDatasets.Proofs.Sampling.Cursor
import PairDatasets.Proofs.Sampling.Refusal

/-! What a table of slots holds. Its spans follow the slices and fill it, so the slots never descend, the
slices that have slots are as many as are counted as reachable, and the slot counts add up to the table.
From two reachable slices on there are two different slots to draw, and no draw meets a slice without
solutions. -/
namespace PairDatasets

/-- Counting each number below a bound counts every entry that stays below it. -/
lemma sum_count_range {n : ℕ} {xs : List ℕ} (h : ∀ x ∈ xs, x < n) :
    ((List.range n).map fun i => xs.count i).sum = xs.length := by
  have hcard := Multiset.sum_count_eq_card (s := Finset.range n) (m := (xs : Multiset ℕ))
    fun x hx => Finset.mem_range.mpr (h x hx)
  simp only [Multiset.coe_count, Multiset.coe_card] at hcard
  rw [← List.sum_toFinset _ List.nodup_range, List.toFinset_range, hcard]

namespace Span
variable {spans : List Span} {s : Span}

/-- Slots of ascending spans do not descend. -/
lemma pairwise_layOut (h : (spans.map Span.slice).Pairwise (· < ·)) : (layOut spans).Pairwise (· ≤ ·) := by
  rw [layOut, List.pairwise_flatMap]
  constructor
  · intro s hs
    exact List.pairwise_replicate.mpr (.inr le_rfl)
  · refine (List.pairwise_map.mp h).imp ?_
    intro s t hlt x hx y hy
    rw [List.eq_of_mem_replicate hx, List.eq_of_mem_replicate hy]
    exact hlt.le

/-- A slice has the slots of its span. -/
lemma count_layOut (h : (spans.map Span.slice).Nodup) (hs : s ∈ spans) :
    (layOut spans).count s.slice = s.width := by
  induction spans with
  | nil => cases hs
  | cons t spans ih =>
    rw [List.map_cons, List.nodup_cons] at h
    have hcons : layOut (t :: spans) = List.replicate t.width t.slice ++ layOut spans := rfl
    rw [hcons, List.count_append]
    rcases List.mem_cons.mp hs with rfl | hs
    · have hnone : (layOut spans).count s.slice = 0 := by
        rw [List.count_eq_zero, mem_layOut]
        rintro ⟨u, hu, -, heq⟩
        exact h.1 (heq ▸ List.mem_map_of_mem hu)
      rw [List.count_replicate_self, hnone, Nat.add_zero]
    · have hother : t.slice ≠ s.slice := by
        intro heq
        exact h.1 (heq ▸ List.mem_map_of_mem hs)
      rw [List.count_replicate, if_neg (by simpa using hother), ih h.2 hs, Nat.zero_add]

/-- Different slices have slots where spans of different slices are not empty. -/
lemma card_layOut (h : (spans.map Span.slice).Nodup) :
    (layOut spans).toFinset.card = count spans := by
  have hsame : (layOut spans).toFinset =
      ((spans.filter fun s => 0 < s.width).map Span.slice).toFinset := by
    ext slice
    simp [mem_layOut, and_assoc]
  have hnodup : ((spans.filter fun s => 0 < s.width).map Span.slice).Nodup :=
    h.sublist (List.filter_sublist.map _)
  rw [hsame, List.toFinset_card_of_nodup hnodup, List.length_map, count, List.countP_eq_length_filter]

end Span

namespace SlotTable

section Spans
variable {total size n cursor : ℕ} {xs : List (ℕ × ℕ)}

lemma map_slice_spans : (spans total size xs cursor).map Span.slice = xs.map Prod.fst := by
  induction xs, cursor using spans.induct total size with
  | case1 => rfl
  | case2 slice n cursor => rfl
  | case3 slice n rest cursor hrest next ih =>
    rw [spans_cons slice n hrest, List.map_cons, List.map_cons, ih]

/-- The spans fill the table from the cursor on. -/
lemma sum_width_spans (honward : Onward total size xs cursor) (hne : xs ≠ []) :
    ((spans total size xs cursor).map Span.width).sum = size - cursor := by
  induction xs, cursor using spans.induct total size with
  | case1 => exact absurd rfl hne
  | case2 slice n cursor => simp [spans]
  | case3 slice n rest cursor hrest next ih =>
    obtain ⟨hle, hnext⟩ : cursor ≤ next ∧ next ≤ size := ⟨honward.1, advance_le ..⟩
    rw [spans_cons slice n hrest, List.map_cons, List.sum_cons, ih honward.2 hrest]
    change next - cursor + (size - next) = size - cursor
    omega

end Spans

section Slots
variable {sizes : List ℕ} {size : ℕ}

lemma occupied_ne_nil (h : 0 < sizes.sum) : occupied sizes ≠ [] := by
  obtain ⟨n, hn, hpos⟩ : ∃ n ∈ sizes, 0 < n := by
    by_contra! hnone
    exact h.ne' (List.sum_eq_zero fun n hn => Nat.le_zero.mp (hnone n hn))
  have hmem : n ∈ (occupied sizes).map Prod.snd := by
    rw [map_snd_occupied]
    exact List.mem_filter.mpr ⟨hn, by simpa using hpos⟩
  exact fun hnil => by simp [hnil] at hmem

lemma map_slice_allSpans (sizes : List ℕ) (size : ℕ) :
    (allSpans sizes size).map Span.slice = (occupied sizes).map Prod.fst :=
  map_slice_spans

lemma pairwise_allSpans : ((allSpans sizes size).map Span.slice).Pairwise (· < ·) := by
  rw [map_slice_allSpans]
  exact pairwise_occupied sizes

lemma nodup_allSpans : ((allSpans sizes size).map Span.slice).Nodup :=
  pairwise_allSpans.imp fun h => h.ne

lemma allSpans_ne_nil_of_sum (h : 0 < sizes.sum) : allSpans sizes size ≠ [] := by
  intro hnil
  refine occupied_ne_nil h (List.map_eq_nil_iff (f := Prod.fst).mp ?_)
  rw [← map_slice_allSpans sizes size, hnil, List.map_nil]

/-- A table has as many slots as it is to have. -/
theorem size_ofSizes (h : 0 < sizes.sum) (hforward : Forward sizes size) : (ofSizes sizes size).size = size := by
  have hfill : ((allSpans sizes size).map Span.width).sum = size :=
    sum_width_spans hforward (occupied_ne_nil h)
  rw [SlotTable.size, ← Array.length_toList, toList_slots (allSpans_ne_nil_of_sum h),
    Span.length_layOut, hfill]

theorem pairwise_slots (h : 0 < sizes.sum) : (ofSizes sizes size).slots.toList.Pairwise (· ≤ ·) := by
  rw [toList_slots (allSpans_ne_nil_of_sum h)]
  exact Span.pairwise_layOut pairwise_allSpans

/-- The slices that have slots are as many as are counted as reachable. -/
theorem card_slots (h : 0 < sizes.sum) :
    (ofSizes sizes size).slots.toList.toFinset.card = (ofSizes sizes size).reachable := by
  rw [toList_slots (allSpans_ne_nil_of_sum h)]
  exact Span.card_layOut nodup_allSpans

/-- Every slot is counted at the place of its slice. -/
theorem sum_slotCounts (h : 0 < sizes.sum) (hforward : Forward sizes size) {n : ℕ} (hn : sizes.length ≤ n) :
    ((ofSizes sizes size).slotCounts n).sum = size := by
  have hbound : ∀ slice ∈ (ofSizes sizes size).slots.toList, slice < n := by
    intro slice hslice
    have hpos := getD_pos_of_mem_slots (allSpans_ne_nil_of_sum h) (Array.mem_toList_iff.mp hslice)
    by_contra hout
    rw [List.getD_eq_default _ _ (by omega)] at hpos
    exact hpos.ne rfl
  rw [slotCounts_eq_map_count, sum_count_range hbound, Array.length_toList]
  exact size_ofSizes h hforward

lemma exists_ne_of_reachable (h : 0 < sizes.sum) (htwo : 2 ≤ (ofSizes sizes size).reachable) :
    ∃ a ∈ (ofSizes sizes size).slots, ∃ b ∈ (ofSizes sizes size).slots, a ≠ b := by
  rw [← card_slots h] at htwo
  obtain ⟨a, ha, b, hb, hne⟩ := Finset.one_lt_card.mp htwo
  simp only [List.mem_toFinset, Array.mem_toList_iff] at ha hb
  exact ⟨a, ha, b, hb, hne⟩

end Slots
end SlotTable

namespace Group

/-- A place of the group whose slice has solutions. -/
def HasSolutions (g : Group) (slot : ℕ) : Prop := ∃ s, g.slices[slot]? = some s ∧ s.solutions ≠ []

lemma hasSolutions_of_size {g : Group} {slot : ℕ} (h : 0 < g.sizes.getD slot 0) : g.HasSolutions slot := by
  rw [sizes, List.getD_eq_getElem?_getD, List.getElem?_map] at h
  cases hs : g.slices[slot]? with
  | none => simp [hs] at h
  | some s => exact ⟨s, hs, List.ne_nil_of_length_pos (by simpa [hs, Slice.size] using h)⟩

/-- A table of as many slots, made for the slices of a group. -/
structure Tabulated (g : Group) (slots : ℕ) (t : SlotTable) : Prop where
  made : SlotTable.make g.sizes slots = .ok t
  size : t.size = slots
  ascending : t.slots.toList.Pairwise (· ≤ ·)
  populated : ∀ slot ∈ t.slots, g.HasSolutions slot
  reachable : t.reachable = t.slots.toList.toFinset.card
  counts : ∀ n, g.problemCount ≤ n → Memory.holds 8 n = true →
    ∃ counts, t.countSlots n = .ok counts ∧ counts.length = n ∧ counts.sum = slots
  /-- Wanted dissimilar pairs are refused unless two slices are reachable. -/
  guard : ∀ similar target gen, similar.size < target →
    (∀ fault, (Draft.complete g.sizes slots target similar gen).1 ≠ .error (.sampling fault)) →
      2 ≤ t.reachable
  apart : 2 ≤ t.reachable → ∃ a ∈ t.slots, ∃ b ∈ t.slots, a ≠ b
  draw : 2 ≤ t.reachable → 0 < t.size ∧ ∀ gen, g.HasSolutions (t.draw gen).1

lemma tabulated_ofSizes {g : Group} {size : ℕ} (h : 0 < g.solutionCount)
    (hmemory : Memory.holds 8 size = true) (hforward : SlotTable.Forward g.sizes size) :
    g.Tabulated size (.ofSizes g.sizes size) where
  made := SlotTable.make_of_forward hmemory hforward
  size := SlotTable.size_ofSizes h hforward
  ascending := SlotTable.pairwise_slots h
  populated := fun _ hslot =>
    hasSolutions_of_size (SlotTable.getD_pos_of_mem_slots (SlotTable.allSpans_ne_nil_of_sum h) hslot)
  reachable := (SlotTable.card_slots h).symm
  counts := by
    intro n hn hmemory
    have hlength : g.sizes.length ≤ n := by rwa [sizes, List.length_map]
    have hcounts : ((SlotTable.ofSizes g.sizes size).slotCounts n).length = n := by
      rw [SlotTable.slotCounts_eq_map_count, List.length_map, List.length_range]
    refine ⟨_, ?_, hcounts, SlotTable.sum_slotCounts h hforward hlength⟩
    rw [SlotTable.countSlots, hmemory]
    rfl
  guard := by
    intro similar target gen hmissing hopen
    by_contra hfew
    exact hopen _ (Draft.complete_refuses_iff.mpr ⟨hmissing, hmemory, hforward, not_le.mp hfew, rfl⟩)
  apart := SlotTable.exists_ne_of_reachable h
  draw := by
    intro htwo
    have hreach : 0 < SlotTable.reach g.sizes size := Nat.zero_lt_two.trans_le htwo
    refine ⟨SlotTable.size_ofSizes_pos hreach, fun gen => ?_⟩
    exact hasSolutions_of_size (SlotTable.draw_pos hreach gen)

end Group

/-- For a group with solutions a table of any size that memory holds is made, and it is a table of the
group, as long as the cursor does not move back; a cursor that does breaks off. With fewer than 2⁵³ solutions
and slots it never does. -/
theorem make_tabulates {g : Group} {size : ℕ} (h : 0 < g.solutionCount)
    (hmemory : Memory.holds 8 size = true) :
    (SlotTable.Forward g.sizes size → ∃ t, SlotTable.make g.sizes size = .ok t ∧ g.Tabulated size t) ∧
      (¬SlotTable.Forward g.sizes size →
        SlotTable.make g.sizes size = .error (.breakdown .rangeReversed)) ∧
      (g.solutionCount < 2 ^ 53 → size < 2 ^ 53 → SlotTable.Forward g.sizes size) := by
  refine ⟨fun hforward => ?_, SlotTable.make_of_not_forward hmemory, SlotTable.forward_of_lt⟩
  exact ⟨_, SlotTable.make_of_forward hmemory hforward, Group.tabulated_ofSizes h hmemory hforward⟩

/-- Of the four problems of the group three have solutions, and all three are reachable. -/
theorem make_unevenGroup_tabulates :
    ∃ t, SlotTable.make unevenGroup.sizes 16 = .ok t ∧ unevenGroup.Tabulated 16 t ∧
      t.slotCounts 4 = [8, 0, 2, 6] ∧ t.reachable = 3 := by
  have hsolutions : 0 < unevenGroup.solutionCount := by decide
  have hmemory : Memory.holds 8 16 = true := by decide
  obtain ⟨hmakes, -, hforward⟩ := make_tabulates hsolutions hmemory
  obtain ⟨t, hmake, htable⟩ := hmakes (hforward (by decide) (by decide))
  refine ⟨t, hmake, htable, ?_⟩
  obtain ⟨-, -, rfl⟩ := SlotTable.make_eq_ok_iff.mp hmake
  decide +kernel

/-- From 2⁵³ on not every whole number is a double, and a cursor can move back. -/
example : ¬SlotTable.Forward [18014398509481972, 1, 1, 1, 1, 3, 1] (2 ^ 53 + 1) := by decide +kernel

/-- One problem with one solution. -/
def singleGroup : Group := ⟨0, [⟨0, [0]⟩]⟩

/-- A table that memory does not hold breaks off although its group has a solution and the cursor does not
move back. -/
theorem make_singleGroup_breaks_off : 0 < singleGroup.solutionCount ∧
    SlotTable.Forward singleGroup.sizes (2 ^ 60) ∧
    SlotTable.make singleGroup.sizes (2 ^ 60) = .error (.breakdown .outOfMemory) := by
  have hmemory : ¬Memory.holds 8 (2 ^ 60) = true := by decide
  exact ⟨by decide, ⟨Nat.zero_le _, trivial⟩, SlotTable.make_of_not_holds hmemory⟩

end PairDatasets
