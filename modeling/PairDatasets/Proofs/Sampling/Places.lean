import PairDatasets.Proofs.Random.Permutation
import PairDatasets.Proofs.Sampling.Share
import PairDatasets.Proofs.Sampling.Spans
import PairDatasets.Sampling.Draw

/-! Drawing places. Each loop only appends to what was drawn before it, as many pairs as it is asked
for and all of one kind, so a draft keeps its counts whatever the generator gives. -/
namespace PairDatasets

/-- What every draw has, both of two different draws have. -/
lemma Generator.of_distinct {draw : Generator → ℕ × Generator} {P : ℕ → Prop}
    (hP : ∀ g, P (draw g).1) {rounds : ℕ} {g g' : Generator} {a b : ℕ}
    (h : distinct draw rounds g = (some (a, b), g')) : P a ∧ P b := by
  induction rounds generalizing g with
  | zero => simp [distinct] at h
  | succ rounds ih =>
    rw [distinct] at h
    dsimp only at h
    split at h
    · cases h
      exact ⟨hP _, hP _⟩
    · exact ih h

namespace SlotTable
variable {sizes : List ℕ} {size : ℕ}

lemma mem_spans {total cursor : ℕ} {xs : List (ℕ × ℕ)} {s : Span}
    (h : s ∈ spans total size xs cursor) : ∃ n, (s.slice, n) ∈ xs := by
  induction xs, cursor using spans.induct total size with
  | case1 => cases h
  | case2 slice n cursor =>
    rw [spans, List.mem_singleton] at h
    exact ⟨n, by simp [h]⟩
  | case3 slice n rest cursor hrest next ih =>
    rw [spans, List.mem_cons] at h
    · rcases h with rfl | h
      · exact ⟨n, .head _⟩
      · obtain ⟨n', hn'⟩ := ih h
        exact ⟨n', .tail _ hn'⟩
    · exact hrest

lemma mem_occupied {slice n : ℕ} (h : (slice, n) ∈ occupied sizes) : 0 < sizes.getD slice 0 := by
  simp only [occupied, taken, List.mem_map, List.mem_filter] at h
  obtain ⟨⟨m, i⟩, ⟨hmem, hne⟩, heq⟩ := h
  obtain ⟨rfl, rfl⟩ : i = slice ∧ m = n := Prod.mk.inj heq
  have hget : sizes[i]? = some m := List.mem_zipIdx_iff_getElem?.mp hmem
  rw [List.getD_eq_getElem?_getD, hget]
  exact Nat.pos_of_ne_zero (by simpa using hne)

lemma mem_slots (h : allSpans sizes size ≠ []) {slice : ℕ} :
    slice ∈ (ofSizes sizes size).slots ↔ ∃ s ∈ allSpans sizes size, 0 < s.width ∧ s.slice = slice := by
  rw [← Array.mem_toList_iff, toList_slots h, Span.mem_layOut]

lemma allSpans_ne_nil (h : 0 < reach sizes size) : allSpans sizes size ≠ [] := by
  intro hnil
  rw [reach, hnil] at h
  cases h

/-- A slot stands for a slice that has solutions. -/
lemma getD_pos_of_mem_slots (h : allSpans sizes size ≠ []) {slice : ℕ}
    (hs : slice ∈ (ofSizes sizes size).slots) : 0 < sizes.getD slice 0 := by
  obtain ⟨s, hspan, -, rfl⟩ := (mem_slots h).mp hs
  obtain ⟨n, hn⟩ := mem_spans hspan
  exact mem_occupied hn

lemma size_ofSizes_pos (h : 0 < reach sizes size) : 0 < (ofSizes sizes size).size := by
  obtain ⟨s, hs, hwidth⟩ := List.countP_pos_iff.mp h
  have hslot : s.slice ∈ (ofSizes sizes size).slots :=
    (mem_slots (allSpans_ne_nil h)).mpr ⟨s, hs, by simpa using hwidth, rfl⟩
  exact Array.size_pos_of_mem hslot

lemma draw_pos (h : 0 < reach sizes size) (g : Generator) :
    0 < sizes.getD ((ofSizes sizes size).draw g).1 0 := by
  have hlt : (g.below (ofSizes sizes size).size).1 < (ofSizes sizes size).slots.size :=
    Generator.below_lt (size_ofSizes_pos h) g
  apply getD_pos_of_mem_slots (allSpans_ne_nil h)
  unfold draw
  dsimp only
  rw [Array.getD_eq_getD_getElem?, Array.getElem?_eq_getElem hlt]
  exact Array.getElem_mem hlt

end SlotTable

/-- The place lies in a slice of one of the sizes. -/
def Place.Lies (sizes : List ℕ) (x : Place) : Prop := x.index < sizes.getD x.slice 0

lemma Place.lies_below {sizes : List ℕ} {slice : ℕ} (h : 0 < sizes.getD slice 0) (g : Generator) :
    Place.Lies sizes ⟨slice, (g.below (sizes.toArray.getD slice 0)).1⟩ := by
  simp only [Place.Lies, Array.getD_eq_getD_getElem?, List.getElem?_toArray,
    ← List.getD_eq_getElem?_getD]
  exact Generator.below_lt h g

namespace PlacePair
variable {sizes : List ℕ} {acc out : Array PlacePair} {g g' : Generator}

/-- Two different places of one slice. -/
structure Within (sizes : List ℕ) (slice : ℕ) (x : PlacePair) : Prop where
  left_slice : x.left.slice = slice
  right_slice : x.right.slice = slice
  ne : x.left.index ≠ x.right.index
  left : x.left.Lies sizes
  right : x.right.Lies sizes

/-- Places of two different slices. -/
structure Apart (sizes : List ℕ) (x : PlacePair) : Prop where
  ne : x.left.slice ≠ x.right.slice
  left : x.left.Lies sizes
  right : x.right.Lies sizes

theorem drawSimilar_run {slice n count : ℕ} (hn : 0 < n) (hslice : sizes.getD slice 0 = n)
    (h : drawSimilar slice n count acc g = (some out, g')) :
    ∃ new, out.toList = acc.toList ++ new ∧ new.length = count ∧ ∀ x ∈ new, Within sizes slice x := by
  subst hslice
  induction count generalizing acc g with
  | zero =>
    cases h
    exact ⟨[], by simp, rfl, by simp⟩
  | succ count ih =>
    rw [drawSimilar] at h
    split at h
    · cases h
    · rename_i a b g₁ hdraw
      have hne := Generator.ne_of_distinct hdraw
      obtain ⟨ha, hb⟩ := Generator.of_distinct (P := fun i => i < sizes.getD slice 0)
        (Generator.below_lt hn) hdraw
      obtain ⟨new, hout, hlen, hall⟩ := ih h
      refine ⟨⟨⟨slice, a⟩, ⟨slice, b⟩⟩ :: new, by simp [hout], by simp [hlen], ?_⟩
      intro x hx
      rcases List.mem_cons.mp hx with rfl | hx
      · exact ⟨rfl, rfl, hne, ha, hb⟩
      · exact hall x hx

/-- What one slice gives: as many pairs as its share, all of them within it. -/
structure Gives (sizes : List ℕ) (entry : ℕ × ℕ × ℕ) (block : List PlacePair) : Prop where
  length : block.length = entry.2.2
  within : ∀ x ∈ block, Within sizes entry.1 x

theorem drawShares_run {shares : List (ℕ × ℕ × ℕ)}
    (hshares : ∀ e ∈ shares, 2 ≤ e.2.1 ∧ sizes.getD e.1 0 = e.2.1)
    (h : drawShares shares acc g = (some out, g')) :
    ∃ blocks, out.toList = acc.toList ++ blocks.flatten ∧
      List.Forall₂ (Gives sizes) shares blocks := by
  induction shares generalizing acc g with
  | nil =>
    cases h
    exact ⟨[], by simp, .nil⟩
  | cons e shares ih =>
    obtain ⟨slice, n, share⟩ := e
    rw [drawShares] at h
    split at h
    · cases h
    · rename_i acc₁ g₁ hdraw
      obtain ⟨hn, hslice⟩ := hshares _ (.head _)
      obtain ⟨block, hacc, hlen, hwithin⟩ := drawSimilar_run (by omega) hslice hdraw
      obtain ⟨blocks, hout, hgives⟩ := ih (fun e he => hshares e (.tail _ he)) h
      exact ⟨block :: blocks, by simp [hout, hacc], .cons ⟨hlen, hwithin⟩ hgives⟩

theorem drawDissimilar_run {slots count : ℕ} (hreach : 0 < SlotTable.reach sizes slots)
    (h : drawDissimilar (.ofSizes sizes slots) sizes.toArray count acc g = (some out, g')) :
    ∃ new, out.toList = acc.toList ++ new ∧ new.length = count ∧ ∀ x ∈ new, Apart sizes x := by
  induction count generalizing acc g with
  | zero =>
    cases h
    exact ⟨[], by simp, rfl, by simp⟩
  | succ count ih =>
    rw [drawDissimilar] at h
    split at h
    · cases h
    · rename_i a b g₁ hdraw
      have hne := Generator.ne_of_distinct hdraw
      obtain ⟨ha, hb⟩ := Generator.of_distinct (P := fun slice => 0 < sizes.getD slice 0)
        (SlotTable.draw_pos hreach) hdraw
      dsimp only at h
      obtain ⟨new, hout, hlen, hall⟩ := ih h
      refine ⟨_ :: new, by rw [hout, Array.toList_push, List.append_assoc, List.singleton_append],
        by simp [hlen], ?_⟩
      intro x hx
      rcases List.mem_cons.mp hx with rfl | hx
      · exact ⟨hne, Place.lies_below ha _, Place.lies_below hb _⟩
      · exact hall x hx

end PlacePair

lemma mem_similarShares {sizes : List ℕ} {budget : ℕ} {e : ℕ × ℕ × ℕ}
    (h : e ∈ similarShares sizes budget) : 2 ≤ e.2.1 ∧ sizes.getD e.1 0 = e.2.1 := by
  unfold similarShares at h
  dsimp only at h
  split at h
  · cases h
  · rw [List.mem_map] at h
    obtain ⟨⟨n, slice⟩, hmem, rfl⟩ := h
    rw [List.mem_filter] at hmem
    have hget : sizes[slice]? = some n := List.mem_zipIdx_iff_getElem?.mp hmem.1
    exact ⟨by simpa using hmem.2, by rw [List.getD_eq_getElem?_getD, hget]; rfl⟩

namespace Draft
variable {sizes : List ℕ} {slots target : ℕ} {g g' : Generator}

/-- A draft of as many pairs as wanted: of each slice its share, and the rest from two slices. -/
structure Drawn (sizes : List ℕ) (budget target : ℕ) (d : Draft) (blocks : List (List PlacePair))
    (rest : List PlacePair) : Prop where
  perm : d.places.toList.Perm (blocks.flatten ++ rest)
  gives : List.Forall₂ (PlacePair.Gives sizes) (similarShares sizes budget) blocks
  apart : ∀ x ∈ rest, PlacePair.Apart sizes x
  similar : d.similar = blocks.flatten.length
  length : blocks.flatten.length + rest.length = target

lemma complete_eq_ok {similar all : Array PlacePair}
    (h : (complete sizes slots target similar g).1 = .ok all) :
    ∃ rest, all.toList = similar.toList ++ rest ∧ similar.size + rest.length = target ∧
      ∀ x ∈ rest, PlacePair.Apart sizes x := by
  unfold complete at h
  dsimp only at h
  split at h
  · cases h
  split at h
  · cases h
    exact ⟨[], by simp, by simp; omega, by simp⟩
  split at h
  · cases h
  rename_i table hmake
  obtain ⟨-, -, rfl⟩ := SlotTable.make_eq_ok_iff.mp hmake
  split at h
  · cases h
  rename_i hreach
  have hpos : 0 < SlotTable.reach sizes slots := Nat.zero_lt_two.trans_le (Nat.le_of_not_lt hreach)
  split at h
  · cases h
  · rename_i hdraw
    cases h
    obtain ⟨rest, hall, hlen, hapart⟩ := PlacePair.drawDissimilar_run hpos hdraw
    exact ⟨rest, hall, by omega, hapart⟩

/-- Without a budget every share is empty. -/
lemma gives_zero (sizes : List ℕ) : List.Forall₂ (PlacePair.Gives sizes) (similarShares sizes 0)
    ((similarShares sizes 0).map fun _ => []) := by
  rw [List.forall₂_map_right_iff, List.forall₂_same]
  intro e he
  refine ⟨?_, by simp⟩
  unfold similarShares at he
  dsimp only at he
  split at he
  · cases he
  · obtain ⟨x, -, rfl⟩ := List.mem_map.mp he
    exact (pairShare_zero _ _).symm

lemma drawSimilar_eq_ok {budget : ℕ} {similar : Array PlacePair}
    (h : drawSimilar sizes budget g = (.ok similar, g')) :
    ∃ blocks, similar.toList = blocks.flatten ∧
      List.Forall₂ (PlacePair.Gives sizes) (similarShares sizes budget) blocks := by
  unfold drawSimilar at h
  split at h
  · rename_i hzero
    cases h
    subst hzero
    exact ⟨_, by simp, gives_zero sizes⟩
  split at h
  · cases h
  split at h
  · cases h
  · rename_i hdraw
    cases h
    exact PlacePair.drawShares_run (fun _ he => mem_similarShares he) hdraw

theorem draw_drawn {fraction : Float} {d : Draft} (h : (draw sizes slots target fraction g).1 = .ok d) :
    ∃ blocks rest, d.Drawn sizes (similarBudget target fraction) target blocks rest := by
  unfold draw at h
  split at h
  · cases h
  split at h
  · cases h
  split at h
  · cases h
  rename_i similar g₁ hsimilar
  split at h
  · cases h
  rename_i all g₂ hcomplete
  cases h
  obtain ⟨blocks, hblocks, hgives⟩ := drawSimilar_eq_ok hsimilar
  obtain ⟨rest, hall, hlen, hapart⟩ := complete_eq_ok (congrArg Prod.fst hcomplete)
  have hsize : similar.size = blocks.flatten.length := by
    rw [← Array.length_toList, hblocks]
  refine ⟨blocks, rest, ?_, hgives, hapart, hsize, by omega⟩
  have hperm := Array.perm_iff_toList_perm.mp (Generator.shuffleArray_perm all g₂)
  rw [hall, hblocks] at hperm
  exact hperm

end Draft
end PairDatasets
