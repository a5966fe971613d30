import PairDatasets.Proofs.Double.Quotient
import PairDatasets.Proofs.Double.Sum
import PairDatasets.Proofs.Partition.Fraction
import PairDatasets.Proofs.Sampling.Places

/-! Which slices have a slot. Where the first slice that moves the cursor from the start of the table
does not take it to the end, both it and a later slice have slots; otherwise no two slices have. With the
solutions of the table below 2⁵³ the cursor comes to the end with the last slice only, and a share of more
than one slot moves it. -/
namespace PairDatasets
namespace SlotTable
open Double

section Advance
variable {total size n : ℕ}

/-- The units of the cursor after a first slice. -/
def cursorUnits (total size n : ℕ) : ℕ :=
  nearest (nearest (n * unity) total * nearest (size * unity) 1) unity

/-- A share below one is not rounded up to the whole table. -/
lemma cursorUnits_lt (hlt : n < total) (htotal : total < 2 ^ 53) (hsize : 0 < size) :
    cursorUnits total size n < size * unity := by
  have hshort := nearest_whole_div_lt hlt htotal.le
  rw [cursorUnits, Nat.mul_comm]
  exact (nearest_whole_mul_lt hsize hshort).2

/-- From the start the cursor moves by whole slots. -/
lemma advance_zero (hn : 0 < n) (hlt : n < total) (htotal : total < 2 ^ 53) (hsize : 0 < size)
    (hword : size < 2 ^ 64) : advance total size n 0 = cursorUnits total size n / unity := by
  have hunits := cursorUnits_lt hlt htotal hsize
  have hquotient : cursorUnits total size n / unity < size :=
    (Nat.div_lt_iff_lt_mul unity_pos).mpr hunits
  have hrange : cursorUnits total size n < beyond :=
    hunits.trans_le (Nat.mul_le_mul_right _ hword.le) |>.trans two_pow_mul_one_lt_beyond
  have hshare := hasUnits_div_whole hn (hn.trans hlt) (hlt.trans htotal) htotal
  have hcursor := hasUnits_zero_add (hasUnits_mul hshare (hasUnits_ofNat hword) hrange) hrange
  have hword' : cursorUnits total size n / unity ≤ 2 ^ 64 - 1 := by omega
  rw [advance, hcursor.toNat_toUInt64, ← cursorUnits, Nat.min_eq_left hword',
    Nat.min_eq_left hquotient.le]

lemma advance_lt (hn : 0 < n) (hlt : n < total) (htotal : total < 2 ^ 53) (hsize : 0 < size)
    (hword : size < 2 ^ 64) : advance total size n 0 < size := by
  rw [advance_zero hn hlt htotal hsize hword]
  exact (Nat.div_lt_iff_lt_mul unity_pos).mpr (cursorUnits_lt hlt htotal hsize)

/-- A table that is too large to be a double exactly stands for one of at least 2⁵³ slots. -/
lemma exists_slots (hn : 0 < n) (htotal : total < 2 ^ 53) (hslot : total < n * size) :
    ∃ k, total < n * k ∧ k * unity ≤ nearest (size * unity) 1 := by
  have hmono {k : ℕ} (hk : Representable (k * unity)) (hle : k ≤ size) :
      k * unity ≤ nearest (size * unity) 1 := by
    refine le_nearest Nat.one_pos hk ?_
    rw [Nat.mul_one]
    exact Nat.mul_le_mul_right _ hle
  rcases Nat.lt_or_ge size (2 ^ 53) with hsmall | hlarge
  · exact ⟨size, hslot, hmono (representable_whole hsmall) le_rfl⟩
  · exact ⟨2 ^ 53, by nlinarith, hmono (representable_two_pow_mul 53) hlarge⟩

lemma two_pow_mul_le (hn : 0 < n) (hle : total ≤ 2 ^ 53) : 2 ^ 53 * total ≤ n * unity := by
  have hplace := unitPlace_eq
  calc 2 ^ 53 * total ≤ 2 ^ 53 * 2 ^ 53 := Nat.mul_le_mul_left _ hle
    _ = 2 ^ 106 := by norm_num
    _ ≤ unity := Nat.pow_le_pow_right (by decide) (by omega)
    _ ≤ n * unity := Nat.le_mul_of_pos_left _ hn

/-- A quotient of whole numbers is not subnormal. -/
lemma excess_whole_div_pos (hn : 0 < n) (htotal : 0 < total) (hle : total < 2 ^ 53) :
    0 < excess (n * unity / total) :=
  excess_pos ((Nat.le_div_iff_mul_le htotal).mpr (two_pow_mul_le hn hle.le))

/-- A slice that has more than one slot's share of the solutions moves the cursor. -/
theorem advance_pos (hn : 0 < n) (hlt : n < total) (htotal : total < 2 ^ 53) (hsize : 0 < size)
    (hword : size < 2 ^ 64) (hslot : total < n * size) : 0 < advance total size n 0 := by
  rw [advance_zero hn hlt htotal hsize hword, Nat.div_pos_iff]
  refine ⟨unity_pos, le_nearest unity_pos representable_unity ?_⟩
  obtain ⟨k, hk, hslots⟩ := exists_slots hn htotal hslot
  have htotal' : 0 < total := hn.trans hlt
  have hshare := le_nearest_mul htotal' (excess_whole_div_pos hn htotal' htotal)
  -- rounding takes less from the share than what exceeds one slot
  have hspare : total * (2 ^ 53 + 1) ≤ n * k * 2 ^ 53 := by nlinarith
  have hmul : unity * unity * (total * (2 ^ 53 + 1)) ≤
      nearest (n * unity) total * (k * unity) * (total * (2 ^ 53 + 1)) := by
    calc unity * unity * (total * (2 ^ 53 + 1)) ≤ unity * unity * (n * k * 2 ^ 53) :=
          Nat.mul_le_mul_left _ hspare
      _ = n * unity * 2 ^ 53 * (k * unity) := by ring
      _ ≤ nearest (n * unity) total * total * (2 ^ 53 + 1) * (k * unity) :=
          Nat.mul_le_mul_right _ hshare
      _ = nearest (n * unity) total * (k * unity) * (total * (2 ^ 53 + 1)) := by ring
  exact (Nat.le_of_mul_le_mul_right hmul (by positivity)).trans (Nat.mul_le_mul_left _ hslots)

end Advance

section Spans
variable {total size cursor : ℕ} {xs : List (ℕ × ℕ)}

/-- Before the end of the table there is room for one more slice. -/
lemma count_spans_pos (hcursor : cursor < size) (hne : xs ≠ []) :
    0 < Span.count (spans total size xs cursor) := by
  induction xs, cursor using spans.induct total size with
  | case1 => exact absurd rfl hne
  | case2 slice n cursor =>
    rw [spans, Span.count_singleton, if_pos (Nat.sub_pos_of_lt hcursor)]
    exact Nat.one_pos
  | case3 slice n rest cursor hrest next ih =>
    rw [spans_cons slice n hrest, Span.count_cons]
    by_cases hmoved : next ≤ cursor
    · exact Nat.add_pos_left (ih (by omega) hrest) _
    · rw [if_pos (Nat.sub_pos_of_lt (Nat.lt_of_not_le hmoved))]
      exact Nat.succ_pos _

/-- At the end of the table there is none. -/
lemma count_spans_full (honward : Onward total size xs size) :
    Span.count (spans total size xs size) = 0 := by
  induction xs with
  | nil => rfl
  | cons e rest ih =>
    obtain ⟨slice, n⟩ := e
    cases rest with
    | nil => simp [spans, Span.count_singleton]
    | cons e rest =>
      have hstays : advance total size n size = size := le_antisymm (advance_le ..) honward.1
      have hrest := honward.2
      rw [hstays] at hrest
      rw [spans_cons slice n (List.cons_ne_nil e rest), hstays, Nat.sub_self, Span.count_cons, ih hrest]
      rfl

/-- A second slice has slots as soon as the cursor leaves the start before the last slice, unless it
comes to the end at once. -/
theorem two_le_count_spans (honward : Onward total size xs 0) :
    2 ≤ Span.count (spans total size xs 0) ↔
      ∃ c, (xs.dropLast.map fun e => advance total size e.2 0).find? (0 < ·) = some c ∧ c < size := by
  induction xs with
  | nil => simp [spans, Span.count]
  | cons e rest ih =>
    obtain ⟨slice, n⟩ := e
    cases rest with
    | nil =>
      have hone : Span.count (spans total size [(slice, n)] 0) ≤ 1 := List.countP_le_length
      simpa using hone
    | cons e rest =>
      have hle : advance total size n 0 ≤ size := advance_le ..
      have hrest := honward.2
      rw [spans_cons slice n (List.cons_ne_nil e rest), Span.count_cons, List.dropLast_cons_cons,
        List.map_cons, List.find?_cons, Nat.sub_zero]
      rcases Nat.eq_zero_or_pos (advance total size n 0) with hstays | hmoves
      · rw [hstays] at hrest
        simpa [hstays] using ih hrest
      · have hfirst : decide (0 < advance total size n 0) = true := decide_eq_true hmoves
        rw [if_pos hmoves]
        simp only [hfirst, Option.some.injEq, exists_eq_left']
        rcases hle.lt_or_eq with hlt | hfull
        · have hmore : 0 < Span.count (spans total size (e :: rest) (advance total size n 0)) :=
            count_spans_pos hlt (List.cons_ne_nil e rest)
          omega
        · rw [hfull] at hrest
          rw [hfull, count_spans_full hrest]
          omega

end Spans

section Occupied
variable {sizes : List ℕ} {size : ℕ}

lemma map_snd_occupied (sizes : List ℕ) : (occupied sizes).map Prod.snd = sizes.filter (0 < ·) := by
  have hpos : (fun e : ℕ × ℕ => decide (e.1 ≠ 0)) = (fun n => decide (0 < n)) ∘ Prod.fst := by
    funext e
    simp [Nat.pos_iff_ne_zero]
  unfold occupied taken
  rw [List.map_map]
  change ((sizes.zipIdx.filter fun e => decide (e.1 ≠ 0)).map Prod.fst) = _
  rw [hpos, ← List.filter_map, List.zipIdx_map_fst]

/-- How many slices have solutions. -/
def populated (sizes : List ℕ) : ℕ := sizes.countP (0 < ·)

lemma length_occupied (sizes : List ℕ) : (occupied sizes).length = populated sizes := by
  rw [populated, List.countP_eq_length_filter, ← map_snd_occupied, List.length_map]

/-- The number of solutions of a slice that has some and is not the last one that has. -/
def Early (sizes : List ℕ) (n : ℕ) : Prop := n ∈ (sizes.filter (0 < ·)).dropLast

lemma Early.pos {n : ℕ} (h : Early sizes n) : 0 < n := by
  simpa using (List.mem_filter.mp (List.mem_of_mem_dropLast h)).2

/-- An early slice does not have all solutions. -/
lemma Early.lt {n : ℕ} (h : Early sizes n) : n < sizes.sum := by
  have hsum : (sizes.filter (0 < ·)).sum ≤ sizes.sum :=
    List.filter_sublist.sum_le_sum fun _ _ => Nat.zero_le _
  unfold Early at h
  rcases List.eq_nil_or_concat' (sizes.filter (0 < ·)) with hnil | ⟨front, last, heq⟩
  · rw [hnil] at h
    cases h
  · have hlast : 0 < last := by
      have hmem : last ∈ sizes.filter (0 < ·) := by simp [heq]
      simpa using (List.mem_filter.mp hmem).2
    rw [heq, List.dropLast_concat] at h
    rw [heq, List.sum_append, List.sum_singleton] at hsum
    have hle : n ≤ front.sum := List.le_sum_of_mem h
    omega

lemma Early.two_le {n : ℕ} (h : Early sizes n) : 2 ≤ populated sizes := by
  have hlength := List.length_pos_of_mem h
  rw [List.length_dropLast, ← List.countP_eq_length_filter] at hlength
  unfold populated
  omega

/-- Where the cursor comes to with the first of the early slices that moves it from the start. -/
def firstStop (sizes : List ℕ) (size : ℕ) : Option ℕ :=
  ((sizes.filter (0 < ·)).dropLast.map fun n => advance sizes.sum size n 0).find? (0 < ·)

lemma exists_early {c : ℕ} (h : firstStop sizes size = some c) :
    ∃ n, Early sizes n ∧ advance sizes.sum size n 0 = c :=
  List.mem_map.mp (List.mem_of_find?_eq_some h)

lemma two_le_of_firstStop {c : ℕ} (h : firstStop sizes size = some c) : 2 ≤ populated sizes := by
  obtain ⟨n, hn, -⟩ := exists_early h
  exact hn.two_le

theorem two_le_reach_iff (hforward : Forward sizes size) :
    2 ≤ reach sizes size ↔ ∃ c, firstStop sizes size = some c ∧ c < size := by
  have hstops : (occupied sizes).dropLast.map (fun e => advance sizes.sum size e.2 0) =
      (sizes.filter (0 < ·)).dropLast.map fun n => advance sizes.sum size n 0 := by
    rw [← map_snd_occupied, ← List.map_dropLast, List.map_map]
    rfl
  rw [reach, allSpans, two_le_count_spans hforward, hstops]
  rfl

/-- Two slices are reachable if an early one has more than one slot's share. -/
theorem two_le_reach_of_share (hforward : Forward sizes size) (hsum : sizes.sum < 2 ^ 53) (hsize : 0 < size)
    (hword : size < 2 ^ 64) {n : ℕ} (hn : Early sizes n) (hshare : sizes.sum < n * size) :
    2 ≤ reach sizes size := by
  have hmoves := advance_pos hn.pos hn.lt hsum hsize hword hshare
  obtain ⟨c, hstop⟩ : ∃ c, firstStop sizes size = some c := by
    rw [← Option.isSome_iff_exists, firstStop, List.find?_isSome]
    exact ⟨_, List.mem_map_of_mem hn, decide_eq_true hmoves⟩
  obtain ⟨m, hm, rfl⟩ := exists_early hstop
  exact (two_le_reach_iff hforward).mpr ⟨_, hstop, advance_lt hm.pos hm.lt hsum hsize hword⟩

/-- If two slices are not reachable, one of them is, provided that there is one. -/
lemma reach_of_lt_two (hsize : 0 < size) (h : reach sizes size < 2) :
    reach sizes size = min 1 (populated sizes) := by
  rcases Nat.eq_zero_or_pos (populated sizes) with hzero | hpos
  · have hnil : occupied sizes = [] := List.eq_nil_of_length_eq_zero (length_occupied sizes ▸ hzero)
    rw [hzero, reach, allSpans, hnil]
    rfl
  · have hne : occupied sizes ≠ [] := List.ne_nil_of_length_pos (length_occupied sizes ▸ hpos)
    have hreach : 0 < reach sizes size := count_spans_pos hsize hne
    omega

end Occupied

end SlotTable
end PairDatasets
