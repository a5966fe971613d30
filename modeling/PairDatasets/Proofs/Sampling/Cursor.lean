import PairDatasets.Proofs.Sampling.Reach

/-! One step of the cursor, from any place in the table. Doubles never move it back, and where solutions
times slots stay below 2⁵¹ all rounding together is less than what a whole number of slots can show: the
step is the exact share, cut to whole slots, or one slot less if the share is whole. -/
namespace PairDatasets
namespace SlotTable
open Double
variable {total size n cursor : ℕ}

/-- Where the arithmetic of doubles takes the cursor. -/
def step (total size n cursor : ℕ) : ℕ :=
  (Float.ofNat cursor + Float.ofNat n / Float.ofNat total * Float.ofNat size).toUInt64.toNat

lemma advance_eq (total size n cursor : ℕ) :
    advance total size n cursor = min (step total size n cursor) size := rfl

/-- A share is at most the whole. -/
lemma nearest_share_le (htotal : 0 < total) (hle : n ≤ total) : nearest (n * unity) total ≤ unity := by
  refine nearest_le htotal representable_unity ?_
  rw [Nat.mul_comm unity]
  exact Nat.mul_le_mul_right _ hle

lemma cursorUnits_eq (hsize : size < 2 ^ 53) :
    cursorUnits total size n = nearest (nearest (n * unity) total * (size * unity)) unity := by
  have hexact := nearest_of_representable Nat.one_pos (representable_whole hsize)
  rw [Nat.mul_one] at hexact
  rw [cursorUnits, hexact]

lemma cursorUnits_le (htotal : 0 < total) (hle : n ≤ total) (hsize : size < 2 ^ 53) :
    cursorUnits total size n ≤ size * unity := by
  rw [cursorUnits_eq hsize]
  refine nearest_le unity_pos (representable_whole hsize) ?_
  rw [Nat.mul_comm (size * unity)]
  exact Nat.mul_le_mul_right _ (nearest_share_le htotal hle)

/-- The units of the cursor after a step. -/
def stepUnits (total size n cursor : ℕ) : ℕ := nearest (cursor * unity + cursorUnits total size n) 1

lemma stepUnits_le (htotal : 0 < total) (hle : n ≤ total) (hsize : size < 2 ^ 53)
    (hcursor : cursor ≤ size) : stepUnits total size n cursor ≤ 2 ^ 54 * unity := by
  refine nearest_le Nat.one_pos (representable_two_pow_mul 54) ?_
  have hunits := cursorUnits_le htotal hle hsize
  have hone := unity_pos
  nlinarith

/-- What the doubles compute, in units. -/
theorem step_eq (hn : 0 < n) (hle : n ≤ total) (htotal : total < 2 ^ 53) (hsize : size < 2 ^ 53)
    (hcursor : cursor ≤ size) : step total size n cursor = stepUnits total size n cursor / unity := by
  have hpos : 0 < total := hn.trans_le hle
  have hword : size < 2 ^ 64 := hsize.trans (by decide)
  have hbeyond : 2 ^ 54 * unity < beyond :=
    (Nat.mul_le_mul_right _ (by decide)).trans_lt two_pow_mul_one_lt_beyond
  have hunits := stepUnits_le hpos hle hsize hcursor
  have hportion : cursorUnits total size n < beyond := by
    have hmul : size * unity ≤ 2 ^ 54 * unity := Nat.mul_le_mul_right _ (hsize.le.trans (by decide))
    exact ((cursorUnits_le hpos hle hsize).trans hmul).trans_lt hbeyond
  have hshare := hasUnits_div_whole hn hpos (hle.trans_lt htotal) htotal
  have hsum := hasUnits_add (hasUnits_ofNat_of_lt (hcursor.trans_lt hsize))
    (hasUnits_mul hshare (hasUnits_ofNat hword) hportion) (hunits.trans_lt hbeyond)
  have hquotient : stepUnits total size n cursor / unity ≤ 2 ^ 54 :=
    Nat.div_le_of_le_mul (by rwa [Nat.mul_comm])
  rw [step, hsum.toNat_toUInt64]
  exact Nat.min_eq_left (hquotient.trans (by decide))

/-- Doubles never move the cursor back. -/
theorem le_step (hn : 0 < n) (hle : n ≤ total) (htotal : total < 2 ^ 53) (hsize : size < 2 ^ 53)
    (hcursor : cursor ≤ size) : cursor ≤ step total size n cursor := by
  rw [step_eq hn hle htotal hsize hcursor, Nat.le_div_iff_mul_le unity_pos]
  refine le_nearest Nat.one_pos (representable_whole (hcursor.trans_lt hsize)) ?_
  rw [Nat.mul_one]
  exact Nat.le_add_right _ _

lemma onward_of_lt {xs : List (ℕ × ℕ)} (hxs : ∀ e ∈ xs, 0 < e.2 ∧ e.2 ≤ total) (htotal : total < 2 ^ 53)
    (hsize : size < 2 ^ 53) (hcursor : cursor ≤ size) : Onward total size xs cursor := by
  induction xs generalizing cursor with
  | nil => trivial
  | cons e xs ih =>
    rw [List.forall_mem_cons] at hxs
    have hstep := le_step hxs.1.1 hxs.1.2 htotal hsize hcursor
    rw [Onward, advance_eq]
    exact ⟨Nat.le_min.mpr ⟨hstep, hcursor⟩, ih hxs.2 (Nat.min_le_right _ _)⟩

/-- With fewer than 2⁵³ solutions and slots the cursor of a table never moves back. -/
theorem forward_of_lt {sizes : List ℕ} (hsum : sizes.sum < 2 ^ 53) (hsize : size < 2 ^ 53) :
    Forward sizes size := by
  refine onward_of_lt (fun e he => ?_) hsum hsize (Nat.zero_le size)
  have hmem : e.2 ∈ (occupied sizes).map Prod.snd := List.mem_map_of_mem he
  rw [map_snd_occupied, List.mem_filter] at hmem
  exact ⟨by simpa using hmem.2, List.le_sum_of_mem hmem.1⟩

/-- In a table without slots it cannot move at all. -/
lemma forward_zero (sizes : List ℕ) : Forward sizes 0 := by
  rw [Forward]
  induction occupied sizes with
  | nil => trivial
  | cons e xs ih =>
    have hstays : advance sizes.sum 0 e.2 0 = 0 := Nat.min_eq_right (Nat.zero_le _)
    rw [Onward, hstays]
    exact ⟨Nat.zero_le _, ih⟩

lemma nearest_share_ge (hn : 0 < n) (htotal : 0 < total) (hle : total < 2 ^ 53) :
    2 ^ 53 ≤ nearest (n * unity) total :=
  le_nearest htotal (representable_two_pow 53) (two_pow_mul_le hn hle.le)

/-- The slots of a share are not subnormal, so they are rounded to a part of themselves. -/
lemma near_cursorUnits (hn : 0 < n) (hpos : 0 < total) (htotal : total < 2 ^ 53) (hsize : size < 2 ^ 53) :
    Near (cursorUnits total size n) (nearest (n * unity) total * size) := by
  obtain ⟨q, hq⟩ : ∃ q, q = nearest (n * unity) total := ⟨_, rfl⟩
  rw [cursorUnits_eq hsize, ← hq]
  rcases Nat.eq_zero_or_pos size with rfl | hslot
  · rw [Nat.zero_mul, Nat.mul_zero, nearest_zero]
    exact .refl 0
  · have hlarge : 2 ^ 53 ≤ q * (size * unity) / unity := by
      rw [← Nat.mul_assoc, Nat.mul_div_cancel _ unity_pos]
      exact (hq ▸ nearest_share_ge hn hpos htotal).trans (Nat.le_mul_of_pos_right q hslot)
    have hnear := near_nearest unity_pos (excess_pos hlarge)
    refine .of_mul_left unity_pos ?_
    rwa [Nat.mul_comm unity, Nat.mul_comm unity, Nat.mul_assoc]

/-- Rounding the share, its slots and their sum with the cursor moves the cursor by less than one part
in `total` of a slot. -/
lemma near_stepUnits (hn : 0 < n) (hle : n ≤ total) (htotal : total < 2 ^ 53) (hsize : size < 2 ^ 53)
    (hslots : total * size < 2 ^ 51) (hcursor : cursor ≤ size) :
    total * stepUnits total size n cursor < (total * cursor + n * size + 1) * unity ∧
      (total * cursor + n * size) * unity < total * stepUnits total size n cursor + unity := by
  have hpos : 0 < total := hn.trans_le hle
  have hshare := (near_nearest hpos (excess_whole_div_pos hn hpos htotal)).mul_left size
  have hportion := (near_cursorUnits hn hpos htotal hsize).mul_left total
  have hsum := (near_nearest_one (cursor * unity + cursorUnits total size n)).mul_left total
  -- each of the three errors is a part 2⁻⁵³ of something within twice the whole table
  obtain ⟨whole, hwhole⟩ : ∃ whole, whole = total * size * unity := ⟨_, rfl⟩
  have hsmall : whole < 2 ^ 51 * unity := hwhole ▸ Nat.mul_lt_mul_of_pos_right hslots unity_pos
  have hone : size * (n * unity) ≤ whole := by
    calc size * (n * unity) ≤ size * (total * unity) :=
          Nat.mul_le_mul_left _ (Nat.mul_le_mul_right _ hle)
      _ = whole := by rw [hwhole]; ring
  have htwo : total * (nearest (n * unity) total * size) ≤ whole := by
    calc total * (nearest (n * unity) total * size) ≤ total * (unity * size) :=
          Nat.mul_le_mul_left _ (Nat.mul_le_mul_right _ (nearest_share_le hpos hle))
      _ = whole := by rw [hwhole]; ring
  have hthree : total * (cursor * unity + cursorUnits total size n) ≤ 2 * whole := by
    calc total * (cursor * unity + cursorUnits total size n) ≤ total * (size * unity + size * unity) :=
          Nat.mul_le_mul_left _ (Nat.add_le_add (Nat.mul_le_mul_right _ hcursor)
            (cursorUnits_le hpos hle hsize))
      _ = 2 * whole := by rw [hwhole]; ring
  have hswap : size * (nearest (n * unity) total * total) = total * (nearest (n * unity) total * size) := by
    ring
  have hexact : (total * cursor + n * size) * unity = total * (cursor * unity) + size * (n * unity) := by
    ring
  obtain ⟨hshare_le, hshare_ge⟩ := hshare
  obtain ⟨hportion_le, hportion_ge⟩ := hportion
  obtain ⟨hsum_le, hsum_ge⟩ := hsum
  rw [hswap] at hshare_le hshare_ge
  rw [Nat.add_mul _ 1, hexact, Nat.one_mul, stepUnits]
  rw [Nat.mul_add] at hsum_le hsum_ge hthree
  constructor <;> omega

/-- A step gives a slice its share of the slots, cut to whole slots, or one less where the share is
whole. -/
theorem step_fair (hn : 0 < n) (hle : n ≤ total) (htotal : total < 2 ^ 53) (hsize : size < 2 ^ 53)
    (hslots : total * size < 2 ^ 51) (hcursor : cursor ≤ size) :
    total * step total size n cursor ≤ total * cursor + n * size ∧
      total * cursor + n * size ≤ total * (step total size n cursor + 1) := by
  obtain ⟨hlt, hgt⟩ := near_stepUnits hn hle htotal hsize hslots hcursor
  rw [step_eq hn hle htotal hsize hcursor]
  obtain ⟨units, hunits⟩ : ∃ units, units = stepUnits total size n cursor := ⟨_, rfl⟩
  rw [← hunits] at hlt hgt ⊢
  have hcut : units / unity * unity ≤ units := Nat.div_mul_le_self _ _
  have hrest : units ≤ (units / unity + 1) * unity := by
    rw [Nat.mul_comm]
    exact (Nat.lt_mul_div_succ units unity_pos).le
  constructor
  · refine Nat.le_of_lt_succ (Nat.lt_of_mul_lt_mul_right (a := unity) ?_)
    calc total * (units / unity) * unity = total * (units / unity * unity) := Nat.mul_assoc _ _ _
      _ ≤ total * units := Nat.mul_le_mul_left _ hcut
      _ < (total * cursor + n * size).succ * unity := hlt
  · refine Nat.le_of_lt_succ (Nat.lt_of_mul_lt_mul_right (a := unity) ?_)
    calc (total * cursor + n * size) * unity < total * units + unity := hgt
      _ ≤ total * ((units / unity + 1) * unity) + unity :=
          Nat.add_le_add_right (Nat.mul_le_mul_left _ hrest) _
      _ = (total * (units / unity + 1)).succ * unity := by rw [Nat.succ_eq_add_one]; ring

end SlotTable
end PairDatasets
