import PairDatasets.Partition.Divide
import PairDatasets.Proofs.Double.Operations

/-! Fractions of whole numbers: a proper fraction of some things always leaves something over,
although product and conversion are rounded, and the fraction zero takes nothing. -/
namespace PairDatasets
open Double

lemma exists_hasUnits_of_proper {f : Float} (hf : isProperFraction f = true) :
    ∃ u, HasUnits f u ∧ u * 2 ^ 53 + unity ≤ 2 ^ 53 * unity := by
  obtain ⟨hzero, hone⟩ : 0.0 ≤ f ∧ f < 1.0 := by simpa [isProperFraction] using hf
  obtain ⟨u, hu⟩ := exists_hasUnits hzero (Double.le_of_lt hone)
  exact ⟨u, hu, hu.of_lt_one hone⟩

lemma cut_lt_two_pow (f : Float) (n : ℕ) : cut f n < 2 ^ 64 := UInt64.toNat_lt _

/-- A whole number as a double has a full significand, because it is not subnormal. -/
lemma exists_significand_whole {n : ℕ} (hn : 0 < n) :
    ∃ m j, 2 ^ 52 ≤ m ∧ m < 2 ^ 53 ∧ nearest (n * unity) 1 = m * 2 ^ (j + 1) := by
  refine exists_significand Nat.one_pos ?_
  have hplace := unitPlace_eq
  have hlog : (n * unity).log2 = n.log2 + unitPlace := by rw [unity, log2_mul_two_pow hn.ne']
  rw [Nat.div_one, excess, hlog]
  omega

/-- The product with a proper fraction stays below `n`, and even below the double that stands for
`n`, which may lie above it. -/
lemma nearest_whole_mul_lt {n u : ℕ} (hn : 0 < n) (hshort : u * 2 ^ 53 + unity ≤ 2 ^ 53 * unity) :
    nearest (nearest (n * unity) 1 * u) unity < nearest (n * unity) 1 ∧
      nearest (nearest (n * unity) 1 * u) unity < n * unity := by
  obtain ⟨m, j, hm, hm', hwhole⟩ := exists_significand_whole hn
  have hbelow : nearest (nearest (n * unity) 1 * u) unity < nearest (n * unity) 1 := by
    rw [hwhole]
    exact nearest_mul_lt unity_pos hm hm' hshort
  refine ⟨hbelow, ?_⟩
  by_contra hle
  rw [not_lt, ← Nat.mul_one (nearest _ unity)] at hle
  exact absurd hbelow (nearest_le Nat.one_pos (representable_nearest unity_pos) hle).not_gt

/-- What a proper fraction of `n` is rounded to stays below `n`. -/
theorem cut_lt {f : Float} {n : ℕ} (hf : isProperFraction f = true) (hn : 0 < n) : cut f n < n := by
  rcases Nat.lt_or_ge n (2 ^ 64) with hlt | hge
  · obtain ⟨u, hu, hshort⟩ := exists_hasUnits_of_proper hf
    obtain ⟨hbelow, hunits⟩ := nearest_whole_mul_lt hn hshort
    have hrange : nearest (nearest (n * unity) 1 * u) unity < beyond :=
      hbelow.trans_le (nearest_whole_le hlt) |>.trans two_pow_mul_one_lt_beyond
    rw [cut, (hasUnits_mul (hasUnits_ofNat hlt) hu hrange).toNat_toUInt64]
    exact (min_le_left _ _).trans_lt ((Nat.div_lt_iff_lt_mul unity_pos).mpr hunits)
  · -- From 2⁶⁴ on the word that holds the result is the bound.
    exact (cut_lt_two_pow f n).trans_le hge

lemma cut_zero {f : Float} (hf : isProperFraction f = true) : cut f 0 = 0 := by
  obtain ⟨u, hu, -⟩ := exists_hasUnits_of_proper hf
  have hnone : HasUnits (Float.ofNat 0) 0 := by
    simpa [nearest_zero] using hasUnits_ofNat (show 0 < 2 ^ 64 by decide)
  have hprod : nearest (0 * u) unity = 0 := by rw [Nat.zero_mul, nearest_zero]
  rw [cut, (hasUnits_mul hnone hu (by rw [hprod, beyond]; positivity)).toNat_toUInt64, hprod,
    Nat.zero_div, Nat.zero_min]

theorem cut_le {f : Float} (hf : isProperFraction f = true) (n : ℕ) : cut f n ≤ n := by
  cases n with
  | zero => exact (cut_zero hf).le
  | succ n => exact (cut_lt hf n.succ_pos).le

theorem cut_of_zero {f : Float} (hf : isProperFraction f = true) (h : ¬ 0.0 < f) (n : ℕ) :
    cut f n = 0 := by
  obtain ⟨u, hu, -⟩ := exists_hasUnits_of_proper hf
  obtain rfl : u = 0 := by
    by_contra hne
    exact h (hu.zero_lt_iff.mpr hne)
  rw [cut, hu.toUInt64_mul_zero]
  rfl

/-- A proper fraction is either above zero or equal to it, with either sign. -/
theorem beq_zero_iff {f : Float} (hf : isProperFraction f = true) : (f == 0.0) = true ↔ ¬ 0.0 < f := by
  obtain ⟨u, hu, -⟩ := exists_hasUnits_of_proper hf
  rw [hu.eq_zero_iff, hu.zero_lt_iff, not_not]

namespace Partition

lemma checkValidation_eq_ok {f : Float} :
    checkValidation f = .ok () ↔ isProperFraction f = true := by
  unfold checkValidation
  split_ifs with h <;> simp [h]

lemma checkTest_eq_ok {f : Float} : checkTest f = .ok () ↔ isProperFraction f = true := by
  unfold checkTest
  split_ifs with h <;> simp [h]

end Partition

end PairDatasets
