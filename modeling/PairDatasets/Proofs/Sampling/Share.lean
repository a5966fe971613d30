import PairDatasets.Proofs.Double.Ends
import PairDatasets.Proofs.Double.Quotient
import PairDatasets.Proofs.Double.Relative
import PairDatasets.Sampling.Share

/-! The share of one problem in doubles. It is computed with five roundings, which move it by at most eight
parts 2⁻⁵³ of it, and then cut to whole pairs. -/
namespace PairDatasets
open Double
variable {budget pairs total : ℕ}

/-- The units of a budget times the pairs of one problem. -/
def productUnits (budget pairs : ℕ) : ℕ := nearest (budget * nearest (pairs * unity) 1) 1

/-- The units of a share before it is cut to whole pairs. -/
def shareUnits (budget pairs total : ℕ) : ℕ :=
  nearest (productUnits budget pairs * unity) (nearest (total * unity) 1)

lemma unity_le_productUnits (hbudget : 0 < budget) (hpairs : 0 < pairs) :
    unity ≤ productUnits budget pairs :=
  unity_le_nearest ((unity_le_whole hpairs).trans (Nat.le_mul_of_pos_left _ hbudget))

lemma productUnits_le (hbudget : budget < 2 ^ 50) (hpairs : pairs < 2 ^ 64) :
    productUnits budget pairs ≤ 2 ^ 114 * unity := by
  refine nearest_le Nat.one_pos (representable_two_pow_mul 114) ?_
  calc budget * nearest (pairs * unity) 1 ≤ 2 ^ 50 * (2 ^ 64 * unity) :=
        Nat.mul_le_mul hbudget.le (nearest_whole_le hpairs)
    _ = 2 ^ 114 * unity * 1 := by ring

lemma hasUnits_product (hbudget : budget < 2 ^ 50) (hpairs : pairs < 2 ^ 64) :
    HasUnits (Float.ofNat budget * Float.ofNat pairs) (productUnits budget pairs) := by
  have hunits : nearest (budget * unity * nearest (pairs * unity) 1) unity = productUnits budget pairs := by
    have hscale := nearest_mul_right (budget * nearest (pairs * unity) 1) 1 unity_pos
    rw [Nat.one_mul] at hscale
    rw [productUnits, ← hscale, Nat.mul_right_comm]
  have hrange := (productUnits_le hbudget hpairs).trans_lt (two_pow_mul_unity_lt_beyond (by decide))
  rw [← hunits] at hrange ⊢
  exact hasUnits_mul (hasUnits_ofNat_of_lt (hbudget.trans (by decide))) (hasUnits_ofNat hpairs) hrange

/-- The quotient is far from subnormal. -/
lemma two_pow_mul_whole_le (hbudget : 0 < budget) (hpairs : 0 < pairs) (htotal : total < 2 ^ 64) :
    2 ^ 53 * nearest (total * unity) 1 ≤ productUnits budget pairs * unity := by
  have hplace := unitPlace_eq
  calc 2 ^ 53 * nearest (total * unity) 1 ≤ 2 ^ 53 * (2 ^ 64 * unity) :=
        Nat.mul_le_mul_left _ (nearest_whole_le htotal)
    _ = 2 ^ 117 * unity := by ring
    _ ≤ unity * unity := Nat.mul_le_mul_right _ (Nat.pow_le_pow_right (by decide) (by omega))
    _ ≤ productUnits budget pairs * unity :=
        Nat.mul_le_mul_right _ (unity_le_productUnits hbudget hpairs)

lemma shareUnits_zero (pairs total : ℕ) : shareUnits 0 pairs total = 0 := by
  rw [shareUnits, productUnits, Nat.zero_mul, nearest_zero, Nat.zero_mul, nearest_zero]

/-- Five roundings move a share by at most eight parts. -/
theorem close_shareUnits (budget : ℕ) (hpairs : 0 < pairs) (htotal : 0 < total) (hword : total < 2 ^ 64) :
    Close 8 (total * shareUnits budget pairs total) (budget * pairs * unity) := by
  rcases Nat.eq_zero_or_pos budget with rfl | hbudget
  · simpa [shareUnits_zero] using Close.zero 8
  obtain ⟨whole, hwhole⟩ : ∃ whole, whole = nearest (total * unity) 1 := ⟨_, rfl⟩
  have hpos : 0 < whole := hwhole ▸ unity_pos.trans_le (unity_le_whole htotal)
  have hlarge : 2 ^ 53 ≤ productUnits budget pairs * unity / whole := by
    rw [Nat.le_div_iff_mul_le hpos, hwhole]
    exact two_pow_mul_whole_le hbudget hpairs hword
  have hproduct : Close 3 (productUnits budget pairs) (budget * (pairs * unity)) :=
    (near_nearest_one _).close.trans ((near_nearest_one _).close.mul_left budget) (by decide)
  have hquotient : Close 5 (shareUnits budget pairs total * whole) (unity * (budget * (pairs * unity))) := by
    have hround := (near_nearest hpos (excess_pos hlarge)).close
    rw [Nat.mul_comm (productUnits budget pairs)] at hround
    rw [shareUnits, ← hwhole, Nat.mul_comm (productUnits budget pairs)]
    exact hround.trans (hproduct.mul_left unity) (by decide)
  have hdivisor : Close 2 (shareUnits budget pairs total * (total * unity))
      (shareUnits budget pairs total * whole) := by
    rw [hwhole]
    exact (near_nearest_one _).close.symm.mul_left _
  refine .of_mul_left unity_pos ?_
  convert hdivisor.trans hquotient (by decide) using 1 <;> ring

/-- No share is twice the budget. -/
lemma shareUnits_le (budget : ℕ) (hpairs : 0 < pairs) (hle : pairs ≤ total) (hword : total < 2 ^ 64) :
    shareUnits budget pairs total ≤ 2 * budget * unity := by
  have htotal := hpairs.trans_le hle
  have hclose := (close_shareUnits budget hpairs htotal hword).le
  have hfactor : budget * pairs * unity * (2 ^ 53 + 8) ≤ budget * total * unity * 2 ^ 54 :=
    Nat.mul_le_mul (Nat.mul_le_mul_right _ (Nat.mul_le_mul_left _ hle)) (by decide)
  refine Nat.le_of_mul_le_mul_left (c := total * 2 ^ 53) ?_ (by positivity)
  linarith

/-- A share is cut from its units. -/
theorem pairShare_eq (hbudget : budget < 2 ^ 50) (hpairs : 0 < pairs) (hle : pairs ≤ total)
    (hword : total < 2 ^ 64) : pairShare budget pairs total = shareUnits budget pairs total / unity := by
  have htotal := hpairs.trans_le hle
  have hunits : HasUnits (Float.ofNat budget * Float.ofNat pairs / Float.ofNat total)
      (shareUnits budget pairs total) := by
    have hproduct := hasUnits_product hbudget (hle.trans_lt hword)
    have hwhole := hasUnits_ofNat hword
    have hpos : 0 < nearest (total * unity) 1 := unity_pos.trans_le (unity_le_whole htotal)
    rcases Nat.eq_zero_or_pos budget with rfl | hbudget'
    · rw [shareUnits_zero]
      rw [productUnits, Nat.zero_mul, nearest_zero] at hproduct
      exact hasUnits_zero_div hproduct hwhole hpos
    · refine hasUnits_div hproduct hwhole hpos ?_ ?_
      · exact (Nat.le_mul_of_pos_left _ (by decide)).trans (two_pow_mul_whole_le hbudget' hpairs hword)
      · have hunity : 2 * budget * unity ≤ 2 ^ 51 * unity := Nat.mul_le_mul_right _ (by omega)
        have hrange : 2 * budget * unity < beyond :=
          hunity.trans_lt (two_pow_mul_unity_lt_beyond (by decide))
        exact (shareUnits_le budget hpairs hle hword).trans_lt hrange
  have hsmall : shareUnits budget pairs total / unity ≤ 2 * budget :=
    Nat.div_le_of_le_mul (Nat.mul_comm _ unity ▸ shareUnits_le budget hpairs hle hword)
  rw [pairShare, hunits.toNat_toUInt64]
  omega

/-- Nothing is shared out of no budget, however many pairs there are. -/
theorem pairShare_zero (pairs total : ℕ) : pairShare 0 pairs total = 0 := by
  have hnothing : HasUnits (Float.ofNat 0) 0 := by
    simpa [nearest_zero] using hasUnits_ofNat (n := 0) (by decide)
  rw [pairShare, ((hnothing.vanishes.mul_left _).div _).toUInt64]
  rfl

end PairDatasets
