import PairDatasets.Proofs.Double.Ends
import PairDatasets.Proofs.Double.Quotient

/-! Halves of whole numbers. A whole number is rounded when it becomes a double, its half is not rounded again. -/
namespace PairDatasets.Double

/-- Twice a number that is not subnormal has the same digits. -/
lemma nearest_two_mul {m : ℕ} (h : 2 ^ 52 ≤ m) : nearest (2 * m) 1 = 2 * nearest m 1 := by
  have hlog : 52 ≤ m.log2 := (Nat.le_log2 (by omega)).mpr h
  have hexcess : excess (2 * m / 1) = excess (m / 1) + 1 := by
    rw [Nat.div_one, Nat.div_one, excess, excess, Nat.log2_two_mul (by omega)]
    omega
  have hdigits : significand (2 * m) 1 = significand m 1 := by
    rw [significand, significand, hexcess, pow_succ, ← Nat.mul_assoc, Nat.mul_comm 2 m]
    exact roundDiv_mul_right _ _ _ Nat.two_pos
  rw [nearest, nearest, hdigits, hexcess, pow_succ]
  ring

lemma hasUnits_two : HasUnits 2.0 (2 * unity) := hasUnits_ofNat_of_lt (n := 2) (by decide)

/-- The half of a whole number is the double nearest to it. -/
theorem hasUnits_half {n : ℕ} (h : n < 2 ^ 64) :
    HasUnits (Float.ofNat n / 2.0) (nearest (n * unity) 2) := by
  have hwhole := hasUnits_ofNat h
  rcases Nat.eq_zero_or_pos n with rfl | hn
  · rw [Nat.zero_mul, nearest_zero] at hwhole ⊢
    exact hasUnits_zero_div hwhole hasUnits_two (Nat.mul_pos Nat.two_pos unity_pos)
  · obtain ⟨place, hplace⟩ : ∃ place, unitPlace = place + 1 ∧ 52 ≤ place := ⟨1073, unitPlace_eq, by decide⟩
    obtain ⟨half, hhalf⟩ : ∃ half, half = n * 2 ^ place := ⟨_, rfl⟩
    have hunits : n * unity = 2 * half := by
      rw [hhalf, unity, hplace.1]
      ring
    have hlow : 2 ^ 52 ≤ half := by
      rw [hhalf]
      exact (Nat.pow_le_pow_right Nat.two_pos hplace.2).trans (Nat.le_mul_of_pos_left _ hn)
    have hnearest : nearest (n * unity) 2 = nearest half 1 := by
      rw [hunits, Nat.mul_comm 2 half, ← nearest_mul_right half 1 Nat.two_pos, Nat.one_mul]
    have hquotient : nearest (nearest (n * unity) 1 * unity) (2 * unity) = nearest (n * unity) 2 := by
      rw [nearest_mul_right _ _ unity_pos, hnearest, hunits, nearest_two_mul hlow, Nat.mul_comm 2]
      exact nearest_of_representable Nat.two_pos (representable_nearest Nat.one_pos)
    have hreach : 2 * unity ≤ nearest (n * unity) 1 * unity := by
      refine Nat.mul_le_mul_right _ (le_trans ?_ (unity_le_whole hn))
      rw [unity, hplace.1]
      exact Nat.pow_le_pow_right Nat.two_pos (Nat.le_add_left 1 place)
    have hrange : nearest (n * unity) 2 < beyond := by
      refine lt_of_le_of_lt ?_ two_pow_mul_one_lt_beyond
      refine nearest_le Nat.two_pos (representable_two_pow_mul 64) ?_
      exact (Nat.mul_le_mul_right _ h.le).trans (Nat.le_mul_of_pos_right _ Nat.two_pos)
    rw [← hquotient] at hrange ⊢
    exact hasUnits_div hwhole hasUnits_two (Nat.mul_pos Nat.two_pos unity_pos) hreach hrange

end PairDatasets.Double
