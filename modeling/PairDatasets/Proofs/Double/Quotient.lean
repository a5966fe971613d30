import PairDatasets.Proofs.Double.Operations

/-! Quotients of doubles that are not negative, in units of 2⁻¹⁰⁷⁴, and how far rounding moves a quotient
that is not subnormal. -/
namespace PairDatasets.Double
open PairDatasets.Decimal
open Float.Model (Format UnpackedFloat totalExponent)
open Float.Model.UnpackedFloat

/-- A quotient and the accuracy that its remainder leaves. -/
lemma holds_quotient (num : ℕ) {den : ℕ} (hd : 0 < den) :
    Holds (.ofMantissaAndAccuracy (num / den) (accuracyOfFraction (num % den) den)) num den := by
  have hlt := Nat.mod_lt num hd
  unfold accuracyOfFraction
  split_ifs with hzero
  · constructor <;> simp [ExtendedMantissa.ofMantissaAndAccuracy, hzero]
    omega
  · rcases lt_trichotomy (2 * (num % den)) den with h | h | h
    · rw [compare_lt_iff_lt.mpr h]
      constructor <;> simp [ExtendedMantissa.ofMantissaAndAccuracy] <;> omega
    · rw [compare_eq_iff_eq.mpr h]
      constructor <;> simp [ExtendedMantissa.ofMantissaAndAccuracy] <;> omega
    · rw [compare_gt_iff_gt.mpr h]
      constructor <;> simp [ExtendedMantissa.ofMantissaAndAccuracy] <;> omega

/-- Above the least exponent a quotient is divided out to 53 digits. -/
lemma le_quotient {m n k : ℕ} {e d t : ℤ} (hm : 0 < m) (hn : 0 < n) (hk : (k : ℤ) = e - d - t)
    (ht : t = min (e - d)
      (Format.binary64.targetExponent (totalExponent m e - totalExponent n d)))
    (hhigh : -1074 < t) : 2 ^ 52 ≤ m * 2 ^ k / n := by
  simp only [Format.targetExponent, totalExponent, mantissaBits_binary64, minExponent_binary64] at ht
  have hlong : n.log2 + 1 + 52 ≤ (m * 2 ^ k).log2 := by
    rw [log2_mul_two_pow hm.ne']
    omega
  rw [Nat.le_div_iff_mul_le hn]
  calc 2 ^ 52 * n ≤ 2 ^ 52 * 2 ^ (n.log2 + 1) := Nat.mul_le_mul_left _ Nat.lt_log2_self.le
    _ = 2 ^ (n.log2 + 1 + 52) := by rw [← pow_add]; congr 1; omega
    _ ≤ 2 ^ (m * 2 ^ k).log2 := Nat.pow_le_pow_right (by decide) hlong
    _ ≤ m * 2 ^ k := Nat.log2_self_le (by positivity)

/-- A quotient of doubles that reaches one unit is the nearest double. -/
theorem hasUnits_div {x y : Float} {u v : ℕ} (hx : HasUnits x u) (hy : HasUnits y v) (hv : 0 < v)
    (hle : v ≤ u * unity) (h : nearest (u * unity) v < beyond) :
    HasUnits (x / y) (nearest (u * unity) v) := by
  refine hasUnits_pack ?_ h
  unfold HasUnits at hx hy
  generalize x.toModel.unpack = a at hx ⊢
  generalize y.toModel.unpack = b at hy ⊢
  cases hy with
  | zero s => exact absurd hv (Nat.lt_irrefl 0)
  | @finite n d hn =>
    cases hx with
    | zero s =>
      rw [Nat.zero_mul] at hle
      exact absurd hle (Nat.not_le_of_lt hv)
    | @finite m e hm =>
      have hplace := unitPlace_eq
      have he := hm.le
      have hd := hn.le
      obtain ⟨t, ht⟩ : ∃ t, t = min (e - d)
          (Format.binary64.targetExponent (totalExponent m e - totalExponent n d)) := ⟨_, rfl⟩
      have hmin : -1074 ≤
          Format.binary64.targetExponent (totalExponent m e - totalExponent n d) := le_max_right _ _
      obtain ⟨k, hk⟩ : ∃ k : ℕ, (k : ℤ) = e - d - t := ⟨(e - d - t).toNat, by omega⟩
      obtain ⟨b, hb⟩ : ∃ b : ℕ, (b : ℤ) - (d + 1074).toNat = t + 1074 :=
        ⟨(t + 1074 + (d + 1074).toNat).toNat, by omega⟩
      have hu : m * 2 ^ (e + 1074).toNat * unity = m * 2 ^ k * 2 ^ b := by
        rw [unity, Nat.mul_assoc, Nat.mul_assoc, ← pow_add, ← pow_add]
        congr 2
        omega
      have hround : UnpackedFloat.div Format.binary64 (.finite .positive m e hm.pos)
          (.finite .positive n d hn.pos) = roundWithAccuracy Format.binary64 .positive
            (m * 2 ^ k / n) t (accuracyOfFraction (m * 2 ^ k % n) n) := by
        have hshift : (e - d - t).toNat = k := by omega
        unfold UnpackedFloat.div divCore
        dsimp only
        rw [← ht, hshift, Nat.shiftLeft_eq]
        rfl
      have hfull : t ≤ -1074 ∨ 2 ^ 52 ≤ m * 2 ^ k / n := by
        rcases le_or_gt t (-1074) with hlow | hhigh
        · exact .inl hlow
        · exact .inr (le_quotient hm.pos hn.pos hk ht hhigh)
      have hsome : m * 2 ^ k / n ≠ 0 := by
        rcases hfull with hlow | hquotient
        · -- at the least exponent a quotient of one unit is not rounded to nothing
          have hpow : 2 ^ b ≤ 2 ^ (d + 1074).toNat := Nat.pow_le_pow_right (by decide) (by omega)
          have hreach : n * 2 ^ (d + 1074).toNat ≤ m * 2 ^ k * 2 ^ (d + 1074).toNat :=
            (hu ▸ hle).trans (Nat.mul_le_mul_left _ hpow)
          have hn' : n ≤ m * 2 ^ k := Nat.le_of_mul_le_mul_right hreach (by positivity)
          exact (Nat.div_pos hn' hn.pos).ne'
        · omega
      have htarget : t ≤ Format.binary64.targetExponent (totalExponent (m * 2 ^ k / n) t) := by
        simp only [Format.targetExponent, totalExponent, mantissaBits_binary64, minExponent_binary64]
        rcases hfull with hlow | hquotient
        · omega
        · have hlog : 52 ≤ (m * 2 ^ k / n).log2 := (Nat.le_log2 hsome).mpr hquotient
          omega
      rw [hu]
      change Measures (UnpackedFloat.div Format.binary64 _ _) _
      rw [hround]
      exact measures_round hsome hn.pos (holds_quotient _ hn.pos) hb htarget

lemma representable_whole {n : ℕ} (h : n < 2 ^ 53) : Representable (n * unity) :=
  ⟨n, unitPlace, h, rfl⟩

/-- Below 2⁵³ a whole number is a double. -/
lemma hasUnits_ofNat_of_lt {n : ℕ} (h : n < 2 ^ 53) : HasUnits (Float.ofNat n) (n * unity) := by
  have hnear := nearest_of_representable Nat.one_pos (representable_whole h)
  rw [Nat.mul_one] at hnear
  rw [← hnear]
  exact hasUnits_ofNat (h.trans (by decide))

/-- A quotient of whole numbers below 2⁵³. -/
theorem hasUnits_div_whole {n d : ℕ} (hn : 0 < n) (hd : 0 < d) (hn' : n < 2 ^ 53) (hd' : d < 2 ^ 53) :
    HasUnits (Float.ofNat n / Float.ofNat d) (nearest (n * unity) d) := by
  have hplace : 2 ^ 53 ≤ unity := by
    unfold unity
    exact Nat.pow_le_pow_right (by decide) (by rw [unitPlace_eq]; decide)
  have hunit : d * unity ≤ n * unity * unity := by
    have hle : d ≤ n * unity := by nlinarith
    exact Nat.mul_le_mul_right _ hle
  have hscale : nearest (n * unity * unity) (d * unity) = nearest (n * unity) d :=
    nearest_mul_right _ _ unity_pos
  have hrange : nearest (n * unity) d < beyond := by
    have hle : nearest (n * unity) d ≤ n * unity :=
      nearest_le hd (representable_whole hn') (Nat.le_mul_of_pos_right _ hd)
    have hlt : n * unity ≤ 2 ^ 64 * unity := Nat.mul_le_mul_right _ (hn'.le.trans (by decide))
    exact (hle.trans hlt).trans_lt two_pow_mul_one_lt_beyond
  rw [← hscale] at hrange ⊢
  exact hasUnits_div (hasUnits_ofNat_of_lt hn') (hasUnits_ofNat_of_lt hd')
    (Nat.mul_pos hd unity_pos) hunit hrange

/-- A quotient of whole numbers that lies below one falls short of it by 2⁻⁵³ or more. -/
lemma nearest_whole_div_lt {n d : ℕ} (hnd : n < d) (hd : d ≤ 2 ^ 53) :
    nearest (n * unity) d * 2 ^ 53 + unity ≤ 2 ^ 53 * unity := by
  obtain ⟨place, hplace⟩ : ∃ place, unitPlace = 53 + place := ⟨1021, unitPlace_eq⟩
  have hunity : unity = 2 ^ 53 * 2 ^ place := by rw [unity, hplace, pow_add]
  have hnum : n * 2 ^ 53 ≤ (2 ^ 53 - 1) * d := by omega
  have hle : nearest (n * unity) d ≤ (2 ^ 53 - 1) * 2 ^ place := by
    refine nearest_le (by omega) ⟨_, place, by decide, rfl⟩ ?_
    calc n * unity = n * 2 ^ 53 * 2 ^ place := by rw [hunity, Nat.mul_assoc]
      _ ≤ (2 ^ 53 - 1) * d * 2 ^ place := Nat.mul_le_mul_right _ hnum
      _ = (2 ^ 53 - 1) * 2 ^ place * d := Nat.mul_right_comm _ _ _
  calc nearest (n * unity) d * 2 ^ 53 + unity
      ≤ (2 ^ 53 - 1) * 2 ^ place * 2 ^ 53 + unity :=
        Nat.add_le_add_right (Nat.mul_le_mul_right _ hle) _
    _ = (2 ^ 53 - 1) * unity + unity := by rw [hunity, Nat.mul_assoc, Nat.mul_comm (2 ^ place)]
    _ = 2 ^ 53 * unity := by omega

end PairDatasets.Double
