import Mathlib.Data.Nat.Log
import PairDatasets.Proofs.Double.Encoding
import PairDatasets.Proofs.Double.Rounding

/-! Doubles that are not negative, counted in units of 2⁻¹⁰⁷⁴. Products, conversions of whole numbers
and conversions to whole numbers are those of the unit counts, rounded where a double cannot hold the
exact result. -/
namespace PairDatasets.Double
open PairDatasets.Decimal
open Float.Model (Format UnpackedFloat totalExponent)
open Float.Model.UnpackedFloat

/-- A mantissa with the bits shifted out of it stands for `num / den`. -/
structure Holds (em : ExtendedMantissa) (num den : ℕ) : Prop where
  mantissa : em.mantissa = num / den
  round : em.roundBit = true ↔ den ≤ 2 * (num % den)
  sticky : em.stickyBit = true ↔ 2 * (num % den) ≠ 0 ∧ 2 * (num % den) ≠ den

lemma holds_exact (m : ℕ) : Holds (.ofMantissaAndAccuracy m .exact) m 1 := by
  constructor <;> simp [ExtendedMantissa.ofMantissaAndAccuracy, Nat.mod_one]

lemma Holds.shiftRightOne {em : ExtendedMantissa} {num den : ℕ} (hd : 0 < den)
    (h : Holds em num den) : Holds em.shiftRightOne num (den * 2) := by
  obtain ⟨hm, hr, hs⟩ := h
  have hmod : num % (den * 2) = num % den + den * (em.mantissa % 2) := by rw [Nat.mod_mul, hm]
  have hlt := Nat.mod_lt num hd
  refine ⟨?_, ?_, ?_⟩
  · rw [ExtendedMantissa.shiftRightOne, hm, Nat.div_div_eq_div_mul]
  · rcases Nat.mod_two_eq_zero_or_one em.mantissa with h | h <;>
      simp only [ExtendedMantissa.shiftRightOne, hmod, h] <;> simp <;> omega
  · rcases Nat.mod_two_eq_zero_or_one em.mantissa with h | h <;>
      simp only [ExtendedMantissa.shiftRightOne, hmod, h, Bool.or_eq_true, hr, hs] <;> omega

lemma Holds.shiftRight {em : ExtendedMantissa} {num den : ℕ} (hd : 0 < den) (h : Holds em num den)
    (k : ℕ) : Holds (em >>> k) num (den * 2 ^ k) := by
  change Holds (k.repeat ExtendedMantissa.shiftRightOne em) _ _
  induction k with
  | zero => simpa [Nat.repeat] using h
  | succ k ih =>
    rw [Nat.repeat, pow_succ, ← Nat.mul_assoc]
    exact ih.shiftRightOne (by positivity)

/-- The residual bits are enough to round to the even neighbour. -/
lemma Holds.roundedMantissa {em : ExtendedMantissa} {num den : ℕ} (h : Holds em num den) :
    em.roundedMantissa = roundDiv .even num den := by
  obtain ⟨hm, hr, hs⟩ := h
  obtain ⟨m, r, s⟩ := em
  dsimp only at hm hr hs
  simp only [ExtendedMantissa.roundedMantissa, roundDiv, ← hm]
  cases r <;> cases s <;>
    simp only [ExtendedMantissa.accuracy, Accuracy.roundToNearestEven] <;> split_ifs <;>
    simp at hr hs <;> omega

lemma mantissa_shiftRight (m k : ℕ) :
    (ExtendedMantissa.ofMantissaAndAccuracy m .exact >>> k).mantissa = m / 2 ^ k := by
  simpa using ((holds_exact m).shiftRight Nat.one_pos k).mantissa

/-- A taken-apart double that is not negative has so many units. -/
inductive Measures : UnpackedFloat → ℕ → Prop
  | zero (s : Sign) : Measures (.zero s) 0
  | finite {m : ℕ} {e : ℤ} (h : Stored m e) :
      Measures (.finite .positive m e h.pos) (m * 2 ^ (e + 1074).toNat)

lemma log2_div_two_pow (n a : ℕ) : (n / 2 ^ a).log2 = n.log2 - a := by
  simp only [Nat.log2_eq_log_two, Nat.log_div_base_pow]

lemma log2_mul_two_pow {n : ℕ} (hn : n ≠ 0) (b : ℕ) : (n * 2 ^ b).log2 = n.log2 + b := by
  induction b with
  | zero => simp
  | succ b ih =>
    rw [pow_succ, ← Nat.mul_assoc, Nat.mul_comm, Nat.log2_two_mul (by positivity), ih]
    rfl

/-- Digits behind the point do not count. -/
lemma log2_mul_two_pow_div {num den : ℕ} (hq : num / den ≠ 0) (b : ℕ) :
    (num * 2 ^ b / den).log2 = (num / den).log2 + b := by
  have hden : 0 < den := by
    by_contra hzero
    simp [Nat.eq_zero_of_not_pos hzero] at hq
  have hle : num / den * 2 ^ b ≤ num * 2 ^ b / den := by
    rw [Nat.le_div_iff_mul_le hden, Nat.mul_right_comm]
    exact Nat.mul_le_mul_right _ (Nat.div_mul_le_self num den)
  have hlt : num * 2 ^ b / den < (num / den + 1) * 2 ^ b := by
    rw [Nat.div_lt_iff_lt_mul hden, Nat.mul_right_comm]
    exact Nat.mul_lt_mul_of_pos_right (Nat.lt_mul_of_div_lt (Nat.lt_succ_self _) hden) (by positivity)
  have hpos : num * 2 ^ b / den ≠ 0 := (Nat.lt_of_lt_of_le (by positivity) hle).ne'
  rw [Nat.log2_eq_iff hpos, pow_add]
  constructor
  · exact (Nat.mul_le_mul_right _ (Nat.log2_self_le hq)).trans hle
  · have hsucc : num / den + 1 ≤ 2 ^ ((num / den).log2 + 1) := Nat.lt_log2_self
    calc num * 2 ^ b / den < (num / den + 1) * 2 ^ b := hlt
      _ ≤ 2 ^ ((num / den).log2 + 1) * 2 ^ b := Nat.mul_le_mul_right _ hsucc
      _ = 2 ^ ((num / den).log2 + b + 1) := by rw [← pow_add]; congr 1; omega

/-- The exponent at which a value is rounded leaves out what exceeds 53 digits. -/
lemma targetExponent_eq {num den a b : ℕ} {e : ℤ} (hq : num / den ≠ 0)
    (h : (b : ℤ) - a = e + 1074) :
    Format.binary64.targetExponent (totalExponent (num / den) e) =
      (excess (num * 2 ^ b / (den * 2 ^ a)) : ℤ) - 1074 := by
  rw [excess, ← Nat.div_div_eq_div_mul, log2_div_two_pow, log2_mul_two_pow_div hq]
  simp only [Format.targetExponent, totalExponent, mantissaBits_binary64, minExponent_binary64]
  omega

lemma shiftToTargetExponent_mantissa (m : ℕ) (e : ℤ) :
    (shiftToTargetExponent Format.binary64 m e .exact).1.mantissa =
      m / 2 ^ (Format.binary64.targetExponent (totalExponent m e) - e).toNat :=
  mantissa_shiftRight m _

/-- After rounding to at most 53 digits one more shift is needed only for a carry into a 54th. -/
lemma carry {r : ℕ} {t : ℤ} (hr : r ≤ 2 ^ 53) (ht : -1074 ≤ t) :
    (Format.binary64.targetExponent (totalExponent r t) - t).toNat = if r = 2 ^ 53 then 1 else 0 := by
  simp only [Format.targetExponent, totalExponent, mantissaBits_binary64, minExponent_binary64]
  split_ifs with h
  · rw [h, Nat.log2_two_pow]
    omega
  · have hlog : r.log2 < 53 := by
      by_cases hz : r = 0
      · simp [hz]
      · exact (Nat.log2_lt hz).mpr (by omega)
    omega

lemma measures_of_parts {m : ℕ} {e : ℤ} {u : ℕ} (hu : u = m * 2 ^ (e + 1074).toNat)
    (h : 0 < m → Stored m e) :
    Measures (if h : m = 0 then .zero .positive
      else .finite .positive m e (Nat.pos_of_ne_zero h)) u := by
  subst hu
  split_ifs with hm
  · simpa [hm] using Measures.zero .positive
  · exact .finite (h (Nat.pos_of_ne_zero hm))

lemma measures_carry {r : ℕ} {s : ℕ} (hr : r ≤ 2 ^ 53) (hs : 0 < s → 2 ^ 52 ≤ r) :
    Measures
      (if h : (shiftToTargetExponent Format.binary64 r (s - 1074) .exact).1.mantissa = 0 then
        .zero .positive
      else .finite .positive (shiftToTargetExponent Format.binary64 r (s - 1074) .exact).1.mantissa
        (shiftToTargetExponent Format.binary64 r (s - 1074) .exact).2 (Nat.pos_of_ne_zero h))
      (r * 2 ^ s) := by
  have hk := carry hr (show -1074 ≤ (s : ℤ) - 1074 by omega)
  have hm := shiftToTargetExponent_mantissa r (s - 1074)
  have he : (shiftToTargetExponent Format.binary64 r (s - 1074) .exact).2 =
    s - 1074 + (Format.binary64.targetExponent (totalExponent r (s - 1074)) - (s - 1074)).toNat := rfl
  rw [hk] at hm he
  refine measures_of_parts ?_ fun hpos => ?_
  · rw [hm, he]
    split_ifs with h
    · rw [h, show ((s : ℤ) - 1074 + (1 : ℕ) + 1074).toNat = s + 1 by omega, pow_succ]
      omega
    · rw [show ((s : ℤ) - 1074 + (0 : ℕ) + 1074).toNat = s by omega]
      simp
  · rw [hm] at hpos ⊢
    rw [he]
    split_ifs at hpos ⊢ with h
    · exact ⟨hpos, by omega, by omega, .inl (by omega)⟩
    · exact ⟨hpos, by omega, by omega, by omega⟩

/-- Rounding a mantissa, its exponent and what was shifted out gives the nearest number of units. -/
theorem measures_round {m a b num den : ℕ} {e : ℤ} {accuracy : Accuracy} (hm : m ≠ 0) (hd : 0 < den)
    (hholds : Holds (.ofMantissaAndAccuracy m accuracy) num den) (h : (b : ℤ) - a = e + 1074)
    (he : e ≤ Format.binary64.targetExponent (totalExponent m e)) :
    Measures (roundWithAccuracy Format.binary64 .positive m e accuracy)
      (nearest (num * 2 ^ b) (den * 2 ^ a)) := by
  obtain rfl : m = num / den := by
    rw [← hholds.mantissa]
    cases accuracy with
    | exact => rfl
    | inexact half => cases half <;> rfl
  set s := excess (num * 2 ^ b / (den * 2 ^ a)) with hs
  have ht := targetExponent_eq hm h
  rw [← hs] at ht
  obtain ⟨k, hk⟩ : ∃ k : ℕ, (s : ℤ) - 1074 = e + k := ⟨((s : ℤ) - 1074 - e).toNat, by omega⟩
  have hr : roundDiv .even num (den * 2 ^ k) = significand (num * 2 ^ b) (den * 2 ^ a) := by
    have hden : den * 2 ^ a * 2 ^ s = den * 2 ^ k * 2 ^ b := by
      rw [Nat.mul_assoc, Nat.mul_assoc, ← pow_add, ← pow_add, show a + s = k + b by omega]
    rw [significand, ← hs, hden]
    exact (roundDiv_mul_right _ _ _ (by positivity)).symm
  have hfirst : (shiftToTargetExponent Format.binary64 (num / den) e accuracy).1.roundedMantissa =
      significand (num * 2 ^ b) (den * 2 ^ a) := by
    have hshift : ((s : ℤ) - 1074 - e).toNat = k := by omega
    rw [shiftToTargetExponent, ht, shiftToExponent, hshift, ← hr]
    exact (hholds.shiftRight hd k).roundedMantissa
  have hexp : (shiftToTargetExponent Format.binary64 (num / den) e accuracy).2 = (s : ℤ) - 1074 := by
    rw [shiftToTargetExponent, ht, shiftToExponent]
    omega
  rw [nearest, ← hs, roundWithAccuracy]
  dsimp only
  rw [hfirst, hexp]
  exact measures_carry (significand_le (by positivity)) (le_significand (by positivity))

/-- Rounding an exact mantissa and its exponent gives the nearest number of units. -/
theorem measures_roundWithAccuracy (a b : ℕ) {m : ℕ} {e : ℤ} (hm : m ≠ 0)
    (h : (b : ℤ) - a = e + 1074)
    (he : e ≤ Format.binary64.targetExponent (totalExponent m e)) :
    Measures (roundWithAccuracy Format.binary64 .positive m e .exact)
      (nearest (m * 2 ^ b) (2 ^ a)) := by
  rw [← Nat.one_mul (2 ^ a)]
  exact measures_round hm Nat.one_pos (holds_exact m) h he

/-- A product has all its digits in front of the place where it is rounded. -/
lemma Stored.le_targetExponent_mul {m n : ℕ} {e d : ℤ} (h : Stored m e) (k : Stored n d) :
    e + d ≤ Format.binary64.targetExponent (totalExponent (m * n) (e + d)) := by
  have hm := h.pos
  have hn := k.pos
  simp only [Format.targetExponent, totalExponent, mantissaBits_binary64, minExponent_binary64]
  rcases Nat.lt_or_ge (m * n) (2 ^ 52) with hlt | hge
  · have he : e = -1074 := h.leading.resolve_left (by nlinarith)
    have hd : d = -1074 := k.leading.resolve_left (by nlinarith)
    omega
  · have hlog : 52 ≤ (m * n).log2 := (Nat.le_log2 (by positivity)).mpr hge
    omega

end PairDatasets.Double
