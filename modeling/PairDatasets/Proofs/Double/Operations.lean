import Mathlib.Algebra.Order.Ring.Nat
import PairDatasets.Proofs.Double.Units

/-! Operations on doubles that are not negative, in units of 2⁻¹⁰⁷⁴: comparison with zero and one,
products, conversion of whole numbers and conversion to whole numbers. -/
namespace PairDatasets.Double
open PairDatasets.Decimal
open Float.Model (Format UnpackedFloat totalExponent)
open Float.Model.UnpackedFloat

/-- The place of the unit behind the point. -/
@[irreducible] def unitPlace : ℕ := 1074

lemma unitPlace_eq : unitPlace = 1074 := by rw [unitPlace]

/-- The units of the number one. -/
def unity : ℕ := 2 ^ unitPlace

/-- No double has so many units. -/
def beyond : ℕ := 2 ^ (1024 + unitPlace)

lemma unity_pos : 0 < unity := by unfold unity; positivity

lemma representable_unity : Representable unity := representable_two_pow unitPlace

lemma representable_two_pow_mul (k : ℕ) : Representable (2 ^ k * unity) := by
  rw [unity, ← pow_add]
  exact representable_two_pow _

/-- A double that is not negative, of so many units. -/
def HasUnits (x : Float) (u : ℕ) : Prop := Measures x.toModel.unpack u

lemma unpack_zero : (0.0 : Float).toModel.unpack = .zero .positive := rfl

lemma unpack_one : (1.0 : Float).toModel.unpack = .finite .positive (2 ^ 52) (-52) (by decide) := rfl

lemma hasUnits_one : HasUnits 1.0 unity := by
  have h : Stored (2 ^ 52) (-52) := ⟨by decide, by decide, by decide, .inl le_rfl⟩
  have hplace : unitPlace = 52 + ((-52 : ℤ) + 1074).toNat := by
    rw [unitPlace_eq]
    rfl
  have hu : unity = 2 ^ 52 * 2 ^ ((-52 : ℤ) + 1074).toNat := by rw [unity, ← pow_add, hplace]
  rw [HasUnits, unpack_one, hu]
  exact .finite h

/-- Units below the largest exponent survive packing. -/
theorem hasUnits_pack {f : UnpackedFloat} {u : ℕ} (h : Measures f u) (hu : u < beyond) :
    HasUnits (.ofModel (.pack f)) u := by
  cases h with
  | zero s => cases s <;> exact .zero _
  | @finite m e h =>
    have he : e ≤ 971 := by
      by_contra hgt
      have hlead : 2 ^ 52 ≤ m := h.leading.resolve_right (by omega)
      have hpow : beyond ≤ 2 ^ 52 * 2 ^ (e + 1074).toNat := by
        rw [beyond, ← pow_add]
        exact pow_le_pow_right₀ one_le_two (by rw [unitPlace_eq]; omega)
      exact absurd hu (not_lt.mpr (hpow.trans (Nat.mul_le_mul_right _ hlead)))
    rw [HasUnits, unpack_pack h he]
    exact .finite h

lemma nearest_zero (den : ℕ) : nearest 0 den = 0 := by
  rcases Nat.eq_zero_or_pos den with rfl | hd
  · simp [nearest, significand, roundDiv]
  · exact Nat.le_zero.mp (nearest_le hd ⟨0, 0, by decide, rfl⟩ (by simp))

/-- A product of doubles is the nearest double. -/
theorem hasUnits_mul {x y : Float} {u v : ℕ} (hx : HasUnits x u) (hy : HasUnits y v)
    (h : nearest (u * v) unity < beyond) : HasUnits (x * y) (nearest (u * v) unity) := by
  refine hasUnits_pack ?_ h
  unfold HasUnits at hx hy
  generalize x.toModel.unpack = a at hx ⊢
  generalize y.toModel.unpack = b at hy ⊢
  cases hx with
  | zero s =>
    rw [Nat.zero_mul, nearest_zero]
    cases hy <;> exact .zero _
  | @finite m e hs =>
    cases hy with
    | zero s =>
      rw [Nat.mul_zero, nearest_zero]
      exact .zero _
    | @finite n d ht =>
      have hm : m * n ≠ 0 := (Nat.mul_pos hs.pos ht.pos).ne'
      have hu : m * 2 ^ (e + 1074).toNat * (n * 2 ^ (d + 1074).toNat) =
          m * n * 2 ^ ((e + 1074).toNat + (d + 1074).toNat) := by ring
      have hplace := unitPlace_eq
      have he := hs.le
      have hd := ht.le
      rw [hu]
      exact measures_roundWithAccuracy unitPlace _ hm (by omega) (hs.le_targetExponent_mul ht)

/-- A whole number with `k` zeros behind it, of which the exponent takes account. -/
lemma measures_whole {n k : ℕ} (hn : n ≠ 0)
    (h : -(k : ℤ) ≤ Format.binary64.targetExponent (totalExponent (n * 2 ^ k) (-k))) :
    Measures (roundWithAccuracy Format.binary64 .positive (n * 2 ^ k) (-k) .exact)
      (nearest (n * unity) 1) := by
  have hplace := unitPlace_eq
  have hu : n * 2 ^ k * 2 ^ unitPlace = n * unity * 2 ^ k := by rw [unity]; ring
  have hnear : nearest (n * unity * 2 ^ k) (1 * 2 ^ k) = nearest (n * unity) 1 :=
    nearest_mul_right _ _ (by positivity)
  rw [← hnear, Nat.one_mul, ← hu]
  exact measures_roundWithAccuracy k unitPlace (Nat.mul_ne_zero hn (by positivity)) (by omega) h

lemma totalExponent_mul_two_pow {n : ℕ} (hn : n ≠ 0) (k : ℕ) :
    totalExponent (n * 2 ^ k) (-k) = n.log2 + 1 := by
  rw [totalExponent, log2_mul_two_pow hn]
  omega

lemma nearest_whole_le {n : ℕ} (h : n < 2 ^ 64) : nearest (n * unity) 1 ≤ 2 ^ 64 * unity := by
  refine nearest_le Nat.one_pos (representable_two_pow_mul 64) ?_
  rw [Nat.mul_one]
  exact Nat.mul_le_mul_right _ h.le

lemma two_pow_mul_unity_lt_beyond {k : ℕ} (hk : k < 1024) : 2 ^ k * unity < beyond := by
  rw [unity, beyond, ← pow_add]
  exact Nat.pow_lt_pow_right (by decide) (by omega)

lemma two_pow_mul_one_lt_beyond : 2 ^ 64 * unity < beyond := two_pow_mul_unity_lt_beyond (by decide)

/-- Rounding a whole number of units, given with an exponent of its own. -/
lemma measures_round_units {m : ℕ} {e : ℤ} (hm : m ≠ 0) (he : -1074 ≤ e) :
    Measures (UnpackedFloat.round Format.binary64 .positive m e)
      (nearest (m * 2 ^ (e + 1074).toNat) 1) := by
  rw [UnpackedFloat.round, decreaseExponent]
  dsimp only
  obtain ⟨t, ht⟩ : ∃ t, t = Format.binary64.targetExponent (totalExponent m e) := ⟨_, rfl⟩
  obtain ⟨k, hk⟩ : ∃ k : ℕ, k = (e - t).toNat := ⟨_, rfl⟩
  have hmin : -1074 ≤ t := ht ▸ le_max_right _ _
  rw [← ht, ← hk, Nat.shiftLeft_eq]
  have htotal : totalExponent (m * 2 ^ k) (e - k) = totalExponent m e := by
    rw [totalExponent, totalExponent, log2_mul_two_pow hm]
    omega
  have hunits : m * 2 ^ (e + 1074).toNat = m * 2 ^ k * 2 ^ (e - k + 1074).toNat := by
    rw [Nat.mul_assoc, ← pow_add]
    congr 2
    omega
  have hround := measures_roundWithAccuracy 0 (e - k + 1074).toNat
    (m := m * 2 ^ k) (e := e - k) (Nat.mul_ne_zero hm (by positivity)) (by omega)
    (by rw [htotal, ← ht]; omega)
  rwa [← hunits, pow_zero] at hround

lemma measures_ofNat (n : ℕ) : Measures (UnpackedFloat.ofNat Format.binary64 n) (nearest (n * unity) 1) := by
  rcases Nat.eq_zero_or_pos n with rfl | hn
  · rw [Nat.zero_mul, nearest_zero]
    exact .zero _
  · have hround : UnpackedFloat.ofNat Format.binary64 n = round Format.binary64 .positive n 0 := by
      rw [UnpackedFloat.ofNat, ofInt, UnpackedFloat.normalize, Int.compare_eq_gt.mpr (by omega)]
      rfl
    have hplace : (0 + 1074 : ℤ).toNat = unitPlace := unitPlace_eq.symm
    have hexact := measures_round_units hn.ne' (by decide : (-1074 : ℤ) ≤ 0)
    rwa [hplace, ← unity, ← hround] at hexact

lemma hasUnits_toFloat (n : UInt64) : HasUnits n.toFloat (nearest (n.toNat * unity) 1) :=
  hasUnits_pack (measures_ofNat n.toNat)
    ((nearest_whole_le n.toNat_lt).trans_lt two_pow_mul_one_lt_beyond)

lemma nearest_nearest_one (n : ℕ) : nearest (nearest (n * unity) 1 * unity) unity = nearest (n * unity) 1 :=
  nearest_of_representable unity_pos (representable_nearest Nat.one_pos)

lemma ofScientific_whole {n : ℕ} (hn : n ≠ 0) : Float.Model.ofScientific n 0 =
      .pack (roundWithAccuracy Format.binary64 .positive (n * 2 ^ 53) (-(53 : ℕ)) .exact) := by
  have hneg : ¬ (0 : ℤ) < -((2 ^ Format.binary64.exponentBits : ℤ) + n.log2) := by
    have : (0 : ℤ) ≤ 2 ^ Format.binary64.exponentBits := by positivity
    omega
  rw [Float.Model.ofScientific, UnpackedFloat.ofScientific, dif_neg hn, if_neg (by decide),
    if_neg hneg, if_pos le_rfl, UnpackedFloat.mul, Nat.shiftLeft_eq,
    Int.toNat_zero, pow_zero, Nat.mul_one]
  rfl

/-- A whole number below 2⁶⁴ becomes the nearest double. -/
theorem hasUnits_ofNat {n : ℕ} (h : n < 2 ^ 64) : HasUnits (Float.ofNat n) (nearest (n * unity) 1) := by
  by_cases hn : n < 2 ^ 53
  · -- Small numbers are converted exactly and multiplied by the power of ten, which is one.
    have hsmall : Float.ofNat n = n.toUInt64.toFloat * 1.0 := by
      change Float.ofScientific n false 0 = _
      rw [Float.ofScientific, dif_pos ⟨hn, by decide⟩]
      rfl
    have hword : n.toUInt64.toNat = n := Nat.mod_eq_of_lt h
    have hconv := hasUnits_toFloat n.toUInt64
    rw [hword] at hconv
    rw [hsmall, ← nearest_nearest_one n]
    refine hasUnits_mul hconv hasUnits_one ?_
    rw [nearest_nearest_one]
    exact (nearest_whole_le h).trans_lt two_pow_mul_one_lt_beyond
  · have hzero : n ≠ 0 := by rintro rfl; exact hn (by decide)
    have hlarge : Float.ofNat n = .ofModel (.pack (roundWithAccuracy Format.binary64 .positive
        (n * 2 ^ 53) (-(53 : ℕ)) .exact)) := by
      change Float.ofScientific n false 0 = _
      rw [Float.ofScientific, dif_neg (fun hh => hn hh.1), ← ofScientific_whole hzero]
      rfl
    rw [hlarge]
    refine hasUnits_pack (measures_whole hzero ?_)
      ((nearest_whole_le h).trans_lt two_pow_mul_one_lt_beyond)
    have hlog : 53 ≤ n.log2 := (Nat.le_log2 hzero).mpr (by omega)
    rw [totalExponent_mul_two_pow hzero, Format.targetExponent, mantissaBits_binary64]
    omega

lemma toNat_ofNatClamp (n : ℕ) : (UInt64.ofNatClamp n).toNat = min n (2 ^ 64 - 1) := by
  unfold UInt64.ofNatClamp
  split_ifs with h
  · have : n < 2 ^ 64 := h
    simp only [UInt64.toNat_ofNatLT]
    omega
  · have : ¬ n < 2 ^ 64 := h
    simp only [UInt64.toNat_ofNatLT]
    change 2 ^ 64 - 1 = _
    omega

lemma roundToInt_positive (m : ℕ) (e : ℤ) :
    roundToInt .positive m e = (m * 2 ^ e.toNat / 2 ^ (-e).toNat : ℕ) := by
  have hshift : (0 - (e - e.toNat)).toNat = (-e).toNat := by omega
  rw [roundToInt, decreaseExponent, Nat.shiftLeft_eq, Int.sub_zero]
  dsimp only [shiftToExponent]
  rw [mantissa_shiftRight, hshift]
  rfl

/-- Conversion to a whole number drops the units behind the point and stops at 2⁶⁴ - 1. -/
theorem HasUnits.toNat_toUInt64 {x : Float} {u : ℕ} (h : HasUnits x u) :
    x.toUInt64.toNat = min (u / unity) (2 ^ 64 - 1) := by
  change (x.toModel.unpack.toUInt64).toNat = _
  unfold HasUnits at h
  generalize x.toModel.unpack = a at h ⊢
  rw [UnpackedFloat.toUInt64, toNat_ofNatClamp]
  cases h with
  | zero s => simp [toInt]
  | @finite m e hs =>
    have hplace := unitPlace_eq
    have hle := hs.le
    rw [toInt, roundToInt_positive, Int.toNat_natCast]
    have hpow : unity = 2 ^ (-e).toNat * 2 ^ (unitPlace - (-e).toNat) := by
      rw [unity, ← pow_add]
      congr 1
      omega
    have hu : m * 2 ^ (e + 1074).toNat = m * 2 ^ e.toNat * 2 ^ (unitPlace - (-e).toNat) := by
      rw [Nat.mul_assoc, ← pow_add]
      congr 2
      omega
    rw [hpow, hu, Nat.mul_div_mul_right _ _ (by positivity)]

lemma le_iff {x y : Float} : x ≤ y ↔ x.toModel.unpack.le y.toModel.unpack = true := decide_eq_true_iff

lemma lt_iff {x y : Float} : x < y ↔ x.toModel.unpack.lt y.toModel.unpack = true := decide_eq_true_iff

protected lemma le_of_lt {x y : Float} (h : x < y) : x ≤ y := by
  rw [lt_iff, UnpackedFloat.lt] at h
  rw [le_iff, UnpackedFloat.le, eq_of_beq h]
  rfl

/-- Doubles from zero up to one are counted in units. -/
theorem exists_hasUnits {x : Float} (h : 0.0 ≤ x) (hle : x ≤ 1.0) : ∃ u, HasUnits x u := by
  rw [le_iff, unpack_zero] at h
  rw [le_iff, unpack_one] at hle
  unfold HasUnits
  cases hx : x.toModel.unpack with
  | notANumber => rw [hx] at h; cases h
  | infinity s => rw [hx] at h hle; cases s <;> contradiction
  | zero s => exact ⟨0, .zero s⟩
  | finite s m e hm =>
    cases s with
    | negative => rw [hx] at h; cases h
    | positive => exact ⟨_, .finite (stored_of_unpack hx)⟩

/-- Below one a double falls short of it by 2⁻⁵³ or more. -/
theorem HasUnits.of_lt_one {x : Float} {u : ℕ} (h : HasUnits x u) (hlt : x < 1.0) :
    u * 2 ^ 53 + unity ≤ 2 ^ 53 * unity := by
  have hone := unity_pos
  rw [lt_iff, unpack_one] at hlt
  unfold HasUnits at h
  generalize x.toModel.unpack = a at h hlt
  cases h with
  | zero s => omega
  | @finite m e hs =>
    have hcompare : (compare e (-52)).then (compare m (2 ^ 52)) = .lt := by
      simpa [UnpackedFloat.lt, UnpackedFloat.compare] using hlt
    rw [Ordering.then_eq_lt, compare_lt_iff_lt, compare_eq_iff_eq, compare_lt_iff_lt] at hcompare
    have he : e ≤ -53 := by
      have := hs.leading
      omega
    have hplace := unitPlace_eq
    have hm := hs.lt
    have hpow : 2 ^ 53 * 2 ^ (e + 1074).toNat ≤ unity := by
      rw [unity, ← pow_add]
      exact Nat.pow_le_pow_right (by decide) (by omega)
    nlinarith

theorem HasUnits.zero_lt_iff {x : Float} {u : ℕ} (h : HasUnits x u) : 0.0 < x ↔ u ≠ 0 := by
  rw [lt_iff, unpack_zero]
  unfold HasUnits at h
  generalize x.toModel.unpack = a at h
  cases h with
  | zero s => simp [UnpackedFloat.lt, UnpackedFloat.compare]
  | finite hs => simp [UnpackedFloat.lt, UnpackedFloat.compare, hs.pos.ne']

theorem HasUnits.eq_zero_iff {x : Float} {u : ℕ} (h : HasUnits x u) : (x == 0.0) = true ↔ u = 0 := by
  change x.toModel.unpack.beq (Float.toModel 0.0).unpack = true ↔ _
  rw [unpack_zero]
  unfold HasUnits at h
  generalize x.toModel.unpack = a at h
  cases h with
  | zero s => simp [UnpackedFloat.beq, UnpackedFloat.compare]
  | finite hs => simp [UnpackedFloat.beq, UnpackedFloat.compare, hs.pos.ne']

/-- What is left of zero: zero, of either sign, or no number. -/
def Vanishes (f : UnpackedFloat) : Prop := f = .notANumber ∨ ∃ s, f = .zero s

lemma Vanishes.pack {f : UnpackedFloat} (h : Vanishes f) :
    Vanishes (Float.ofModel (.pack f)).toModel.unpack := by
  rcases h with rfl | ⟨s, rfl⟩
  · exact .inl rfl
  · exact .inr ⟨s, by cases s <;> rfl⟩

/-- No whole number is left of it. -/
lemma Vanishes.toUInt64 {x : Float} (h : Vanishes x.toModel.unpack) : x.toUInt64 = 0 := by
  change x.toModel.unpack.toUInt64 = 0
  rcases h with h | ⟨s, h⟩
  · rw [h]
    rfl
  · rw [h]
    rfl

lemma HasUnits.vanishes {x : Float} (h : HasUnits x 0) : Vanishes x.toModel.unpack := by
  unfold HasUnits at h
  generalize x.toModel.unpack = a at h
  generalize hu : 0 = u at h
  cases h with
  | zero s => exact .inr ⟨s, rfl⟩
  | finite hs => exact absurd hu (Nat.mul_pos hs.pos (by positivity)).ne

lemma Vanishes.mul_left {x : Float} (h : Vanishes x.toModel.unpack) (y : Float) :
    Vanishes (x * y).toModel.unpack := by
  refine Vanishes.pack (f := UnpackedFloat.mul Format.binary64 x.toModel.unpack y.toModel.unpack) ?_
  rcases h with h | ⟨s, h⟩ <;> rw [h] <;> cases y.toModel.unpack <;> simp [Vanishes, UnpackedFloat.mul]

lemma Vanishes.mul_right {x : Float} (h : Vanishes x.toModel.unpack) (y : Float) :
    Vanishes (y * x).toModel.unpack := by
  refine Vanishes.pack (f := UnpackedFloat.mul Format.binary64 y.toModel.unpack x.toModel.unpack) ?_
  rcases h with h | ⟨s, h⟩ <;> rw [h] <;> cases y.toModel.unpack <;> simp [Vanishes, UnpackedFloat.mul]

lemma Vanishes.div {x : Float} (h : Vanishes x.toModel.unpack) (y : Float) :
    Vanishes (x / y).toModel.unpack := by
  refine Vanishes.pack (f := UnpackedFloat.div Format.binary64 x.toModel.unpack y.toModel.unpack) ?_
  rcases h with h | ⟨s, h⟩ <;> rw [h] <;> cases y.toModel.unpack <;> simp [Vanishes, UnpackedFloat.div]

/-- Whatever is multiplied by zero, no whole number is left. -/
theorem HasUnits.toUInt64_mul_zero {x : Float} (h : HasUnits x 0) (y : Float) :
    (y * x).toUInt64 = 0 :=
  (h.vanishes.mul_right y).toUInt64

end PairDatasets.Double
