import PairDatasets.Proofs.Double.Operations

/-! Sums of doubles that are not negative, in units of 2⁻¹⁰⁷⁴, and how far rounding moves a result that is
not subnormal. -/
namespace PairDatasets.Double
open PairDatasets.Decimal
open Float.Model (Format UnpackedFloat totalExponent)
open Float.Model.UnpackedFloat

lemma Measures.representable {f : UnpackedFloat} {u : ℕ} (h : Measures f u) : Representable u := by
  cases h with
  | zero => exact ⟨0, 0, by decide, rfl⟩
  | finite hs => exact ⟨_, _, hs.lt, rfl⟩

/-- A sum of doubles is the nearest double. -/
theorem hasUnits_add {x y : Float} {u v : ℕ} (hx : HasUnits x u) (hy : HasUnits y v)
    (h : nearest (u + v) 1 < beyond) : HasUnits (x + y) (nearest (u + v) 1) := by
  refine hasUnits_pack ?_ h
  unfold HasUnits at hx hy
  generalize x.toModel.unpack = a at hx ⊢
  generalize y.toModel.unpack = b at hy ⊢
  have hexact {w : ℕ} (hw : Representable w) : nearest w 1 = w := by
    simpa using nearest_of_representable Nat.one_pos hw
  cases hx with
  | zero s =>
    rw [Nat.zero_add, hexact hy.representable]
    cases hy with
    | zero t => cases s <;> cases t <;> exact .zero _
    | finite ht => exact .finite ht
  | @finite m e hs =>
    have hs' := Measures.finite hs
    cases hy with
    | zero t =>
      rw [Nat.add_zero, hexact hs'.representable]
      exact hs'
    | @finite n d ht =>
      have he := hs.le
      have hd := ht.le
      obtain ⟨low, hlow⟩ : ∃ low, low = min e d := ⟨_, rfl⟩
      obtain ⟨j, hj⟩ : ∃ j : ℕ, j = (e - low).toNat := ⟨_, rfl⟩
      obtain ⟨k, hk⟩ : ∃ k : ℕ, k = (d - low).toNat := ⟨_, rfl⟩
      have hpos : 0 < m * 2 ^ j + n * 2 ^ k := Nat.add_pos_left (Nat.mul_pos hs.pos (by positivity)) _
      have hadd : UnpackedFloat.add Format.binary64 (.finite .positive m e hs.pos)
          (.finite .positive n d ht.pos) =
            UnpackedFloat.round Format.binary64 .positive (m * 2 ^ j + n * 2 ^ k) low := by
        simp only [UnpackedFloat.add, decreaseExponent, ← hlow, ← hj, ← hk, Nat.shiftLeft_eq,
          Sign.apply, UnpackedFloat.normalize]
        rw [← Int.natCast_add, Int.compare_eq_gt.mpr (by omega), Int.toNat_natCast]
      have hunits : m * 2 ^ (e + 1074).toNat + n * 2 ^ (d + 1074).toNat =
          (m * 2 ^ j + n * 2 ^ k) * 2 ^ (low + 1074).toNat := by
        rw [Nat.add_mul, Nat.mul_assoc, Nat.mul_assoc, ← pow_add, ← pow_add]
        congr 3 <;> omega
      rw [hunits]
      change Measures (UnpackedFloat.add Format.binary64 _ _) _
      rw [hadd]
      exact measures_round_units hpos.ne' (by omega)

/-- Adding to zero changes nothing. -/
theorem hasUnits_zero_add {x : Float} {u : ℕ} (hx : HasUnits x u) (h : u < beyond) :
    HasUnits (Float.ofNat 0 + x) u := by
  have hzero : HasUnits (Float.ofNat 0) 0 := .zero .positive
  have hexact : nearest (0 + u) 1 = u := by
    simpa using nearest_of_representable Nat.one_pos (Measures.representable hx)
  have hsum := hasUnits_add hzero hx (by rwa [hexact])
  rwa [hexact] at hsum

/-- The first number differs from the second by at most the part 2⁻⁵³ of it. -/
structure Near (a b : ℕ) : Prop where
  le : a * 2 ^ 53 ≤ b * 2 ^ 53 + b
  ge : b * 2 ^ 53 ≤ a * 2 ^ 53 + b

namespace Near
variable {a b c : ℕ}

lemma refl (a : ℕ) : Near a a := ⟨Nat.le_add_right _ _, Nat.le_add_right _ _⟩

lemma mul_left (h : Near a b) (c : ℕ) : Near (c * a) (c * b) := by
  have hle := Nat.mul_le_mul_left c h.le
  have hge := Nat.mul_le_mul_left c h.ge
  constructor <;> linarith

lemma of_mul_left (hc : 0 < c) (h : Near (c * a) (c * b)) : Near a b := by
  refine ⟨Nat.le_of_mul_le_mul_left ?_ hc, Nat.le_of_mul_le_mul_left ?_ hc⟩
  · linarith [h.le]
  · linarith [h.ge]

end Near

/-- Rounding moves a quotient that is not subnormal by at most half of its last place. -/
theorem near_nearest {num den : ℕ} (hd : 0 < den) (h : 0 < excess (num / den)) :
    Near (nearest num den * den) num := by
  obtain ⟨place, hplace⟩ : ∃ place, place = den * 2 ^ excess (num / den) := ⟨_, rfl⟩
  have hpos : 0 < place := by
    rw [hplace]
    positivity
  have hfull : 2 ^ 52 * place ≤ num := by
    have hq := (Nat.le_div_iff_mul_le hd).mp (le_of_excess_pos h)
    rw [pow_add] at hq
    calc 2 ^ 52 * place = 2 ^ 52 * 2 ^ excess (num / den) * den := by rw [hplace]; ring
      _ ≤ num := hq
  have hval : nearest num den * den = roundDiv .even num place * place := by
    rw [hplace, nearest, significand]
    ring
  have hnear : 2 * num ≤ 2 * (roundDiv .even num place * place) + place ∧
    2 * (roundDiv .even num place * place) ≤ 2 * num + place := roundDiv_near hpos
  rw [hval]
  constructor <;> omega

/-- Whole units are moved only where they have more than 53 digits. -/
theorem near_nearest_one (num : ℕ) : Near (nearest num 1) num := by
  rcases Nat.eq_zero_or_pos (excess num) with hzero | hpos
  · have hlt := lt_of_excess num
    rw [hzero] at hlt
    have hexact := nearest_of_representable Nat.one_pos (g := num) ⟨num, 0, hlt, by simp⟩
    rw [Nat.mul_one] at hexact
    rw [hexact]
    exact .refl num
  · rw [← Nat.div_one num] at hpos
    have hnear := near_nearest Nat.one_pos hpos
    rwa [Nat.mul_one] at hnear

end PairDatasets.Double
