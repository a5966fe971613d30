import PairDatasets.Proofs.Double.Operations

/-! Doubles at zero and one: the whole as a bound of fractions, quotients of zero, and differences of equal
doubles. -/
namespace PairDatasets.Double
open Float.Model (Format UnpackedFloat)
open Float.Model.UnpackedFloat

lemma unpack_half : (0.5 : Float).toModel.unpack = .finite .positive (2 ^ 52) (-53) (by decide) := rfl

lemma beyond_pos : 0 < beyond := by unfold beyond; positivity

/-- What reaches one is not rounded below it. -/
lemma unity_le_nearest {n : ℕ} (hn : unity ≤ n) : unity ≤ nearest n 1 :=
  le_nearest Nat.one_pos representable_unity (by rwa [Nat.mul_one])

lemma unity_le_whole {n : ℕ} (hn : 0 < n) : unity ≤ nearest (n * unity) 1 :=
  unity_le_nearest (Nat.le_mul_of_pos_left _ hn)

/-- No units, of either sign. -/
lemma Measures.exists_zero {f : UnpackedFloat} (h : Measures f 0) : ∃ s, f = .zero s := by
  generalize hu : 0 = u at h
  cases h with
  | zero s => exact ⟨s, rfl⟩
  | finite hs => exact absurd hu (Nat.mul_pos hs.pos (by positivity)).ne

/-- Doubles up to one have no more units than one. -/
theorem HasUnits.le_unity {x : Float} {u : ℕ} (h : HasUnits x u) (hle : x ≤ 1.0) : u ≤ unity := by
  rw [le_iff, unpack_one] at hle
  unfold HasUnits at h
  generalize x.toModel.unpack = a at h hle
  cases h with
  | zero s => exact Nat.zero_le _
  | @finite m e hs =>
    have hcompare : ((compare e (-52)).then (compare m (2 ^ 52))).isLE = true := hle
    rw [Ordering.isLE_then_iff_or, compare_lt_iff_lt, compare_eq_iff_eq, Nat.isLE_compare] at hcompare
    have hplace := unitPlace_eq
    rcases hcompare with hlow | ⟨rfl, hm⟩
    · calc m * 2 ^ (e + 1074).toNat ≤ 2 ^ 53 * 2 ^ (e + 1074).toNat := Nat.mul_le_mul_right _ hs.lt.le
        _ = 2 ^ (53 + (e + 1074).toNat) := (pow_add ..).symm
        _ ≤ unity := Nat.pow_le_pow_right (by decide) (by omega)
    · calc m * 2 ^ (-52 + 1074 : ℤ).toNat ≤ 2 ^ 52 * 2 ^ (-52 + 1074 : ℤ).toNat :=
            Nat.mul_le_mul_right _ hm
        _ = 2 ^ (52 + (-52 + 1074 : ℤ).toNat) := (pow_add ..).symm
        _ ≤ unity := Nat.pow_le_pow_right (by decide) (by omega)

/-- Nothing divided by something is nothing. -/
theorem hasUnits_zero_div {x y : Float} {v : ℕ} (hx : HasUnits x 0) (hy : HasUnits y v) (hv : 0 < v) :
    HasUnits (x / y) 0 := by
  refine hasUnits_pack ?_ beyond_pos
  obtain ⟨s, hzero⟩ := Measures.exists_zero hx
  unfold HasUnits at hy
  rw [hzero]
  generalize y.toModel.unpack = b at hy ⊢
  cases hy with
  | zero => exact absurd hv (Nat.lt_irrefl 0)
  | finite => exact .zero _

lemma units_eq_mul (m : ℕ) {e low : ℤ} (hlow : -1074 ≤ low) (hle : low ≤ e) :
    m * 2 ^ (e + 1074).toNat = m * 2 ^ (e - low).toNat * 2 ^ (low + 1074).toNat := by
  rw [Nat.mul_assoc, ← pow_add]
  congr 2
  omega

/-- A double taken from an equal one leaves nothing. -/
theorem hasUnits_sub_self {x y : Float} {u : ℕ} (hx : HasUnits x u) (hy : HasUnits y u) :
    HasUnits (x - y) 0 := by
  refine hasUnits_pack ?_ beyond_pos
  unfold HasUnits at hx hy
  generalize x.toModel.unpack = a at hx ⊢
  generalize y.toModel.unpack = b at hy ⊢
  cases hx with
  | zero s =>
    obtain ⟨t, rfl⟩ := hy.exists_zero
    cases s <;> cases t <;> exact .zero _
  | @finite m e hs =>
    generalize hu : m * 2 ^ (e + 1074).toNat = u at hy
    cases hy with
    | zero t => exact absurd hu (Nat.mul_pos hs.pos (by positivity)).ne'
    | @finite n d ht =>
      -- the mantissas are aligned to the lower exponent, where they are equal
      have hlow : -1074 ≤ min e d := le_min hs.le ht.le
      rw [units_eq_mul m hlow (min_le_left e d), units_eq_mul n hlow (min_le_right e d)] at hu
      have hequal := Nat.eq_of_mul_eq_mul_right (by positivity) hu
      have hsub : UnpackedFloat.sub Format.binary64 (.finite .positive m e hs.pos)
          (.finite .positive n d ht.pos) = .zero .positive := by
        simp only [UnpackedFloat.sub, decreaseExponent, Nat.shiftLeft_eq, Sign.apply,
          UnpackedFloat.normalize]
        rw [hequal, Int.sub_self]
        rfl
      change Measures (UnpackedFloat.sub Format.binary64 _ _) _
      rw [hsub]
      exact .zero _

/-- The difference of equal doubles does not reach a half. -/
theorem not_half_le_sub {x y : Float} {u : ℕ} (hx : HasUnits x u) (hy : HasUnits y u) :
    ¬ (0.5 : Float) ≤ x - y := by
  obtain ⟨s, hzero⟩ := Measures.exists_zero (hasUnits_sub_self hx hy)
  rw [le_iff, unpack_half, hzero]
  simp [UnpackedFloat.le, UnpackedFloat.compare]

end PairDatasets.Double
