import Mathlib

/-! Bits of doubles and what they stand for. A finite double is a mantissa below 2⁵³ and an exponent
from -1074 on, with a leading bit unless the exponent is the lowest. Taking the bits of such a pair
apart gives the pair back. -/
namespace PairDatasets.Double
open Float.Model (Format UnpackedFloat)
open Float.Model.UnpackedFloat

/-- Mantissa and exponent in the form in which a double holds them. -/
structure Stored (m : ℕ) (e : ℤ) : Prop where
  pos : 0 < m
  lt : m < 2 ^ 53
  le : -1074 ≤ e
  leading : 2 ^ 52 ≤ m ∨ e = -1074

lemma exponentBias_binary64 : Format.binary64.exponentBias = 1023 := rfl
lemma mantissaBits_binary64 : Format.binary64.mantissaBits = 53 := rfl
lemma minExponent_binary64 : Format.binary64.minExponent = -1074 := rfl

lemma toNat_leading (m : BitVec 52) : (1#1 ++ m).toNat = 2 ^ 52 + m.toNat := by
  rw [BitVec.toNat_append, ← Nat.shiftLeft_add_eq_or_of_lt m.isLt]
  simp [Nat.shiftLeft_eq]

lemma toNat_ne {w : ℕ} {a b : BitVec w} (h : a ≠ b) : a.toNat ≠ b.toNat :=
  fun e => h (BitVec.eq_of_toNat_eq e)

lemma ofNat_ne {w k : ℕ} {a : BitVec w} (hk : k < 2 ^ w) (h : k ≠ a.toNat) : BitVec.ofNat w k ≠ a := by
  rintro rfl
  rw [BitVec.toNat_ofNat, Nat.mod_eq_of_lt hk] at h
  exact h rfl

/-- What is taken apart is in stored form. -/
theorem stored_of_unpack {x : Float.Model} {s : Sign} {m : ℕ} {e : ℤ} {hm : 0 < m}
    (h : x.unpack = .finite s m e hm) : Stored m e := by
  have hfraction : (@unpackMantissa Format.binary64 x.toBits.toBitVec).toNat < 2 ^ 52 :=
    BitVec.isLt _
  have hbias := exponentBias_binary64
  unfold Float.Model.unpack UnpackedFloat.unpack at h
  dsimp only at h
  split_ifs at h with hfull hnone hzero hnone
  · obtain ⟨-, rfl, rfl⟩ := UnpackedFloat.finite.injEq .. ▸ h
    rw [hzero] at *
    exact ⟨hm, by omega, by simp; omega, .inr (by simp; omega)⟩
  · obtain ⟨-, rfl, rfl⟩ := UnpackedFloat.finite.injEq .. ▸ h
    have hz := toNat_ne hzero
    rw [toNat_leading] at *
    exact ⟨hm, by omega, by simp at hz; omega, .inl (by omega)⟩

lemma unpack_normal (b : BitVec 11) (f : BitVec 52) (hb : b ≠ 0#11) (hb' : b ≠ -1#11) :
    UnpackedFloat.unpack Format.binary64 (packComponents Format.binary64 .positive b f) =
      .finite .positive (1#1 ++ f).toNat (b.toNat - 1075) (by rw [toNat_leading]; omega) := by
  rw [UnpackedFloat.unpack]
  simp only [unpackExponent_packComponents, unpackMantissa_packComponents, unpackSign_packComponents,
    Sign.ofBitVec_toBitVec, if_neg hb', if_neg hb]
  rfl

lemma unpack_subnormal (f : BitVec 52) (hf : f ≠ 0#52) :
    UnpackedFloat.unpack Format.binary64 (packComponents Format.binary64 .positive 0#11 f) =
      .finite .positive f.toNat (-1074) (Nat.pos_of_ne_zero (toNat_ne hf)) := by
  rw [UnpackedFloat.unpack]
  simp only [unpackExponent_packComponents, unpackMantissa_packComponents, unpackSign_packComponents,
    Sign.ofBitVec_toBitVec]
  rw [if_neg (by decide), if_pos trivial, dif_neg hf]
  rfl

/-- A pair in stored form is taken apart again as it was put together. -/
theorem unpack_pack {m : ℕ} {e : ℤ} (h : Stored m e) (he : e ≤ 971) :
    (Float.Model.pack (.finite .positive m e h.pos)).unpack = .finite .positive m e h.pos := by
  obtain ⟨hpos, hlt, hle, hleading⟩ := h
  obtain ⟨b, hb⟩ : ∃ b : ℕ, e + Format.binary64.exponentBias + (52 : ℕ) = b :=
    ⟨(e + 1075).toNat, by rw [exponentBias_binary64]; omega⟩
  have hbias := exponentBias_binary64
  have hfield : (BitVec.ofNat 11 b).toNat = b := by rw [BitVec.toNat_ofNat]; omega
  have hfraction : (BitVec.ofNat 52 m).toNat = m % 2 ^ 52 := BitVec.toNat_ofNat ..
  change UnpackedFloat.unpack Format.binary64 (UnpackedFloat.pack Format.binary64 _) = _
  simp only [UnpackedFloat.pack, hb, Int.toNat_natCast, mantissaBits_binary64]
  rw [if_neg (by omega)]
  by_cases hm : 2 ^ 52 ≤ m
  · -- The exponent field is neither empty nor full, so the leading bit comes back.
    have hlog : m.log2 = 52 := (Nat.log2_eq_iff hpos.ne').mpr ⟨hm, hlt⟩
    have hzero : BitVec.ofNat 11 b ≠ 0#11 := ofNat_ne (by omega) (by rw [BitVec.toNat_zero]; omega)
    have hfull : BitVec.ofNat 11 b ≠ -1#11 := ofNat_ne (by omega) (by change b ≠ 2047; omega)
    rw [if_pos (by rw [hlog]), unpack_normal _ _ hzero hfull]
    congr 1
    · rw [toNat_leading]; omega
    · omega
  · have hlog : m.log2 < 52 := (Nat.log2_lt hpos.ne').mpr (by omega)
    have hnone : BitVec.ofNat 52 m ≠ 0#52 :=
      ofNat_ne (by omega) (by rw [BitVec.toNat_zero]; exact hpos.ne')
    rw [if_neg (by omega), unpack_subnormal _ hnone]
    congr 1
    · omega
    · exact (hleading.resolve_left hm).symm

end PairDatasets.Double
