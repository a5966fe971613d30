import PairDatasets.Proofs.Double.Sum

/-! Relative errors of several roundings after each other. One rounding moves a number by at most the part 2⁻⁵³
of it; errors of some such parts add up, one more part covering their product, and a sum keeps the error of its
terms. -/
namespace PairDatasets.Double

/-- The first number differs from the second by at most `c` parts 2⁻⁵³ of it. -/
structure Close (c a b : ℕ) : Prop where
  le : a * 2 ^ 53 ≤ b * (2 ^ 53 + c)
  ge : b * 2 ^ 53 ≤ a * 2 ^ 53 + c * b

lemma Near.close {a b : ℕ} (h : Near a b) : Close 1 a b := by
  refine ⟨?_, ?_⟩
  · linarith [h.le]
  · linarith [h.ge]

namespace Close
variable {a a' b b' c d e : ℕ}

lemma zero (c : ℕ) : Close c 0 0 := ⟨by simp, by simp⟩

/-- Errors add up, and their product is less than one part. -/
lemma trans (h : Close c a b) (k : Close d b e) (hcd : c * d ≤ 2 ^ 53) : Close (c + d + 1) a e := by
  constructor
  · have hfactor : (2 ^ 53 + d) * (2 ^ 53 + c) ≤ 2 ^ 53 * (2 ^ 53 + (c + d + 1)) := by linarith
    refine Nat.le_of_mul_le_mul_right ?_ (Nat.two_pow_pos 53)
    calc a * 2 ^ 53 * 2 ^ 53 ≤ b * (2 ^ 53 + c) * 2 ^ 53 := Nat.mul_le_mul_right _ h.le
      _ = b * 2 ^ 53 * (2 ^ 53 + c) := Nat.mul_right_comm _ _ _
      _ ≤ e * (2 ^ 53 + d) * (2 ^ 53 + c) := Nat.mul_le_mul_right _ k.le
      _ = e * ((2 ^ 53 + d) * (2 ^ 53 + c)) := Nat.mul_assoc _ _ _
      _ ≤ e * (2 ^ 53 * (2 ^ 53 + (c + d + 1))) := Nat.mul_le_mul_left _ hfactor
      _ = e * (2 ^ 53 + (c + d + 1)) * 2 ^ 53 := by ring
  · have hmiddle : c * b ≤ (c + 1) * e := by
      refine Nat.le_of_mul_le_mul_right ?_ (Nat.two_pow_pos 53)
      calc c * b * 2 ^ 53 = c * (b * 2 ^ 53) := Nat.mul_assoc _ _ _
        _ ≤ c * (e * (2 ^ 53 + d)) := Nat.mul_le_mul_left _ k.le
        _ = c * e * 2 ^ 53 + c * d * e := by ring
        _ ≤ c * e * 2 ^ 53 + 2 ^ 53 * e := Nat.add_le_add_left (Nat.mul_le_mul_right _ hcd) _
        _ = (c + 1) * e * 2 ^ 53 := by ring
    linarith [h.ge, k.ge]

/-- Seen from the other number an error of one part is at most two. -/
lemma symm (h : Close 1 a b) : Close 2 b a := by
  have hdouble : b ≤ 2 * a := by linarith [h.ge]
  constructor
  · linarith [h.ge]
  · linarith [h.le]

lemma mul_left (h : Close c a b) (k : ℕ) : Close c (k * a) (k * b) := by
  constructor
  · linarith [Nat.mul_le_mul_left k h.le]
  · linarith [Nat.mul_le_mul_left k h.ge]

lemma of_mul_left {k : ℕ} (hk : 0 < k) (h : Close c (k * a) (k * b)) : Close c a b := by
  refine ⟨Nat.le_of_mul_le_mul_left ?_ hk, Nat.le_of_mul_le_mul_left ?_ hk⟩
  · linarith [h.le]
  · linarith [h.ge]

lemma add (h : Close c a b) (h' : Close c a' b') : Close c (a + a') (b + b') := by
  constructor
  · linarith [h.le, h'.le]
  · linarith [h.ge, h'.ge]

end Close

end PairDatasets.Double
