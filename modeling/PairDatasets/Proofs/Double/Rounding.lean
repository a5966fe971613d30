import Mathlib.Algebra.Order.Ring.Nat
import Mathlib.Tactic.Linarith
import Mathlib.Tactic.Ring
import PairDatasets.Decimal.Binary

/-! Rounding to 53 binary digits, on natural numbers. Every finite double that is not negative is a
whole number of units of 2⁻¹⁰⁷⁴, so an exact result is a quotient of units and its double is the
nearest number of units with at most 53 digits in front of its zeros. -/
namespace PairDatasets.Double
open PairDatasets.Decimal

lemma roundDiv_le {tie : Tie} {num den g : ℕ} (hd : 0 < den) (h : num ≤ g * den) :
    roundDiv tie num den ≤ g := by
  have hn : 2 * (roundDiv tie num den * den) ≤ 2 * num + den := (roundDiv_near hd).2
  by_contra hg
  have hg' : (g + 1) * den ≤ roundDiv tie num den * den := Nat.mul_le_mul_right _ (by omega)
  rw [Nat.add_mul] at hg'
  omega

lemma le_roundDiv {tie : Tie} {num den g : ℕ} (hd : 0 < den) (h : g * den ≤ num) :
    g ≤ roundDiv tie num den := by
  have hn : 2 * num ≤ 2 * (roundDiv tie num den * den) + den := (roundDiv_near hd).1
  by_contra hg
  have hg' : (roundDiv tie num den + 1) * den ≤ g * den := Nat.mul_le_mul_right _ (by omega)
  rw [Nat.add_mul] at hg'
  omega

lemma roundDiv_mul_right (tie : Tie) (num den : ℕ) {c : ℕ} (hc : 0 < c) :
    roundDiv tie (num * c) (den * c) = roundDiv tie num den := by
  have hmod : 2 * (num * c % (den * c)) = 2 * (num % den) * c := by
    rw [Nat.mul_mod_mul_right, Nat.mul_assoc]
  simp only [roundDiv, Nat.mul_div_mul_right _ _ hc, hmod, Nat.mul_lt_mul_right hc]

/-- How many binary digits of a whole number do not fit into 53. -/
def excess (q : ℕ) : ℕ := q.log2 - 52

lemma lt_of_excess (q : ℕ) : q < 2 ^ (53 + excess q) :=
  Nat.lt_log2_self.trans_le (Nat.pow_le_pow_right (by decide) (by unfold excess; omega))

lemma le_of_excess_pos {q : ℕ} (h : 0 < excess q) : 2 ^ (52 + excess q) ≤ q := by
  have hq : q ≠ 0 := by rintro rfl; simp [excess] at h
  have he : 52 + excess q = q.log2 := by unfold excess at h ⊢; omega
  rw [he]
  exact Nat.log2_self_le hq

lemma excess_pos {q : ℕ} (h : 2 ^ 53 ≤ q) : 0 < excess q := by
  have hlog : 53 ≤ q.log2 := (Nat.le_log2 (by omega)).mpr h
  unfold excess
  omega

/-- The digits that are kept of `num / den` units. -/
def significand (num den : ℕ) : ℕ := roundDiv .even num (den * 2 ^ excess (num / den))

/-- `num / den` units rounded to 53 binary digits, a half to the even neighbour. -/
def nearest (num den : ℕ) : ℕ := significand num den * 2 ^ excess (num / den)

/-- Whole numbers with at most 53 binary digits in front of their zeros. -/
def Representable (g : ℕ) : Prop := ∃ m s, m < 2 ^ 53 ∧ g = m * 2 ^ s

lemma representable_two_pow (k : ℕ) : Representable (2 ^ k) := ⟨1, k, by decide, (Nat.one_mul _).symm⟩

lemma significand_le {num den : ℕ} (hd : 0 < den) : significand num den ≤ 2 ^ 53 := by
  refine roundDiv_le (by positivity) ?_
  have hq := (Nat.div_lt_iff_lt_mul hd).mp (lt_of_excess (num / den))
  rw [pow_add] at hq
  calc num ≤ 2 ^ 53 * 2 ^ excess (num / den) * den := hq.le
    _ = 2 ^ 53 * (den * 2 ^ excess (num / den)) := by ring

lemma le_significand {num den : ℕ} (hd : 0 < den) (h : 0 < excess (num / den)) :
    2 ^ 52 ≤ significand num den := by
  refine le_roundDiv (by positivity) ?_
  have hq := (Nat.le_div_iff_mul_le hd).mp (le_of_excess_pos h)
  rw [pow_add] at hq
  calc 2 ^ 52 * (den * 2 ^ excess (num / den)) = 2 ^ 52 * 2 ^ excess (num / den) * den := by ring
    _ ≤ num := hq

theorem nearest_mul_right (num den : ℕ) {c : ℕ} (hc : 0 < c) :
    nearest (num * c) (den * c) = nearest num den := by
  have hs (s : ℕ) : den * c * 2 ^ s = den * 2 ^ s * c := by ring
  simp only [nearest, significand, Nat.mul_div_mul_right _ _ hc, hs, roundDiv_mul_right _ _ _ hc]

theorem representable_nearest {num den : ℕ} (hd : 0 < den) : Representable (nearest num den) := by
  have hle : significand num den ≤ 2 ^ 53 := significand_le hd
  rcases hle.lt_or_eq with h | h
  · exact ⟨_, _, h, rfl⟩
  · refine ⟨2 ^ 52, excess (num / den) + 1, by decide, ?_⟩
    rw [nearest, h, pow_succ]
    ring

lemma exists_significand {num den : ℕ} (hd : 0 < den) (h : 0 < excess (num / den)) :
    ∃ m j, 2 ^ 52 ≤ m ∧ m < 2 ^ 53 ∧ nearest num den = m * 2 ^ (j + 1) := by
  rcases (significand_le hd : significand num den ≤ 2 ^ 53).lt_or_eq with hlt | htop
  · refine ⟨significand num den, excess (num / den) - 1, le_significand hd h, hlt, ?_⟩
    rw [Nat.sub_add_cancel h, nearest]
  · refine ⟨2 ^ 52, excess (num / den), le_rfl, by decide, ?_⟩
    rw [nearest, htop, pow_succ]
    ring

/-- Rounding does not pass a representable number. -/
theorem nearest_le {num den g : ℕ} (hd : 0 < den) (hg : Representable g) (h : num ≤ g * den) :
    nearest num den ≤ g := by
  obtain ⟨m, j, hm, rfl⟩ := hg
  set s := excess (num / den) with hs
  rcases le_or_gt s j with hj | hj
  · have hp : m * 2 ^ j = m * 2 ^ (j - s) * 2 ^ s := by
      rw [Nat.mul_assoc, ← pow_add, Nat.sub_add_cancel hj]
    rw [nearest, ← hs, hp]
    refine Nat.mul_le_mul_right _ (roundDiv_le (by positivity) ?_)
    calc num ≤ m * 2 ^ j * den := h
      _ = m * 2 ^ (j - s) * (den * 2 ^ s) := by rw [hp]; ring
  · -- A number with a smaller excess lies below the binade of the quotient.
    exfalso
    have hq : 2 ^ (52 + s) ≤ num / den := le_of_excess_pos (by omega)
    have hle : num / den ≤ m * 2 ^ j := Nat.div_le_of_le_mul (by rwa [Nat.mul_comm])
    have hlt : m * 2 ^ j < 2 ^ 53 * 2 ^ j := Nat.mul_lt_mul_of_pos_right hm (by positivity)
    have hpow : 2 ^ (53 + j) ≤ 2 ^ (52 + s) := Nat.pow_le_pow_right (by decide) (by omega)
    rw [pow_add] at hpow
    omega

lemma excess_le_of_lt {q j : ℕ} (h : q < 2 ^ (53 + j)) : excess q ≤ j := by
  by_contra hj
  have hle : 2 ^ (53 + j) ≤ 2 ^ (52 + excess q) := Nat.pow_le_pow_right (by decide) (by omega)
  have hq : 2 ^ (52 + excess q) ≤ q := le_of_excess_pos (by omega)
  omega

/-- Rounding does not pass a representable number from above either. -/
theorem le_nearest {num den g : ℕ} (hd : 0 < den) (hg : Representable g) (h : g * den ≤ num) :
    g ≤ nearest num den := by
  obtain ⟨m, j, hm, rfl⟩ := hg
  set s := excess (num / den) with hs
  rcases le_or_gt s j with hj | hj
  · have hp : m * 2 ^ j = m * 2 ^ (j - s) * 2 ^ s := by
      rw [Nat.mul_assoc, ← pow_add, Nat.sub_add_cancel hj]
    rw [nearest, ← hs, hp]
    refine Nat.mul_le_mul_right _ (le_roundDiv (by positivity) ?_)
    calc m * 2 ^ (j - s) * (den * 2 ^ s) = m * 2 ^ (j - s) * 2 ^ s * den := by ring
      _ = m * 2 ^ j * den := by rw [hp]
      _ ≤ num := h
  · have hfull : 2 ^ 52 ≤ significand num den := le_significand hd (hs ▸ by omega)
    calc m * 2 ^ j ≤ 2 ^ 53 * 2 ^ j := Nat.mul_le_mul_right _ hm.le
      _ = 2 ^ (53 + j) := (pow_add 2 53 j).symm
      _ ≤ 2 ^ (52 + s) := Nat.pow_le_pow_right (by decide) (by omega)
      _ = 2 ^ 52 * 2 ^ s := pow_add 2 52 s
      _ ≤ nearest num den := Nat.mul_le_mul_right _ hfull

/-- Representable numbers stay what they are. -/
theorem nearest_of_representable {g den : ℕ} (hd : 0 < den) (hg : Representable g) :
    nearest (g * den) den = g :=
  le_antisymm (nearest_le hd hg le_rfl) (le_nearest hd hg le_rfl)

/-- A quotient that is not subnormal loses at most the part 2⁻⁵³ of what it is rounded to. -/
theorem le_nearest_mul {num den : ℕ} (hd : 0 < den) (h : 0 < excess (num / den)) :
    num * 2 ^ 53 ≤ nearest num den * den * (2 ^ 53 + 1) := by
  obtain ⟨place, hplace⟩ : ∃ place, place = den * 2 ^ excess (num / den) := ⟨_, rfl⟩
  have hpos : 0 < place := by
    rw [hplace]
    positivity
  have hfull : 2 ^ 52 * place ≤ significand num den * place :=
    Nat.mul_le_mul_right _ (le_significand hd h)
  have hnear : 2 * num ≤ 2 * (significand num den * place) + place := by
    rw [significand, ← hplace]
    exact (roundDiv_near hpos).1
  have hval : nearest num den * den = significand num den * place := by
    rw [nearest, hplace]
    ring
  rw [hval]
  omega

/-- The significand falls short by one if a whole half is missing. -/
lemma significand_lt {num den m : ℕ} (hd : 0 < den) {j : ℕ} (hj : excess (num / den) = j)
    (h : 2 * num + den * 2 ^ j < 2 * m * (den * 2 ^ j)) : significand num den < m := by
  have hn : 2 * (roundDiv .even num (den * 2 ^ j) * (den * 2 ^ j)) ≤ 2 * num + den * 2 ^ j :=
    (roundDiv_near (by positivity)).2
  rw [significand, hj]
  by_contra hm
  have hle : m * (den * 2 ^ j) ≤ roundDiv .even num (den * 2 ^ j) * (den * 2 ^ j) :=
    Nat.mul_le_mul_right _ (by omega)
  nlinarith

/-- The rounded product with a fraction below one is smaller. Fractions of 53 digits fall short of
one by at least 2⁻⁵³, which is half of the last place. -/
theorem nearest_mul_lt {m j f den : ℕ} (hd : 0 < den) (hm : 2 ^ 52 ≤ m) (hm' : m < 2 ^ 53)
    (hf : f * 2 ^ 53 + den ≤ 2 ^ 53 * den) :
    nearest (m * 2 ^ (j + 1) * f) den < m * 2 ^ (j + 1) := by
  set n := m * 2 ^ (j + 1) with hn
  have hshort : n * f * 2 ^ 53 + n * den ≤ 2 ^ 53 * (n * den) := by
    have hmul := Nat.mul_le_mul_left n hf
    linarith
  have hpos : 0 < n * den := by positivity
  have hlt : n * f < n * den := by omega
  have hexc : excess (n * f / den) ≤ j + 1 := by
    refine excess_le_of_lt ((Nat.div_lt_iff_lt_mul hd).mpr (hlt.trans ?_))
    rw [pow_add]
    exact Nat.mul_lt_mul_of_pos_right (Nat.mul_lt_mul_of_pos_right hm' (by positivity)) hd
  rcases hexc.lt_or_eq with hlow | htop
  · -- The quotient lies in a lower binade than `n`.
    have hbin : n * f < 2 ^ (53 + j) * den := by
      refine (Nat.div_lt_iff_lt_mul hd).mp ((lt_of_excess _).trans_le ?_)
      exact Nat.pow_le_pow_right (by decide) (by omega)
    rcases hm.lt_or_eq with hgt | rfl
    · calc nearest (n * f) den ≤ 2 ^ (53 + j) :=
            nearest_le hd (representable_two_pow _) hbin.le
        _ = 2 ^ 52 * 2 ^ (j + 1) := by rw [← pow_add]; congr 1; omega
        _ < n := Nat.mul_lt_mul_of_pos_right hgt (by positivity)
    · have hn' : n = 2 ^ 53 * 2 ^ j := by rw [hn, pow_succ 2 j]; ring
      have hden : n * den = 2 ^ 53 * (2 ^ j * den) := by rw [hn']; ring
      have hnear : nearest (n * f) den ≤ (2 ^ 53 - 1) * 2 ^ j := by
        refine nearest_le hd ⟨_, j, by decide, rfl⟩ ?_
        rw [Nat.mul_assoc (2 ^ 53 - 1)]
        omega
      have := Nat.two_pow_pos j
      omega
  · have hq : 2 ^ (52 + excess (n * f / den)) ≤ n * f / den := le_of_excess_pos (by omega)
    have hle := (Nat.le_div_iff_mul_le hd).mp hq
    rw [htop, pow_add] at hle
    have hgt : 2 ^ 52 < m := by
      by_contra hmle
      have : n * den ≤ 2 ^ 52 * 2 ^ (j + 1) * den :=
        Nat.mul_le_mul_right _ (Nat.mul_le_mul_right _ (by omega))
      omega
    rw [nearest, htop]
    refine Nat.mul_lt_mul_of_pos_right (significand_lt hd htop ?_) (by positivity)
    have hp : 0 < 2 ^ (j + 1) * den := by positivity
    rw [hn] at hshort ⊢
    nlinarith

end PairDatasets.Double
