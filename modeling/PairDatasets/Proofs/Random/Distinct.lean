import Mathlib.Tactic.Linarith
import PairDatasets.Random.Draw

/-! The loop for two different values ends. The states of a generator form one cycle, and on this cycle
lies a window of states from which every round brings two different values, whatever the range. A round
moves on by four states at most, so it cannot pass the window. -/
namespace PairDatasets
namespace Generator
variable {n : ℕ} {g h : Generator}

/-- The generator `k` steps on. -/
def skip (k : ℕ) (g : Generator) : Generator := ⟨g.state + UInt64.ofNat k * step⟩

lemma skip_skip (j k : ℕ) (g : Generator) : (g.skip j).skip k = g.skip (j + k) := by
  simp only [skip, UInt64.ofNat_add, UInt64.add_mul, UInt64.add_assoc]

lemma advance_eq_skip (g : Generator) : g.advance = g.skip 1 := by
  simp [advance, skip]

lemma skip_inj {k : ℕ} (heq : g.skip k = h.skip k) : g = h := by
  cases g
  cases h
  simpa [skip] using heq

/-- The inverse of the step, which is odd. -/
def unstep : UInt64 := 0xF1DE83E19937733D

/-- How many steps lead from one generator to another. -/
def stepsTo (g h : Generator) : ℕ := ((h.state - g.state) * unstep).toNat

lemma skip_stepsTo (g h : Generator) : g.skip (g.stepsTo h) = h := by
  have hunit : unstep * step = 1 := by decide
  cases h
  simp only [stepsTo, skip, UInt64.ofNat_toNat, UInt64.mul_assoc, hunit, UInt64.mul_one, mk.injEq]
  rw [UInt64.add_comm, UInt64.sub_add_cancel]

/-- From every state every other one is reached. -/
theorem exists_skip (g h : Generator) : ∃ k < period, g.skip k = h :=
  ⟨g.stepsTo h, UInt64.toNat_lt _, skip_stepsTo g h⟩

section Scaled
variable {word : Generator → ℕ × Generator} {width : ℕ}

/-- A scaled word is the high part of its product, or one more. -/
lemma scaled_near (hn : 0 < n) (hword : ∀ g, (word g).1 < width) (g : Generator) :
    (word g).1 * n / width ≤ (scaled word width n g).1 ∧
      (scaled word width n g).1 ≤ (word g).1 * n / width + 1 := by
  have hhigh : (word g).1 * n / width < n :=
    Nat.div_lt_of_lt_mul (Nat.mul_lt_mul_of_pos_right (hword g) hn)
  unfold scaled
  dsimp only
  split_ifs <;> dsimp only <;> omega

/-- It takes one word or two. -/
lemma scaled_skip (hword : ∀ g, (word g).2 = g.advance) (g : Generator) :
    (scaled word width n g).2 = g.skip 1 ∨ (scaled word width n g).2 = g.skip 2 := by
  have hone : (word g).2 = g.skip 1 := (hword g).trans (advance_eq_skip g)
  have htwo : (word (g.skip 1)).2 = g.skip 2 := by
    rw [hword, advance_eq_skip, skip_skip]
  unfold scaled
  dsimp only
  split_ifs
  · exact .inr (by rw [hone, htwo])
  · exact .inr (by rw [hone, htwo])
  · exact .inl hone

/-- Words that lie far enough apart are scaled to different values. -/
lemma scaled_ne (hn : 0 < n) (hword : ∀ g, (word g).1 < width) {gap : ℕ} (hgap : 2 * width ≤ gap * n)
    (hapart : (word g).1 + gap ≤ (word h).1 ∨ (word h).1 + gap ≤ (word g).1) :
    (scaled word width n g).1 ≠ (scaled word width n h).1 := by
  have hwidth : 0 < width := Nat.zero_lt_of_lt (hword g)
  have hfar {x y : ℕ} (hxy : x + gap ≤ y) : x * n / width + 2 ≤ y * n / width := by
    have hmul : x * n + 2 * width ≤ y * n := by nlinarith
    calc x * n / width + 2 = (x * n + 2 * width) / width := (Nat.add_mul_div_right _ _ hwidth).symm
      _ ≤ y * n / width := Nat.div_le_div_right hmul
  obtain ⟨hg, hg'⟩ := scaled_near hn hword g
  obtain ⟨hh, hh'⟩ := scaled_near hn hword h
  rcases hapart with hapart | hapart
  · have := hfar hapart
    omega
  · have := hfar hapart
    omega

end Scaled

lemma below_skip (n : ℕ) (g : Generator) : (g.below n).2 = g.skip 1 ∨ (g.below n).2 = g.skip 2 := by
  unfold below below32 below64
  split_ifs
  · refine scaled_skip ?_ g
    exact fun _ => rfl
  · refine scaled_skip ?_ g
    exact fun _ => rfl

/-- The window: four states and what follows them. -/
def window (i : ℕ) : Generator := skip i ⟨1990⟩

/-- Words of the window that follow each other at a distance of one or two lie far apart. -/
lemma window_apart {i j : ℕ} (hi : i < 4) (hj : j = i + 1 ∨ j = i + 2) :
    ((window i).word32.1.toNat + 2 ^ 27 ≤ (window j).word32.1.toNat ∨
        (window j).word32.1.toNat + 2 ^ 27 ≤ (window i).word32.1.toNat) ∧
      ((window i).word64.1.toNat + 2 ^ 33 ≤ (window j).word64.1.toNat ∨
        (window j).word64.1.toNat + 2 ^ 33 ≤ (window i).word64.1.toNat) := by
  have hall : ∀ i < 4, ∀ d < 2,
      ((window i).word32.1.toNat + 2 ^ 27 ≤ (window (i + 1 + d)).word32.1.toNat ∨
        (window (i + 1 + d)).word32.1.toNat + 2 ^ 27 ≤ (window i).word32.1.toNat) ∧
      ((window i).word64.1.toNat + 2 ^ 33 ≤ (window (i + 1 + d)).word64.1.toNat ∨
        (window (i + 1 + d)).word64.1.toNat + 2 ^ 33 ≤ (window i).word64.1.toNat) := by
    decide +kernel
  rcases hj with rfl | rfl
  · exact hall i hi 0 (by decide)
  · exact hall i hi 1 (by decide)

/-- From a state of the window two draws bring different values. -/
theorem below_window_ne (hn : 2 ≤ n) {i : ℕ} (hi : i < 4) :
    ((window i).below n).1 ≠ (((window i).below n).2.below n).1 := by
  have hsmall : ∀ n < 64, 2 ≤ n → ∀ i < 4,
      ((window i).below n).1 ≠ (((window i).below n).2.below n).1 := by decide +kernel
  rcases Nat.lt_or_ge n 64 with hlt | hge
  · exact hsmall n hlt hn i hi
  · obtain ⟨j, hj, hnext⟩ : ∃ j, (j = i + 1 ∨ j = i + 2) ∧ ((window i).below n).2 = window j := by
      rcases below_skip n (window i) with h | h
      · exact ⟨i + 1, .inl rfl, h.trans (skip_skip _ _ _)⟩
      · exact ⟨i + 2, .inr rfl, h.trans (skip_skip _ _ _)⟩
    obtain ⟨h32, h64⟩ := window_apart hi hj
    rw [hnext]
    unfold below below32 below64
    split_ifs with hsmall
    · exact scaled_ne (by omega) (fun g => g.word32.1.toNat_lt) (by omega) h32
    · exact scaled_ne (by omega) (fun g => g.word64.1.toNat_lt) (by omega) h64

/-- A round moves on by two states at least and four at most. -/
lemma round_skip (n : ℕ) (g : Generator) :
    ∃ d, 2 ≤ d ∧ d ≤ 4 ∧ ((g.below n).2.below n).2 = g.skip d := by
  rcases below_skip n g with h | h <;> rcases below_skip n (g.below n).2 with h' | h' <;>
    rw [h, skip_skip] at h' <;> rw [h]
  · exact ⟨2, by decide, by decide, h'⟩
  · exact ⟨3, by decide, by decide, h'⟩
  · exact ⟨3, by decide, by decide, h'⟩
  · exact ⟨4, by decide, by decide, h'⟩

/-- The loop ends at the window if not before, and no round is lost on the way there. -/
lemma distinct_of_skip (hn : 2 ≤ n) {rounds k : ℕ} (hk : k < rounds) (hwindow : g.skip k = window 3) :
    ∃ a b g', distinct (below n) rounds g = (some (a, b), g') := by
  induction rounds generalizing k g with
  | zero => exact absurd hk (Nat.not_lt_zero k)
  | succ rounds ih =>
    rw [distinct]
    dsimp only
    split_ifs with hne
    · exact ⟨_, _, _, rfl⟩
    · have hfar : 4 ≤ k := by
        by_contra hnear
        -- in the window the values would differ
        have hg : g = window (3 - k) := by
          have hsum : 3 - k + k = 3 := by omega
          refine skip_inj (k := k) ?_
          rw [hwindow, window, window, skip_skip, hsum]
        exact hne (hg ▸ below_window_ne hn (by omega))
      obtain ⟨d, hd, hd', hround⟩ := round_skip n g
      rw [hround]
      refine ih (k := k - d) (by omega) ?_
      rw [skip_skip, ← hwindow]
      congr 1
      omega

/-- From any state the loop for two different values ends, within one period of the generator. -/
theorem exists_distinct (hn : 2 ≤ n) (g : Generator) :
    ∃ a b g', distinct (below n) period g = (some (a, b), g') := by
  obtain ⟨k, hk, hwindow⟩ := exists_skip g (window 3)
  exact distinct_of_skip hn hk hwindow

end Generator
end PairDatasets
