import PairDatasets.Proofs.Random.Distinct
import PairDatasets.Proofs.Sampling.Places

/-! The loop for two different values, without a bound on its rounds. A run of it is some rounds of equal values
and one of different values. The bounded loop finds the run whenever its bound allows, and one period of the
generator always does, so the bound is never met where similar pairs are drawn. -/
namespace PairDatasets
namespace Generator
variable {draw : Generator → ℕ × Generator} {k k' n rounds a b a' b' : ℕ} {g h h' : Generator}

/-- A run from `g`: after `k` rounds of equal values one brings the different values `a` and `b`, and leaves the
generator `h`. -/
inductive Rounds (draw : Generator → ℕ × Generator) : ℕ → Generator → ℕ → ℕ → Generator → Prop
  | differ {g : Generator} (hne : (draw g).1 ≠ (draw (draw g).2).1) :
      Rounds draw 0 g (draw g).1 (draw (draw g).2).1 (draw (draw g).2).2
  | again {k a b : ℕ} {g h : Generator} (heq : (draw g).1 = (draw (draw g).2).1)
      (rest : Rounds draw k (draw (draw g).2).2 a b h) : Rounds draw (k + 1) g a b h

lemma Rounds.ne (hrun : Rounds draw k g a b h) : a ≠ b := by
  induction hrun with
  | differ hne => exact hne
  | again _ _ ih => exact ih

/-- There is only one run from a generator. -/
theorem Rounds.unique (hrun : Rounds draw k g a b h) (hrun' : Rounds draw k' g a' b' h') :
    k' = k ∧ a' = a ∧ b' = b ∧ h' = h := by
  induction hrun generalizing k' with
  | differ hne =>
    cases hrun' with
    | differ _ => exact ⟨rfl, rfl, rfl, rfl⟩
    | again heq _ => exact absurd heq hne
  | again heq _ ih =>
    cases hrun' with
    | differ hne => exact absurd heq hne
    | again _ rest' =>
      obtain ⟨rfl, hsame⟩ := ih rest'
      exact ⟨rfl, hsame⟩

lemma distinct_succ (draw : Generator → ℕ × Generator) (rounds : ℕ) (g : Generator) :
    distinct draw (rounds + 1) g =
      if (draw g).1 ≠ (draw (draw g).2).1 then
        (some ((draw g).1, (draw (draw g).2).1), (draw (draw g).2).2)
      else distinct draw rounds (draw (draw g).2).2 := rfl

/-- What the bounded loop finds is a run that fits into its bound. -/
theorem rounds_of_distinct (heq : distinct draw rounds g = (some (a, b), h)) :
    ∃ k < rounds, Rounds draw k g a b h := by
  induction rounds generalizing g with
  | zero => simp [distinct] at heq
  | succ rounds ih =>
    rw [distinct_succ] at heq
    split_ifs at heq with hne
    · cases heq
      exact ⟨0, Nat.succ_pos _, .differ hne⟩
    · obtain ⟨k, hk, hrun⟩ := ih heq
      exact ⟨k + 1, Nat.succ_lt_succ hk, .again (not_not.mp hne) hrun⟩

/-- Every run that fits into the bound is found. -/
theorem Rounds.distinct_eq (hrun : Rounds draw k g a b h) (hk : k < rounds) :
    distinct draw rounds g = (some (a, b), h) := by
  induction hrun generalizing rounds with
  | differ hne =>
    obtain ⟨r, rfl⟩ := Nat.exists_eq_add_one.mpr hk
    rw [distinct_succ, if_pos hne]
  | again heq _ ih =>
    obtain ⟨r, rfl⟩ := Nat.exists_eq_add_one.mpr (Nat.zero_lt_of_lt hk)
    rw [distinct_succ, if_neg (not_not.mpr heq)]
    exact ih (Nat.lt_of_succ_lt_succ hk)

end Generator

open Generator in
/-- From every generator the loop for two different values of a range comes to its end, with one result and in
fewer rounds than the generator has states. A bound above that number of rounds changes nothing, and no similar
pair is missed. -/
theorem rounds_end {n : ℕ} (hn : 2 ≤ n) (g : Generator) :
    ∃ k < period, ∃ a b h, Rounds (below n) k g a b h ∧ a < n ∧ b < n ∧ a ≠ b ∧
      (∀ k' a' b' h', Rounds (below n) k' g a' b' h' → k' = k ∧ a' = a ∧ b' = b ∧ h' = h) ∧
      (∀ rounds, k < rounds → Generator.distinct (below n) rounds g = (some (a, b), h)) ∧
      ∀ slice count acc, PlacePair.drawSimilar slice n (count + 1) acc g =
        PlacePair.drawSimilar slice n count (acc.push ⟨⟨slice, a⟩, ⟨slice, b⟩⟩) h := by
  obtain ⟨a, b, h, heq⟩ := exists_distinct hn g
  obtain ⟨k, hk, hrun⟩ := rounds_of_distinct heq
  obtain ⟨ha, hb⟩ := of_distinct (P := fun i => i < n) (below_lt (Nat.zero_lt_of_lt hn)) heq
  refine ⟨k, hk, a, b, h, hrun, ha, hb, hrun.ne, ?_, ?_, ?_⟩
  · intro k' a' b' h' hrun'
    exact hrun.unique hrun'
  · intro rounds hrounds
    exact hrun.distinct_eq hrounds
  · intro slice count acc
    rw [PlacePair.drawSimilar, heq]

open Generator in
/-- Thirteen rounds bring equal values of two, but the loop comes to its end. -/
theorem rounds_end_twoValues : (Generator.distinct (below 2) 13 ⟨1993⟩).1 = none ∧
    ∃ k < period, ∃ a b h, Rounds (below 2) k ⟨1993⟩ a b h ∧ a < 2 ∧ b < 2 ∧ a ≠ b := by
  obtain ⟨k, hk, a, b, h, hrun, ha, hb, hne, -⟩ := rounds_end (n := 2) le_rfl ⟨1993⟩
  exact ⟨by decide +kernel, k, hk, a, b, h, hrun, ha, hb, hne⟩

end PairDatasets
