import Mathlib.Data.List.Iterate
import Mathlib.Data.List.Nodup
import Mathlib.Data.Nat.ModEq
import PairDatasets.Proofs.Random.Distinct

/-! The cycle of the generator. Every stage of scrambling can be undone, so a word tells the state that it
was made of. The step is odd, so from any state one period leads through all states and back. Together: a
period of words holds every word once. -/
namespace PairDatasets
namespace Generator

section Scramble
variable {k : UInt64}

/-- A word with its high bits laid over its low bits. -/
def overlay (k z : UInt64) : UInt64 := z ^^^ (z >>> k)

/-- What was laid over itself. -/
def uncover (k z : UInt64) : UInt64 := z ^^^ (z >>> k) ^^^ (z >>> k >>> k)

/-- Three shifts by 22 bits or more leave nothing of a word. -/
lemma shiftRight_thrice (hk : 22 ≤ k.toNat) (hk' : k.toNat < 64) (z : UInt64) :
    z >>> k >>> k >>> k = 0 := by
  have hz : z.toNat < 2 ^ (k.toNat + k.toNat + k.toNat) :=
    z.toNat_lt.trans_le (Nat.pow_le_pow_right (by decide) (by omega))
  apply UInt64.toNat_inj.mp
  simp only [UInt64.toNat_shiftRight, Nat.mod_eq_of_lt hk', ← Nat.shiftRight_add]
  rw [Nat.shiftRight_eq_div_pow, Nat.div_eq_of_lt hz]
  rfl

lemma uncover_overlay (hk : 22 ≤ k.toNat) (hk' : k.toNat < 64) (z : UInt64) :
    uncover k (overlay k z) = z := by
  have hgone := shiftRight_thrice hk hk' z
  have htwice : z >>> k ^^^ (z >>> k ^^^ z >>> k >>> k) = z >>> k >>> k := by
    rw [← UInt64.xor_assoc, UInt64.xor_self, UInt64.zero_xor]
  simp only [uncover, overlay, UInt64.shiftRight_xor, hgone, UInt64.xor_zero]
  rw [UInt64.xor_assoc z, htwice, UInt64.xor_assoc, UInt64.xor_self, UInt64.xor_zero]

lemma overlay_uncover (hk : 22 ≤ k.toNat) (hk' : k.toNat < 64) (z : UInt64) :
    overlay k (uncover k z) = z := by
  have hgone := shiftRight_thrice hk hk' z
  simp only [uncover, overlay, UInt64.shiftRight_xor, hgone, UInt64.xor_zero]
  rw [UInt64.xor_assoc z, UInt64.xor_assoc, UInt64.xor_self, UInt64.xor_zero]

lemma scramble_eq (z : UInt64) : scramble z =
    overlay 31 (overlay 27 (overlay 30 z * 0xBF58476D1CE4E5B9) * 0x94D049BB133111EB) := rfl

/-- The state that a word was made of: the stages undone from the last to the first, with the inverses of
the two odd factors. -/
def unscramble (w : UInt64) : UInt64 :=
  uncover 30 (uncover 27 (uncover 31 w * 0x319642B2D24D8EC3) * 0x96DE1B173F119089)

theorem unscramble_scramble (z : UInt64) : unscramble (scramble z) = z := by
  have hinner : (0xBF58476D1CE4E5B9 * 0x96DE1B173F119089 : UInt64) = 1 := by decide
  have houter : (0x94D049BB133111EB * 0x319642B2D24D8EC3 : UInt64) = 1 := by decide
  rw [scramble_eq, unscramble, uncover_overlay (by decide) (by decide), UInt64.mul_assoc, houter,
    UInt64.mul_one, uncover_overlay (by decide) (by decide), UInt64.mul_assoc, hinner, UInt64.mul_one,
    uncover_overlay (by decide) (by decide)]

theorem scramble_unscramble (w : UInt64) : scramble (unscramble w) = w := by
  have hinner : (0x96DE1B173F119089 * 0xBF58476D1CE4E5B9 : UInt64) = 1 := by decide
  have houter : (0x319642B2D24D8EC3 * 0x94D049BB133111EB : UInt64) = 1 := by decide
  rw [scramble_eq, unscramble, overlay_uncover (by decide) (by decide), UInt64.mul_assoc, hinner,
    UInt64.mul_one, overlay_uncover (by decide) (by decide), UInt64.mul_assoc, houter, UInt64.mul_one,
    overlay_uncover (by decide) (by decide)]

/-- States and words belong to each other one to one. -/
theorem scramble_bijective : Function.Bijective scramble :=
  Function.bijective_iff_has_inverse.mpr ⟨unscramble, unscramble_scramble, scramble_unscramble⟩

end Scramble

section Cycle
variable {g : Generator} {j k : ℕ}

/-- Two numbers of steps lead to the same state if they differ by whole periods, and only then. -/
theorem skip_eq_skip_iff : g.skip j = g.skip k ↔ j ≡ k [MOD period] := by
  have hunit : step * unstep = 1 := by decide
  have hsize (i : ℕ) : (UInt64.ofNat i).toNat = i % period := UInt64.toNat_ofNat'
  constructor
  · intro h
    have hsteps : UInt64.ofNat j * step = UInt64.ofNat k * step := by
      simpa [skip] using h
    have hcount : UInt64.ofNat j = UInt64.ofNat k := by
      rw [← UInt64.mul_one (.ofNat j), ← UInt64.mul_one (.ofNat k), ← hunit, ← UInt64.mul_assoc,
        ← UInt64.mul_assoc, hsteps]
    rw [Nat.ModEq, ← hsize, ← hsize, hcount]
  · intro h
    have hcount : UInt64.ofNat j = UInt64.ofNat k := by
      apply UInt64.toNat_inj.mp
      rw [hsize, hsize, h]
    rw [skip, skip, hcount]

lemma skip_zero (g : Generator) : g.skip 0 = g := by
  simp [skip]

/-- Words are made of the states that the steps lead to. -/
lemma words_eq (n : ℕ) (g : Generator) :
    words n g = ((List.range n).map fun i => scramble (g.skip (i + 1)).state, g.skip n) := by
  induction n generalizing g with
  | zero => rw [words, skip_zero]; rfl
  | succ n ih =>
    have hnext (i : ℕ) : g.advance.skip i = g.skip (i + 1) := by
      rw [advance_eq_skip, skip_skip, Nat.add_comm]
    rw [words, List.range_succ_eq_map]
    simp only [word64_snd, ih, hnext, List.map_cons, List.map_map]
    rw [word64, advance_eq_skip]
    rfl

lemma iterate_advance (k : ℕ) (g : Generator) : advance^[k] g = g.skip k := by
  induction k with
  | zero => exact (skip_zero g).symm
  | succ k ih => rw [Function.iterate_succ_apply', ih, advance_eq_skip, skip_skip]

/-- Within a period no state comes twice. -/
theorem nodup_iterate {n : ℕ} (hn : n ≤ period) (g : Generator) : (List.iterate advance g n).Nodup := by
  rw [← List.range_map_iterate]
  refine List.Nodup.map_on ?_ List.nodup_range
  intro i hi j hj heq
  rw [List.mem_range] at hi hj
  rw [iterate_advance, iterate_advance, skip_eq_skip_iff] at heq
  exact heq.eq_of_lt_of_lt (hi.trans_le hn) (hj.trans_le hn)

lemma words_eq_iterate (n : ℕ) (g : Generator) :
    (words n g).1 = (List.iterate advance g.advance n).map fun x => scramble x.state := by
  rw [words_eq, ← List.range_map_iterate, List.map_map]
  refine List.map_congr_left fun i _ => ?_
  rw [Function.comp_apply, iterate_advance, advance_eq_skip, skip_skip, Nat.add_comm]

/-- A word tells the generator that it was drawn from. -/
lemma scramble_state_injective : Function.Injective fun g : Generator => scramble g.state :=
  fun _ _ heq => congrArg mk (scramble_bijective.1 heq)

/-- Within a period no word comes twice. -/
theorem nodup_words {n : ℕ} (hn : n ≤ period) (g : Generator) : (words n g).1.Nodup := by
  rw [words_eq_iterate]
  exact (nodup_iterate hn g.advance).map scramble_state_injective

/-- After a period every word has come. -/
theorem mem_words {n : ℕ} (hn : period ≤ n) (g : Generator) (w : UInt64) : w ∈ (words n g).1 := by
  obtain ⟨k, hk, hstate⟩ := exists_skip g.advance ⟨unscramble w⟩
  rw [advance_eq_skip, skip_skip, Nat.add_comm] at hstate
  rw [words_eq, List.mem_map]
  refine ⟨k, List.mem_range.mpr (hk.trans_le hn), ?_⟩
  rw [hstate]
  exact scramble_unscramble w

/-- The state comes back with whole periods only. -/
theorem words_returns_iff (k : ℕ) (g : Generator) : (words k g).2 = g ↔ period ∣ k := by
  rw [words_eq, ← Nat.modEq_zero_iff_dvd, ← skip_eq_skip_iff, skip_zero]

/-- Words in a row: some of them, then the others from the state reached. -/
lemma words_add (j k : ℕ) (g : Generator) : words (j + k) g =
    ((words j g).1 ++ (words k (words j g).2).1, (words k (words j g).2).2) := by
  induction j generalizing g with
  | zero => rw [Nat.zero_add]; rfl
  | succ j ih =>
    rw [Nat.succ_add, words, words]
    simp only [ih, List.cons_append]

end Cycle

/-- The generator has full period: a state and the word made of it belong to each other one to one, a period
of words holds every word once, only whole periods lead back to a state, and the words behind any number of
words are those of a generator started from the state there. -/
theorem words_fullPeriod (g : Generator) :
    (∀ h : Generator, h.word64.1 = scramble h.word64.2.state) ∧ Function.Bijective scramble ∧
      (words period g).1.Nodup ∧ (∀ w, w ∈ (words period g).1) ∧
      (∀ k, (words k g).2 = g ↔ period ∣ k) ∧
      ∀ j k, words k ⟨(words j g).2.state⟩ = ((words (j + k) g).1.drop j, (words (j + k) g).2) := by
  refine ⟨fun _ => rfl, scramble_bijective, nodup_words le_rfl g, mem_words le_rfl g,
    fun k => words_returns_iff k g, ?_⟩
  intro j k
  rw [words_add]
  exact Prod.ext (List.drop_left' (length_words j g)).symm rfl

end Generator
end PairDatasets
