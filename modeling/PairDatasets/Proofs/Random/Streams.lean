import PairDatasets.Proofs.Random.Period
import PairDatasets.Random.Seeds

/-! Streams of different purposes. All generators walk one cycle, so two of them keep apart as long as neither
comes to the place where the other one started. From the seed of one purpose to that of another it takes more
than 2⁵⁷ steps, forwards and backwards, and an offset moves both seeds alike. -/
namespace PairDatasets
namespace Generator
variable {g h : Generator} {n : ℕ}

lemma stepsTo_skip {k : ℕ} (hk : k < period) (g : Generator) : g.stepsTo (g.skip k) = k := by
  have hmod : g.stepsTo (g.skip k) ≡ k [MOD period] :=
    skip_eq_skip_iff.mp (skip_stepsTo g (g.skip k))
  exact hmod.eq_of_lt_of_lt (UInt64.toNat_lt _) hk

/-- A generator that meets another one has come to its start, or the other one has come to its own. -/
lemma skip_ne_skip (hg : n < g.stepsTo h) (hh : n < h.stepsTo g) {i j : ℕ} (hi : i ≤ n) (hj : j ≤ n) :
    g.skip i ≠ h.skip j := by
  have hperiod : n < period := hg.trans (UInt64.toNat_lt _)
  intro heq
  rcases Nat.le_total j i with hji | hij
  · obtain ⟨d, rfl⟩ := Nat.exists_eq_add_of_le' hji
    have hmeet : g.skip d = h := skip_inj ((skip_skip d j g).trans heq)
    have hsteps := stepsTo_skip (k := d) (by omega) g
    rw [hmeet] at hsteps
    omega
  · obtain ⟨d, rfl⟩ := Nat.exists_eq_add_of_le' hij
    have hmeet : h.skip d = g := skip_inj ((skip_skip d i h).trans heq.symm)
    have hsteps := stepsTo_skip (k := d) (by omega) h
    rw [hmeet] at hsteps
    omega

/-- Two generators far enough apart take different states, with those that they start in. -/
theorem nodup_states (hg : n < g.stepsTo h) (hh : n < h.stepsTo g) :
    (List.iterate advance g (n + 1) ++ List.iterate advance h (n + 1)).Nodup := by
  have hperiod : n + 1 ≤ period := hg.trans (UInt64.toNat_lt _)
  refine (nodup_iterate hperiod g).append (nodup_iterate hperiod h) ?_
  intro x hx hy
  obtain ⟨i, hi, rfl⟩ := List.mem_iterate.mp hx
  obtain ⟨j, hj, heq⟩ := List.mem_iterate.mp hy
  rw [iterate_advance, iterate_advance] at heq
  exact skip_ne_skip hg hh (Nat.le_of_lt_succ hi) (Nat.le_of_lt_succ hj) heq

/-- Their words differ, too, because a word tells the state that it was made of. -/
theorem nodup_outputs (hg : n < g.stepsTo h) (hh : n < h.stepsTo g) :
    ((words n g).1 ++ (words n h).1).Nodup := by
  have hstates : (List.iterate advance g.advance n ++ List.iterate advance h.advance n).Nodup :=
    (nodup_states hg hh).sublist ((List.sublist_cons_self _ _).append (List.sublist_cons_self _ _))
  rw [words_eq_iterate, words_eq_iterate, ← List.map_append]
  exact hstates.map scramble_state_injective

end Generator

open Generator

namespace Seeds
variable {p q : Purpose}

/-- After any offsets in a row the seeds have moved by their sum. -/
lemma toNat_seed_foldl_shift (offsets : List UInt64) (s : Seeds) (p : Purpose) :
    ((offsets.foldl shift s).seed p).toNat =
      ((s.seed p).toNat + (offsets.map UInt64.toNat).sum) % 2 ^ 64 := by
  induction offsets generalizing s with
  | nil => exact (Nat.mod_eq_of_lt (UInt64.toNat_lt _)).symm
  | cons k offsets ih =>
    rw [List.foldl_cons, ih, seed_shift, UInt64.toNat_add, Nat.mod_add_mod, List.map_cons,
      List.sum_cons, Nat.add_assoc]

lemma stepsTo_generator (s : Seeds) (p q : Purpose) :
    (s.generator p).stepsTo (s.generator q) = ((q.base - p.base) * unstep).toNat := by
  have hbase : q.base + s.offset - (p.base + s.offset) = q.base - p.base := by
    rw [UInt64.sub_eq_iff_eq_add, ← UInt64.add_assoc, UInt64.sub_add_cancel]
  simp only [stepsTo, generator, seed, hbase]

/-- The seeds of two purposes lie far apart on the cycle. -/
lemma lt_stepsTo_generator (hpq : p ≠ q) (s : Seeds) :
    2 ^ 57 < (s.generator p).stepsTo (s.generator q) := by
  rw [stepsTo_generator]
  revert hpq
  cases p <;> cases q <;> decide

end Seeds

/-- Streams of different purposes never overlap: whatever offsets were added to the seeds, each seed is its base
plus all of them modulo 2⁶⁴, and of two purposes all states within 2⁴⁸ steps are different, and all words. -/
theorem streams_disjoint (offsets : List UInt64) {p q : Purpose} (hpq : p ≠ q) :
    let s := offsets.foldl Seeds.shift {}
    (∀ r, (s.seed r).toNat = (r.base.toNat + (offsets.map UInt64.toNat).sum) % 2 ^ 64) ∧
      (List.iterate advance (s.generator p) (2 ^ 48 + 1) ++
        List.iterate advance (s.generator q) (2 ^ 48 + 1)).Nodup ∧
      ((words (2 ^ 48) (s.generator p)).1 ++ (words (2 ^ 48) (s.generator q)).1).Nodup := by
  intro s
  have hp : 2 ^ 48 < (s.generator p).stepsTo (s.generator q) :=
    (Nat.pow_lt_pow_right (by decide) (by decide)).trans (Seeds.lt_stepsTo_generator hpq s)
  have hq : 2 ^ 48 < (s.generator q).stepsTo (s.generator p) :=
    (Nat.pow_lt_pow_right (by decide) (by decide)).trans (Seeds.lt_stepsTo_generator hpq.symm s)
  refine ⟨?_, nodup_states hp hq, nodup_outputs hp hq⟩
  intro r
  have hbase : ({} : Seeds).seed r = r.base := UInt64.add_zero r.base
  rw [Seeds.toNat_seed_foldl_shift, hbase]

/-- The two purposes whose streams come closest to each other, after offsets whose sum wraps around. -/
theorem streams_disjoint_closest : Purpose.sampleOrder ≠ .testPairs ∧
    let s := [0xFFFFFFFFFFFFFFFF, 2, 101].foldl Seeds.shift {}
    s.seed .sampleOrder = 2007 ∧ s.seed .testPairs = 2043 ∧
      ((words (2 ^ 48) (s.generator .sampleOrder)).1 ++
        (words (2 ^ 48) (s.generator .testPairs)).1).Nodup := by
  have hne : Purpose.sampleOrder ≠ .testPairs := by decide
  obtain ⟨-, -, hwords⟩ := streams_disjoint [0xFFFFFFFFFFFFFFFF, 2, 101] hne
  exact ⟨hne, by decide, by decide, hwords⟩

end PairDatasets
