import Mathlib.Data.Nat.Notation
import Mathlib.Tactic.Common
import PairDatasets.Decimal.Literal

/-! Whole numbers in text. What is read is a number below the limit that the text spells, in decimal digits after
at most one plus sign, and every number is spelled by its decimal digits. -/
namespace PairDatasets.Decimal
variable {limit m n : ℕ} {cs ds : List Char}

/-- Digits, at least one, after a plus sign or none: the number that they spell. -/
inductive Spells : List Char → ℕ → Prop
  | plain {ds : List Char} (hne : ds ≠ []) (hds : ∀ d ∈ ds, d.isDigit = true) :
      Spells ds (Nat.ofDigitChars 10 ds 0)
  | plus {ds : List Char} (hne : ds ≠ []) (hds : ∀ d ∈ ds, d.isDigit = true) :
      Spells ('+' :: ds) (Nat.ofDigitChars 10 ds 0)

lemma digit?_of_isDigit {d : Char} (h : d.isDigit = true) : digit? d = some (d.toNat - '0'.toNat) :=
  if_pos (Char.isDigit_iff_toNat.mp h)

lemma digit?_eq_none {c : Char} (h : ¬ c.isDigit = true) : digit? c = none :=
  if_neg fun hc => h (Char.isDigit_iff_toNat.mpr hc)

/-- More digits make no smaller number. -/
lemma le_ofDigitChars (ds : List Char) (n : ℕ) : n ≤ Nat.ofDigitChars 10 ds n := by
  induction ds generalizing n with
  | nil => exact Nat.le_refl n
  | cons d ds ih =>
    rw [Nat.ofDigitChars_cons]
    exact Nat.le_trans (by omega) (ih _)

lemma wholeDigits_eq_ok_iff (hn : n < limit) : wholeDigits limit n cs = .ok m ↔
    (∀ d ∈ cs, d.isDigit = true) ∧ Nat.ofDigitChars 10 cs n = m ∧ m < limit := by
  induction cs generalizing n with
  | nil =>
    rw [wholeDigits, Nat.ofDigitChars_nil]
    constructor
    · rintro ⟨⟩
      exact ⟨nofun, rfl, hn⟩
    · rintro ⟨-, rfl, -⟩
      rfl
  | cons c cs ih =>
    rw [wholeDigits, Nat.ofDigitChars_cons, List.forall_mem_cons]
    by_cases hc : c.isDigit = true
    · rw [digit?_of_isDigit hc, Nat.mul_comm 10]
      dsimp only
      split_ifs with hlt
      · rw [ih hlt]
        simp only [hc, true_and]
      · refine ⟨nofun, ?_⟩
        rintro ⟨-, rfl, hm⟩
        exact absurd (Nat.lt_of_le_of_lt (le_ofDigitChars cs _) hm) hlt
    · rw [digit?_eq_none hc]
      exact ⟨nofun, fun h => absurd h.1.1 hc⟩

lemma whole_plus (hne : ds ≠ []) : whole limit ('+' :: ds) = wholeDigits limit 0 ds := by
  cases ds with
  | nil => exact absurd rfl hne
  | cons d ds => rfl

lemma whole_plain (hne : ds ≠ []) (hplus : ds.head? ≠ some '+') :
    whole limit ds = wholeDigits limit 0 ds := by
  unfold whole
  split
  · exact absurd rfl hne
  · exact absurd rfl hplus
  · exact absurd rfl hplus
  · rfl

/-- Reading finds the number below the limit that is spelled, if there is one. -/
theorem whole_eq_ok_iff (hlimit : 0 < limit) : whole limit cs = .ok n ↔ Spells cs n ∧ n < limit := by
  constructor
  · intro h
    cases cs with
    | nil => cases h
    | cons c cs =>
      by_cases hc : c = '+'
      · subst hc
        by_cases hne : cs = []
        · subst hne
          cases h
        · rw [whole_plus hne, wholeDigits_eq_ok_iff hlimit] at h
          obtain ⟨hds, rfl, hn⟩ := h
          exact ⟨.plus hne hds, hn⟩
      · rw [whole_plain (List.cons_ne_nil c cs) (by simpa using hc), wholeDigits_eq_ok_iff hlimit] at h
        obtain ⟨hds, rfl, hn⟩ := h
        exact ⟨.plain (List.cons_ne_nil c cs) hds, hn⟩
  · rintro ⟨hspells, hn⟩
    cases hspells with
    | plain hne hds =>
      have hplus : cs.head? ≠ some '+' := fun h => absurd (hds _ (List.mem_of_mem_head? h)) (by decide)
      rw [whole_plain hne hplus, wholeDigits_eq_ok_iff hlimit]
      exact ⟨hds, rfl, hn⟩
    | plus hne hds =>
      rw [whole_plus hne, wholeDigits_eq_ok_iff hlimit]
      exact ⟨hds, rfl, hn⟩

/-- A text spells one number at most. -/
lemma Spells.unique (hm : Spells cs m) (hn : Spells cs n) : m = n := by
  have hlimit : 0 < max m n + 1 := Nat.succ_pos _
  have hreadm := (whole_eq_ok_iff hlimit).mpr ⟨hm, Nat.lt_succ_of_le (Nat.le_max_left m n)⟩
  have hreadn := (whole_eq_ok_iff hlimit).mpr ⟨hn, Nat.lt_succ_of_le (Nat.le_max_right m n)⟩
  exact Except.ok.inj (hreadm.symm.trans hreadn)

/-- Every number is spelled by its decimal digits. -/
lemma spells_toDigits (n : ℕ) : Spells (Nat.toDigits 10 n) n := by
  have hspells : Spells (Nat.toDigits 10 n) (Nat.ofDigitChars 10 (Nat.toDigits 10 n) 0) :=
    .plain Nat.toDigits_ne_nil fun d hd => Nat.isDigit_of_mem_toDigits (by decide) (by decide) hd
  rwa [Nat.ofDigitChars_toDigits (by decide) (by decide)] at hspells

end PairDatasets.Decimal
