import Mathlib.Data.List.Forall2
import Mathlib.Data.String.Basic
import Mathlib.Tactic.Common

/-! Results that do not depend on the order of a list. Two runs agree if both fail, or both succeed with
related results; names are sorted before their order counts, and sorting by rank is stable. -/
namespace PairDatasets
variable {ε α β γ δ : Type}

/-- Both runs fail, with whatever error, or both succeed with related results. -/
inductive Agree (R : α → β → Prop) : Except ε α → Except ε β → Prop
  | error (e e' : ε) : Agree R (.error e) (.error e')
  | ok {a : α} {b : β} (h : R a b) : Agree R (.ok a) (.ok b)

namespace Agree
variable {R : α → β → Prop} {S : γ → δ → Prop}

lemma of_eq {R : α → α → Prop} {x y : Except ε α} (h : x = y) (hR : ∀ a, R a a) : Agree R x y := by
  subst h
  cases x with
  | error e => exact .error e e
  | ok a => exact .ok (hR a)

lemma bind {x : Except ε α} {y : Except ε β} {f : α → Except ε γ} {g : β → Except ε δ}
    (h : Agree R x y) (hfg : ∀ a b, x = .ok a → R a b → Agree S (f a) (g b)) :
    Agree S (x >>= f) (y >>= g) := by
  cases h with
  | error e e' => exact .error e e'
  | ok hab => exact hfg _ _ rfl hab

lemma map {x : Except ε α} {y : Except ε β} {f : α → γ} {g : β → δ} (h : Agree R x y)
    (hfg : ∀ a b, R a b → S (f a) (g b)) : Agree S (x.map f) (y.map g) := by
  cases h with
  | error e e' => exact .error e e'
  | ok hab => exact .ok (hfg _ _ hab)

lemma trans {R : α → α → Prop} {x y z : Except ε α} (hR : ∀ a b c, R a b → R b c → R a c)
    (hxy : Agree R x y) (hyz : Agree R y z) : Agree R x z := by
  cases hxy with
  | error e e' =>
    cases hyz
    exact .error _ _
  | ok hab =>
    cases hyz with
    | ok hbc => exact .ok (hR _ _ _ hab hbc)

lemma exists_ok {a : α} {y : Except ε β} (h : Agree R (.ok a) y) : ∃ b, y = .ok b ∧ R a b := by
  cases h with
  | ok hab => exact ⟨_, rfl, hab⟩

end Agree

/-- In another order the same results come in that order, if there are any. -/
theorem agree_mapM {f : α → Except ε β} {xs ys : List α} (h : xs.Perm ys) :
    Agree List.Perm (xs.mapM f) (ys.mapM f) := by
  induction h with
  | nil => exact .ok .nil
  | @cons x xs ys _ ih =>
    rw [List.mapM_cons, List.mapM_cons]
    cases f x with
    | error e => exact .error e e
    | ok y =>
      refine ih.bind fun as bs _ hperm => ?_
      exact .ok (hperm.cons y)
  | swap x y xs =>
    simp only [List.mapM_cons]
    cases f x with
    | error e =>
      cases f y with
      | error e' => exact .error _ _
      | ok b => exact .error _ _
    | ok a =>
      cases f y with
      | error e => exact .error _ _
      | ok b =>
        cases xs.mapM f with
        | error e => exact .error _ _
        | ok as => exact .ok (.swap a b as)
  | trans _ _ ih ih' => exact ih.trans (fun _ _ _ => .trans) ih'

/-- Sorting, where two items that may stand either way round are the same. -/
theorem mergeSort_eq_of_antisymm {le : α → α → Bool} {xs ys : List α}
    (htrans : ∀ a b c, le a b = true → le b c = true → le a c = true)
    (htotal : ∀ a b, (le a b || le b a) = true) (h : xs.Perm ys)
    (hantisymm : ∀ a ∈ xs, ∀ b ∈ xs, le a b = true → le b a = true → a = b) :
    xs.mergeSort le = ys.mergeSort le := by
  refine List.Perm.eq_of_pairwise ?_ (List.pairwise_mergeSort htrans htotal xs)
    (List.pairwise_mergeSort htrans htotal ys)
    ((List.mergeSort_perm xs le).trans (h.trans (List.mergeSort_perm ys le).symm))
  intro a b ha hb
  rw [List.mem_mergeSort] at ha hb
  exact hantisymm a ha b (h.mem_iff.mpr hb)

/-- Sorting by name, where no two items share one. -/
theorem mergeSort_eq_of_perm {name : α → String} {xs ys : List α} (h : xs.Perm ys)
    (hname : ∀ a ∈ xs, ∀ b ∈ xs, name a = name b → a = b) :
    (xs.mergeSort fun a b => name a ≤ name b) = ys.mergeSort fun a b => name a ≤ name b := by
  refine mergeSort_eq_of_antisymm ?_ ?_ h ?_
  · simpa using fun a b c => String.le_trans
  · simpa using fun a b => String.le_total (name a) (name b)
  · intro a ha b hb hab hba
    exact hname a ha b hb (String.le_antisymm (of_decide_eq_true hab) (of_decide_eq_true hba))

section Stable
variable {ρ : Type} [LinearOrder ρ] {xs : List α}

lemma rank_le_trans (rank : α → ρ) (a b c : α) : decide (rank a ≤ rank b) = true →
    decide (rank b ≤ rank c) = true → decide (rank a ≤ rank c) = true := by
  simpa using le_trans

lemma rank_le_total (rank : α → ρ) (a b : α) :
    (decide (rank a ≤ rank b) || decide (rank b ≤ rank a)) = true := by
  simpa using le_total (rank a) (rank b)

lemma pairwise_mergeSort_rank (rank : α → ρ) (xs : List α) :
    (xs.mergeSort fun a b => rank a ≤ rank b).Pairwise fun a b => rank a ≤ rank b :=
  (List.pairwise_mergeSort (rank_le_trans rank) (rank_le_total rank) xs).imp of_decide_eq_true

/-- Sorting by rank leaves the items of one rank as they stand. -/
lemma filter_mergeSort_rank (rank : α → ρ) (xs : List α) (k : ρ) :
    ((xs.mergeSort fun a b => rank a ≤ rank b).filter fun x => rank x = k) =
      xs.filter fun x => rank x = k := by
  have hperm := List.mergeSort_perm xs fun a b => rank a ≤ rank b
  have hsub : (xs.filter fun x => rank x = k).Sublist (xs.mergeSort fun a b => rank a ≤ rank b) := by
    refine List.sublist_mergeSort (rank_le_trans rank) (rank_le_total rank) ?_ List.filter_sublist
    refine List.pairwise_of_forall_mem_list fun a ha b hb => ?_
    have ha : rank a = k := by simpa using List.of_mem_filter ha
    have hb : rank b = k := by simpa using List.of_mem_filter hb
    simp [ha, hb]
  have hsub := hsub.filter fun x => rank x = k
  rw [List.filter_filter] at hsub
  simp only [Bool.and_self] at hsub
  exact (hsub.eq_of_length (hperm.filter _).length_eq.symm).symm

/-- Sorting by rank is stable: whatever order the items stand in, those of one rank keep it. -/
theorem pairwise_mergeSort_of_pairwise {rank : α → ρ} {R : α → α → Prop} (h : xs.Pairwise R) :
    (xs.mergeSort fun a b => rank a ≤ rank b).Pairwise
      fun a b => rank a < rank b ∨ rank a = rank b ∧ R a b := by
  rw [List.pairwise_iff_forall_sublist]
  intro a b hab
  have hle : rank a ≤ rank b :=
    List.pairwise_iff_forall_sublist.mp (pairwise_mergeSort_rank rank xs) hab
  rcases hle.lt_or_eq with hlt | heq
  · exact .inl hlt
  · have hsub := hab.filter fun x => rank x = rank a
    rw [filter_mergeSort_rank, List.filter_cons_of_pos (by simp),
      List.filter_cons_of_pos (by simp [heq]), List.filter_nil] at hsub
    exact .inr ⟨heq, List.pairwise_iff_forall_sublist.mp h (hsub.trans List.filter_sublist)⟩

end Stable

section Ranks
variable {rank : α → Nat} {xs : List α}

lemma eq_append_of_pairwise (h : xs.Pairwise fun a b => rank a ≤ rank b) (n : Nat) :
    xs = (xs.filter fun x => rank x < n) ++ xs.filter fun x => n ≤ rank x := by
  induction xs with
  | nil => rfl
  | cons x xs ih =>
    rw [List.pairwise_cons] at h
    by_cases hx : rank x < n
    · rw [List.filter_cons_of_pos (by simpa using hx), List.filter_cons_of_neg (by simpa using hx),
        List.cons_append, ← ih h.2]
    · -- all that follow have a rank as high
      have hlow : xs.filter (fun y => rank y < n) = [] := by
        refine List.filter_eq_nil_iff.mpr fun y hy => ?_
        have hxy := h.1 y hy
        simp only [decide_eq_true_eq]
        omega
      have hhigh : xs.filter (fun y => n ≤ rank y) = xs := by
        rw [List.filter_eq_self]
        intro y hy
        have hxy := h.1 y hy
        simp only [decide_eq_true_eq]
        omega
      rw [List.filter_cons_of_neg (by simpa using hx), List.filter_cons_of_pos (by simpa using hx), hlow, hhigh]
      rfl

/-- A sorted list has its items rank by rank. -/
lemma eq_flatMap_of_pairwise (h : xs.Pairwise fun a b => rank a ≤ rank b) {n : Nat}
    (hn : ∀ x ∈ xs, rank x < n) : xs = (List.range n).flatMap fun k => xs.filter fun x => rank x = k := by
  induction n generalizing xs with
  | zero => exact List.eq_nil_iff_forall_not_mem.mpr fun x hx => Nat.not_lt_zero _ (hn x hx)
  | succ n ih =>
    have hlast : (xs.filter fun x => n ≤ rank x) = xs.filter fun x => rank x = n := by
      refine List.filter_congr fun x hx => ?_
      have hx := hn x hx
      simp only [decide_eq_decide]
      omega
    have hfront := ih (h.sublist (List.filter_sublist : (xs.filter fun x => rank x < n).Sublist xs)) (by simp)
    have hfilter : ∀ k ∈ List.range n, ((xs.filter fun x => rank x < n).filter fun x => rank x = k) =
        xs.filter fun x => rank x = k := by
      intro k hk
      rw [List.filter_filter]
      refine List.filter_congr fun x _ => ?_
      rw [List.mem_range] at hk
      rw [← Bool.decide_and]
      simp only [decide_eq_decide]
      omega
    rw [List.range_succ, List.flatMap_append, ← List.flatMap_congr hfilter, ← hfront, List.flatMap_singleton,
      ← hlast]
    exact eq_append_of_pairwise h n

/-- The items of one rank come in their order, and the ranks one after the other. -/
theorem mergeSort_eq_flatMap {n : Nat} (hn : ∀ x ∈ xs, rank x < n) :
    (xs.mergeSort fun a b => rank a ≤ rank b) =
      (List.range n).flatMap fun k => xs.filter fun x => rank x = k := by
  have hsorted := pairwise_mergeSort_rank rank xs
  rw [eq_flatMap_of_pairwise hsorted (n := n) (by simpa using hn)]
  exact List.flatMap_congr fun k _ => filter_mergeSort_rank rank xs k

end Ranks

end PairDatasets
