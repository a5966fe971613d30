import Mathlib.Tactic.Common
import PairDatasets.Random.Shuffle

/-! A shuffle loses nothing and repeats nothing, whatever the generator draws. -/
namespace PairDatasets.Generator

lemma swapIfInBounds_perm {α : Type _} (xs : Array α) (i j : Nat) :
    (xs.swapIfInBounds i j).Perm xs := by
  rw [Array.swapIfInBounds_def]
  split_ifs
  · exact Array.swap_perm _ _
  · exact .rfl
  · exact .rfl

theorem shuffleFrom_perm {α : Type _} (k i : Nat) (d : Digits) (xs : Array α) (g : Generator) :
    (shuffleFrom k i d xs g).1.Perm xs := by
  induction k generalizing i d xs g with
  | zero => exact .rfl
  | succ k ih => exact (ih _ _ _ _).trans (swapIfInBounds_perm xs i _)

theorem shuffleArray_perm {α : Type _} (xs : Array α) (g : Generator) :
    (shuffleArray xs g).1.Perm xs := by
  unfold shuffleArray
  split_ifs
  · exact .rfl
  · exact shuffleFrom_perm _ _ _ xs g

/-- Every shuffle of a list is one of its permutations. -/
theorem shuffle_perm {α : Type _} (xs : List α) (g : Generator) : (g.shuffle xs).1.Perm xs :=
  Array.perm_iff_toList_perm.mp (shuffleArray_perm xs.toArray g)

@[simp] theorem length_shuffle {α : Type _} (xs : List α) (g : Generator) :
    (g.shuffle xs).1.length = xs.length := (shuffle_perm xs g).length_eq

end PairDatasets.Generator
