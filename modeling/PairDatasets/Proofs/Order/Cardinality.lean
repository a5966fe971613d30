import Mathlib.Data.List.Nodup
import Mathlib.Data.Set.Card

/-! The size of a set that a list enumerates. -/
namespace PairDatasets

/-- A list without repetitions of exactly the members of a set has as many entries as the set has
members. -/
lemma encard_eq_length {α : Type} {S : Set α} {xs : List α} (hnodup : xs.Nodup)
    (hmem : ∀ x, x ∈ S ↔ x ∈ xs) : S.encard = xs.length := by
  classical
  have hS : S = xs.toFinset := by
    ext x
    rw [hmem, List.coe_toFinset]
    rfl
  rw [hS, Set.encard_coe_eq_coe_finsetCard, List.toFinset_card_of_nodup hnodup]

/-- Tagging lists with different keys keeps everything apart. -/
lemma nodup_tagged {α β κ : Type} {xs : List α} {key : α → κ} {values : α → List β}
    (hkeys : (xs.map key).Nodup) (hvalues : ∀ x ∈ xs, (values x).Nodup) :
    (xs.flatMap fun x => (values x).map fun v => (key x, v)).Nodup := by
  rw [List.nodup_flatMap]
  constructor
  · intro x hx
    exact (hvalues x hx).map (Prod.mk_right_injective (key x))
  · rw [List.Nodup, List.pairwise_map] at hkeys
    refine hkeys.imp fun hne e he he' => ?_
    obtain ⟨v, -, rfl⟩ := List.mem_map.mp he
    obtain ⟨v', -, heq⟩ := List.mem_map.mp he'
    exact hne (congrArg Prod.fst heq).symm

end PairDatasets
