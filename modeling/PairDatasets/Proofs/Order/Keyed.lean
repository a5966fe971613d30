import Mathlib.Algebra.Order.Ring.Nat
import Mathlib.Data.List.Sort
import Mathlib.Tactic.Common
import PairDatasets.Order.Keyed

/-! Values by key are determined by their keys and what each key has, whatever the order in which they came
in. A change that adds to one value adds the same to the sum of all. -/
namespace PairDatasets
namespace Keyed
variable {κ α : Type} {cmp : κ → κ → Ordering} {t u : Keyed cmp α}

lemma eq_of_entries (h : t.entries = u.entries) : t = u := by
  cases t
  cases u
  cases h
  rfl

/-- Two ascending lists of keys with the same members are the same. -/
lemma keys_eq_of_mem_iff [Std.TransCmp cmp] (h : ∀ k, k ∈ t.keys ↔ k ∈ u.keys) : t.keys = u.keys := by
  have : Std.Irrefl fun a b : κ => cmp a b = .lt := ⟨fun _ h => ne_of_lt h rfl⟩
  have : Std.Antisymm fun a b : κ => cmp a b = .lt :=
    ⟨fun _ _ hab hba => absurd hba (Std.OrientedCmp.not_lt_of_lt hab)⟩
  exact t.pairwise_keys.eq_of_mem_iff u.pairwise_keys h

lemma nodup_keys [Std.ReflCmp cmp] (t : Keyed cmp α) : t.keys.Nodup := t.pairwise_keys.imp ne_of_lt

section Values
variable [DecidableEq κ] {fallback : α}

/-- What stands beside a key is its value. -/
lemma getD_of_mem [Std.ReflCmp cmp] {e : κ × α} (he : e ∈ t.entries) (fallback : α) :
    t.getD e.1 fallback = e.2 := by
  have hlookup : t.entries.lookup e.1 = some e.2 := by
    have hnodup := t.nodup_keys
    unfold keys at hnodup
    generalize t.entries = entries at he hnodup
    induction entries with
    | nil => cases he
    | cons x entries ih =>
      rw [List.map_cons, List.nodup_cons] at hnodup
      rw [← Prod.mk.eta (p := x), lookup_cons]
      rcases List.mem_cons.mp he with rfl | he
      · exact if_pos rfl
      · have hne : e.1 ≠ x.1 := by
          intro heq
          exact hnodup.1 (heq ▸ List.mem_map_of_mem he)
        rw [if_neg hne]
        exact ih he hnodup.2
  rw [getD, hlookup]
  rfl

lemma entries_eq_map [Std.ReflCmp cmp] (t : Keyed cmp α) (fallback : α) :
    t.entries = t.keys.map fun k => (k, t.getD k fallback) := by
  rw [keys, List.map_map]
  refine (List.map_id'' (fun _ => rfl) t.entries).symm.trans (List.map_congr_left fun e he => ?_)
  rw [Function.comp_apply, getD_of_mem he]

end Values

/-- A set is determined by its members. -/
lemma ext_keys {t u : Keyed cmp Unit} [Std.TransCmp cmp] (h : ∀ k, k ∈ t.keys ↔ k ∈ u.keys) : t = u := by
  have hentries (t : Keyed cmp Unit) : t.entries = t.keys.map fun k => (k, ()) := by
    rw [keys, List.map_map]
    exact (List.map_id t.entries).symm
  apply eq_of_entries
  rw [hentries t, hentries u, keys_eq_of_mem_iff h]

/-- The sum of what all values weigh. -/
def total (t : Keyed cmp α) (weight : α → ℕ) : ℕ := (t.entries.map fun e => weight e.2).sum

/-- What a change adds to one value it adds to the sum. -/
theorem total_update [Std.TransCmp cmp] (t : Keyed cmp α) (key : κ) {fallback : α} {change : α → α}
    {weight : α → ℕ} {n : ℕ} (hfallback : weight fallback = 0)
    (hchange : ∀ v, weight (change v) = weight v + n) :
    (t.update key fallback change).total weight = t.total weight + n := by
  change ((changeEntry cmp key fallback change t.entries).map fun e => weight e.2).sum =
    (t.entries.map fun e => weight e.2).sum + n
  generalize t.entries = entries
  fun_induction changeEntry cmp key fallback change entries with
  | case1 => simp [hchange, hfallback]
  | case2 k v rest =>
    simp only [List.map_cons, List.sum_cons, hchange, hfallback]
    omega
  | case3 k v rest =>
    simp only [List.map_cons, List.sum_cons, hchange]
    omega
  | case4 k v rest _ ih =>
    simp only [List.map_cons, List.sum_cons, ih]
    omega

end Keyed
end PairDatasets
