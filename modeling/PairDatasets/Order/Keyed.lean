/-!
Values by key, each key once and in ascending order. A value is changed where it stands, and a key that
is missing comes in at its place.
-/
namespace PairDatasets

/-- Values by key, in the order of the keys. -/
structure Keyed {κ : Type} (cmp : κ → κ → Ordering) (α : Type) where
  entries : List (κ × α)
  ascending : entries.Pairwise fun a b => cmp a.1 b.1 = .lt

namespace Keyed
variable {κ α : Type} {cmp : κ → κ → Ordering}

instance : EmptyCollection (Keyed cmp α) := ⟨⟨[], .nil⟩⟩

/-- Change the value of a key among ascending entries; a missing key starts from the fallback. -/
def changeEntry (cmp : κ → κ → Ordering) (key : κ) (fallback : α) (change : α → α) :
    List (κ × α) → List (κ × α)
  | [] => [(key, change fallback)]
  | (k, v) :: rest =>
    match cmp key k with
    | .lt => (key, change fallback) :: (k, v) :: rest
    | .eq => (k, change v) :: rest
    | .gt => (k, v) :: changeEntry cmp key fallback change rest

theorem ne_of_lt [Std.ReflCmp cmp] {a b : κ} (h : cmp a b = .lt) : a ≠ b := by
  rintro rfl
  have hself : cmp a a = .eq := Std.ReflCmp.compare_self
  rw [hself] at h
  cases h

theorem fst_mem_changeEntry {key : κ} {fallback : α} {change : α → α} {entries : List (κ × α)}
    {e : κ × α} (h : e ∈ changeEntry cmp key fallback change entries) :
    e.1 = key ∨ ∃ x ∈ entries, x.1 = e.1 := by
  fun_induction changeEntry cmp key fallback change entries with
  | case1 => exact .inl (by rw [List.mem_singleton.1 h])
  | case2 k v rest =>
    rcases List.mem_cons.1 h with rfl | h
    · exact .inl rfl
    · exact .inr ⟨e, h, rfl⟩
  | case3 k v rest =>
    rcases List.mem_cons.1 h with rfl | h
    · exact .inr ⟨(k, v), .head _, rfl⟩
    · exact .inr ⟨e, .tail _ h, rfl⟩
  | case4 k v rest _ ih =>
    rcases List.mem_cons.1 h with rfl | h
    · exact .inr ⟨(k, v), .head _, rfl⟩
    · rcases ih h with heq | ⟨x, hx, heq⟩
      · exact .inl heq
      · exact .inr ⟨x, .tail _ hx, heq⟩

theorem ascending_changeEntry [Std.TransCmp cmp] (key : κ) (fallback : α) (change : α → α)
    {entries : List (κ × α)} (h : entries.Pairwise fun a b => cmp a.1 b.1 = .lt) :
    (changeEntry cmp key fallback change entries).Pairwise fun a b => cmp a.1 b.1 = .lt := by
  fun_induction changeEntry cmp key fallback change entries with
  | case1 => exact List.pairwise_singleton _ _
  | case2 k v rest hlt =>
    refine List.pairwise_cons.2 ⟨fun e he => ?_, h⟩
    rcases List.mem_cons.1 he with rfl | he
    · exact hlt
    · exact Std.TransCmp.lt_trans hlt (List.rel_of_pairwise_cons h he)
  | case3 k v rest =>
    exact List.pairwise_cons.2 ⟨fun e he => List.rel_of_pairwise_cons h he, h.of_cons⟩
  | case4 k v rest hgt ih =>
    refine List.pairwise_cons.2 ⟨fun e he => ?_, ih h.of_cons⟩
    rcases fst_mem_changeEntry he with heq | ⟨x, hx, heq⟩
    · exact heq ▸ Std.OrientedCmp.lt_of_gt hgt
    · exact heq ▸ List.rel_of_pairwise_cons h hx

/-- Change the value of a key. -/
def update [Std.TransCmp cmp] (t : Keyed cmp α) (key : κ) (fallback : α) (change : α → α) :
    Keyed cmp α :=
  ⟨changeEntry cmp key fallback change t.entries, ascending_changeEntry key fallback change t.ascending⟩

def keys (t : Keyed cmp α) : List κ := t.entries.map Prod.fst

@[simp] theorem keys_empty : (∅ : Keyed cmp α).keys = [] := rfl

/-- The value of a key, or a fallback if the key is missing. -/
def getD [DecidableEq κ] (t : Keyed cmp α) (key : κ) (fallback : α) : α :=
  (t.entries.lookup key).getD fallback

/-- Put a key into a set, which is keys without values. -/
def insert [Std.TransCmp cmp] (t : Keyed cmp Unit) (key : κ) : Keyed cmp Unit := t.update key () id

theorem pairwise_keys (t : Keyed cmp α) : t.keys.Pairwise fun a b => cmp a b = .lt :=
  List.pairwise_map.2 t.ascending

section Lookup
variable [DecidableEq κ]

theorem lookup_cons (k key : κ) (v : α) (rest : List (κ × α)) :
    ((key, v) :: rest).lookup k = if k = key then some v else rest.lookup k := by
  rw [List.lookup_cons]
  by_cases h : k = key
  · rw [if_pos h, beq_iff_eq.2 h]
  · rw [if_neg h, beq_eq_false_iff_ne.2 h]

/-- A key before all others is missing. -/
theorem lookup_of_lt (cmp : κ → κ → Ordering) [Std.LawfulEqCmp cmp] {key : κ}
    {entries : List (κ × α)} (h : ∀ e ∈ entries, cmp key e.1 = .lt) :
    entries.lookup key = none := by
  rw [List.lookup_eq_none_iff]
  intro e he
  exact bne_iff_ne.2 (ne_of_lt (h e he))

variable [Std.TransCmp cmp] [Std.LawfulEqCmp cmp]

theorem lookup_changeEntry (key : κ) (fallback : α) (change : α → α) {entries : List (κ × α)}
    (h : entries.Pairwise fun a b => cmp a.1 b.1 = .lt) (k : κ) :
    (changeEntry cmp key fallback change entries).lookup k =
      if k = key then some (change ((entries.lookup key).getD fallback)) else entries.lookup k := by
  fun_induction changeEntry cmp key fallback change entries with
  | case1 => exact lookup_cons ..
  | case2 k' v rest hlt =>
    have hmissing : List.lookup key ((k', v) :: rest) = none := by
      refine lookup_of_lt cmp fun e he => ?_
      rcases List.mem_cons.1 he with rfl | he
      · exact hlt
      · exact Std.TransCmp.lt_trans hlt (List.rel_of_pairwise_cons h he)
    rw [hmissing, lookup_cons]
    rfl
  | case3 k' v rest heq =>
    obtain rfl : key = k' := Std.LawfulEqCmp.eq_of_compare heq
    rw [lookup_cons, lookup_cons, lookup_cons, if_pos rfl]
    split <;> rfl
  | case4 k' v rest hgt ih =>
    have hne : key ≠ k' := (ne_of_lt (Std.OrientedCmp.lt_of_gt hgt)).symm
    rw [lookup_cons, lookup_cons, lookup_cons, ih h.of_cons, if_neg hne]
    by_cases hk : k = k'
    · rw [if_pos hk, if_pos hk, if_neg fun heq => hne (heq.symm.trans hk)]
    · rw [if_neg hk, if_neg hk]

/-- A change of one key changes no other value. -/
theorem getD_update (t : Keyed cmp α) (key : κ) (fallback : α) (change : α → α) (k : κ) :
    (t.update key fallback change).getD k fallback =
      if k = key then change (t.getD key fallback) else t.getD k fallback := by
  unfold getD update
  rw [lookup_changeEntry key fallback change t.ascending]
  split <;> rfl

end Lookup

/-- No key but the one that is changed comes in. -/
theorem mem_keys_update [Std.TransCmp cmp] [Std.LawfulEqCmp cmp] {t : Keyed cmp α} {key k : κ}
    {fallback : α} {change : α → α} :
    k ∈ (t.update key fallback change).keys ↔ k = key ∨ k ∈ t.keys := by
  change k ∈ (changeEntry cmp key fallback change t.entries).map Prod.fst ↔
    k = key ∨ k ∈ t.entries.map Prod.fst
  generalize t.entries = entries
  fun_induction changeEntry cmp key fallback change entries with
  | case1 => simp
  | case2 k' v rest => simp
  | case3 k' v rest heq =>
    obtain rfl : key = k' := Std.LawfulEqCmp.eq_of_compare heq
    simp
  | case4 k' v rest _ ih =>
    rw [List.map_cons, List.map_cons, List.mem_cons, List.mem_cons, ih]
    exact or_left_comm

@[simp] theorem mem_keys_insert [Std.TransCmp cmp] [Std.LawfulEqCmp cmp] {t : Keyed cmp Unit}
    {key k : κ} : k ∈ (t.insert key).keys ↔ k = key ∨ k ∈ t.keys := mem_keys_update

end Keyed
end PairDatasets
