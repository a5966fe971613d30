/-!
How often each number below a bound occurs in a list, counted in one walk over the list. The main
statement: these are the counts that one walk for each number would give.
-/
namespace PairDatasets

/-- Add one at the place of every number; numbers without a place do not count. -/
def addOccurrences (counts : Array Nat) (xs : List Nat) : Array Nat :=
  xs.foldl (fun counts x => counts.modify x (· + 1)) counts

/-- How often each number below `bound` occurs. -/
def occurrences (bound : Nat) (xs : List Nat) : Array Nat :=
  addOccurrences (Array.replicate bound 0) xs

theorem size_addOccurrences (counts : Array Nat) (xs : List Nat) :
    (addOccurrences counts xs).size = counts.size := by
  induction xs generalizing counts with
  | nil => rfl
  | cons x xs ih =>
    have h := ih (counts.modify x (· + 1))
    simpa [addOccurrences] using h

theorem getElem?_addOccurrences (counts : Array Nat) (xs : List Nat) (i : Nat) :
    (addOccurrences counts xs)[i]? = counts[i]?.map (· + xs.count i) := by
  induction xs generalizing counts with
  | nil => simp [addOccurrences]
  | cons x xs ih =>
    have h := ih (counts.modify x (· + 1))
    simp only [addOccurrences, List.foldl_cons] at h ⊢
    rw [h, Array.getElem?_modify]
    by_cases hx : x = i
    · subst hx
      rw [if_pos rfl, List.count_cons_self, Option.map_map]
      congr 1
      funext n
      simp only [Function.comp_apply]
      omega
    · rw [if_neg hx, List.count_cons_of_ne hx]

@[simp] theorem size_occurrences (bound : Nat) (xs : List Nat) :
    (occurrences bound xs).size = bound := by
  simp [occurrences, size_addOccurrences]

theorem toList_occurrences (bound : Nat) (xs : List Nat) :
    (occurrences bound xs).toList = (List.range bound).map xs.count := by
  refine List.ext_getElem? fun i => ?_
  rw [Array.getElem?_toList, occurrences, getElem?_addOccurrences]
  by_cases h : i < bound
  · simp [h]
  · simp [h]

example : occurrences 3 [0, 2, 2, 5] = #[1, 0, 2] := by decide

end PairDatasets
