/-!
Sorted lists in which nothing stands twice.
-/
namespace PairDatasets

/-- Drop neighbours that repeat. -/
def dropRepeats {α : Type _} [DecidableEq α] : List α → List α
  | [] => []
  | [a] => [a]
  | a :: b :: rest => if a = b then dropRepeats (b :: rest) else a :: dropRepeats (b :: rest)

/-- The members of a list, sorted, each once. -/
def distinct {α : Type _} [DecidableEq α] (le : α → α → Bool) (xs : List α) : List α :=
  dropRepeats (xs.mergeSort le)

/-- Numbers, ascending and each once. -/
def distinctNats (xs : List Nat) : List Nat := distinct (fun a b => a ≤ b) xs

theorem mem_dropRepeats {α : Type _} [DecidableEq α] {x : α} (xs : List α) :
    x ∈ dropRepeats xs ↔ x ∈ xs := by
  fun_induction dropRepeats xs with
  | case1 => rfl
  | case2 => rfl
  | case3 b rest ih => rw [ih]; simp
  | case4 a b rest _ ih => simp only [List.mem_cons, ih]

@[simp] theorem mem_distinct {α : Type _} [DecidableEq α] {le : α → α → Bool} {x : α}
    {xs : List α} : x ∈ distinct le xs ↔ x ∈ xs := by
  simp [distinct, mem_dropRepeats]

@[simp] theorem mem_distinctNats {x : Nat} {xs : List Nat} : x ∈ distinctNats xs ↔ x ∈ xs :=
  mem_distinct

/-- Of a sorted list only one of each value is left. -/
theorem pairwise_dropRepeats {xs : List Nat} (h : xs.Pairwise (· ≤ ·)) :
    (dropRepeats xs).Pairwise (· < ·) := by
  fun_induction dropRepeats xs with
  | case1 => exact .nil
  | case2 => simp
  | case3 b rest ih => exact ih h.of_cons
  | case4 a b rest ne ih =>
    refine List.pairwise_cons.2 ⟨fun c hc => ?_, ih h.of_cons⟩
    have hab : a ≤ b := List.rel_of_pairwise_cons h (by simp)
    rcases List.mem_cons.1 ((mem_dropRepeats _).1 hc) with rfl | hc
    · omega
    · have := List.rel_of_pairwise_cons h.of_cons hc
      omega

theorem pairwise_distinctNats (xs : List Nat) : (distinctNats xs).Pairwise (· < ·) := by
  refine pairwise_dropRepeats ?_
  have h : (xs.mergeSort fun a b => decide (a ≤ b)).Pairwise fun a b => decide (a ≤ b) = true :=
    List.pairwise_mergeSort (by simp; omega) (by simp; omega) xs
  simpa using h

example : dropRepeats [1, 1, 2, 3, 3] = [1, 2, 3] := by decide

end PairDatasets
