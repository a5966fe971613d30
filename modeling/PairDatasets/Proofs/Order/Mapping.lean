import Mathlib.Data.List.Forall2
import Mathlib.Tactic.Common

/-! Going through a list. A function that may fail gives all results in order, or the first error; a fold
carries along what each of its steps keeps. -/
namespace PairDatasets
variable {ε α β γ : Type}

lemma exists_mem_append {P : α → Prop} {xs ys : List α} :
    (∃ x ∈ xs ++ ys, P x) ↔ (∃ x ∈ xs, P x) ∨ ∃ x ∈ ys, P x := by
  simp only [List.mem_append, or_and_right, exists_or]

/-- What holds of the items so far, and still does with every item that a step takes in, holds of all items
after a fold. -/
lemma foldl_keeps {step : β → α → β} {P : List α → β → Prop} {seen : List α} {b : β} (xs : List α)
    (h : P seen b) (hstep : ∀ seen b x, P seen b → P (seen ++ [x]) (step b x)) :
    P (seen ++ xs) (xs.foldl step b) := by
  induction xs generalizing seen b with
  | nil => rwa [List.append_nil]
  | cons x xs ih =>
    rw [List.foldl_cons, List.append_cons]
    exact ih (hstep seen b x h)

/-- The results in order, up to the first error. -/
def Collects (results : List (Except ε α)) : Except ε (List α) → Prop
  | .ok xs => results = xs.map .ok
  | .error e => ∃ (xs : List α) (rest : _), results = xs.map .ok ++ .error e :: rest

lemma collects_mapM (f : α → Except ε β) (xs : List α) : Collects (xs.map f) (xs.mapM f) := by
  induction xs with
  | nil => rfl
  | cons x xs ih =>
    rw [List.map_cons, List.mapM_cons]
    cases hx : f x with
    | error e => exact ⟨[], xs.map f, rfl⟩
    | ok y =>
      cases hxs : xs.mapM f with
      | ok ys =>
        rw [hxs] at ih
        exact congrArg (.ok y :: ·) ih
      | error e =>
        rw [hxs] at ih
        obtain ⟨ys, rest, hrest⟩ := ih
        exact ⟨y :: ys, rest, by rw [hrest]; rfl⟩

/-- Mapping fails with the first item that fails. -/
lemma mapM_eq_error {f : α → Except ε β} {xs : List α} {e : ε} : xs.mapM f = .error e ↔
    ∃ front x rest, xs = front ++ x :: rest ∧ (∀ y ∈ front, ∃ b, f y = .ok b) ∧ f x = .error e := by
  constructor
  · intro h
    have hcollects := collects_mapM f xs
    rw [h] at hcollects
    obtain ⟨ys, results, hmap⟩ := hcollects
    obtain ⟨front, back, rfl, hfront, hback⟩ := List.map_eq_append_iff.mp hmap
    obtain ⟨x, rest, rfl, hx, -⟩ := List.map_eq_cons_iff.mp hback
    refine ⟨front, x, rest, rfl, ?_, hx⟩
    intro y hy
    obtain ⟨b, -, hb⟩ := List.mem_map.mp (hfront ▸ List.mem_map_of_mem hy)
    exact ⟨b, hb.symm⟩
  · rintro ⟨front, x, rest, rfl, hfront, hx⟩
    induction front with
    | nil => rw [List.nil_append, List.mapM_cons, hx]; rfl
    | cons y front ih =>
      obtain ⟨b, hb⟩ := hfront y (.head front)
      rw [List.cons_append, List.mapM_cons, hb, ih fun z hz => hfront z (.tail y hz)]
      rfl

lemma exists_of_mapM_eq_error {f : α → Except ε β} {xs : List α} {e : ε}
    (h : xs.mapM f = .error e) : ∃ x ∈ xs, f x = .error e := by
  obtain ⟨front, x, rest, rfl, -, hx⟩ := mapM_eq_error.mp h
  exact ⟨x, List.mem_append_right front (.head rest), hx⟩

lemma mapM_map (f : α → Except ε β) (g : β → γ) (xs : List α) :
    (xs.mapM fun x => (f x).map g) = (xs.mapM f).map (List.map g) := by
  induction xs with
  | nil => rfl
  | cons x xs ih =>
    rw [List.mapM_cons, List.mapM_cons, ih]
    cases f x with
    | error e => rfl
    | ok y => cases xs.mapM f <;> rfl

lemma mapM_eq_ok {f : α → Except ε β} {xs : List α} {ys : List β} :
    xs.mapM f = .ok ys ↔ List.Forall₂ (fun x y => f x = .ok y) xs ys := by
  induction xs generalizing ys with
  | nil => cases ys <;> simp [pure, Except.pure]
  | cons x xs ih =>
    rw [List.mapM_cons]
    cases hx : f x with
    | error e => cases ys <;> simp [bind, Except.bind, hx]
    | ok y =>
      cases hxs : xs.mapM f <;> rw [hxs] at ih <;>
        cases ys <;> simp [bind, Except.bind, pure, Except.pure, hx, ← ih]

lemma exists_of_forall₂_right {R : α → β → Prop} {xs : List α} {ys : List β}
    (h : List.Forall₂ R xs ys) {y : β} (hy : y ∈ ys) : ∃ x ∈ xs, R x y := by
  induction h with
  | nil => cases hy
  | cons hxy _ ih =>
    cases hy with
    | head => exact ⟨_, .head _, hxy⟩
    | tail _ hy =>
      obtain ⟨x, hx, hxy⟩ := ih hy
      exact ⟨x, .tail _ hx, hxy⟩

lemma map_eq_map_of_forall₂ {R : α → β → Prop} {f : α → γ} {g : β → γ}
    (hfg : ∀ x y, R x y → f x = g y) {xs : List α} {ys : List β} (h : List.Forall₂ R xs ys) :
    xs.map f = ys.map g := by
  induction h with
  | nil => rfl
  | cons hxy _ ih => rw [List.map_cons, List.map_cons, hfg _ _ hxy, ih]

lemma filterMap_eq_of_forall₂ {R : α → β → Prop} {f : α → Option γ} {g : β → Option γ}
    (hfg : ∀ x y, R x y → f x = g y) {xs : List α} {ys : List β} (h : List.Forall₂ R xs ys) :
    xs.filterMap f = ys.filterMap g := by
  induction h with
  | nil => rfl
  | cons hxy _ ih => rw [List.filterMap_cons, List.filterMap_cons, hfg _ _ hxy, ih]

end PairDatasets
