import Mathlib.Data.List.Forall2
import PairDatasets.Proofs.Sampling.Pairs

/-! Drawing sees the sizes of slices only. A draft of places is drawn from them, and every place of it is read
as the label of its slice and the solution at its index, so groups with slices of equal sizes give pairs from
equal places, whatever their labels and solutions are. -/
namespace PairDatasets

namespace Group
variable {group : Group}

/-- The place lies in the group: the problem is the label of its slice, and the solution stands at its index
there. -/
def Reads (group : Group) (x : Place) (problem solution : ℕ) : Prop :=
  ∃ s, group.slices[x.slice]? = some s ∧ s.problem = problem ∧ s.solutions[x.index]? = some solution

/-- Both sides of a pair are read from a pair of places. -/
structure ReadsPair (group : Group) (x : PlacePair) (p : Pair) : Prop where
  left : group.Reads x.left p.problem1 p.solution1
  right : group.Reads x.right p.problem2 p.solution2

lemma reads_solutionAt {x : Place} (h : x.Lies group.sizes) :
    group.Reads x (solutionAt group.indexed x).1 (solutionAt group.indexed x).2 := by
  obtain ⟨s, i, hs, hi, heq⟩ := exists_slice h
  rw [heq]
  exact ⟨s, hs, rfl, hi⟩

/-- The pairs of a group are read from the places of its draft, one by one. -/
theorem readsPair_places {slots target : ℕ} {fraction : Float} {g : Generator} {d : Draft}
    (h : (Draft.draw group.sizes slots target fraction g).1 = .ok d) :
    List.Forall₂ group.ReadsPair d.places.toList (d.places.toList.map (pairAt group.indexed)) := by
  obtain ⟨blocks, rest, hdrawn⟩ := Draft.draw_drawn h
  rw [List.forall₂_map_right_iff, List.forall₂_same]
  intro x hx
  obtain ⟨hleft, hright⟩ := hdrawn.lies hx
  exact ⟨reads_solutionAt hleft, reads_solutionAt hright⟩

end Group

/-- Groups whose slices have equal sizes are drawn from alike: the generator is left in the same state, and
either both are refused for the same reason or both give equally many pairs of each kind, whose places are the
same one by one. -/
theorem drawPairs_of_sizes_eq {group other : Group} (hsizes : group.sizes = other.sizes)
    (slots target : ℕ) (fraction : Float) (g : Generator) :
    (group.drawPairs slots target fraction g).2 = (other.drawPairs slots target fraction g).2 ∧
      ((∃ e, (group.drawPairs slots target fraction g).1 = .error e ∧
          (other.drawPairs slots target fraction g).1 = .error e) ∨
        ∃ r r' places, (group.drawPairs slots target fraction g).1 = .ok r ∧
          (other.drawPairs slots target fraction g).1 = .ok r' ∧
          r.similar = r'.similar ∧ r.dissimilar = r'.dissimilar ∧
          List.Forall₂ group.ReadsPair places r.pairs ∧ List.Forall₂ other.ReadsPair places r'.pairs) := by
  have hsame : Draft.draw other.sizes slots target fraction g =
      Draft.draw group.sizes slots target fraction g := by rw [hsizes]
  unfold Group.drawPairs
  dsimp only
  rw [hsame]
  refine ⟨rfl, ?_⟩
  cases hd : (Draft.draw group.sizes slots target fraction g).1 with
  | error e => exact .inl ⟨e, rfl, rfl⟩
  | ok d =>
    have hother : (Draft.draw other.sizes slots target fraction g).1 = .ok d := by rw [hsame, hd]
    exact .inr ⟨_, _, d.places.toList, rfl, rfl, rfl, rfl, Group.readsPair_places hd,
      Group.readsPair_places hother⟩

/-- The sizes of `unevenGroup` with other labels, one of them twice, and other solutions. -/
def relabelledGroup : Group := ⟨0, [⟨8, [7, 1, 4]⟩, ⟨2, []⟩, ⟨2, [0]⟩, ⟨5, [9, 3]⟩]⟩

theorem drawPairs_relabelledGroup : unevenGroup.sizes = relabelledGroup.sizes ∧
    ∃ r r' places, (unevenGroup.drawPairs 16 10 0.5 ⟨1917⟩).1 = .ok r ∧
      (relabelledGroup.drawPairs 16 10 0.5 ⟨1917⟩).1 = .ok r' ∧
      List.Forall₂ unevenGroup.ReadsPair places r.pairs ∧
      List.Forall₂ relabelledGroup.ReadsPair places r'.pairs := by
  have hsizes : unevenGroup.sizes = relabelledGroup.sizes := by decide
  refine ⟨hsizes, ?_⟩
  obtain ⟨r, hr⟩ := exists_of_isOk (x := (unevenGroup.drawPairs 16 10 0.5 ⟨1917⟩).1)
    (by decide +kernel)
  rcases (drawPairs_of_sizes_eq hsizes 16 10 0.5 ⟨1917⟩).2 with
    ⟨e, herror, -⟩ | ⟨r, r', places, hok, hok', -, -, hreads, hreads'⟩
  · rw [hr] at herror
    cases herror
  · exact ⟨r, r', places, hok, hok', hreads, hreads'⟩

end PairDatasets
