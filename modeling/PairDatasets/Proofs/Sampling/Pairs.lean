import Mathlib
import PairDatasets.Proofs.Sampling.Places

/-! Drawing pairs of a group. Places are read through the slices of the group, so a draft becomes a
set of pairs with the same counts: of each problem its share, and the rest from two problems. -/
namespace PairDatasets

/-- What the entries of a key add up to. -/
def tally (entries : List (ℕ × ℕ)) (key : ℕ) : ℕ :=
  ((entries.filter fun e => e.1 = key).map Prod.snd).sum

lemma tally_cons (e : ℕ × ℕ) (entries : List (ℕ × ℕ)) (key : ℕ) :
    tally (e :: entries) key = (if e.1 = key then e.2 else 0) + tally entries key := by
  unfold tally
  by_cases h : e.1 = key <;> simp [h]

lemma tally_eq_zero {entries : List (ℕ × ℕ)} {key : ℕ} (h : key ∉ entries.map Prod.fst) :
    tally entries key = 0 := by
  induction entries with
  | nil => rfl
  | cons e entries ih =>
    rw [List.map_cons, List.mem_cons, not_or] at h
    rw [tally_cons, if_neg (Ne.symm h.1), ih h.2]

/-- Of distinct keys each has its entry for itself. -/
lemma tally_eq_lookup {entries : List (ℕ × ℕ)} (h : (entries.map Prod.fst).Nodup) (key : ℕ) :
    tally entries key = (entries.lookup key).getD 0 := by
  induction entries with
  | nil => rfl
  | cons e entries ih =>
    obtain ⟨k, n⟩ := e
    rw [List.map_cons, List.nodup_cons] at h
    rw [tally_cons, List.lookup_cons]
    by_cases hk : k = key
    · subst hk
      simp [tally_eq_zero h.1]
    · have hbeq : (key == k) = false := by simpa using Ne.symm hk
      simp [hk, hbeq, ih h.2]

namespace PlacePair

/-- The left slices of the blocks, named in any way, are counted by the shares. -/
lemma countP_blocks {sizes : List ℕ} {shares : List (ℕ × ℕ × ℕ)} {blocks : List (List PlacePair)}
    (h : List.Forall₂ (Gives sizes) shares blocks) (name : ℕ → ℕ) (key : ℕ) :
    blocks.flatten.countP (fun x => name x.left.slice = key) =
      tally (shares.map fun (slice, _, share) => (name slice, share)) key := by
  induction h with
  | nil => rfl
  | @cons e block shares blocks hgives _ ih =>
    have hblock : block.countP (fun x => name x.left.slice = key) =
        if name e.1 = key then e.2.2 else 0 := by
      split_ifs with hname
      · rw [← hgives.length, List.countP_eq_length]
        intro x hx
        simpa [(hgives.within x hx).left_slice] using hname
      · rw [List.countP_eq_zero]
        intro x hx
        simpa [(hgives.within x hx).left_slice] using hname
    rw [List.flatten_cons, List.countP_append, ih, hblock, List.map_cons, tally_cons]

lemma length_blocks {sizes : List ℕ} {shares : List (ℕ × ℕ × ℕ)} {blocks : List (List PlacePair)}
    (h : List.Forall₂ (Gives sizes) shares blocks) :
    blocks.flatten.length = (shares.map fun e => e.2.2).sum := by
  induction h with
  | nil => rfl
  | cons hgives _ ih => rw [List.flatten_cons, List.length_append, ih, hgives.length]; rfl

lemma exists_within {sizes : List ℕ} {shares : List (ℕ × ℕ × ℕ)} {blocks : List (List PlacePair)}
    (h : List.Forall₂ (Gives sizes) shares blocks) {x : PlacePair} (hx : x ∈ blocks.flatten) :
    ∃ slice, Within sizes slice x := by
  induction h with
  | nil => cases hx
  | cons hgives _ ih =>
    rw [List.flatten_cons, List.mem_append] at hx
    rcases hx with hx | hx
    · exact ⟨_, hgives.within x hx⟩
    · exact ih hx

end PlacePair

/-- All places of a draft lie in slices. -/
lemma Draft.Drawn.lies {sizes : List ℕ} {budget target : ℕ} {d : Draft} {blocks : List (List PlacePair)}
    {rest : List PlacePair} (h : d.Drawn sizes budget target blocks rest) {x : PlacePair}
    (hx : x ∈ d.places.toList) : x.left.Lies sizes ∧ x.right.Lies sizes := by
  rw [h.perm.mem_iff, List.mem_append] at hx
  rcases hx with hx | hx
  · obtain ⟨slice, hwithin⟩ := PlacePair.exists_within h.gives hx
    exact ⟨hwithin.left, hwithin.right⟩
  · exact ⟨(h.apart x hx).left, (h.apart x hx).right⟩

namespace Group
variable {group : Group}

/-- A place in one of the slices is read from that slice. -/
lemma exists_slice {x : Place} (h : x.Lies group.sizes) :
    ∃ s i, group.slices[x.slice]? = some s ∧ s.solutions[x.index]? = some i ∧
      solutionAt group.indexed x = (s.problem, i) := by
  unfold Place.Lies sizes at h
  rw [List.getD_eq_getElem?_getD, List.getElem?_map] at h
  cases hs : group.slices[x.slice]? with
  | none => simp [hs] at h
  | some s =>
    rw [hs] at h
    have hi : x.index < s.solutions.length := h
    have hslice : group.indexed.getD x.slice (0, #[]) = (s.problem, s.solutions.toArray) := by
      rw [Array.getD_eq_getD_getElem?, indexed, List.getElem?_toArray, List.getElem?_map, hs]
      rfl
    refine ⟨s, s.solutions[x.index], rfl, List.getElem?_eq_getElem hi, ?_⟩
    rw [solutionAt, hslice]
    simp [hi]

lemma offers_solutionAt {x : Place} (h : x.Lies group.sizes) :
    group.Offers (solutionAt group.indexed x).1 (solutionAt group.indexed x).2 := by
  obtain ⟨s, i, hs, hi, heq⟩ := exists_slice h
  rw [heq]
  exact ⟨s, List.mem_of_getElem? hs, rfl, List.mem_of_getElem? hi⟩

/-- The label of the slice at a place. -/
def labelAt (group : Group) (slice : ℕ) : ℕ := group.labels.getD slice 0

lemma fst_solutionAt {x : Place} (h : x.Lies group.sizes) :
    (solutionAt group.indexed x).1 = group.labelAt x.slice := by
  obtain ⟨s, i, hs, -, heq⟩ := exists_slice h
  simp [heq, labelAt, labels, hs]

lemma labelAt_ne (hlabels : group.labels.Nodup) {x y : Place} (hx : x.Lies group.sizes)
    (hy : y.Lies group.sizes) (hne : x.slice ≠ y.slice) :
    group.labelAt x.slice ≠ group.labelAt y.slice := by
  obtain ⟨s, -, hs, -, -⟩ := exists_slice hx
  obtain ⟨r, -, hr, -, -⟩ := exists_slice hy
  have hlength : x.slice < group.labels.length := by
    rw [labels, List.length_map]
    exact (List.getElem?_eq_some_iff.mp hs).1
  intro heq
  apply hne
  rw [← List.getElem?_inj hlength hlabels]
  simpa [labelAt, labels, hs, hr] using heq

lemma similar_of_within {slice : ℕ} {x : PlacePair} (h : PlacePair.Within group.sizes slice x) :
    (pairAt group.indexed x).similar = true := by
  have hl := fst_solutionAt h.left
  have hr := fst_solutionAt h.right
  rw [h.left_slice] at hl
  rw [h.right_slice] at hr
  exact decide_eq_true (hl.trans hr.symm)

lemma not_similar_of_apart (hlabels : group.labels.Nodup) {x : PlacePair}
    (h : PlacePair.Apart group.sizes x) : (pairAt group.indexed x).similar = false := by
  have hne := labelAt_ne hlabels h.left h.right h.ne
  rw [← fst_solutionAt h.left, ← fst_solutionAt h.right] at hne
  exact decide_eq_false hne

lemma solution_ne_of_within (hsolutions : ∀ s ∈ group.slices, s.solutions.Nodup) {slice : ℕ}
    {x : PlacePair} (h : PlacePair.Within group.sizes slice x) :
    (pairAt group.indexed x).solution1 ≠ (pairAt group.indexed x).solution2 := by
  obtain ⟨s, i, hs, hi, hleft⟩ := exists_slice h.left
  obtain ⟨r, j, hr, hj, hright⟩ := exists_slice h.right
  change (solutionAt group.indexed x.left).2 ≠ (solutionAt group.indexed x.right).2
  rw [hleft, hright]
  rw [h.left_slice] at hs
  rw [h.right_slice, hs] at hr
  cases hr
  rintro rfl
  have hlength := (List.getElem?_eq_some_iff.mp hi).1
  exact h.ne ((List.getElem?_inj hlength (hsolutions s (List.mem_of_getElem? hs))).mp (hi.trans hj.symm))

lemma similarShares_keys (group : Group) (budget : ℕ) :
    ((group.similarShares budget).map Prod.fst).Sublist group.labels := by
  have hall : (group.sizes.zipIdx.map fun e => group.labels.getD e.2 0) = group.labels := by
    apply List.ext_getElem
    · simp [sizes, labels]
    · intro i h1 h2
      simp [List.getD_eq_getElem?_getD, List.getElem?_eq_getElem h2]
  unfold Group.similarShares PairDatasets.similarShares
  dsimp only
  split_ifs
  · exact List.nil_sublist _
  · simp only [List.map_map]
    have hsub := (List.filter_sublist (p := fun e => decide (2 ≤ e.1)) (l := group.sizes.zipIdx)).map
      fun e => group.labels.getD e.2 0
    rw [hall] at hsub
    exact hsub

lemma drawPairs_eq_ok {slots target : ℕ} {fraction : Float} {g : Generator} {r : PairSet}
    (h : (group.drawPairs slots target fraction g).1 = .ok r) :
    ∃ d : Draft, (∃ blocks rest, d.Drawn group.sizes (similarBudget target fraction) target blocks rest) ∧
      r = ⟨d.places.toList.map (pairAt group.indexed), d.similar, target - d.similar⟩ := by
  unfold drawPairs at h
  dsimp only at h
  cases hd : (Draft.draw group.sizes slots target fraction g).1 with
  | error e =>
    rw [hd] at h
    cases h
  | ok d =>
    rw [hd] at h
    cases h
    exact ⟨d, Draft.draw_drawn hd, rfl⟩

/-- Whatever is drawn lies in a slice of the group. -/
theorem drawPairs_offers {slots target : ℕ} {fraction : Float} {g : Generator} {r : PairSet}
    (h : (group.drawPairs slots target fraction g).1 = .ok r) {x : Pair} (hx : x ∈ r.pairs) :
    group.Offers x.problem1 x.solution1 ∧ group.Offers x.problem2 x.solution2 := by
  obtain ⟨d, ⟨blocks, rest, hd⟩, rfl⟩ := drawPairs_eq_ok h
  obtain ⟨y, hy, rfl⟩ := List.mem_map.mp hx
  obtain ⟨hleft, hright⟩ := hd.lies hy
  exact ⟨offers_solutionAt hleft, offers_solutionAt hright⟩

end Group

namespace PairSet

/-- How many similar pairs there are of a problem. -/
def similarOf (r : PairSet) (problem : ℕ) : ℕ :=
  r.pairs.countP fun x => x.similar && decide (x.problem1 = problem)

/-- A set of pairs that a group may give for a target and a budget of similar pairs. -/
structure Sound (group : Group) (budget target : ℕ) (r : PairSet) : Prop where
  length : r.pairs.length = target
  add : r.similar + r.dissimilar = target
  similar : r.pairs.countP Pair.similar = r.similar
  dissimilar : r.pairs.countP (fun x => !x.similar) = r.dissimilar
  ne : ∀ x ∈ r.pairs, x.similar = true → x.solution1 ≠ x.solution2
  offers : ∀ x ∈ r.pairs,
    group.Offers x.problem1 x.solution1 ∧ group.Offers x.problem2 x.solution2
  similarOf : ∀ q, r.similarOf q = ((group.similarShares budget).lookup q).getD 0
  total : r.similar = ((group.similarShares budget).map Prod.snd).sum

lemma sound_of_drawPairs {group : Group} (hlabels : group.labels.Nodup)
    (hsolutions : ∀ s ∈ group.slices, s.solutions.Nodup) {slots target : ℕ} {fraction : Float}
    {g : Generator} {r : PairSet} (h : (group.drawPairs slots target fraction g).1 = .ok r) :
    r.Sound group (similarBudget target fraction) target := by
  have hoffers := fun x hx => Group.drawPairs_offers h (x := x) hx
  obtain ⟨d, ⟨blocks, rest, hd⟩, rfl⟩ := Group.drawPairs_eq_ok h
  have hsimilar {x} (hx : x ∈ blocks.flatten) : (Group.pairAt group.indexed x).similar = true := by
    obtain ⟨slice, hwithin⟩ := PlacePair.exists_within hd.gives hx
    exact Group.similar_of_within hwithin
  have hdissimilar {x} (hx : x ∈ rest) : (Group.pairAt group.indexed x).similar = false :=
    Group.not_similar_of_apart hlabels (hd.apart x hx)
  -- Counts do not see the last shuffle, so every count is one over the two kinds of places.
  have hcount (P : Pair → Bool) : (d.places.toList.map (Group.pairAt group.indexed)).countP P =
      blocks.flatten.countP (fun x => P (Group.pairAt group.indexed x)) +
        rest.countP fun x => P (Group.pairAt group.indexed x) := by
    rw [List.countP_map, hd.perm.countP_eq, List.countP_append]
    rfl
  have hlength := hd.length
  have heq := hd.similar
  refine ⟨?_, ?_, ?_, ?_, ?_, hoffers, ?_, ?_⟩
  · rw [List.length_map, hd.perm.length_eq, List.length_append, hlength]
  · dsimp only
    omega
  · rw [hcount, List.countP_eq_length.mpr fun x hx => hsimilar hx,
      List.countP_eq_zero.mpr fun x hx => by simp [hdissimilar hx], heq, Nat.add_zero]
  · rw [hcount, List.countP_eq_zero.mpr fun x hx => by simp [hsimilar hx],
      List.countP_eq_length.mpr fun x hx => by simp [hdissimilar hx]]
    dsimp only
    omega
  · intro x hx hsim
    obtain ⟨y, hy, rfl⟩ := List.mem_map.mp hx
    rw [hd.perm.mem_iff, List.mem_append] at hy
    rcases hy with hy | hy
    · obtain ⟨slice, hwithin⟩ := PlacePair.exists_within hd.gives hy
      exact Group.solution_ne_of_within hsolutions hwithin
    · rw [hdissimilar hy] at hsim
      cases hsim
  · intro q
    have hnodup := hlabels.sublist (Group.similarShares_keys group (similarBudget target fraction))
    have hrest : rest.countP (fun x => (Group.pairAt group.indexed x).similar &&
        decide ((Group.pairAt group.indexed x).problem1 = q)) = 0 := by
      rw [List.countP_eq_zero]
      intro x hx
      simp [hdissimilar hx]
    rw [← tally_eq_lookup hnodup, similarOf, hcount, hrest, Nat.add_zero]
    refine Eq.trans (List.countP_congr fun x hx => ?_)
      (PlacePair.countP_blocks hd.gives group.labelAt q)
    obtain ⟨slice, hwithin⟩ := PlacePair.exists_within hd.gives hx
    rw [hsimilar hx, Bool.true_and, ← Group.fst_solutionAt hwithin.left]
    rfl
  · rw [heq, PlacePair.length_blocks hd.gives, Group.similarShares, List.map_map]
    rfl

end PairSet

/-- Pair generation is sound, and its counts do not depend on the table or on the generator. -/
theorem drawPairs_sound {group : Group} (hlabels : group.labels.Nodup)
    (hsolutions : ∀ s ∈ group.slices, s.solutions.Nodup) {slots target : ℕ} {fraction : Float}
    {g : Generator} {r : PairSet} (h : (group.drawPairs slots target fraction g).1 = .ok r) :
    r.Sound group (similarBudget target fraction) target ∧
      ∀ slots' g' r', (group.drawPairs slots' target fraction g').1 = .ok r' →
        r'.similar = r.similar ∧ r'.dissimilar = r.dissimilar ∧ ∀ q, r'.similarOf q = r.similarOf q := by
  have hr := PairSet.sound_of_drawPairs hlabels hsolutions h
  refine ⟨hr, ?_⟩
  intro slots' g' r' h'
  have hr' := PairSet.sound_of_drawPairs hlabels hsolutions h'
  have hsimilar : r'.similar = r.similar := by rw [hr.total, hr'.total]
  have hadd := hr.add
  have hadd' := hr'.add
  refine ⟨hsimilar, by omega, ?_⟩
  intro q
  rw [hr.similarOf, hr'.similarOf]

/-- Slices of three, no, one and two solutions. -/
def unevenGroup : Group := ⟨3, [⟨3, [0, 2, 5]⟩, ⟨4, []⟩, ⟨7, [1]⟩, ⟨9, [4, 6]⟩]⟩

theorem drawPairs_sound_unevenGroup :
    ∃ r, (unevenGroup.drawPairs 16 10 0.5 ⟨1917⟩).1 = .ok r ∧ r.Sound unevenGroup 5 10 := by
  obtain ⟨r, hr⟩ := exists_of_isOk (x := (unevenGroup.drawPairs 16 10 0.5 ⟨1917⟩).1)
    (by decide +kernel)
  have hbudget : similarBudget 10 0.5 = 5 := by decide +kernel
  exact ⟨r, hr, hbudget ▸ (drawPairs_sound (by decide) (by decide) hr).1⟩

end PairDatasets
