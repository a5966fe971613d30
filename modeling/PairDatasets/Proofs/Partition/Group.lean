import Mathlib.Data.List.Nodup
import Mathlib.Data.List.Pairwise
import PairDatasets.Partition.Divide

/-! Labels and slices. In a corpus every problem stands at the place of its label, so slices are
found by labels, and what the splits are given of a problem can be compared with all it has. -/
namespace PairDatasets

namespace Corpus
variable {c : Corpus}

/-- Every problem stands at the place of its label. -/
def Labelled (c : Corpus) : Prop := c.problems.map Problem.label = List.range c.problemCount

lemma labelled_ofProblems (t : String) (v : ℕ) (ps : List (String × List Solution)) :
    (ofProblems t v ps).Labelled := by
  apply List.ext_getElem
  · simp [problemCount]
  · intro i h1 h2
    simp [ofProblems]

lemma Labelled.label_eq (h : c.Labelled) {i : ℕ} {p : Problem} (hi : c.problem? i = some p) :
    p.label = i := by
  have hmap : (c.problems.map Problem.label)[i]? = some p.label := by
    rw [List.getElem?_map]
    exact congrArg (Option.map Problem.label) hi
  rw [h, List.getElem?_eq_some_iff] at hmap
  obtain ⟨hi, hp⟩ := hmap
  simpa using hp.symm

lemma Labelled.problem?_label (h : c.Labelled) {p : Problem} (hp : p ∈ c.problems) :
    c.problem? p.label = some p := by
  obtain ⟨i, hi⟩ := List.mem_iff_getElem?.mp hp
  rw [h.label_eq hi]
  exact hi

lemma Labelled.map_take (h : c.Labelled) {n : ℕ} (hn : n ≤ c.problemCount) :
    (c.problems.take n).map Problem.label = List.range n := by
  rw [List.map_take, h, List.take_range, Nat.min_eq_left hn]

/-- How many solutions there are of a problem; none if there is no such problem. -/
def sizeOf (c : Corpus) (problem : ℕ) : ℕ := ((c.problem? problem).map Problem.size).getD 0

lemma Labelled.sizeOf_label (h : c.Labelled) {p : Problem} (hp : p ∈ c.problems) :
    c.sizeOf p.label = p.size := by
  rw [sizeOf, h.problem?_label hp]
  rfl

lemma sizeOf_eq_zero {q : ℕ} (h : c.problemCount ≤ q) : c.sizeOf q = 0 := by
  have hnone : c.problem? q = none := List.getElem?_eq_none h
  rw [sizeOf, hnone]
  rfl

lemma solution?_isSome {q i : ℕ} : (c.solution? q i).isSome ↔ i < c.sizeOf q := by
  unfold solution? sizeOf Problem.size
  cases c.problem? q <;> simp

end Corpus

namespace Group
variable {g : Group} {q : ℕ}

lemma mem_of_slice? {s : Slice} (h : g.slice? q = some s) : s ∈ g.slices ∧ s.problem = q := by
  unfold slice? at h
  exact ⟨List.mem_of_find?_eq_some h, by simpa using List.find?_some h⟩

lemma slice?_of_mem (h : g.labels.Nodup) {s : Slice} (hs : s ∈ g.slices) :
    g.slice? s.problem = some s := by
  cases hfind : g.slice? s.problem with
  | none =>
    unfold slice? at hfind
    simpa using List.find?_eq_none.mp hfind s hs
  | some r =>
    obtain ⟨hr, hlabel⟩ := mem_of_slice? hfind
    rw [List.inj_on_of_nodup_map h hr hs hlabel]

lemma slice?_eq_none (h : q ∉ g.labels) : g.slice? q = none := by
  unfold slice?
  simp only [List.find?_eq_none]
  intro s hs heq
  exact h (List.mem_map.mpr ⟨s, hs, by simpa using heq⟩)

/-- The solutions that a group has of a problem. -/
def given (g : Group) (problem : ℕ) : List ℕ := ((g.slice? problem).map Slice.solutions).getD []

lemma given_of_mem (h : g.labels.Nodup) {s : Slice} (hs : s ∈ g.slices) :
    g.given s.problem = s.solutions := by
  rw [given, slice?_of_mem h hs]
  rfl

lemma given_of_not_mem (h : q ∉ g.labels) : g.given q = [] := by
  rw [given, slice?_eq_none h]
  rfl

lemma mem_given (h : g.labels.Nodup) {i : ℕ} (hi : g.Offers q i) : i ∈ g.given q := by
  obtain ⟨s, hs, rfl, hi⟩ := hi
  rwa [given_of_mem h hs]

lemma mem_labels {i : ℕ} (hi : g.Offers q i) : q ∈ g.labels := by
  obtain ⟨s, hs, rfl, -⟩ := hi
  exact List.mem_map_of_mem hs

/-- One slice for each of some things. -/
def each {α : Type} (xs : List α) (label : α → ℕ) (pick : α → List ℕ) : Group :=
  ⟨0, xs.map fun x => ⟨label x, pick x⟩⟩

@[simp] lemma labels_each {α : Type} (xs : List α) (label : α → ℕ) (pick : α → List ℕ) :
    (each xs label pick).labels = xs.map label := by
  simp [each, labels, Function.comp_def]

lemma given_each {α : Type} {xs : List α} {label : α → ℕ} (pick : α → List ℕ)
    (h : (xs.map label).Nodup) {x : α} (hx : x ∈ xs) :
    (each xs label pick).given (label x) = pick x := by
  have hs : ⟨label x, pick x⟩ ∈ (each xs label pick).slices := List.mem_map.mpr ⟨x, hx, rfl⟩
  rw [← labels_each xs label pick] at h
  exact given_of_mem h hs

/-- The group holds the problems from `first` up to `last`, with all their solutions in order. -/
structure Spans (c : Corpus) (first last : ℕ) (g : Group) : Prop where
  start : g.start = first
  labels : g.labels = List.range' first (last - first)
  solutions : ∀ s ∈ g.slices, s.solutions = List.range (c.sizeOf s.problem)

lemma spans_whole {c : Corpus} (h : c.Labelled) {first last : ℕ} (hl : last ≤ c.problemCount) :
    (whole c first last).Spans c first last := by
  refine ⟨rfl, ?_, ?_⟩
  · change (((c.problems.drop first).take (last - first)).map _).map Slice.problem = _
    rw [List.map_map]
    change ((c.problems.drop first).take (last - first)).map Problem.label = _
    rw [List.map_take, List.map_drop, h, List.range_eq_range', List.drop_range',
      List.take_range'_of_length_ge (by omega), Nat.zero_add, Nat.mul_one]
  · intro s hs
    obtain ⟨p, hp, rfl⟩ := List.mem_map.mp hs
    have hmem : p ∈ c.problems := List.mem_of_mem_drop (List.mem_of_mem_take hp)
    exact congrArg List.range (h.sizeOf_label hmem).symm

lemma Spans.nodup {c : Corpus} {first last : ℕ} (h : g.Spans c first last) : g.labels.Nodup := by
  rw [h.labels]
  exact List.nodup_range'

lemma Spans.mem_labels {c : Corpus} {first last : ℕ} (h : g.Spans c first last) :
    q ∈ g.labels ↔ first ≤ q ∧ q < last := by
  rw [h.labels, List.mem_range'_1]
  omega

lemma Spans.given {c : Corpus} {first last : ℕ} (h : g.Spans c first last) (q : ℕ) :
    g.given q = if first ≤ q ∧ q < last then List.range (c.sizeOf q) else [] := by
  split_ifs with hq
  · obtain ⟨s, hs, rfl⟩ := List.mem_map.mp (h.mem_labels.mpr hq)
    rw [given_of_mem h.nodup hs, h.solutions s hs]
  · exact given_of_not_mem fun hmem => hq (h.mem_labels.mp hmem)

/-- The group of a run of problems, which is left out if the run is empty. -/
structure Fills (c : Corpus) (first last : ℕ) (g : Option Group) : Prop where
  eq_none : g = none ↔ first = last
  spans : ∀ x, g = some x → x.Spans c first last

lemma Spans.fills {c : Corpus} {first last : ℕ} (h : g.Spans c first last) (hne : first ≠ last) :
    Fills c first last (some g) := by
  constructor
  · simp [hne]
  · rintro _ ⟨⟩
    exact h

lemma fills_whole {c : Corpus} (h : c.Labelled) {first last : ℕ} (hle : first ≤ last)
    (hl : last ≤ c.problemCount) :
    Fills c first last (if first < last then some (whole c first last) else none) := by
  rcases Nat.lt_or_eq_of_le hle with hlt | rfl
  · rw [if_pos hlt]
    exact (spans_whole h hl).fills (Nat.ne_of_lt hlt)
  · rw [if_neg (Nat.lt_irrefl _)]
    exact ⟨by simp, by simp⟩

lemma Fills.labels {c : Corpus} {first last : ℕ} {g : Option Group} (h : Fills c first last g) :
    (g.map Group.labels).getD [] = List.range' first (last - first) := by
  cases g with
  | none => simp [h.eq_none.mp rfl]
  | some g => exact (h.spans g rfl).labels

lemma Fills.given {c : Corpus} {first last : ℕ} {g : Option Group} (h : Fills c first last g)
    (q : ℕ) : (g.map fun x => x.given q).getD [] =
      if first ≤ q ∧ q < last then List.range (c.sizeOf q) else [] := by
  cases g with
  | none =>
    obtain rfl := h.eq_none.mp rfl
    rw [if_neg (by omega)]
    rfl
  | some g => exact (h.spans g rfl).given q

end Group

namespace Partition
variable {p : Partition}

/-- The solutions that a split is given of a problem. -/
def given (p : Partition) (s : Split) (problem : ℕ) : List ℕ :=
  ((p.group? s).map fun g => g.given problem).getD []

/-- The labels of a split. -/
def labels (p : Partition) (s : Split) : List ℕ := ((p.group? s).map Group.labels).getD []

/-- The splits have distinct labels, and together exactly the solutions of the corpus. -/
structure Exact (c : Corpus) (p : Partition) : Prop where
  nodup : ∀ s, (p.labels s).Nodup
  perm : ∀ q, (Split.all.flatMap fun s => p.given s q).Perm (List.range (c.sizeOf q))

lemma given_of_not_mem {s : Split} {q : ℕ} (h : q ∉ p.labels s) : p.given s q = [] := by
  unfold labels at h
  unfold given
  cases hg : p.group? s with
  | none => rfl
  | some g =>
    rw [hg] at h
    exact Group.given_of_not_mem h

lemma mem_given (hnodup : ∀ s, (p.labels s).Nodup) {s : Split} {g : Group}
    (hg : p.group? s = some g) {q i : ℕ} (hi : g.Offers q i) : i ∈ p.given s q := by
  have hlabels := hnodup s
  rw [labels, hg] at hlabels
  rw [given, hg]
  exact Group.mem_given hlabels hi

/-- No solution is given to two splits. -/
theorem Exact.disjoint {c : Corpus} (h : p.Exact c) {s r : Split} (hne : s ≠ r) (q : ℕ) :
    (p.given s q).Disjoint (p.given r q) := by
  have hnodup : (Split.all.flatMap fun s => p.given s q).Nodup :=
    (h.perm q).nodup_iff.mpr List.nodup_range
  have hpair := (List.nodup_flatMap.mp hnodup).2
  have hsymm : Std.Symm (Function.onFun List.Disjoint fun s => p.given s q) :=
    ⟨fun _ _ => List.disjoint_symm⟩
  exact hpair.forall (Split.mem_all s) (Split.mem_all r) hne

theorem Exact.solution?_isSome {c : Corpus} (h : p.Exact c) {s : Split} {q i : ℕ}
    (hi : i ∈ p.given s q) : (c.solution? q i).isSome := by
  have hmem : i ∈ Split.all.flatMap fun s => p.given s q :=
    List.mem_flatMap.mpr ⟨s, Split.mem_all s, hi⟩
  rw [(h.perm q).mem_iff, List.mem_range] at hmem
  exact Corpus.solution?_isSome.mpr hmem

end Partition

/-- Six problems with four solutions each. -/
def sixProblems : List (String × List Solution) :=
  List.replicate 6 ("problem", List.replicate 4 ⟨"solution", [1, 2]⟩)

end PairDatasets
