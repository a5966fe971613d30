import Mathlib.Tactic.Common
import PairDatasets.Proofs.Evaluation.Margins

/-! Laws of evaluation. Each count and each score is a count of samples, so those of two batches add up, the
order of the samples does not matter, and a pair with its sides exchanged counts for the same two problems
in the other direction. -/
namespace PairDatasets

lemma Score.zero_add (s : Score) : Score.add {} s = s := by
  obtain ⟨tests, correct⟩ := s
  simp only [add, Nat.zero_add]

lemma Score.add_zero (s : Score) : s.add {} = s := rfl

/-- Both directions added. -/
def Directions.add (d d' : Directions) : Directions :=
  ⟨d.forward.add d'.forward, d.backward.add d'.backward⟩

lemma Directions.zero_add (d : Directions) : Directions.add {} d = d := by
  obtain ⟨forward, backward⟩ := d
  exact congrArg₂ mk forward.zero_add backward.zero_add

lemma Directions.add_zero (d : Directions) : d.add {} = d := rfl

lemma Answers.ext_count {a b : Answers}
    (h : ∀ actual predicted, a.count actual predicted = b.count actual predicted) : a = b := by
  obtain ⟨tn, fp, fn, tp⟩ := a
  obtain ⟨tn', fp', fn', tp'⟩ := b
  obtain rfl : tn = tn' := h false false
  obtain rfl : fp = fp' := h false true
  obtain rfl : fn = fn' := h true false
  obtain rfl : tp = tp' := h true true
  rfl

lemma Pair.joins_swap (a b : ℕ) (p : Pair) : p.swap.joins a b = p.joins b a := Bool.and_comm ..

lemma Pair.similar_swap (p : Pair) : p.swap.similar = p.similar := by
  unfold similar swap
  exact decide_eq_decide.mpr eq_comm

lemma Tally.key_swap (p : Pair) : key p.swap = key p := by
  unfold key Pair.swap
  rw [Nat.min_comm, Nat.max_comm]

namespace Sample
variable {xs ys : List Sample} {cond : Pair → Bool}

/-- The sample with the sides of its pair exchanged. -/
def swap (s : Sample) : Sample := { s with pair := s.pair.swap }

lemma scoreOf_append (xs ys : List Sample) (cond : Pair → Bool) :
    scoreOf (xs ++ ys) cond = (scoreOf xs cond).add (scoreOf ys cond) := by
  unfold scoreOf Score.add
  rw [List.countP_append, List.countP_append]

lemma scoreOf_perm (h : xs.Perm ys) : scoreOf xs cond = scoreOf ys cond := by
  unfold scoreOf
  rw [h.countP_eq, h.countP_eq]

lemma scoreOf_swap (xs : List Sample) (cond : Pair → Bool) :
    scoreOf (xs.map swap) cond = scoreOf xs fun p => cond p.swap := by
  unfold scoreOf
  rw [List.countP_map, List.countP_map]
  rfl

/-- Without a sample that satisfies the condition nothing is tested. -/
lemma scoreOf_eq_zero (h : ∀ s ∈ xs, ¬cond s.pair = true) : scoreOf xs cond = {} := by
  unfold scoreOf
  have hcorrect : ∀ s ∈ xs, ¬(cond s.pair && s.correct) = true := by
    intro s hs hboth
    exact h s hs (Bool.and_eq_true _ _ ▸ hboth).1
  rw [List.countP_eq_zero.mpr h, List.countP_eq_zero.mpr hcorrect]

end Sample

namespace Evaluation

/-! ### Values by key -/

/-- The score of the similar pairs of a problem, if there are any. -/
def score? (e : Evaluation) (q : ℕ) : Option Score :=
  (e.similar.find? fun x => x.problem = q).map ProblemScore.score

/-- The scores of the dissimilar pairs of two problems, if there are any. -/
def directions? (e : Evaluation) (a b : ℕ) : Option Directions :=
  (e.dissimilar.find? fun c => (c.problem1, c.problem2) = (a, b)).map fun c => ⟨c.forward, c.backward⟩

/-- Among values made from keys, the value of a key is the one made from it. -/
lemma find?_map_key {κ α : Type} [DecidableEq κ] {make : κ → α} {key : α → κ}
    (hkey : ∀ k, key (make k) = k) (ks : List κ) (q : κ) :
    (ks.map make).find? (fun x => key x = q) = if q ∈ ks then some (make q) else none := by
  induction ks with
  | nil => rfl
  | cons k ks ih =>
    rw [List.map_cons, List.find?_cons, hkey]
    by_cases hq : k = q
    · rw [decide_eq_true hq, if_pos (hq ▸ List.mem_cons_self), hq]
    · rw [decide_eq_false hq, ih]
      simp only [List.mem_cons, Ne.symm hq, false_or]

lemma score?_ofSamples (all : List Sample) (q : ℕ) : (ofSamples all).score? q =
    if q ∈ (Tally.ofSamples all).similar.keys then some (Sample.scoreOf all (Pair.joins q q))
    else none := by
  rw [score?, similar_ofSamples, find?_map_key fun _ => rfl, apply_ite (Option.map _)]
  rfl

lemma directions?_ofSamples (all : List Sample) (a b : ℕ) : (ofSamples all).directions? a b =
    if (a, b) ∈ (Tally.ofSamples all).dissimilar.keys then
      some ⟨Sample.scoreOf all (Pair.joins a b), Sample.scoreOf all (Pair.joins b a)⟩
    else none := by
  rw [directions?, dissimilar_ofSamples, find?_map_key fun _ => rfl, apply_ite (Option.map _)]
  split_ifs <;> rfl

/-! ### Two batches -/

/-- An evaluation is the sum of two: the four counts are added, and the scores of a problem or of two
problems are added where both have some. -/
structure Sums (e₁ e₂ e : Evaluation) : Prop where
  trueNegatives : e.trueNegatives = e₁.trueNegatives + e₂.trueNegatives
  falsePositives : e.falsePositives = e₁.falsePositives + e₂.falsePositives
  falseNegatives : e.falseNegatives = e₁.falseNegatives + e₂.falseNegatives
  truePositives : e.truePositives = e₁.truePositives + e₂.truePositives
  problems : (e.similar.map ProblemScore.problem).Pairwise (· < ·)
  score : ∀ q, e.score? q = Option.merge Score.add (e₁.score? q) (e₂.score? q)
  keys : e.dissimilar.Pairwise fun c d =>
    c.problem1 < d.problem1 ∨ c.problem1 = d.problem1 ∧ c.problem2 < d.problem2
  directions : ∀ a b, e.directions? a b =
    Option.merge Directions.add (e₁.directions? a b) (e₂.directions? a b)
  tested : e.tested.Pairwise (· < ·)
  mem_tested : ∀ l, l ∈ e.tested ↔ l ∈ e₁.tested ∨ l ∈ e₂.tested

/-- Values that are neutral where they are missing can be added as if they were there. -/
lemma merge_of_neutral {α : Type} {add : α → α → α} {zero a b : α} {p q : Prop} [Decidable p]
    [Decidable q] (hzero : ∀ x, add zero x = x) (hzero' : ∀ x, add x zero = x)
    (ha : ¬p → a = zero) (hb : ¬q → b = zero) :
    (if p ∨ q then some (add a b) else none) =
      Option.merge add (if p then some a else none) (if q then some b else none) := by
  by_cases hp : p <;> by_cases hq : q
  · rw [if_pos hp, if_pos hq, if_pos (.inl hp)]
    rfl
  · rw [if_pos hp, if_neg hq, if_pos (.inl hp), hb hq, hzero']
    rfl
  · rw [if_neg hp, if_pos hq, if_pos (.inr hq), ha hp, hzero]
    rfl
  · rw [if_neg hp, if_neg hq, if_neg (not_or_intro hp hq)]
    rfl

section Batches
variable (xs ys : List Sample)

lemma mem_similar_append {q : ℕ} : q ∈ (Tally.ofSamples (xs ++ ys)).similar.keys ↔
    q ∈ (Tally.ofSamples xs).similar.keys ∨ q ∈ (Tally.ofSamples ys).similar.keys := by
  rw [(Tally.counts_ofSamples _).problems, (Tally.counts_ofSamples xs).problems,
    (Tally.counts_ofSamples ys).problems, exists_mem_append]

lemma mem_dissimilar_append {k : ℕ × ℕ} : k ∈ (Tally.ofSamples (xs ++ ys)).dissimilar.keys ↔
    k ∈ (Tally.ofSamples xs).dissimilar.keys ∨ k ∈ (Tally.ofSamples ys).dissimilar.keys := by
  rw [(Tally.counts_ofSamples _).keys, (Tally.counts_ofSamples xs).keys,
    (Tally.counts_ofSamples ys).keys, exists_mem_append]

end Batches

section Missing
variable {xs : List Sample}

lemma scoreOf_of_not_mem {q : ℕ} (hq : q ∉ (Tally.ofSamples xs).similar.keys) :
    Sample.scoreOf xs (Pair.joins q q) = {} := by
  refine Sample.scoreOf_eq_zero fun s hs hjoins => hq ?_
  obtain ⟨h1, h2⟩ := Pair.joins_iff.mp hjoins
  exact ((Tally.counts_ofSamples xs).problems q).mpr
    ⟨s, hs, Pair.similar_iff.mpr (h1.trans h2.symm), h1⟩

/-- A pair of two problems, the smaller label first, has them as its key in both directions. -/
lemma directions_of_not_mem {a b : ℕ} (hab : a < b)
    (hk : (a, b) ∉ (Tally.ofSamples xs).dissimilar.keys) :
    (⟨Sample.scoreOf xs (Pair.joins a b), Sample.scoreOf xs (Pair.joins b a)⟩ : Directions) = {} := by
  have hmem := ((Tally.counts_ofSamples xs).keys (a, b)).mpr
  refine congrArg₂ Directions.mk ?_ ?_ <;>
    refine Sample.scoreOf_eq_zero fun s hs hjoins => hk (hmem ⟨s, hs, ?_, ?_⟩) <;>
    obtain ⟨h1, h2⟩ := Pair.joins_iff.mp hjoins
  · exact decide_eq_false (by omega)
  · rw [Tally.key, h1, h2, Nat.min_eq_left hab.le, Nat.max_eq_right hab.le]
  · exact decide_eq_false (by omega)
  · rw [Tally.key, h1, h2, Nat.min_eq_right hab.le, Nat.max_eq_left hab.le]

end Missing

theorem sums_append (xs ys : List Sample) :
    Sums (ofSamples xs) (ofSamples ys) (ofSamples (xs ++ ys)) := by
  have htabulates := tabulates_ofSamples (xs ++ ys)
  obtain ⟨htn, hfp, hfn, htp⟩ := answers_ofSamples xs
  obtain ⟨htn', hfp', hfn', htp'⟩ := answers_ofSamples ys
  obtain ⟨hsumtn, hsumfp, hsumfn, hsumtp⟩ := answers_ofSamples (xs ++ ys)
  constructor
  case trueNegatives => rw [hsumtn, htn, htn', List.countP_append]
  case falsePositives => rw [hsumfp, hfp, hfp', List.countP_append]
  case falseNegatives => rw [hsumfn, hfn, hfn', List.countP_append]
  case truePositives => rw [hsumtp, htp, htp', List.countP_append]
  case problems => exact htabulates.problems
  case score =>
    intro q
    rw [score?_ofSamples, score?_ofSamples, score?_ofSamples, Sample.scoreOf_append]
    simp only [mem_similar_append]
    exact merge_of_neutral Score.zero_add Score.add_zero scoreOf_of_not_mem scoreOf_of_not_mem
  case keys => exact htabulates.keys
  case directions =>
    intro a b
    rw [directions?_ofSamples, directions?_ofSamples, directions?_ofSamples, Sample.scoreOf_append,
      Sample.scoreOf_append]
    simp only [mem_dissimilar_append]
    by_cases hab : a < b
    · exact merge_of_neutral Directions.zero_add Directions.add_zero (directions_of_not_mem hab)
        (directions_of_not_mem hab)
    · -- keys have the smaller label first, so there is nothing to add up
      have hmissing (all : List Sample) : (a, b) ∉ (Tally.ofSamples all).dissimilar.keys := by
        intro hk
        exact hab (Tally.lt_of_mem_keys hk)
      rw [if_neg (not_or_intro (hmissing xs) (hmissing ys)), if_neg (hmissing xs),
        if_neg (hmissing ys)]
      rfl
  case tested => exact htabulates.tested
  case mem_tested =>
    intro l
    rw [ofSamples, ofTally, ofSamples, ofTally, ofSamples, ofTally,
      (Tally.counts_ofSamples _).tested, (Tally.counts_ofSamples xs).tested,
      (Tally.counts_ofSamples ys).tested, exists_mem_append]

/-! ### Another order -/

lemma exists_mem_perm {xs ys : List Sample} (h : xs.Perm ys) {P : Sample → Prop} :
    (∃ s ∈ xs, P s) ↔ ∃ s ∈ ys, P s := by
  simp only [h.mem_iff]

theorem ofSamples_perm {xs ys : List Sample} (h : xs.Perm ys) : ofSamples xs = ofSamples ys := by
  have hxs := Tally.counts_ofSamples xs
  have hys := Tally.counts_ofSamples ys
  have hanswers : (Tally.ofSamples xs).answers = (Tally.ofSamples ys).answers := by
    refine Answers.ext_count fun actual predicted => ?_
    rw [hxs.answers, hys.answers, h.countP_eq]
  have hsimilar : (ofSamples xs).similar = (ofSamples ys).similar := by
    have hkeys : (Tally.ofSamples xs).similar.keys = (Tally.ofSamples ys).similar.keys := by
      refine Keyed.keys_eq_of_mem_iff fun q => ?_
      rw [hxs.problems, hys.problems, exists_mem_perm h]
    rw [similar_ofSamples, similar_ofSamples, hkeys]
    simp only [Sample.scoreOf_perm h]
  have hdissimilar : (ofSamples xs).dissimilar = (ofSamples ys).dissimilar := by
    have hkeys : (Tally.ofSamples xs).dissimilar.keys = (Tally.ofSamples ys).dissimilar.keys := by
      refine Keyed.keys_eq_of_mem_iff fun k => ?_
      rw [hxs.keys, hys.keys, exists_mem_perm h]
    rw [dissimilar_ofSamples, dissimilar_ofSamples, hkeys]
    simp only [Sample.scoreOf_perm h]
  have htested : (ofSamples xs).tested = (ofSamples ys).tested := by
    refine Keyed.keys_eq_of_mem_iff fun l => ?_
    rw [hxs.tested, hys.tested, exists_mem_perm h]
  exact mk.injEq .. ▸ ⟨hanswers, hsimilar, hdissimilar, htested⟩

/-! ### Exchanged sides -/

/-- The evaluation with the two directions exchanged. -/
def exchange (e : Evaluation) : Evaluation :=
  { e with dissimilar := e.dissimilar.map fun c => { c with forward := c.backward, backward := c.forward } }

lemma exists_mem_swap {xs : List Sample} {P : Sample → Prop} :
    (∃ s ∈ xs.map Sample.swap, P s) ↔ ∃ s ∈ xs, P s.swap := by
  simp only [List.mem_map, exists_exists_and_eq_and]

theorem ofSamples_swap (xs : List Sample) : ofSamples (xs.map Sample.swap) = (ofSamples xs).exchange := by
  have hxs := Tally.counts_ofSamples xs
  have hswapped := Tally.counts_ofSamples (xs.map Sample.swap)
  have hanswers :
      (Tally.ofSamples (xs.map Sample.swap)).answers = (Tally.ofSamples xs).answers := by
    refine Answers.ext_count fun actual predicted => ?_
    rw [hxs.answers, hswapped.answers, List.countP_map]
    rfl
  have hsimilar : (ofSamples (xs.map Sample.swap)).similar = (ofSamples xs).similar := by
    have hkeys : (Tally.ofSamples (xs.map Sample.swap)).similar.keys =
        (Tally.ofSamples xs).similar.keys := by
      refine Keyed.keys_eq_of_mem_iff fun q => ?_
      rw [hxs.problems, hswapped.problems, exists_mem_swap]
      refine exists_congr fun s => and_congr_right fun _ => ?_
      rw [Sample.swap, Pair.similar_swap]
      refine and_congr_right fun hs => ?_
      rw [Pair.similar_iff.mp hs]
      rfl
    rw [similar_ofSamples, similar_ofSamples, hkeys]
    simp only [Sample.scoreOf_swap, Pair.joins_swap]
  have hdissimilar : (ofSamples (xs.map Sample.swap)).dissimilar =
      (ofSamples xs).exchange.dissimilar := by
    have hkeys : (Tally.ofSamples (xs.map Sample.swap)).dissimilar.keys =
        (Tally.ofSamples xs).dissimilar.keys := by
      refine Keyed.keys_eq_of_mem_iff fun k => ?_
      rw [hxs.keys, hswapped.keys, exists_mem_swap]
      simp only [Sample.swap, Pair.similar_swap, Tally.key_swap]
    rw [exchange, dissimilar_ofSamples, dissimilar_ofSamples, hkeys, List.map_map]
    simp only [Sample.scoreOf_swap, Pair.joins_swap]
    rfl
  have htested : (ofSamples (xs.map Sample.swap)).tested = (ofSamples xs).tested := by
    refine Keyed.keys_eq_of_mem_iff fun l => ?_
    rw [hxs.tested, hswapped.tested, exists_mem_swap]
    simp only [Sample.swap, Pair.swap, or_comm]
  exact mk.injEq .. ▸ ⟨hanswers, hsimilar, hdissimilar, htested⟩

/-! ### Scores, labels and pairs -/

section Inputs
variable {mode : LabelMode} {scores scores' : List Float} {labels labels' : List ℤ}
  {pairs pairs' : List Pair}

lemma samples_eq_map (mode : LabelMode) (scores : List Float) (labels : List ℤ) (pairs : List Pair) :
    samples mode scores labels pairs = (scores.zip (labels.zip pairs)).map fun row =>
      Sample.ofScore mode row.1 row.2.1 row.2.2 := by
  fun_induction samples mode scores labels pairs with
  | case1 x xs l ls p ps ih => exact congrArg (_ :: ·) ih
  | case2 xs ls ps hempty =>
    cases xs with
    | nil => rfl
    | cons x xs =>
      cases ls with
      | nil => rfl
      | cons l ls =>
        cases ps with
        | nil => rfl
        | cons p ps => exact absurd rfl (hempty x xs l ls p ps rfl rfl)

lemma samples_append (mode : LabelMode) (hlabels : scores.length = labels.length)
    (hpairs : labels.length = pairs.length) :
    samples mode (scores ++ scores') (labels ++ labels') (pairs ++ pairs') =
      samples mode scores labels pairs ++ samples mode scores' labels' pairs' := by
  have hzip : scores.length = (labels.zip pairs).length := by
    rw [List.length_zip, ← hpairs, Nat.min_self, hlabels]
  rw [samples_eq_map, samples_eq_map, samples_eq_map, List.zip_append hpairs, List.zip_append hzip,
    List.map_append]

lemma samples_unzip (mode : LabelMode) (rows : List (Float × ℤ × Pair)) :
    samples mode (rows.map fun row => row.1) (rows.map fun row => row.2.1)
        (rows.map fun row => row.2.2) =
      rows.map fun row => Sample.ofScore mode row.1 row.2.1 row.2.2 := by
  rw [samples_eq_map, List.zip_map', List.zip_map', List.map_map]
  rfl

lemma samples_swap (mode : LabelMode) (scores : List Float) (labels : List ℤ) (pairs : List Pair) :
    samples mode scores labels (pairs.map Pair.swap) =
      (samples mode scores labels pairs).map Sample.swap := by
  rw [samples_eq_map, samples_eq_map, List.zip_map_right, List.zip_map_right, List.map_map,
    List.map_map]
  rfl

/-- Two batches put together are evaluated to the sum of their evaluations. The order of the rows of scores,
labels and pairs does not matter, and exchanging the sides of all pairs exchanges the directions and nothing
else. -/
theorem ofScores_additive (mode : LabelMode) (hlabels : scores.length = labels.length)
    (hpairs : labels.length = pairs.length) (hlabels' : scores'.length = labels'.length)
    (hpairs' : labels'.length = pairs'.length) :
    ∃ e e' sum, ofScores mode scores labels pairs = .ok e ∧
      ofScores mode scores' labels' pairs' = .ok e' ∧
      ofScores mode (scores ++ scores') (labels ++ labels') (pairs ++ pairs') = .ok sum ∧
      Sums e e' sum ∧
      (∀ rows : List (Float × ℤ × Pair), rows.Perm (scores.zip (labels.zip pairs)) →
        ofScores mode (rows.map fun row => row.1) (rows.map fun row => row.2.1)
          (rows.map fun row => row.2.2) = .ok e) ∧
      ofScores mode scores labels (pairs.map Pair.swap) = .ok e.exchange := by
  refine ⟨_, _, _, ofScores_eq_ok mode hlabels hpairs, ofScores_eq_ok mode hlabels' hpairs',
    ofScores_eq_ok mode ?_ ?_, ?_, ?_, ?_⟩
  · rw [List.length_append, List.length_append, hlabels, hlabels']
  · rw [List.length_append, List.length_append, hpairs, hpairs']
  · rw [samples_append mode hlabels hpairs]
    exact sums_append ..
  · intro rows hrows
    have hlength : (rows.map fun row => row.1).length = (rows.map fun row => row.2.1).length := by
      rw [List.length_map, List.length_map]
    have hlength' : (rows.map fun row => row.2.1).length = (rows.map fun row => row.2.2).length := by
      rw [List.length_map, List.length_map]
    rw [ofScores_eq_ok mode hlength hlength', samples_unzip, samples_eq_map]
    exact congrArg Except.ok (ofSamples_perm (hrows.map _))
  · have hlength : labels.length = (pairs.map Pair.swap).length := by rw [List.length_map, hpairs]
    rw [ofScores_eq_ok mode hlabels hlength, samples_swap, ofSamples_swap]

/-- Both batches have similar pairs of one problem, and each has dissimilar pairs that the other has not. -/
theorem ofScores_additive_overlappingBatches :
    let scores : List Float := [0.9, 0.2, 0.7]
    let labels : List ℤ := [1, 0, 0]
    let pairs : List Pair := [⟨4, 0, 4, 1⟩, ⟨4, 1, 7, 0⟩, ⟨7, 0, 4, 2⟩]
    let scores' : List Float := [0.1, 0.8]
    let labels' : List ℤ := [1, 0]
    let pairs' : List Pair := [⟨4, 1, 4, 0⟩, ⟨7, 1, 2, 0⟩]
    scores.length = labels.length ∧ labels.length = pairs.length ∧
      scores'.length = labels'.length ∧ labels'.length = pairs'.length ∧
      ∃ e e' sum, ofScores .binary scores labels pairs = .ok e ∧
        ofScores .binary scores' labels' pairs' = .ok e' ∧
        ofScores .binary (scores ++ scores') (labels ++ labels') (pairs ++ pairs') = .ok sum ∧
        Sums e e' sum ∧ sum.similar = [⟨4, ⟨2, 1⟩⟩] ∧
        sum.dissimilar = [⟨2, 7, ⟨0, 0⟩, ⟨1, 0⟩⟩, ⟨4, 7, ⟨1, 1⟩, ⟨1, 0⟩⟩] ∧
        ofScores .binary [0.7, 0.9, 0.2] [0, 1, 0] [⟨7, 0, 4, 2⟩, ⟨4, 0, 4, 1⟩, ⟨4, 1, 7, 0⟩] = .ok e ∧
        ofScores .binary scores labels [⟨4, 1, 4, 0⟩, ⟨7, 0, 4, 1⟩, ⟨4, 2, 7, 0⟩] = .ok e.exchange ∧
        e.dissimilar = [⟨4, 7, ⟨1, 1⟩, ⟨1, 0⟩⟩] ∧ e.exchange.dissimilar = [⟨4, 7, ⟨1, 0⟩, ⟨1, 1⟩⟩] := by
  intro scores labels pairs scores' labels' pairs'
  obtain ⟨e, e', sum, he, he', hsum, hsums, hperm, hswap⟩ :=
    @ofScores_additive scores scores' labels labels' pairs pairs' .binary rfl rfl rfl rfl
  have hdecided : samples .binary scores labels pairs = [⟨⟨4, 0, 4, 1⟩, true, true⟩,
      ⟨⟨4, 1, 7, 0⟩, false, false⟩, ⟨⟨7, 0, 4, 2⟩, false, true⟩] := by decide
  have hdecided' : samples .binary scores' labels' pairs' = [⟨⟨4, 1, 4, 0⟩, true, false⟩,
      ⟨⟨7, 1, 2, 0⟩, false, true⟩] := by decide
  have hfirst : e = ofSamples (samples .binary scores labels pairs) := (Except.ok.inj he).symm
  have hboth : sum = ofSamples (samples .binary (scores ++ scores') (labels ++ labels')
    (pairs ++ pairs')) := (Except.ok.inj hsum).symm
  rw [samples_append .binary rfl rfl, hdecided, hdecided'] at hboth
  rw [hdecided] at hfirst
  have hrows : [((0.7 : Float), (0 : ℤ), (⟨7, 0, 4, 2⟩ : Pair)), (0.9, 1, ⟨4, 0, 4, 1⟩),
      (0.2, 0, ⟨4, 1, 7, 0⟩)].Perm (scores.zip (labels.zip pairs)) :=
    (List.Perm.swap ..).trans ((List.Perm.swap ..).cons _)
  refine ⟨rfl, rfl, rfl, rfl, e, e', sum, he, he', hsum, hsums, ?_, ?_, hperm _ hrows, hswap, ?_, ?_⟩
  · exact congrArg Evaluation.similar hboth
  · exact congrArg Evaluation.dissimilar hboth
  · exact congrArg Evaluation.dissimilar hfirst
  · exact congrArg (fun e => e.exchange.dissimilar) hfirst

end Inputs
end Evaluation
end PairDatasets
