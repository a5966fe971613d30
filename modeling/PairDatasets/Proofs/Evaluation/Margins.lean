import Mathlib.Tactic.Common
import PairDatasets.Proofs.Evaluation.Tally

/-! The margins of an evaluation. Every pair is one answer of the four kinds and one test of one score, so
the four counts, the tests and the right answers add up to each other. Where the labels are those of the
pairs, they do so for similar and for dissimilar pairs apart. -/
namespace PairDatasets

namespace Sample

/-- The label of a pair decides for what the pair is. -/
lemma decides_label (mode : LabelMode) (p : Pair) :
    decides mode (Float.ofInt (p.label mode)) = p.similar := by
  unfold Pair.label
  cases p.similar <;> cases mode <;> decide

/-- Samples of one kind are counted apart by anything else. -/
lemma countP_apart (samples : List Sample) (P Q : Sample → Bool) :
    (samples.countP fun s => P s && Q s) + (samples.countP fun s => P s && !Q s) =
      samples.countP P := by
  simp [List.countP_eq_countP_filter_add samples P Q, List.countP_filter]

lemma countP_add_not (samples : List Sample) (Q : Sample → Bool) :
    samples.countP Q + (samples.countP fun s => !Q s) = samples.length := by
  simpa using countP_apart samples (fun _ => true) Q

/-- A sample is taken for what it is if the answer is right. -/
lemma actual_and_correct (s : Sample) : (s.actual && s.correct) = (s.actual && s.predicted) := by
  obtain ⟨p, actual, predicted⟩ := s
  cases actual <;> cases predicted <;> rfl

lemma not_actual_and_correct (s : Sample) : (!s.actual && s.correct) = (!s.actual && !s.predicted) := by
  obtain ⟨p, actual, predicted⟩ := s
  cases actual <;> cases predicted <;> rfl

lemma countP_correct (samples : List Sample) (Q : Sample → Bool) :
    (samples.countP fun s => Q s && s.correct) + (samples.countP fun s => !Q s && s.correct) =
      samples.countP Sample.correct := by
  rw [← countP_apart samples Sample.correct Q]
  simp only [Bool.and_comm]

lemma scoreOf_correct_le (samples : List Sample) (cond : Pair → Bool) :
    (scoreOf samples cond).correct ≤ (scoreOf samples cond).tests := by
  refine List.countP_mono_left fun s _ h => ?_
  exact (Bool.and_eq_true _ _ ▸ h).1

end Sample

namespace Evaluation
variable {mode : LabelMode} {scores : List Float} {labels : List ℤ} {pairs : List Pair}

/-! ### Samples -/

lemma map_pair_samples (mode : LabelMode) (hlabels : scores.length = labels.length)
    (hpairs : labels.length = pairs.length) :
    (samples mode scores labels pairs).map Sample.pair = pairs := by
  induction scores generalizing labels pairs with
  | nil =>
    have hnil : pairs = [] := List.length_eq_zero_iff.mp (hpairs.symm.trans hlabels.symm)
    rw [hnil]
    rfl
  | cons x scores ih =>
    cases labels with
    | nil => cases hlabels
    | cons l labels =>
      cases pairs with
      | nil => cases hpairs
      | cons p pairs =>
        exact congrArg (p :: ·) (ih (Nat.succ.inj hlabels) (Nat.succ.inj hpairs))

/-- With the labels of the pairs every sample is what its pair is. -/
lemma actual_samples {s : Sample} (hs : s ∈ samples mode scores (pairs.map (Pair.label mode)) pairs) :
    s.actual = s.pair.similar := by
  induction pairs generalizing scores with
  | nil => cases scores <;> cases hs
  | cons p pairs ih =>
    cases scores with
    | nil => cases hs
    | cons x scores =>
      rcases List.mem_cons.mp hs with rfl | hs
      · exact Sample.decides_label mode p
      · exact ih hs

/-- With the labels as scores every sample is taken for what it is. -/
lemma predicted_samples {s : Sample} (hs : s ∈ samples mode (labels.map Float.ofInt) labels pairs) :
    s.actual = s.predicted := by
  induction labels generalizing pairs with
  | nil => cases hs
  | cons l labels ih =>
    cases pairs with
    | nil => cases hs
    | cons p pairs =>
      rcases List.mem_cons.mp hs with rfl | hs
      · rfl
      · exact ih hs

lemma ofScores_eq_ok (mode : LabelMode) (hlabels : scores.length = labels.length)
    (hpairs : labels.length = pairs.length) :
    ofScores mode scores labels pairs = .ok (ofSamples (samples mode scores labels pairs)) := by
  have hmatch : ¬(scores.length ≠ labels.length ∨ labels.length ≠ pairs.length) := by
    rw [hlabels, hpairs]
    simp
  rw [ofScores, if_neg hmatch]

/-! ### Margins -/

section Tally
variable {all : List Sample}

lemma mem_similar {x : ProblemScore} (hx : x ∈ (ofSamples all).similar) :
    x.score = Sample.scoreOf all (Pair.joins x.problem x.problem) := by
  rw [similar_ofSamples] at hx
  obtain ⟨q, -, rfl⟩ := List.mem_map.mp hx
  rfl

lemma mem_dissimilar {c : CrossScore} (hc : c ∈ (ofSamples all).dissimilar) :
    c.problem1 < c.problem2 ∧
      c.forward = Sample.scoreOf all (Pair.joins c.problem1 c.problem2) ∧
      c.backward = Sample.scoreOf all (Pair.joins c.problem2 c.problem1) := by
  rw [dissimilar_ofSamples] at hc
  obtain ⟨k, hk, rfl⟩ := List.mem_map.mp hc
  exact ⟨Tally.lt_of_mem_keys hk, rfl, rfl⟩

lemma sum_similar (all : List Sample) :
    ((ofSamples all).similar.map fun s => s.score.tests).sum =
      (Sample.scoreOf all Pair.similar).tests ∧
    ((ofSamples all).similar.map fun s => s.score.correct).sum =
      (Sample.scoreOf all Pair.similar).correct := by
  rw [← (Tally.counts_ofSamples all).similarTotal, ofSamples, ofTally, List.map_map, List.map_map]
  exact ⟨rfl, rfl⟩

lemma sum_dissimilar (all : List Sample) :
    ((ofSamples all).dissimilar.map fun c => c.forward.tests + c.backward.tests).sum =
      (Sample.scoreOf all fun p => !p.similar).tests ∧
    ((ofSamples all).dissimilar.map fun c => c.forward.correct + c.backward.correct).sum =
      (Sample.scoreOf all fun p => !p.similar).correct := by
  rw [← (Tally.counts_ofSamples all).dissimilarTotal, ofSamples, ofTally, List.map_map, List.map_map]
  exact ⟨rfl, rfl⟩

end Tally

/-- An evaluation accounts for every pair, in its four counts and in its scores. Each score counts the
samples of its problem, or of its two problems in its direction. -/
structure Tabulates (pairs : List Pair) (samples : List Sample) (e : Evaluation) : Prop where
  size : e.trueNegatives + e.falsePositives + e.falseNegatives + e.truePositives = pairs.length
  tests : (e.similar.map fun s => s.score.tests).sum +
    (e.dissimilar.map fun c => c.forward.tests + c.backward.tests).sum = pairs.length
  correct : (e.similar.map fun s => s.score.correct).sum +
    (e.dissimilar.map fun c => c.forward.correct + c.backward.correct).sum =
      e.trueNegatives + e.truePositives
  similar_le : ∀ s ∈ e.similar, s.score.correct ≤ s.score.tests
  dissimilar_le : ∀ c ∈ e.dissimilar,
    c.forward.correct ≤ c.forward.tests ∧ c.backward.correct ≤ c.backward.tests
  problems : (e.similar.map ProblemScore.problem).Pairwise (· < ·)
  keys : e.dissimilar.Pairwise fun c d =>
    c.problem1 < d.problem1 ∨ c.problem1 = d.problem1 ∧ c.problem2 < d.problem2
  ordered : ∀ c ∈ e.dissimilar, c.problem1 < c.problem2
  score : ∀ s ∈ e.similar, s.score = Sample.scoreOf samples (Pair.joins s.problem s.problem)
  directions : ∀ c ∈ e.dissimilar,
    c.forward = Sample.scoreOf samples (Pair.joins c.problem1 c.problem2) ∧
      c.backward = Sample.scoreOf samples (Pair.joins c.problem2 c.problem1)
  tested : e.tested.Pairwise (· < ·)
  mem_tested : ∀ l, l ∈ e.tested ↔ ∃ p ∈ pairs, p.problem1 = l ∨ p.problem2 = l

/-- The four counts, by what the samples are and what they are taken for. -/
lemma answers_ofSamples (all : List Sample) :
    (ofSamples all).trueNegatives = (all.countP fun s => !s.actual && !s.predicted) ∧
      (ofSamples all).falsePositives = (all.countP fun s => !s.actual && s.predicted) ∧
      (ofSamples all).falseNegatives = (all.countP fun s => s.actual && !s.predicted) ∧
      (ofSamples all).truePositives = all.countP fun s => s.actual && s.predicted := by
  have hanswers := (Tally.counts_ofSamples all).answers
  refine ⟨(hanswers false false).trans ?_, (hanswers false true).trans ?_,
    (hanswers true false).trans ?_, (hanswers true true).trans ?_⟩ <;> simp

theorem tabulates_ofSamples (all : List Sample) :
    (ofSamples all).Tabulates (all.map Sample.pair) all := by
  have hcounts := Tally.counts_ofSamples all
  obtain ⟨htn, hfp, hfn, htp⟩ := answers_ofSamples all
  obtain ⟨hsimilarTests, hsimilarCorrect⟩ := sum_similar all
  obtain ⟨hdissimilarTests, hdissimilarCorrect⟩ := sum_dissimilar all
  constructor
  · have hpositive := Sample.countP_apart all Sample.actual Sample.predicted
    have hnegative := Sample.countP_apart all (fun s => !s.actual) Sample.predicted
    have hall := Sample.countP_add_not all Sample.actual
    rw [htn, hfp, hfn, htp, List.length_map]
    omega
  · rw [List.length_map, ← Sample.countP_add_not all fun s => s.pair.similar]
    exact congrArg₂ (· + ·) hsimilarTests hdissimilarTests
  · have hright := Sample.countP_correct all Sample.actual
    simp only [Sample.actual_and_correct, Sample.not_actual_and_correct] at hright
    rw [htn, htp, Nat.add_comm (all.countP _), hright,
      ← Sample.countP_correct all fun s => s.pair.similar]
    exact congrArg₂ (· + ·) hsimilarCorrect hdissimilarCorrect
  · intro s hs
    rw [mem_similar hs]
    exact Sample.scoreOf_correct_le ..
  · intro c hc
    obtain ⟨-, hforward, hbackward⟩ := mem_dissimilar hc
    rw [hforward, hbackward]
    exact ⟨Sample.scoreOf_correct_le .., Sample.scoreOf_correct_le ..⟩
  · rw [similar_ofSamples]
    refine List.pairwise_map.mpr (List.pairwise_map.mpr ?_)
    exact (Keyed.pairwise_keys _).imp Nat.compare_eq_lt.mp
  · exact List.pairwise_map.mpr ((Tally.ofSamples all).dissimilar.ascending.imp compareKeys_eq_lt.mp)
  · intro c hc
    exact (mem_dissimilar hc).1
  · intro s hs
    exact mem_similar hs
  · intro c hc
    exact (mem_dissimilar hc).2
  · exact (Keyed.pairwise_keys _).imp Nat.compare_eq_lt.mp
  · intro l
    refine (hcounts.tested l).trans ?_
    simp only [List.mem_map, exists_exists_and_eq_and]

/-- The four counts tell similar from dissimilar pairs, as the scores do. -/
structure Separates (e : Evaluation) : Prop where
  similarTests : (e.similar.map fun s => s.score.tests).sum = e.truePositives + e.falseNegatives
  similarCorrect : (e.similar.map fun s => s.score.correct).sum = e.truePositives
  dissimilarTests : (e.dissimilar.map fun c => c.forward.tests + c.backward.tests).sum =
    e.trueNegatives + e.falsePositives
  dissimilarCorrect : (e.dissimilar.map fun c => c.forward.correct + c.backward.correct).sum =
    e.trueNegatives

lemma separates_ofSamples {all : List Sample} (h : ∀ s ∈ all, s.actual = s.pair.similar) :
    (ofSamples all).Separates := by
  obtain ⟨htn, hfp, hfn, htp⟩ := answers_ofSamples all
  obtain ⟨hsimilarTests, hsimilarCorrect⟩ := sum_similar all
  obtain ⟨hdissimilarTests, hdissimilarCorrect⟩ := sum_dissimilar all
  constructor
  · rw [hsimilarTests, htp, hfn, Sample.countP_apart]
    exact List.countP_congr fun s hs => by rw [h s hs]
  · rw [hsimilarCorrect, htp]
    exact List.countP_congr fun s hs => by rw [← h s hs, Sample.actual_and_correct]
  · rw [hdissimilarTests, htn, hfp, Nat.add_comm, Sample.countP_apart all fun s => !s.actual]
    exact List.countP_congr fun s hs => by rw [h s hs]
  · rw [hdissimilarCorrect, htn]
    refine List.countP_congr fun s hs => ?_
    dsimp only
    rw [← h s hs, Sample.not_actual_and_correct]

/-- As many scores and labels as pairs are always evaluated, and the evaluation accounts for every pair.
With the labels of the pairs the four counts are the sums of the scores, and a model that scores with the
labels makes no mistake. -/
theorem ofScores_tabulates (mode : LabelMode) (hlabels : scores.length = labels.length)
    (hpairs : labels.length = pairs.length) :
    ∃ e, ofScores mode scores labels pairs = .ok e ∧
      e.Tabulates pairs (samples mode scores labels pairs) ∧
      (labels = pairs.map (Pair.label mode) → e.Separates) ∧
      (scores = labels.map Float.ofInt → e.falsePositives = 0 ∧ e.falseNegatives = 0) := by
  refine ⟨_, ofScores_eq_ok mode hlabels hpairs, ?_, ?_, ?_⟩
  · have htabulates := tabulates_ofSamples (samples mode scores labels pairs)
    rwa [map_pair_samples mode hlabels hpairs] at htabulates
  · rintro rfl
    exact separates_ofSamples fun s hs => actual_samples hs
  · rintro rfl
    obtain ⟨-, hfp, hfn, -⟩ := answers_ofSamples (samples mode (labels.map Float.ofInt) labels pairs)
    rw [hfp, hfn, List.countP_eq_zero, List.countP_eq_zero]
    constructor <;> intro s hs <;> rw [predicted_samples hs] <;> cases s.predicted <;> decide

/-- A score that is no number and one on the border between the two answers count as dissimilar. The labels
as scores are all right. -/
theorem ofScores_tabulates_bipolarScores :
    let scores : List Float := [0.4, 0.0, 0.0 / 0.0, -0.6, 1.0]
    let labels : List ℤ := [1, 1, -1, -1, -1]
    let pairs : List Pair := [⟨4, 0, 4, 1⟩, ⟨4, 1, 4, 2⟩, ⟨7, 0, 4, 0⟩, ⟨4, 0, 7, 0⟩, ⟨2, 0, 7, 1⟩]
    scores.length = labels.length ∧ labels.length = pairs.length ∧
      labels = pairs.map (Pair.label .bipolar) ∧
      (∃ e, ofScores .bipolar scores labels pairs = .ok e ∧
        e.Tabulates pairs (samples .bipolar scores labels pairs) ∧ e.Separates ∧
        e.similar = [⟨4, ⟨2, 1⟩⟩] ∧ e.dissimilar = [⟨2, 7, ⟨1, 0⟩, ⟨0, 0⟩⟩, ⟨4, 7, ⟨1, 1⟩, ⟨1, 1⟩⟩] ∧
        e.tested = [2, 4, 7]) ∧
      ∃ e, ofScores .bipolar (labels.map Float.ofInt) labels pairs = .ok e ∧
        e.falsePositives = 0 ∧ e.falseNegatives = 0 := by
  intro scores labels pairs
  have hlabels : labels = pairs.map (Pair.label .bipolar) := by decide
  obtain ⟨e, he, htabulates, hseparates, -⟩ :=
    @ofScores_tabulates scores labels pairs .bipolar rfl rfl
  have hdecided : samples .bipolar scores labels pairs = [⟨⟨4, 0, 4, 1⟩, true, true⟩,
      ⟨⟨4, 1, 4, 2⟩, true, false⟩, ⟨⟨7, 0, 4, 0⟩, false, false⟩, ⟨⟨4, 0, 7, 0⟩, false, false⟩,
      ⟨⟨2, 0, 7, 1⟩, false, true⟩] := by decide
  have heq : e = ofSamples (samples .bipolar scores labels pairs) := (Except.ok.inj he).symm
  rw [hdecided] at heq
  obtain ⟨e', he', -, -, hperfect⟩ :=
    @ofScores_tabulates (labels.map Float.ofInt) labels pairs .bipolar rfl rfl
  refine ⟨rfl, rfl, hlabels, ⟨e, he, htabulates, hseparates hlabels, ?_⟩, e', he', hperfect rfl⟩
  rw [heq]
  exact ⟨rfl, rfl, rfl⟩

end Evaluation
end PairDatasets
