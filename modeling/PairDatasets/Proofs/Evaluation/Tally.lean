import PairDatasets.Evaluation.Basic
import PairDatasets.Proofs.Order.Keyed
import PairDatasets.Proofs.Order.Mapping

/-! What a tally holds after all samples. Every sample adds one to one of the four counts and one test to one
score: that of its problem, or that of its two problems in its direction. So each score is a count of
the samples that belong to it, and the scores of a kind sum up to the samples of that kind. -/
namespace PairDatasets

/-- Whether a pair has one problem on the left and another one on the right. -/
def Pair.joins (a b : ℕ) (p : Pair) : Bool := p.problem1 = a && p.problem2 = b

lemma Pair.joins_iff {a b : ℕ} {p : Pair} :
    p.joins a b = true ↔ p.problem1 = a ∧ p.problem2 = b := by
  simp only [joins, Bool.and_eq_true, decide_eq_true_eq]

lemma Pair.similar_iff {p : Pair} : p.similar = true ↔ p.problem1 = p.problem2 := decide_eq_true_iff

namespace Sample

/-- The score of the samples whose pairs satisfy a condition. -/
def scoreOf (samples : List Sample) (cond : Pair → Bool) : Score where
  tests := samples.countP fun s => cond s.pair
  correct := samples.countP fun s => cond s.pair && s.correct

/-- One more sample counts where it satisfies the condition. -/
lemma scoreOf_concat (samples : List Sample) (s : Sample) (cond : Pair → Bool) :
    scoreOf (samples ++ [s]) cond =
      if cond s.pair then (scoreOf samples cond).observe s.correct else scoreOf samples cond := by
  unfold scoreOf Score.observe
  simp only [List.countP_append, List.countP_singleton]
  cases cond s.pair <;> cases s.correct <;> rfl

end Sample

/-- How many samples are so and are taken for so. -/
def Answers.count (a : Answers) (actual predicted : Bool) : ℕ :=
  match actual, predicted with
  | false, false => a.trueNegatives
  | false, true => a.falsePositives
  | true, false => a.falseNegatives
  | true, true => a.truePositives

lemma Answers.count_observe (a : Answers) (s : Sample) (actual predicted : Bool) :
    (a.observe s).count actual predicted =
      a.count actual predicted + if s.actual == actual && s.predicted == predicted then 1 else 0 := by
  obtain ⟨p, act, pred⟩ := s
  cases act <;> cases pred <;> cases actual <;> cases predicted <;> rfl

namespace Directions

def tests (d : Directions) : ℕ := d.forward.tests + d.backward.tests

def correct (d : Directions) : ℕ := d.forward.correct + d.backward.correct

end Directions

namespace Tally
variable {samples : List Sample} {t : Tally}

/-! ### One sample -/

lemma answers_observe (t : Tally) (s : Sample) : (t.observe s).answers = t.answers.observe s := by
  unfold observe
  dsimp only
  split_ifs <;> rfl

lemma tested_observe (t : Tally) (s : Sample) :
    (t.observe s).tested = (t.tested.insert s.pair.problem1).insert s.pair.problem2 := by
  unfold observe
  dsimp only
  split_ifs <;> rfl

lemma similar_observe (t : Tally) (s : Sample) : (t.observe s).similar =
    if s.pair.similar then t.similar.update s.pair.problem1 {} (·.observe s.correct)
    else t.similar := by
  unfold observe
  dsimp only
  split_ifs <;> rfl

lemma dissimilar_observe (t : Tally) (s : Sample) : (t.observe s).dissimilar =
    if s.pair.similar then t.dissimilar
    else t.dissimilar.update (key s.pair) {} (direct s.pair s.correct) := by
  unfold observe
  dsimp only
  split_ifs <;> rfl

/-- The key of a dissimilar pair has the smaller label first. -/
lemma key_lt {p : Pair} (hp : p.similar = false) : (key p).1 < (key p).2 := by
  have hne : p.problem1 ≠ p.problem2 := of_decide_eq_false hp
  unfold key
  omega

/-- The scores of two problems change if the pair joins them, in its direction. -/
lemma direct_eq {p : Pair} (hp : p.similar = false) (correct : Bool) {a b : ℕ} (hab : a < b)
    (d : Directions) : (if (a, b) = key p then direct p correct d else d) =
      ⟨if p.joins a b then d.forward.observe correct else d.forward,
        if p.joins b a then d.backward.observe correct else d.backward⟩ := by
  have hne : p.problem1 ≠ p.problem2 := of_decide_eq_false hp
  rcases Nat.lt_or_gt_of_ne hne with hlt | hgt
  · have hkey : key p = (p.problem1, p.problem2) := by
      rw [key, Nat.min_eq_left hlt.le, Nat.max_eq_right hlt.le]
    have hforward : p.joins a b = true ↔ (a, b) = key p := by
      rw [Pair.joins_iff, hkey, Prod.mk.injEq, @eq_comm _ a, @eq_comm _ b]
    have hbackward : ¬p.joins b a = true := by
      rw [Pair.joins_iff]
      omega
    rw [if_neg hbackward]
    simp only [hforward, direct, hkey, if_true]
    split_ifs <;> rfl
  · have hkey : key p = (p.problem2, p.problem1) := by
      rw [key, Nat.min_eq_right hgt.le, Nat.max_eq_left hgt.le]
    have hbackward : p.joins b a = true ↔ (a, b) = key p := by
      rw [Pair.joins_iff, hkey, Prod.mk.injEq, @eq_comm _ a, @eq_comm _ b, and_comm]
    have hforward : ¬p.joins a b = true := by
      rw [Pair.joins_iff]
      omega
    rw [if_neg hforward]
    simp only [hbackward, direct, hkey, if_neg hne]
    split_ifs <;> rfl

lemma tests_direct (p : Pair) (correct : Bool) (d : Directions) :
    (direct p correct d).tests = d.tests + 1 := by
  unfold direct Directions.tests
  split_ifs
  · exact Nat.add_right_comm ..
  · exact (Nat.add_assoc ..).symm

lemma correct_direct (p : Pair) (correct : Bool) (d : Directions) :
    (direct p correct d).correct = d.correct + correct.toNat := by
  unfold direct Directions.correct
  split_ifs
  · exact Nat.add_right_comm ..
  · exact (Nat.add_assoc ..).symm

/-- All scores of problems together. -/
def similarTotal (t : Tally) : Score := ⟨t.similar.total Score.tests, t.similar.total Score.correct⟩

/-- All scores of two problems together. -/
def dissimilarTotal (t : Tally) : Score :=
  ⟨t.dissimilar.total Directions.tests, t.dissimilar.total Directions.correct⟩

section Step
variable (t : Tally) (s : Sample)

lemma mem_similar_observe {q : ℕ} : q ∈ (t.observe s).similar.keys ↔
    q ∈ t.similar.keys ∨ s.pair.similar = true ∧ s.pair.problem1 = q := by
  rw [similar_observe]
  split_ifs with hp
  · rw [Keyed.mem_keys_update, or_comm, eq_comm, and_iff_right hp]
  · rw [or_iff_left fun hs => hp hs.1]

lemma score_observe (q : ℕ) : (t.observe s).similar.getD q {} =
    if s.pair.joins q q then (t.similar.getD q {}).observe s.correct else t.similar.getD q {} := by
  rw [similar_observe]
  split_ifs with hp hq hq
  · rw [Keyed.getD_update, if_pos (Pair.joins_iff.mp hq).1.symm, (Pair.joins_iff.mp hq).1]
  · have hne : ¬q = s.pair.problem1 := by
      rw [Pair.joins_iff, ← Pair.similar_iff.mp hp, and_self] at hq
      exact Ne.symm hq
    rw [Keyed.getD_update, if_neg hne]
  · obtain ⟨h1, h2⟩ := Pair.joins_iff.mp hq
    exact absurd (Pair.similar_iff.mpr (h1.trans h2.symm)) hp
  · rfl

lemma similarTotal_observe : (t.observe s).similarTotal =
    if s.pair.similar then t.similarTotal.observe s.correct else t.similarTotal := by
  unfold similarTotal
  rw [similar_observe]
  split_ifs
  · rw [Keyed.total_update t.similar s.pair.problem1 rfl fun v => rfl,
      Keyed.total_update t.similar s.pair.problem1 rfl fun v => rfl]
    rfl
  · rfl

lemma mem_dissimilar_observe {k : ℕ × ℕ} : k ∈ (t.observe s).dissimilar.keys ↔
    k ∈ t.dissimilar.keys ∨ s.pair.similar = false ∧ key s.pair = k := by
  rw [dissimilar_observe]
  split_ifs with hp
  · rw [or_iff_left fun hs => Bool.false_ne_true (hs.1.symm.trans hp)]
  · rw [Keyed.mem_keys_update, or_comm, eq_comm, and_iff_right (eq_false_of_ne_true hp)]

lemma directions_observe {a b : ℕ} (hab : a < b) : (t.observe s).dissimilar.getD (a, b) {} =
    ⟨if s.pair.joins a b then (t.dissimilar.getD (a, b) {}).forward.observe s.correct
      else (t.dissimilar.getD (a, b) {}).forward,
      if s.pair.joins b a then (t.dissimilar.getD (a, b) {}).backward.observe s.correct
      else (t.dissimilar.getD (a, b) {}).backward⟩ := by
  rw [dissimilar_observe]
  cases hp : s.pair.similar with
  | true =>
    have heq := Pair.similar_iff.mp hp
    have hforward : ¬s.pair.joins a b = true := by
      rw [Pair.joins_iff]
      omega
    have hbackward : ¬s.pair.joins b a = true := by
      rw [Pair.joins_iff]
      omega
    rw [if_pos rfl, if_neg hforward, if_neg hbackward]
  | false =>
    rw [if_neg Bool.false_ne_true, Keyed.getD_update, ← direct_eq hp s.correct hab]
    split_ifs with hkey
    · rw [← hkey]
    · rfl

lemma dissimilarTotal_observe : (t.observe s).dissimilarTotal =
    if s.pair.similar then t.dissimilarTotal else t.dissimilarTotal.observe s.correct := by
  unfold dissimilarTotal
  rw [dissimilar_observe]
  split_ifs
  · rfl
  · rw [Keyed.total_update t.dissimilar _ rfl (tests_direct s.pair s.correct),
      Keyed.total_update t.dissimilar _ rfl (correct_direct s.pair s.correct)]
    rfl

lemma mem_tested_observe {l : ℕ} : l ∈ (t.observe s).tested.keys ↔
    l ∈ t.tested.keys ∨ s.pair.problem1 = l ∨ s.pair.problem2 = l := by
  rw [tested_observe, Keyed.mem_keys_insert, Keyed.mem_keys_insert, @eq_comm _ l, @eq_comm _ l]
  tauto

end Step

/-! ### All samples -/

/-- What a tally holds of samples. -/
structure Counts (samples : List Sample) (t : Tally) : Prop where
  answers : ∀ actual predicted, t.answers.count actual predicted =
    samples.countP fun s => s.actual == actual && s.predicted == predicted
  problems : ∀ q, q ∈ t.similar.keys ↔ ∃ s ∈ samples, s.pair.similar = true ∧ s.pair.problem1 = q
  score : ∀ q, t.similar.getD q {} = Sample.scoreOf samples (Pair.joins q q)
  similarTotal : t.similarTotal = Sample.scoreOf samples Pair.similar
  keys : ∀ k, k ∈ t.dissimilar.keys ↔ ∃ s ∈ samples, s.pair.similar = false ∧ key s.pair = k
  directions : ∀ a b, a < b → t.dissimilar.getD (a, b) {} =
    ⟨Sample.scoreOf samples (Pair.joins a b), Sample.scoreOf samples (Pair.joins b a)⟩
  dissimilarTotal : t.dissimilarTotal = Sample.scoreOf samples fun p => !p.similar
  tested : ∀ l, l ∈ t.tested.keys ↔ ∃ s ∈ samples, s.pair.problem1 = l ∨ s.pair.problem2 = l

lemma counts_nil : Counts [] {} := by
  constructor
  · intro actual predicted
    cases actual <;> cases predicted <;> rfl
  · simp
  · intro q
    rfl
  · rfl
  · simp
  · intro a b hab
    rfl
  · rfl
  · simp

lemma exists_mem_concat {P : Sample → Prop} {s : Sample} :
    (∃ x ∈ samples ++ [s], P x) ↔ (∃ x ∈ samples, P x) ∨ P s := by
  simp only [exists_mem_append, List.mem_singleton, exists_eq_left]

/-- What a tally holds after one more sample. -/
lemma Counts.observe (h : t.Counts samples) (s : Sample) : (t.observe s).Counts (samples ++ [s]) := by
  constructor
  · intro actual predicted
    rw [answers_observe, Answers.count_observe, h.answers, List.countP_append, List.countP_singleton]
  · intro q
    rw [mem_similar_observe, exists_mem_concat, h.problems]
  · intro q
    rw [score_observe, Sample.scoreOf_concat, h.score]
  · rw [similarTotal_observe, Sample.scoreOf_concat, h.similarTotal]
  · intro k
    rw [mem_dissimilar_observe, exists_mem_concat, h.keys]
  · intro a b hab
    rw [directions_observe t s hab, Sample.scoreOf_concat, Sample.scoreOf_concat, h.directions a b hab]
  · rw [dissimilarTotal_observe, Sample.scoreOf_concat, h.dissimilarTotal]
    cases s.pair.similar <;> rfl
  · intro l
    rw [mem_tested_observe, exists_mem_concat, h.tested]

theorem counts_ofSamples (samples : List Sample) : (ofSamples samples).Counts samples :=
  foldl_keeps (P := Counts) samples counts_nil fun _ _ s h => h.observe s

lemma lt_of_mem_keys {k : ℕ × ℕ} (hk : k ∈ (ofSamples samples).dissimilar.keys) : k.1 < k.2 := by
  obtain ⟨s, -, hs, rfl⟩ := ((counts_ofSamples samples).keys k).mp hk
  exact key_lt hs

end Tally

/-! ### What a tally shows -/

namespace Evaluation

/-- Every problem with similar pairs has the score of its pairs. -/
lemma similar_ofSamples (all : List Sample) : (ofSamples all).similar =
    (Tally.ofSamples all).similar.keys.map fun q => ⟨q, Sample.scoreOf all (Pair.joins q q)⟩ := by
  have hscore := (Tally.counts_ofSamples all).score
  rw [ofSamples, ofTally, (Tally.ofSamples all).similar.entries_eq_map {}, List.map_map]
  exact List.map_congr_left fun q _ => congrArg (ProblemScore.mk q) (hscore q)

/-- Every two problems with dissimilar pairs have the scores of their pairs in both directions. -/
lemma dissimilar_ofSamples (all : List Sample) : (ofSamples all).dissimilar =
    (Tally.ofSamples all).dissimilar.keys.map fun k => ⟨k.1, k.2,
      Sample.scoreOf all (Pair.joins k.1 k.2), Sample.scoreOf all (Pair.joins k.2 k.1)⟩ := by
  have hdirections := (Tally.counts_ofSamples all).directions
  rw [ofSamples, ofTally, (Tally.ofSamples all).dissimilar.entries_eq_map {}, List.map_map]
  refine List.map_congr_left fun k hk => ?_
  have hk := hdirections k.1 k.2 (Tally.lt_of_mem_keys hk)
  rw [Prod.mk.eta] at hk
  rw [Function.comp_apply, hk]

end Evaluation
end PairDatasets
