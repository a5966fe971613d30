import Mathlib.Data.List.Nodup
import Mathlib.Data.Prod.Lex
import PairDatasets.Evaluation.Ranking
import PairDatasets.Proofs.Evaluation.Margins
import PairDatasets.Proofs.Order.Canonical

/-! The rankings of an evaluation. Entries are sorted by a value of theirs, and those with the same value stay
in the order of their labels, so a ranking is the front of one order without ties. -/
namespace PairDatasets

section Ranking
variable {α κ : Type} [LinearOrder κ] {rank : α → ℤ} {key : α → κ} {items : List α}

/-- An item goes before another with a smaller rank, and within a rank with a smaller key. -/
def Ahead (rank : α → ℤ) (key : α → κ) (a b : α) : Prop :=
  rank a < rank b ∨ rank a = rank b ∧ key a < key b

instance : DecidableRel (Ahead rank key) := fun _ _ => instDecidableOr

/-- The first items by rank and key, for every number of them: as many as there are, different ones, in
order, all ahead of those left out, and the same items first when there is one more. -/
structure Ranking (rank : α → ℤ) (key : α → κ) (items : List α) (ranked : ℕ → List α) : Prop where
  length : ∀ k, (ranked k).length = min k items.length
  subset : ∀ k, ∀ a ∈ ranked k, a ∈ items
  different : ∀ k, ((ranked k).map key).Nodup
  sorted : ∀ k, (ranked k).Pairwise (Ahead rank key)
  omitted : ∀ k, ∀ a ∈ ranked k, ∀ b ∈ items, b ∉ ranked k → Ahead rank key a b
  continued : ∀ k, ranked k <+: ranked (k + 1)

/-- Items that stand by key are ranked by the fronts of the list sorted by rank. -/
theorem ranking_take (rank : α → ℤ) (h : items.Pairwise fun a b => key a < key b) :
    Ranking rank key items fun k => (items.mergeSort fun a b => rank a ≤ rank b).take k := by
  have hsorted : (items.mergeSort fun a b => rank a ≤ rank b).Pairwise (Ahead rank key) :=
    pairwise_mergeSort_of_pairwise h
  have hperm := List.mergeSort_perm items fun a b => rank a ≤ rank b
  generalize (items.mergeSort fun a b => rank a ≤ rank b) = sorted at hsorted hperm
  have hkeys : (sorted.map key).Nodup :=
    (hperm.map key).nodup_iff.mpr (List.pairwise_map.mpr (h.imp ne_of_lt))
  constructor
  · intro k
    rw [List.length_take, hperm.length_eq]
  · intro k a ha
    exact hperm.mem_iff.mp (List.mem_of_mem_take ha)
  · intro k
    exact hkeys.sublist ((List.take_sublist k sorted).map key)
  · intro k
    exact hsorted.sublist (List.take_sublist k sorted)
  · -- what is left out stands behind the front
    intro k a ha b hb hout
    have hb : b ∈ sorted.take k ++ sorted.drop k := by
      rw [List.take_append_drop]
      exact hperm.mem_iff.mpr hb
    rw [← List.take_append_drop k sorted, List.pairwise_append] at hsorted
    exact hsorted.2.2 a ha b ((List.mem_append.mp hb).resolve_left hout)
  · intro k
    exact List.take_prefix_take_left (Nat.le_succ k)

lemma ahead_iff {a b : α} :
    Ahead rank key a b ↔ toLex (rank a, key a) < toLex (rank b, key b) := by
  rw [Prod.Lex.toLex_lt_toLex]
  rfl

lemma Ahead.ne {a b : α} (h : Ahead rank key a b) : a ≠ b := by
  rintro rfl
  exact (ahead_iff.mp h).false

lemma Ahead.not_ahead {a b : α} (h : Ahead rank key a b) : ¬Ahead rank key b a :=
  fun hba => (ahead_iff.mp h).asymm (ahead_iff.mp hba)

/-- There is only one ranking: the fronts of the items in order. -/
theorem Ranking.eq_take {ranked : ℕ → List α} (h : Ranking rank key items ranked) (sorted : List α)
    (hperm : sorted.Perm items) (hsorted : sorted.Pairwise (Ahead rank key)) (k : ℕ) :
    ranked k = sorted.take k := by
  classical
  have hnodup : sorted.Nodup := hsorted.imp Ahead.ne
  have hin : (ranked k).Perm (sorted.filter (· ∈ ranked k)) := by
    refine (List.perm_ext_iff_of_nodup ((h.different k).of_map key) (hnodup.filter _)).mpr fun a => ?_
    rw [List.mem_filter, decide_eq_true_iff, hperm.mem_iff]
    exact (and_iff_right_of_imp (h.subset k a)).symm
  have hall : (ranked k ++ sorted.filter (· ∉ ranked k)).Perm sorted := by
    simpa using (hin.append_right _).trans (List.filter_append_perm (· ∈ ranked k) sorted)
  have hahead : (ranked k ++ sorted.filter (· ∉ ranked k)).Pairwise (Ahead rank key) := by
    refine List.pairwise_append.mpr ⟨h.sorted k, hsorted.filter _, fun a ha b hb => ?_⟩
    obtain ⟨hb, hout⟩ := List.mem_filter.mp hb
    exact h.omitted k a ha b (hperm.mem_iff.mp hb) (of_decide_eq_true hout)
  have heq : ranked k ++ sorted.filter (· ∉ ranked k) = sorted :=
    hall.eq_of_pairwise (fun a b _ _ hab hba => absurd hba hab.not_ahead) hahead hsorted
  have hlength : (ranked k).length = min k sorted.length := by rw [h.length, hperm.length_eq]
  calc ranked k = sorted.take (ranked k).length := by
        conv_rhs => rw [← heq, List.take_left]
    _ = sorted.take k := by rw [hlength, ← List.take_eq_take_min]

end Ranking

/-- The two problems of a score, by the smaller label first. -/
def CrossScore.key (c : CrossScore) : ℕ ×ₗ ℕ := toLex (c.problem1, c.problem2)

namespace Evaluation
variable {mode : LabelMode} {scores : List Float} {labels : List ℤ} {pairs : List Pair} {e : Evaluation}

lemma ranking_lowest {α κ : Type} [LinearOrder κ] {key : α → κ} {items : List α} (value : α → Float)
    (h : items.Pairwise fun a b => key a < key b) :
    Ranking (fun a => doubleRank (value a)) key items fun k => lowest value k items :=
  ranking_take _ h

/-- The highest values are those with the lowest opposites. -/
lemma ranking_highest {α κ : Type} [LinearOrder κ] {key : α → κ} {items : List α} (value : α → Float)
    (h : items.Pairwise fun a b => key a < key b) :
    Ranking (fun a => -doubleRank (value a)) key items fun k => highest value k items := by
  have hranking := ranking_take (fun a => -doubleRank (value a)) h
  simp only [neg_le_neg_iff] at hranking
  exact hranking

lemma eq_ofSamples (h : ofScores mode scores labels pairs = .ok e) :
    e = ofSamples (samples mode scores labels pairs) := by
  unfold ofScores at h
  split_ifs at h
  exact (Except.ok.inj h).symm

/-- The rankings of an evaluation are selections of its entries by value, the lowest similar and combined
accuracies and the highest asymmetries first, equal ones in the order of their labels. -/
theorem ofScores_ranks (h : ofScores mode scores labels pairs = .ok e) :
    Ranking (fun s => doubleRank s.score.accuracy) ProblemScore.problem e.similar e.worstSimilar ∧
      Ranking (fun c => doubleRank c.combined) CrossScore.key e.dissimilar e.worstDissimilar ∧
      Ranking (fun c => -doubleRank c.asymmetry) CrossScore.key e.dissimilar e.mostAsymmetric := by
  have htabulates := tabulates_ofSamples (samples mode scores labels pairs)
  rw [← eq_ofSamples h] at htabulates
  have hsimilar : e.similar.Pairwise fun s t => s.problem < t.problem :=
    List.pairwise_map.mp htabulates.problems
  have hdissimilar : e.dissimilar.Pairwise fun c d => c.key < d.key :=
    htabulates.keys.imp Prod.Lex.toLex_lt_toLex.mpr
  exact ⟨ranking_lowest _ hsimilar, ranking_lowest _ hdissimilar, ranking_highest _ hdissimilar⟩

/-- Two problems are recognised equally well, and two pairs of problems are equally asymmetric, more so than
the pair before them. -/
theorem ofScores_ranks_ties :
    let scores : List Float := [0.1, 0.9, 0.2, 0.2, 0.9, 0.1, 0.3, 0.7, 0.1, 0.6, 0.8, 0.2]
    let labels : List ℤ := [1, 1, 1, 1, 1, 0, 0, 0, 0, 0, 0, 0]
    let pairs : List Pair := [⟨8, 0, 8, 1⟩, ⟨5, 0, 5, 1⟩, ⟨5, 1, 5, 2⟩, ⟨3, 0, 3, 1⟩, ⟨3, 1, 3, 0⟩,
      ⟨1, 0, 3, 0⟩, ⟨3, 0, 1, 0⟩, ⟨1, 0, 8, 0⟩, ⟨8, 0, 1, 0⟩, ⟨5, 0, 8, 0⟩, ⟨5, 1, 8, 0⟩, ⟨8, 0, 5, 0⟩]
    ∃ e, ofScores .binary scores labels pairs = .ok e ∧
      (Ranking (fun s => doubleRank s.score.accuracy) ProblemScore.problem e.similar e.worstSimilar ∧
        Ranking (fun c => doubleRank c.combined) CrossScore.key e.dissimilar e.worstDissimilar ∧
        Ranking (fun c => -doubleRank c.asymmetry) CrossScore.key e.dissimilar e.mostAsymmetric) ∧
      (e.worstSimilar 2).map ProblemScore.problem = [8, 3] ∧
      (e.worstDissimilar 2).map (fun c => (c.problem1, c.problem2)) = [(5, 8), (1, 8)] ∧
      (e.mostAsymmetric 2).map (fun c => (c.problem1, c.problem2)) = [(1, 8), (5, 8)] := by
  intro scores labels pairs
  obtain ⟨e, he⟩ : ∃ e, ofScores .binary scores labels pairs = .ok e := ⟨_, rfl⟩
  have hsimilar : e.similar = [⟨3, ⟨2, 1⟩⟩, ⟨5, ⟨2, 1⟩⟩, ⟨8, ⟨1, 0⟩⟩] := by
    rw [eq_ofSamples he]
    decide +kernel
  have hdissimilar : e.dissimilar =
      [⟨1, 3, ⟨1, 1⟩, ⟨1, 1⟩⟩, ⟨1, 8, ⟨1, 0⟩, ⟨1, 1⟩⟩, ⟨5, 8, ⟨2, 0⟩, ⟨1, 1⟩⟩] := by
    rw [eq_ofSamples he]
    decide +kernel
  obtain ⟨hworst, hmixed, hasymmetric⟩ := ofScores_ranks he
  refine ⟨e, he, ⟨hworst, hmixed, hasymmetric⟩, ?_, ?_, ?_⟩
  · rw [hsimilar] at hworst
    rw [hworst.eq_take [⟨8, ⟨1, 0⟩⟩, ⟨3, ⟨2, 1⟩⟩, ⟨5, ⟨2, 1⟩⟩] (by decide) (by decide +kernel)]
    rfl
  · rw [hdissimilar] at hmixed
    rw [hmixed.eq_take [⟨5, 8, ⟨2, 0⟩, ⟨1, 1⟩⟩, ⟨1, 8, ⟨1, 0⟩, ⟨1, 1⟩⟩, ⟨1, 3, ⟨1, 1⟩, ⟨1, 1⟩⟩]
      (by decide) (by decide +kernel)]
    rfl
  · rw [hdissimilar] at hasymmetric
    rw [hasymmetric.eq_take [⟨1, 8, ⟨1, 0⟩, ⟨1, 1⟩⟩, ⟨5, 8, ⟨2, 0⟩, ⟨1, 1⟩⟩, ⟨1, 3, ⟨1, 1⟩, ⟨1, 1⟩⟩]
      (by decide) (by decide +kernel)]
    rfl

end Evaluation
end PairDatasets
