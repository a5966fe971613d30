import PairDatasets.Proofs.Corpus.Load
import PairDatasets.Proofs.Run.Build

/-! Splits do not influence each other. Every split draws from its own group with a generator of its
own, so its pairs depend on the number that is asked for it and on nothing that is asked for others. -/
namespace PairDatasets
namespace DatasetConfig
variable {c c' : DatasetConfig} {t : FileTree} {d d' : Datasets}

/-- The configurations differ at most in the numbers of pairs, in how pairs are encoded and labelled,
and in what is reported. -/
structure SameSources (c c' : DatasetConfig) : Prop where
  corpus : c.corpus = c'.corpus
  partition : c.partition = c'.partition
  similarFraction : c.pairs.similarFraction = c'.pairs.similarFraction
  seedOffset : c.seedOffset = c'.seedOffset
  slots : c.slots = c'.slots

lemma SameSources.seeds (h : c.SameSources c') : c.seeds = c'.seeds := by
  unfold DatasetConfig.seeds
  rw [h.seedOffset]

lemma SameSources.draws (h : c.SameSources c') {split : Split}
    (hsize : c.pairs.size split = c'.pairs.size split) (g : Group) :
    c.draws split g = c'.draws split g := by
  unfold DatasetConfig.draws
  rw [h.slots, h.similarFraction, h.seeds, hsize]

/-- The same split, and the same pairs if the same number was asked for. -/
structure Matches (c c' : DatasetConfig) (x x' : SplitDataset) : Prop where
  split : x.split = x'.split
  drawn : c.pairs.size x.split = c'.pairs.size x.split → x.drawn = x'.drawn

lemma SameSources.matches_of_draws (h : c.SameSources c') {group : Split × Group}
    {x x' : SplitDataset} (hx : c.Draws group x) (hx' : c'.Draws group x') : c.Matches c' x x' := by
  constructor
  · rw [hx.split, hx'.split]
  · intro hsize
    have hdrawn := hx.drawn
    rw [hx.split] at hsize
    rw [h.draws hsize, hx'.drawn] at hdrawn
    exact (Except.ok.inj hdrawn).symm

lemma SameSources.forall₂_matches (h : c.SameSources c') {groups : List (Split × Group)}
    {xs xs' : List SplitDataset} (hxs : List.Forall₂ c.Draws groups xs)
    (hxs' : List.Forall₂ c'.Draws groups xs') : List.Forall₂ (c.Matches c') xs xs' := by
  induction hxs generalizing xs' with
  | nil =>
    cases hxs'
    exact .nil
  | cons hx _ ih =>
    cases hxs' with
    | cons hx' hrest => exact .cons (h.matches_of_draws hx hx') (ih hrest)

end DatasetConfig

/-- Two runs on the same files, configured alike but for numbers of pairs, encoding, labels and
reports, have the same corpus, the same partition and split by split the same pairs wherever they were
asked for equally many. -/
theorem build_splits_independent {c c' : DatasetConfig} (h : c.SameSources c') {t : FileTree}
    {d d' : Datasets} (hd : (Job.start c.build t).1 = .ok d) (hd' : (Job.start c'.build t).1 = .ok d') :
    d.corpus = d'.corpus ∧ d.partition = d'.partition ∧
      List.Forall₂ (c.Matches c') d.splits d'.splits := by
  have hb : c.Builds t d := DatasetConfig.build_eq_ok hd
  have hb' : c'.Builds t d' := DatasetConfig.build_eq_ok hd'
  have hcorpus : d.corpus = d'.corpus := by
    have hloads := hb.loads
    rw [h.corpus, h.seeds, hb'.loads] at hloads
    exact (Except.ok.inj hloads).symm
  have hpartition : d.partition = d'.partition := by
    have hdivides := hb.divides
    rw [hcorpus, h.partition, h.seeds, hb'.divides] at hdivides
    exact (Except.ok.inj hdivides).symm
  refine ⟨hcorpus, hpartition, ?_⟩
  have hdraws := hb.draws
  rw [hpartition] at hdraws
  exact h.forall₂_matches hdraws hb'.draws

/-- Half of the solutions of both problems validate, and no report is written. -/
def halvedConfig (pairs : PairConfig) (encoding : Encoding) : DatasetConfig where
  corpus := mixedConfig
  partition := .balanced 0 0.5
  pairs := pairs
  encoding := encoding
  slots := 16
  reports := none

def halvedPartition : Partition where
  strategy := .balanced 0 0.5
  training := ⟨0, [⟨0, [0]⟩, ⟨1, [0]⟩]⟩
  validation := some ⟨0, [⟨0, [1]⟩, ⟨1, [1]⟩]⟩
  test := none

lemma exists_build_halvedConfig (pairs : PairConfig) (encoding : Encoding)
    (hcheck : (halvedConfig pairs encoding).check.isOk = true)
    (h : ∀ split g, halvedPartition.group? split = some g →
      ((halvedConfig pairs encoding).draws split g >>= fun r =>
        mixedCorpus.assemble encoding pairs.labelMode r.pairs).isOk = true) :
    ∃ d, (Job.start (halvedConfig pairs encoding).build mixedDataset).1 = .ok d := by
  have hdivide : mixedCorpus.divide (.balanced 0 0.5) ⟨101⟩ = .ok halvedPartition :=
    eq_ok_of_toOption (by decide +kernel)
  obtain ⟨⟨⟩, hcheck⟩ := exists_of_isOk hcheck
  refine DatasetConfig.exists_build (s := ⟨mixedDataset, [], []⟩) rfl hcheck load_mixedDataset hdivide ?_
  intro split g hg
  obtain ⟨a, ha⟩ := exists_of_isOk (h split g hg)
  obtain ⟨r, hr, ha⟩ := bind_eq_ok.mp ha
  exact ⟨r, a, hr, ha⟩

/-- More pairs for training, other labels and another encoding leave the pairs for validation as they
are. -/
theorem build_halvedConfig_independent :
    ∃ d d', (Job.start (halvedConfig ⟨3, 2, 0, 0.5, .binary⟩ .bag).build mixedDataset).1 = .ok d ∧
      (Job.start (halvedConfig ⟨7, 2, 9, 0.5, .bipolar⟩ (.sequence none)).build mixedDataset).1 =
        .ok d' ∧
      d.corpus = d'.corpus ∧ d.partition = d'.partition ∧
      List.Forall₂ (fun x x' => x.split = x'.split ∧ (x.split = .validation → x.drawn = x'.drawn))
        d.splits d'.splits := by
  obtain ⟨d, hd⟩ := exists_build_halvedConfig ⟨3, 2, 0, 0.5, .binary⟩ .bag (by decide +kernel) (by
      intro split g hg
      cases split <;> cases hg <;> decide +kernel)
  obtain ⟨d', hd'⟩ := exists_build_halvedConfig ⟨7, 2, 9, 0.5, .bipolar⟩ (.sequence none)
    (by decide +kernel) (by
      intro split g hg
      cases split <;> cases hg <;> decide +kernel)
  have hsame : (halvedConfig ⟨3, 2, 0, 0.5, .binary⟩ .bag).SameSources
      (halvedConfig ⟨7, 2, 9, 0.5, .bipolar⟩ (.sequence none)) := ⟨rfl, rfl, rfl, rfl, rfl⟩
  obtain ⟨hcorpus, hpartition, hsplits⟩ := build_splits_independent hsame hd hd'
  refine ⟨d, d', hd, hd', hcorpus, hpartition, hsplits.imp ?_⟩
  rintro x x' ⟨hsplit, hdrawn⟩
  refine ⟨hsplit, ?_⟩
  intro hvalidation
  apply hdrawn
  rw [hvalidation]
  rfl

end PairDatasets
