import PairDatasets.Proofs.Job
import PairDatasets.Proofs.Order.Mapping
import PairDatasets.Run

/-! What a run is made of. Reports and encodings stand between the steps of a run, but they pass on
neither a generator nor a result, so a run comes down to one load, one division and one draw for each
split that has a group. -/
namespace PairDatasets

namespace DatasetConfig
variable {c : DatasetConfig} {x : Corpus} {p : Partition} {s : Session}

/-- The pairs that a configuration draws of a group for a split. -/
def draws (c : DatasetConfig) (split : Split) (g : Group) : Except DatasetError PairSet :=
  (g.drawPairs c.slots (c.pairs.size split) c.pairs.similarFraction
    (c.seeds.generator split.purpose)).1

lemma outcome_drawSplit {split : Split} {g : Group} :
    (c.drawSplit split g).outcome = c.draws split g := by
  have hlift (y : Except DatasetError PairSet) :
      (liftM y : Logged DatasetError PairSet).outcome = y := rfl
  unfold drawSplit draws
  dsimp only
  rw [Logged.outcome_bind, Logged.outcome_bind, hlift]
  cases (g.drawPairs c.slots (c.pairs.size split) c.pairs.similarFraction
    (c.seeds.generator split.purpose)).1 <;> rfl

/-- The splits that have a group, each with its group. -/
def groups (p : Partition) (splits : List Split) : List (Split × Group) :=
  splits.filterMap fun split => (p.group? split).map fun g => (split, g)

/-- A data set holds what is drawn of a group. -/
structure Draws (c : DatasetConfig) (group : Split × Group) (data : SplitDataset) : Prop where
  split : data.split = group.1
  drawn : c.draws group.1 group.2 = .ok data.drawn

lemma yields_buildSplit (x : Corpus) (split : Split) (g : Group) :
    Job.Yields (c.Draws (split, g)) (c.buildSplit x split g) := by
  unfold buildSplit
  refine (Job.yields_ofLogged _).bind fun drawn hdrawn => ?_
  refine Job.yields_bind fun assembled => ?_
  rw [outcome_drawSplit] at hdrawn
  have hdone : Job.Yields (c.Draws (split, g)) (pure ⟨split, drawn, assembled⟩) :=
    Job.yields_pure ⟨rfl, hdrawn⟩
  dsimp only
  split
  · split
    · exact Job.yields_bind fun _ => hdone
    · exact hdone
  · exact hdone

/-- Split by split a run draws of every group, whatever it met or wrote before. -/
theorem yields_buildSplits (x : Corpus) (p : Partition) (splits : List Split) :
    Job.Yields (List.Forall₂ c.Draws (groups p splits)) (c.buildSplits x p splits) := by
  induction splits with
  | nil => exact Job.yields_pure .nil
  | cons split splits ih =>
    rw [buildSplits]
    cases hg : p.group? split with
    | none =>
      have hgroups : groups p (split :: splits) = groups p splits := by
        simp [groups, hg]
      rw [hgroups]
      dsimp only
      split
      · exact Job.yields_bind fun _ => ih
      · exact ih
    | some g =>
      have hgroups : groups p (split :: splits) = (split, g) :: groups p splits := by
        simp [groups, hg]
      rw [hgroups]
      refine (yields_buildSplit x split g).bind fun data hdata => ?_
      refine ih.bind fun rest hrest => ?_
      exact Job.yields_pure (.cons hdata hrest)

/-- What a run loaded, divided and drew. -/
structure Builds (c : DatasetConfig) (files : FileTree) (d : Datasets) : Prop where
  loads : (Corpus.load files c.corpus c.seeds).outcome = .ok d.corpus
  divides : d.corpus.divide c.partition c.seeds = .ok d.partition
  draws : List.Forall₂ c.Draws (groups d.partition Split.all) d.splits

theorem build_eq_ok {d : Datasets} (h : (c.build.run s).1 = .ok d) : c.Builds s.files d := by
  unfold build at h
  obtain ⟨_, -, h⟩ := Job.bind_eq_ok.mp h
  obtain ⟨files, hfiles, h⟩ := Job.bind_eq_ok.mp h
  obtain rfl : s.files = files := by
    rw [Job.run_liftM] at hfiles
    exact Except.ok.inj hfiles
  revert h
  apply Job.Yields.apply
  refine (Job.yields_ofLogged _).bind fun corpus hcorpus => ?_
  refine (Job.yields_liftM _).bind fun partition hpartition => ?_
  have hrest (events : List Event) (last : List SplitDataset → Job Datasets)
      (hlast : ∀ splits, List.Forall₂ c.Draws (groups partition Split.all) splits →
        Job.Yields (c.Builds s.files) (last splits)) :
      Job.Yields (c.Builds s.files) (do
        Job.emit events
        let splits ← c.buildSplits corpus partition Split.all
        last splits) :=
    Job.yields_bind fun _ => (yields_buildSplits corpus partition Split.all).bind hlast
  have hdone (splits : List SplitDataset)
      (hsplits : List.Forall₂ c.Draws (groups partition Split.all) splits) :
      Job.Yields (c.Builds s.files) (pure ⟨corpus, partition, splits, c.seeds⟩) :=
    Job.yields_pure ⟨hcorpus, hpartition, hsplits⟩
  dsimp only
  split
  · next dir hdir =>
    refine Job.yields_bind fun _ => Job.yields_bind fun _ => hrest _ _ fun splits hsplits => ?_
    exact Job.yields_bind fun _ => hdone splits hsplits
  · exact hrest _ _ hdone

section NoReports
variable (hreports : c.reports = none)
include hreports

lemma succeeds_buildSplit {split : Split} {g : Group} {r : PairSet} {a : Assembled}
    (hr : c.draws split g = .ok r) (ha : x.assemble c.encoding c.pairs.labelMode r.pairs = .ok a) :
    Job.Succeeds (c.buildSplit x split g) := by
  unfold buildSplit
  rw [hreports]
  refine Job.succeeds_bind_ofLogged (outcome_drawSplit.trans hr) ?_
  exact Job.succeeds_bind_ofLogged (a := a) ha (Job.succeeds_pure _)

lemma succeeds_buildSplits (hsplits : ∀ split g, p.group? split = some g → ∃ r a,
      c.draws split g = .ok r ∧ x.assemble c.encoding c.pairs.labelMode r.pairs = .ok a)
    (splits : List Split) : Job.Succeeds (c.buildSplits x p splits) := by
  induction splits with
  | nil => exact Job.succeeds_pure []
  | cons split splits ih =>
    rw [buildSplits]
    cases hg : p.group? split with
    | none =>
      dsimp only
      split
      · exact Job.succeeds_bind_emit ih
      · exact ih
    | some g =>
      obtain ⟨r, a, hr, ha⟩ := hsplits split g hg
      refine (succeeds_buildSplit hreports hr ha).bind (yields_buildSplit x split g) fun data _ => ?_
      exact ih.bind (yields_buildSplits x p splits) fun rest _ => Job.succeeds_pure _

/-- A run without reports succeeds if every group can be drawn from and encoded. -/
theorem exists_build (hcheck : c.check = .ok ())
    (hload : (Corpus.load s.files c.corpus c.seeds).outcome = .ok x)
    (hdivide : x.divide c.partition c.seeds = .ok p)
    (hsplits : ∀ split g, p.group? split = some g → ∃ r a, c.draws split g = .ok r ∧
      x.assemble c.encoding c.pairs.labelMode r.pairs = .ok a) :
    ∃ d, (c.build.run s).1 = .ok d := by
  have hall := succeeds_buildSplits hreports hsplits Split.all
  -- checking only reports, so the files that are loaded are those from before the run
  have hstart : ((liftM c.check : Job Unit).run s).1 = .ok () ∧
      (Job.files.run ((liftM c.check : Job Unit).run s).2).1 = .ok s.files := by
    rw [Job.run_liftM]
    exact ⟨hcheck, rfl⟩
  obtain ⟨d, hd⟩ : ∃ d, ((do
      let corpus ← Job.ofLogged (Corpus.load s.files c.corpus c.seeds)
      let partition ← corpus.divide c.partition c.seeds
      Job.emit ((Capacity.ofPartition partition).map fun entry => c.capacityEvent entry.1 entry.2)
      let splits ← c.buildSplits corpus partition Split.all
      return ⟨corpus, partition, splits, c.seeds⟩ : Job Datasets).run
        ((liftM c.check : Job Unit).run s).2).1 = .ok d := by
    refine Job.succeeds_bind_ofLogged hload ?_ _
    refine Job.succeeds_bind_ofLogged (a := p) hdivide ?_
    refine Job.succeeds_bind_emit ?_
    exact hall.bind (yields_buildSplits x p Split.all) fun _ _ => Job.succeeds_pure _
  unfold build
  rw [hreports]
  exact ⟨d, Job.bind_eq_ok.mpr ⟨(), hstart.1, Job.bind_eq_ok.mpr ⟨s.files, hstart.2, hd⟩⟩⟩

end NoReports

end DatasetConfig
end PairDatasets
