import PairDatasets.Proofs.CommandLine.Options
import PairDatasets.Proofs.Files.Contents

/-! Which values of a description options replace. An option that is given decides its own value and no
other one, but a strategy that is named brings the default share of validation with it, and an encoding
that is named brings its length, or none. -/
namespace PairDatasets

/-- A value that an option replaces if it is given. -/
structure Replaces {α : Type} (given : Option α) (old new : α) : Prop where
  replaced : ∀ v, given = some v → new = v
  kept : given = none → new = old

namespace Replaces
variable {α : Type}

lemma getD (given : Option α) (old : α) : Replaces given old (given.getD old) := by
  cases given with
  | none => exact ⟨nofun, fun _ => rfl⟩
  | some v => exact ⟨fun _ h => Option.some.inj h, nofun⟩

lemma orElse (given old : Option α) : Replaces (given.map some) old (given <|> old) := by
  cases given with
  | none => exact ⟨nofun, fun _ => rfl⟩
  | some v => exact ⟨fun _ h => Option.some.inj h, nofun⟩

end Replaces

namespace Strategy

/-- What a strategy sets aside for testing. Of a balanced one the amount is a part of the solutions; as
an amount of problems it may be a count, which no balanced strategy is given. -/
def SetsAside : Strategy → TestAmount → Prop
  | disjointProblems t _, amount => t = amount
  | sameProblems t _, amount => t = amount
  | balanced f _, .none => (f == 0.0) = true
  | balanced f _, .fraction g => f = g
  | balanced f _, .count n => TestAmount.isWhole f = true ∧ f.toUInt64.toNat = n

lemma exists_setsAside (s : Strategy) : ∃ amount, s.SetsAside amount := by
  cases s with
  | disjointProblems t v => exact ⟨t, rfl⟩
  | sameProblems t v => exact ⟨t, rfl⟩
  | balanced f v => exact ⟨.fraction f, rfl⟩

lemma setsAside_of_ofNumber {f v : Float} {amount : TestAmount} (h : TestAmount.ofNumber f = .ok amount) :
    (balanced f v).SetsAside amount := by
  unfold TestAmount.ofNumber at h
  split at h
  · cases h
  split at h
  · rename_i hzero
    cases h
    exact hzero
  split at h
  · cases h
    exact rfl
  split at h
  · rename_i hwhole
    cases h
    exact ⟨hwhole, rfl⟩
  · cases h

lemma setsAside_of_testAmount {s : Strategy} {amount : TestAmount} (h : s.testAmount = .ok amount) :
    s.SetsAside amount := by
  cases s with
  | disjointProblems t v => exact Except.ok.inj h
  | sameProblems t v => exact Except.ok.inj h
  | balanced f v => exact setsAside_of_ofNumber h

end Strategy

/-- A strategy of a kind has what it is made of. -/
lemma StrategyKind.strategy_eq_ok {kind : StrategyKind} {test : TestAmount} {validation : Float}
    {s : Strategy} (h : kind.strategy test validation = .ok s) :
    s.kind = kind ∧ s.validation = validation ∧ s.SetsAside test := by
  cases kind with
  | disjoint => cases h; exact ⟨rfl, rfl, rfl⟩
  | sameProblems => cases h; exact ⟨rfl, rfl, rfl⟩
  | balanced =>
    cases test with
    | none =>
      cases h
      have hzero : ((0.0 : Float) == 0.0) = true := by decide
      exact ⟨rfl, rfl, hzero⟩
    | fraction f => cases h; exact ⟨rfl, rfl, rfl⟩
    | count n => cases h

namespace BuildOptions
variable {t : FileTree} {o : BuildOptions} {base c : DatasetConfig} {old new : Strategy}

/-- What options make of a strategy. -/
structure Divides (o : BuildOptions) (old new : Strategy) : Prop where
  kept : o.strategy = none → o.test = none → o.validation = none → new = old
  kind : Replaces o.strategy old.kind new.kind
  validation : Replaces o.validation
    (if o.strategy.isSome then Strategy.defaultValidation else old.validation) new.validation
  test : ∀ x, o.test = some x → ∃ amount, TestAmount.ofNumber x = .ok amount ∧ new.SetsAside amount
  test_kept : o.test = none → ∃ amount, old.SetsAside amount ∧ new.SetsAside amount

theorem partition_divides (h : o.partition old = .ok new) : o.Divides old new := by
  unfold partition at h
  split at h
  · rename_i hkept
    cases h
    obtain ⟨⟨hstrategy, htest⟩, hvalidation⟩ :
        (o.strategy = none ∧ o.test = none) ∧ o.validation = none := by
      simpa [dividesAnew] using hkept
    refine ⟨fun _ _ _ => rfl, ?_, ?_, ?_, fun _ => ?_⟩
    · rw [hstrategy]
      exact ⟨nofun, fun _ => rfl⟩
    · rw [hstrategy, hvalidation]
      exact ⟨nofun, fun _ => rfl⟩
    · rw [htest]
      exact nofun
    · obtain ⟨amount, hamount⟩ := old.exists_setsAside
      exact ⟨amount, hamount, hamount⟩
  · rename_i hanew
    dsimp only at h
    obtain ⟨kept, hkept, h⟩ := bind_eq_ok.mp h
    obtain ⟨test, hgiven, h⟩ : ∃ test,
        ((o.test = none ∧ test = kept) ∨ ∃ x, o.test = some x ∧ TestAmount.ofNumber x = .ok test) ∧
          (o.strategy.getD old.kind).strategy test (o.validation.getD
            (if o.strategy.isSome then Strategy.defaultValidation else old.validation)) = .ok new := by
      split at h
      · rename_i hnone
        obtain ⟨test, htest, h⟩ := bind_eq_ok.mp h
        exact ⟨test, .inl ⟨hnone, (Except.ok.inj htest).symm⟩, h⟩
      · rename_i x hx
        obtain ⟨test, htest, h⟩ := bind_eq_ok.mp h
        exact ⟨test, .inr ⟨x, hx, mapError_eq_ok.mp htest⟩, h⟩
    obtain ⟨hkind, hvalidation, hsetsAside⟩ := StrategyKind.strategy_eq_ok h
    refine ⟨?_, hkind ▸ .getD o.strategy old.kind, hvalidation ▸ .getD o.validation _, ?_, ?_⟩
    · intro hnone hnone' hnone''
      simp [dividesAnew, hnone, hnone', hnone''] at hanew
    · intro x hx
      obtain ⟨hnone, -⟩ | ⟨y, hy, hamount⟩ := hgiven
      · cases hnone.symm.trans hx
      · cases hy.symm.trans hx
        exact ⟨test, hamount, hsetsAside⟩
    · intro hnone
      obtain ⟨-, rfl⟩ | ⟨y, hy, -⟩ := hgiven
      · exact ⟨test, Strategy.setsAside_of_testAmount (mapError_eq_ok.mp hkept), hsetsAside⟩
      · cases hnone.symm.trans hy

/-- What options make of a description. -/
structure Overrides (t : FileTree) (o : BuildOptions) (base c : DatasetConfig) : Prop where
  directory : Replaces o.dataset base.corpus.directory c.corpus.directory
  minTokens : Replaces o.limits.minTokens base.corpus.minTokens c.corpus.minTokens
  maxTokens : Replaces (o.limits.maxTokens.map some) base.corpus.maxTokens c.corpus.maxTokens
  minSolutions : Replaces o.limits.minSolutions base.corpus.minSolutions c.corpus.minSolutions
  maxProblems : Replaces (o.limits.maxProblems.map some) base.corpus.maxProblems c.corpus.maxProblems
  /-- The names are the lines of the file, without white space around them and without empty ones. -/
  problemList : ∀ path, o.problemList = some path → ∃ text, t.readText path = .ok text ∧
    c.corpus.problemList = some (((Text.lines text).map Text.trim).filter fun l => !l.isEmpty)
  problemList_kept : o.problemList = none → c.corpus.problemList = base.corpus.problemList
  partition : o.Divides base.partition c.partition
  training : Replaces o.trainingSize base.pairs.training c.pairs.training
  validation : Replaces o.validationSize base.pairs.validation c.pairs.validation
  test : Replaces o.testSize base.pairs.test c.pairs.test
  similarFraction : Replaces o.similarFraction base.pairs.similarFraction c.pairs.similarFraction
  labelMode : Replaces (if o.bipolar then some .bipolar else none) base.pairs.labelMode c.pairs.labelMode
  encoding : ∀ kind, o.encoding = some kind → c.encoding = kind.encoding o.maxLength
  encoding_kept : o.encoding = none → o.maxLength = none → c.encoding = base.encoding
  seedOffset : Replaces o.seedOffset base.seedOffset.toNat c.seedOffset.toNat
  slots : Replaces o.slots base.slots c.slots
  reports : ∀ dir, o.reports = some dir → c.reports = some dir
  noReports : o.noReports = true → c.reports = none
  reports_kept : o.reports = none → o.noReports = false → c.reports = base.reports
  dumpSamples : Replaces (if o.dumpSamples then some true else none) base.dumpSamples c.dumpSamples

lemma directory_eq_ok {dir : String} (h : o.directory base = .ok dir) :
    Replaces o.dataset base.corpus.directory dir := by
  unfold directory at h
  split at h
  · rename_i hgiven
    cases h
    rw [hgiven]
    exact .getD _ _
  · rename_i hnone _
    cases h
    rw [hnone]
    exact .getD _ _
  · cases h

lemma problemNames_eq_ok {names : Option (List String)} (h : o.problemNames t base = .ok names) :
    (∀ path, o.problemList = some path → ∃ text, t.readText path = .ok text ∧
      names = some (((Text.lines text).map Text.trim).filter fun l => !l.isEmpty)) ∧
    (o.problemList = none → names = base.corpus.problemList) := by
  unfold problemNames at h
  split at h
  · rename_i hnone
    cases h
    rw [hnone]
    exact ⟨nofun, fun _ => rfl⟩
  · rename_i path hpath
    split at h
    · cases h
    · rename_i text htext
      cases h
      rw [hpath]
      refine ⟨?_, nofun⟩
      rintro _ ⟨⟩
      exact ⟨text, htext, rfl⟩

lemma replaces_flag {α : Type} (flag : Bool) (value old : α) :
    Replaces (if flag then some value else none) old (if flag then value else old) := by
  cases flag with
  | false => exact ⟨nofun, fun _ => rfl⟩
  | true => exact ⟨fun _ h => Option.some.inj h, nofun⟩

lemma seedOffset_replaces (hvalid : o.Valid) (old : UInt64) :
    Replaces o.seedOffset old.toNat ((o.seedOffset.map Nat.toUInt64).getD old).toNat := by
  have hseed := hvalid.seedOffset
  cases hgiven : o.seedOffset with
  | none => exact ⟨nofun, fun _ => rfl⟩
  | some n =>
    refine ⟨?_, nofun⟩
    rintro _ ⟨⟩
    exact UInt64.toNat_ofNat_of_lt (hseed n hgiven)

/-- Options that were read replace of the description what they stand for, and nothing else. -/
theorem config?_overrides {args : List String}
    (hargs : Scan.run opts args { options := {} } = .ok (some o)) (h : o.config? t = .ok c) :
    ∃ base, o.base t = .ok base ∧ o.Overrides t base c := by
  have hvalid := run_valid hargs
  obtain ⟨base, hbase, h⟩ := bind_eq_ok.mp h
  obtain ⟨dir, hdir, h⟩ := bind_eq_ok.mp h
  obtain ⟨names, hnames, h⟩ := bind_eq_ok.mp h
  obtain ⟨strategy, hstrategy, h⟩ := bind_eq_ok.mp h
  obtain ⟨-, -, h⟩ := bind_eq_ok.mp h
  cases h
  obtain ⟨hlisted, hunlisted⟩ := problemNames_eq_ok hnames
  refine ⟨base, hbase, ?_⟩
  exact {
    directory := directory_eq_ok hdir
    minTokens := .getD _ _
    maxTokens := .orElse _ _
    minSolutions := .getD _ _
    maxProblems := .orElse _ _
    problemList := hlisted
    problemList_kept := hunlisted
    partition := partition_divides hstrategy
    training := .getD _ _
    validation := .getD _ _
    test := .getD _ _
    similarFraction := .getD _ _
    labelMode := replaces_flag o.bipolar _ _
    encoding := by
      intro kind hkind
      change (o.encoding.map (EncodingKind.encoding o.maxLength)).getD base.encoding = _
      rw [hkind]
      rfl
    encoding_kept := by
      intro hnone _
      change (o.encoding.map (EncodingKind.encoding o.maxLength)).getD base.encoding = _
      rw [hnone]
      rfl
    seedOffset := seedOffset_replaces hvalid base.seedOffset
    slots := .getD _ _
    reports := by
      intro dir hdir
      have hflag : o.noReports = false := by
        rw [Bool.eq_false_iff]
        intro hnone
        rw [hvalid.reports hnone] at hdir
        cases hdir
      simp [reportDirectory, hflag, hdir]
    noReports := by
      intro hflag
      simp [reportDirectory, hflag]
    reports_kept := by
      intro hnone hflag
      simp [reportDirectory, hnone, hflag]
    dumpSamples := by
      have hor : (base.dumpSamples || o.dumpSamples) = if o.dumpSamples then true else base.dumpSamples := by
        cases o.dumpSamples <;> simp
      rw [hor]
      exact replaces_flag o.dumpSamples _ _ }

/-- A description with a strategy that holds nothing back for validation, and with a length. -/
def shortText : String := "\x7b\"corpus\":\x7b\"dataset_dir\":\"ds\"\x7d," ++
  "\"partition\":\x7b\"SameProblems\":\x7b\"test\":\"None\",\"validation_fraction\":0.0\x7d\x7d," ++
  "\"pairs\":\x7b\"train_size\":4,\"validation_size\":2\x7d," ++
  "\"encoding\":\x7b\"PaddedSequence\":\x7b\"max_len\":32\x7d\x7d,\"report_dir\":null\x7d"

def shortTree : FileTree := ⟨[(["run.json"], .file shortText.toUTF8)]⟩

def shortBase : DatasetConfig where
  corpus := { directory := "ds" }
  partition := .sameProblems .none 0.0
  pairs := { training := 4, validation := 2 }
  encoding := .sequence (some 32)
  reports := none

lemma read_shortTree : DatasetConfig.read shortTree "run.json" = .ok shortBase := by
  have hlook : shortTree.look "run.json" = .ok (.file shortText.toUTF8) := rfl
  have hjson : (Json.parse? shortText).bind DatasetConfig.ofJson? = some shortBase := by decide +kernel
  rw [DatasetConfig.read, FileTree.isFile, hlook, FileTree.readText_of_look hlook]
  simp only [Bool.not_true, Bool.false_eq_true, if_false, hjson]

lemma base_shortTree (h : o.config = some "run.json") : o.base shortTree = .ok shortBase := by
  rw [base, h]
  exact mapError_eq_ok.mpr read_shortTree

def replacingArgs : List String :=
  ["--config", "run.json", "--strategy=balanced", "--test", "0.25", "--encoding=one-hot", "--max-len",
    "64", "--train-size=100", "--seed-offset", "7", "--report-dir", "out", "--dump-samples"]

def replacingOptions : BuildOptions where
  config := some "run.json"
  strategy := some .balanced
  test := some 0.25
  encoding := some .oneHot
  maxLength := some 64
  trainingSize := some 100
  seedOffset := some 7
  reports := some "out"
  dumpSamples := true

def replacedConfig : DatasetConfig where
  corpus := { directory := "ds" }
  partition := .balanced 0.25 0.2
  pairs := { training := 100, validation := 2 }
  encoding := .oneHot (some 64)
  seedOffset := 7
  reports := some "out"
  dumpSamples := true

/-- The options replace what they name, and the strategy brings its share of validation. -/
theorem config?_replacingOptions_overrides :
    Scan.run opts replacingArgs { options := {} } = .ok (some replacingOptions) ∧
      replacingOptions.config? shortTree = .ok replacedConfig ∧
      ∃ base, replacingOptions.base shortTree = .ok base ∧
        replacingOptions.Overrides shortTree base replacedConfig := by
  have hargs : Scan.run opts replacingArgs { options := {} } = .ok (some replacingOptions) :=
    eq_ok_of_toOption (by decide +kernel)
  have hconfig : replacingOptions.config? shortTree = .ok replacedConfig := by
    rw [config?, base_shortTree rfl]
    exact eq_ok_of_toOption (by decide +kernel)
  exact ⟨hargs, hconfig, config?_overrides hargs hconfig⟩

def renamingArgs : List String :=
  ["--config", "run.json", "--strategy", "same-problems", "--encoding", "sequence"]

def renamingOptions : BuildOptions where
  config := some "run.json"
  strategy := some .sameProblems
  encoding := some .sequence

/-- Naming the strategy and the encoding of the description once more resets the share of validation and
the length, which no option names. -/
theorem config?_renamingOptions_resets :
    Scan.run opts renamingArgs { options := {} } = .ok (some renamingOptions) ∧
      renamingOptions.base shortTree = .ok shortBase ∧
      renamingOptions.validation = none ∧ renamingOptions.maxLength = none ∧
      ∃ c, renamingOptions.config? shortTree = .ok c ∧
        c.partition.validation ≠ shortBase.partition.validation ∧ c.encoding ≠ shortBase.encoding := by
  have hargs : Scan.run opts renamingArgs { options := {} } = .ok (some renamingOptions) :=
    eq_ok_of_toOption (by decide +kernel)
  have hbase : renamingOptions.base shortTree = .ok shortBase := base_shortTree rfl
  have hconfig : renamingOptions.config? shortTree =
      .ok { shortBase with partition := .sameProblems .none 0.2, encoding := .sequence none } := by
    rw [config?, hbase]
    exact eq_ok_of_toOption (by decide +kernel)
  exact ⟨hargs, hbase, rfl, rfl, _, hconfig, by decide, by decide⟩

end BuildOptions
end PairDatasets
