import Mathlib.Algebra.BigOperators.Group.List.Basic
import PairDatasets.Proofs.Corpus.Load

/-! The account of a loaded corpus. Every candidate and every line of its file ends in exactly one
place: in the corpus, or in one column of the report. -/
namespace PairDatasets

namespace Reading
variable {c : CorpusConfig}

lemma total_foldl_add (problem : String) (os : List Omitted) (m : OmittedByProblem) :
    (os.foldl (fun m o => m.add problem o) m).total = m.total + os.length := by
  induction os generalizing m with
  | nil => rfl
  | cons o os ih =>
    rw [List.foldl_cons, ih, OmittedByProblem.total_add, List.length_cons]
    omega

/-- A problem that is read twice is counted twice. -/
theorem total_collect (pick : Reading → List Omitted) (readings : List Reading) :
    (collect pick readings).total = (readings.map fun r => (pick r).length).sum := by
  -- a fold of folds, so the total is followed from any start
  have hrun (m : OmittedByProblem) :
      (readings.foldl (fun m r => (pick r).foldl (fun m o => m.add r.problem o) m) m).total =
        m.total + (readings.map fun r => (pick r).length).sum := by
    induction readings generalizing m with
    | nil => rfl
    | cons r readings ih =>
      rw [List.foldl_cons, ih, total_foldl_add, List.map_cons, List.sum_cons, Nat.add_assoc]
  rw [collect, hrun]
  exact Nat.zero_add _

lemma sum_lines (readings : List Reading) :
    (readings.map fun r => r.lines.length).sum =
      (readings.map fun r => r.rejected.length).sum + (readings.map fun r => r.tooShort.length).sum +
        (readings.map fun r => r.tooLong.length).sum + (readings.map fun r => r.kept.length).sum := by
  induction readings with
  | nil => rfl
  | cons r readings ih =>
    simp only [List.map_cons, List.sum_cons, ih, length_lines r]
    omega

/-- Each reading goes one of three ways. -/
theorem perm_ways (c : CorpusConfig) (readings : List Reading) :
    readings.Perm (readings.filter (accepted c) ++
      (readings.filter (fun r => !r.readable) ++ readings.filter (underpopulated c))) := by
  induction readings with
  | nil => exact .nil
  | cons r readings ih =>
    rcases trichotomy c r with ⟨ha, hr, hu⟩ | ⟨ha, hr, hu⟩ | ⟨ha, hr, hu⟩
    · simpa [ha, hr, hu] using ih
    · simp only [List.filter_cons, ha, hr, hu]
      exact (ih.cons r).trans List.perm_middle.symm
    · simp only [List.filter_cons, ha, hr, hu]
      rw [← List.append_assoc] at ih ⊢
      exact (ih.cons r).trans List.perm_middle.symm

lemma sum_kept (c : CorpusConfig) (readings : List Reading) :
    (readings.map fun r => r.kept.length).sum =
      ((readings.filter (underpopulated c)).map fun r => r.kept.length).sum +
        ((readings.filter (accepted c)).map fun r => r.kept.length).sum := by
  have hnone : ((readings.filter fun r => !r.readable).map fun r => r.kept.length).sum = 0 := by
    apply List.sum_eq_zero
    intro n hn
    obtain ⟨r, hr, rfl⟩ := List.mem_map.mp hn
    rw [kept_of_not_readable (by simpa using (List.mem_filter.mp hr).2)]
    rfl
  rw [((perm_ways c readings).map _).sum_eq, List.map_append, List.map_append, List.sum_append,
    List.sum_append, hnone]
  omega

/-- A reading that kept nothing could not be read or is underpopulated. -/
lemma faulty_iff (c : CorpusConfig) {r : Reading} : r.faulty = true ↔
    r.rejected ≠ [] ∨ r.readable = false ∨ (r.underpopulated c = true ∧ r.kept = []) := by
  unfold faulty underpopulated
  by_cases hkept : r.kept = [] <;> cases r.readable <;> simp [hkept]

end Reading

/-- The lines of the file of a problem that are not blank; none if it cannot be read. -/
def CorpusConfig.entriesOf (c : CorpusConfig) (t : FileTree) (problem : String) : List String :=
  match t.readText (c.problemPath problem) with
  | .ok text => Text.entries text
  | .error _ => []

lemma Reading.length_lines_ofProblem {t : FileTree} {c : CorpusConfig} {vocabulary : ℕ}
    (problem : String) :
    (ofProblem t c vocabulary problem).lines.length = (c.entriesOf t problem).length := by
  unfold CorpusConfig.entriesOf
  cases htext : t.readText (c.problemPath problem) with
  | error e => simp [lines, ofProblem, htext, Except.map]
  | ok text =>
    rw [lines_ofProblem htext, LineFate.length_ofText]

/-- A problem belongs to a dataset if the index names it, or without an index if it has a file. -/
def CorpusConfig.Has (c : CorpusConfig) (t : FileTree) (problem : String) : Prop :=
  match ProblemCounts.read t c.directory with
  | .ok (some counts) => problem ∈ counts.map Prod.fst
  | .ok none => t.isFile (c.problemPath problem) = true
  | .error _ => False

lemma Candidates.absent_ne_nil {t : FileTree} {c : CorpusConfig} {found : Candidates}
    (h : find t c = .ok found) :
    found.absent ≠ [] ↔
      ∃ requested, c.problemList = some requested ∧ ∃ name ∈ requested, ¬ c.Has t name := by
  unfold find at h
  obtain ⟨counts, hcounts, h⟩ := bind_eq_ok.mp h
  unfold CorpusConfig.Has
  rw [hcounts]
  cases hlist : c.problemList with
  | none =>
    rw [hlist] at h
    cases counts <;> cases h <;> simp
  | some names =>
    rw [hlist] at h
    cases counts with
    | none =>
      cases h
      simp [requested]
    | some counts =>
      cases h
      simp [requested, List.filter_eq_nil_iff]

namespace Corpus
variable {t : FileTree} {c : CorpusConfig} {seeds : Seeds} {x : Corpus}

/-- Where the candidates and their lines ended. -/
structure Accounts (t : FileTree) (c : CorpusConfig) (vocabulary : ℕ) (names : List String)
    (x : Corpus) : Prop where
  perm : names.Perm (x.problems.map Problem.name ++
    (x.report.unreadable ++ x.report.underpopulated.map Prod.fst))
  candidates : names.length =
    x.problemCount + x.report.unreadable.length + x.report.underpopulated.length
  lines : (names.map fun name => (c.entriesOf t name).length).sum =
    x.report.rejectedLines + x.report.omitted + (x.report.underpopulated.map Prod.snd).sum +
      x.solutionCount
  solutions : ∀ p ∈ x.problems, ∃ text, t.readText (c.problemPath p.name) = .ok text ∧
    p.solutions.Perm ((Solution.ofText vocabulary text).filter fun s => c.admits s.size)
  badData : x.report.badData = true ↔
    0 < x.report.rejectedLines ∨ x.report.unreadable ≠ [] ∨ (∃ e ∈ x.report.underpopulated, e.2 = 0) ∨
      ∃ requested, c.problemList = some requested ∧ ∃ name ∈ requested, ¬ c.Has t name

lemma badData_ofReadings (c : CorpusConfig) (absent : List String) (readings : List Reading) :
    (LoadReport.ofReadings c absent readings).badData = true ↔
      0 < (LoadReport.ofReadings c absent readings).rejectedLines ∨
      (LoadReport.ofReadings c absent readings).unreadable ≠ [] ∨
      (∃ e ∈ (LoadReport.ofReadings c absent readings).underpopulated, e.2 = 0) ∨ absent ≠ [] := by
  have hrejected : 0 < (LoadReport.ofReadings c absent readings).rejectedLines ↔
      ∃ r ∈ readings, r.rejected ≠ [] := by
    simp [LoadReport.ofReadings, List.sum_pos_iff_exists_pos_nat, List.length_pos_iff]
  have hunreadable : (LoadReport.ofReadings c absent readings).unreadable ≠ [] ↔
      ∃ r ∈ readings, r.readable = false := by
    simp [LoadReport.ofReadings, List.filter_eq_nil_iff]
  have hempty : (∃ e ∈ (LoadReport.ofReadings c absent readings).underpopulated, e.2 = 0) ↔
      ∃ r ∈ readings, r.underpopulated c = true ∧ r.kept = [] := by
    simp [LoadReport.ofReadings, and_assoc]
  have hbad : (LoadReport.ofReadings c absent readings).badData = true ↔
      absent ≠ [] ∨ ∃ r ∈ readings, r.faulty = true := by
    simp [LoadReport.ofReadings]
  rw [hbad, hrejected, hunreadable, hempty]
  simp only [Reading.faulty_iff c, and_or_left, exists_or]
  rw [or_comm, or_assoc, or_assoc]

theorem accounts_of_holds {info : DatasetInfo} {found : Candidates} {names : List String}
    (hfound : Candidates.find t c = .ok found)
    (h : x.Holds info c found.absent (names.map (Reading.ofProblem t c info.vocabulary))) :
    x.Accounts t c info.vocabulary names := by
  set readings := names.map (Reading.ofProblem t c info.vocabulary) with hreadings
  have hnames : readings.map Reading.problem = names := by
    simp [hreadings, Function.comp_def, Reading.ofProblem]
  have hkept : (readings.filter (Reading.accepted c)).map Reading.problem =
      x.problems.map Problem.name :=
    map_eq_map_of_forall₂ (fun _ _ hkeeps => hkeeps.name.symm) h.keeps
  have hperm : names.Perm (x.problems.map Problem.name ++
      (x.report.unreadable ++ x.report.underpopulated.map Prod.fst)) := by
    have hways := (Reading.perm_ways c readings).map Reading.problem
    rw [hnames, List.map_append, List.map_append, hkept] at hways
    simpa [h.report, LoadReport.ofReadings, Function.comp_def] using hways
  refine ⟨hperm, ?_, ?_, ?_, ?_⟩
  · simpa [problemCount, Nat.add_assoc] using hperm.length_eq
  · have hlines : (names.map fun name => (c.entriesOf t name).length) =
        readings.map fun r => r.lines.length := by
      simp [hreadings, Function.comp_def, Reading.length_lines_ofProblem]
    rw [hlines, Reading.sum_lines, Reading.sum_kept c, solutionCount, counts_of_keeps h.keeps, h.report,
      LoadReport.omitted]
    simp only [LoadReport.ofReadings, Reading.total_collect, List.map_map, Function.comp_def]
    omega
  · intro p hp
    obtain ⟨text, htext, hsolutions, -, -⟩ := h.exists_text hp
    exact ⟨text, htext, hsolutions⟩
  · rw [h.report, badData_ofReadings, Candidates.absent_ne_nil hfound]

end Corpus

/-- Loading accounts for everything: of the names that were chosen each is a problem of the corpus, or
unreadable, or underpopulated; each line of their files is counted once. -/
theorem load_accounts {t : FileTree} {c : CorpusConfig} {seeds : Seeds} {x : Corpus}
    (h : (Corpus.load t c seeds).outcome = .ok x) :
    ∃ info found names, DatasetInfo.read t c.directory = .ok info ∧
      Candidates.find t c = .ok found ∧ Candidates.select c seeds found.names = .ok names ∧
      x.Accounts t c info.vocabulary names := by
  obtain ⟨info, found, names, hinfo, hfound, hnames, hx⟩ := Corpus.holds_of_load h
  refine ⟨info, found, names, hinfo, hfound, hnames, ?_⟩
  exact Corpus.accounts_of_holds hfound hx

theorem load_mixedDataset_accounts :
    (Corpus.load mixedDataset mixedConfig ⟨101⟩).outcome = .ok mixedCorpus ∧
      ∃ names, mixedCorpus.Accounts mixedDataset mixedConfig 10 names := by
  obtain ⟨info, found, names, hinfo, -, -, haccounts⟩ := load_accounts load_mixedDataset
  rw [show mixedConfig.directory = "ds" from rfl, read_mixedDataset] at hinfo
  cases hinfo
  exact ⟨load_mixedDataset, names, haccounts⟩

end PairDatasets
