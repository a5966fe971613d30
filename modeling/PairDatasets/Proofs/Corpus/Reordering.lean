import Mathlib
import PairDatasets.Proofs.Corpus.Load
import PairDatasets.Proofs.Files.Reordering

/-! Loading in another order. Names are sorted before they are shuffled, and so are the solutions of
every problem; so neither the order of a directory, of an index, of a request nor of the lines of a
file shows in the corpus, as long as the solutions of a problem have different names. -/
namespace PairDatasets
variable {t t' : FileTree} {c : CorpusConfig} {requested : Option (List String)} {seeds : Seeds}

lemma DatasetInfo.read_eq (h : t.SamePlaces t') (dir : String) : read t dir = read t' dir := by
  unfold read
  rw [h.isFile_eq, h.readText_info]

lemma ProblemCounts.agree_read (h : t.SamePlaces t') (dir : String) :
    Agree (Option.Rel List.Perm) (read t dir) (read t' dir) := by
  unfold read
  rw [← h.isFile_eq]
  cases t.isFile (path dir) with
  | false => exact .ok .none
  | true =>
    obtain heq | ⟨text, text', htext, htext', hrel⟩ := h.readText_index dir
    · rw [heq]
      refine .of_eq rfl fun counts => ?_
      cases counts with
      | none => exact .none
      | some counts => exact .some (.refl counts)
    · rw [htext, htext']
      dsimp only
      generalize (Json.parse? text).bind entries? = entries at hrel ⊢
      generalize (Json.parse? text').bind entries? = entries' at hrel ⊢
      cases hrel with
      | none => exact .error _ _
      | some hperm => exact (agree_mapM hperm).map fun _ _ => .some

namespace Candidates

/-- The same names in another order. -/
structure Alike (found found' : Candidates) : Prop where
  names : found.names.Perm found'.names
  absent : found.absent.Perm found'.absent

lemma alike_requested {known known' : String → Bool} (h : ∀ name, known name = known' name)
    {names names' : List String} (hperm : names.Perm names') :
    Alike (Candidates.requested known names) (Candidates.requested known' names') := by
  rw [funext h]
  exact ⟨hperm.filter _, hperm.filter _⟩

theorem agree_find (h : t.Reordered t') (hlist : Option.Rel List.Perm c.problemList requested) :
    Agree Alike (find t c) (find t' { c with problemList := requested }) := by
  unfold find
  refine (ProblemCounts.agree_read h.samePlaces c.directory).bind fun counts counts' _ hcounts => ?_
  cases hproblems : c.problemList with
  | none =>
    rw [hproblems] at hlist
    cases hlist
    cases hcounts with
    | none => exact .ok ⟨(h.fileNames c.directory).filterMap _, .nil⟩
    | some hperm => exact .ok ⟨(hperm.filter _).map _, .nil⟩
  | some names =>
    rw [hproblems] at hlist
    cases hlist with
    | some hnames =>
      cases hcounts with
      | none => exact .ok (alike_requested (fun _ => h.samePlaces.isFile_eq _) hnames)
      | some hperm => exact .ok (alike_requested (fun _ => hperm.any_eq) hnames)

/-- The names are sorted first. -/
lemma select_eq {names names' : List String} (h : names.Perm names') :
    select { c with problemList := requested } seeds names' = select c seeds names := by
  unfold select Seeds.shuffleSorted
  rw [mergeSort_eq_of_perm h fun _ _ _ _ heq => heq]

end Candidates

/-- Why a line is rejected. -/
def lineError? (vocabulary : ℕ) (line : String) : Option LineError :=
  match Solution.ofLine vocabulary line with
  | .error e => some e
  | .ok _ => none

namespace LineFate

def error? : LineFate → Option LineError
  | rejected _ e => some e
  | _ => none

lemma error?_ofSolution (s : Solution) : (ofSolution c s).error? = none := by
  unfold ofSolution
  split_ifs
  · rfl
  · cases c.maxTokens with
    | none => rfl
    | some long =>
      dsimp only
      split_ifs <;> rfl

lemma error?_ofLine {vocabulary : ℕ} (line : String) (number : ℕ) :
    (ofLine c vocabulary line number).error? = lineError? vocabulary line := by
  unfold ofLine lineError?
  cases Solution.ofLine vocabulary line with
  | error e => rfl
  | ok s => exact error?_ofSolution s

end LineFate

namespace Reading

/-- Two readings that kept the same solutions and refused as many lines. -/
structure Alike (r r' : Reading) : Prop where
  problem : r.problem = r'.problem
  readable : r.readable = r'.readable
  kept : r.kept.Perm r'.kept
  rejected : r.rejected.length = r'.rejected.length

lemma Alike.refl (r : Reading) : r.Alike r := ⟨rfl, rfl, .refl _, rfl⟩

lemma length_rejected_ofProblem {vocabulary : ℕ} {problem text : String}
    (h : t.readText (c.problemPath problem) = .ok text) :
    (ofProblem t c vocabulary problem).rejected.length =
      ((Text.entries text).filterMap fun line => lineError? vocabulary line).length := by
  rw [← LineFate.filterMap_ofText (LineFate.error?_ofLine (c := c)), ← lines_ofProblem h]
  unfold rejected
  induction (ofProblem t c vocabulary problem).lines with
  | nil => rfl
  | cons fate fates ih =>
    cases fate <;> simp only [List.filterMap_cons, LineFate.error?, List.length_cons, ih]

theorem alike_ofProblem (h : t.SamePlaces t') (vocabulary : ℕ) (problem : String) :
    (ofProblem t c vocabulary problem).Alike
      (ofProblem t' { c with problemList := requested } vocabulary problem) := by
  -- a reading does not look at the request
  change Alike _ (ofProblem t' c vocabulary problem)
  obtain heq | ⟨text, text', htext, htext', hperm⟩ := h.readText_problem c problem
  · unfold ofProblem
    rw [heq]
    exact .refl _
  · have hentries : (Text.entries text).Perm (Text.entries text') := hperm.filter _
    refine ⟨rfl, ?_, ?_, ?_⟩
    · rw [readable_ofProblem.mpr ⟨text, htext⟩, readable_ofProblem.mpr ⟨text', htext'⟩]
    · rw [kept_ofProblem htext, kept_ofProblem htext']
      exact (hentries.filterMap _).filter _
    · rw [length_rejected_ofProblem htext, length_rejected_ofProblem htext']
      exact (hentries.filterMap _).length_eq

section Alike
variable {r r' : Reading}

lemma Alike.underpopulated (h : r.Alike r') : r.underpopulated c = r'.underpopulated c := by
  unfold Reading.underpopulated
  rw [h.readable, h.kept.isEmpty_eq, h.kept.length_eq]

lemma Alike.accepted (h : r.Alike r') : r.accepted c = r'.accepted c := by
  unfold Reading.accepted
  rw [h.readable, h.underpopulated]

lemma Alike.faulty (h : r.Alike r') : r.faulty = r'.faulty := by
  have hrejected : r.rejected.isEmpty = r'.rejected.isEmpty := by
    rw [Bool.eq_iff_iff, List.isEmpty_iff_length_eq_zero, List.isEmpty_iff_length_eq_zero, h.rejected]
  unfold Reading.faulty
  rw [h.readable, h.kept.isEmpty_eq, hrejected]

end Alike

lemma alike_filter {rs rs' : List Reading} (h : List.Forall₂ Alike rs rs') {p : Reading → Bool}
    (hp : ∀ r r' : Reading, r.Alike r' → p r = p r') :
    List.Forall₂ Alike (rs.filter p) (rs'.filter p) :=
  List.rel_filter (fun _ _ hr => Iff.of_eq (congrArg (· = true) (hp _ _ hr))) h

end Reading

/-- What two reports agree on: all but the listings of short and long solutions. -/
structure LoadReport.Alike (r r' : LoadReport) : Prop where
  unreadable : r.unreadable = r'.unreadable
  underpopulated : r.underpopulated = r'.underpopulated
  rejectedLines : r.rejectedLines = r'.rejectedLines
  badData : r.badData = r'.badData

lemma LoadReport.alike_ofReadings {absent absent' : List String} {rs rs' : List Reading}
    (habsent : absent.Perm absent') (h : List.Forall₂ Reading.Alike rs rs') :
    (LoadReport.ofReadings c absent rs).Alike (LoadReport.ofReadings c absent' rs') := by
  refine ⟨?_, ?_, ?_, ?_⟩
  · refine map_eq_map_of_forall₂ (fun _ _ hr => hr.problem) (Reading.alike_filter h fun r r' hr => ?_)
    rw [hr.readable]
  · refine map_eq_map_of_forall₂ (fun r r' hr => ?_)
      (Reading.alike_filter h fun _ _ hr => hr.underpopulated)
    rw [hr.problem, hr.kept.length_eq]
  · exact congrArg List.sum (map_eq_map_of_forall₂ (fun _ _ hr => hr.rejected) h)
  · have hany (rs : List Reading) : rs.any Reading.faulty = (rs.map Reading.faulty).any id := by
      simp [List.any_map]
    change (!absent.isEmpty || rs.any Reading.faulty) = (!absent'.isEmpty || rs'.any Reading.faulty)
    rw [habsent.isEmpty_eq, hany, hany, map_eq_map_of_forall₂ (fun _ _ hr => hr.faulty) h]

namespace Corpus
variable {x x' : Corpus}

/-- The same problems with the same solutions in the same order. -/
structure Alike (x x' : Corpus) : Prop where
  tokenSet : x.tokenSet = x'.tokenSet
  vocabulary : x.vocabulary = x'.vocabulary
  problems : x.problems = x'.problems
  longest : x.longest = x'.longest
  report : x.report.Alike x'.report

/-- Problems with the same solutions in another order. -/
def Shuffled (p p' : String × List Solution) : Prop := p.1 = p'.1 ∧ p.2.Perm p'.2

lemma orderSolutions_eq {ps ps' : List (String × List Solution)} (h : List.Forall₂ Shuffled ps ps')
    (hnames : ∀ p ∈ ps, (p.2.map Solution.name).Nodup) (g : Generator) :
    orderSolutions ps g = orderSolutions ps' g := by
  -- sorted, the solutions of a problem are the same list, so the shuffle leaves the same generator
  induction h generalizing g with
  | nil => rfl
  | @cons p p' ps ps' hp _ ih =>
    obtain ⟨name, ss⟩ := p
    obtain ⟨name', ss'⟩ := p'
    obtain ⟨rfl, hperm⟩ := hp
    rw [List.forall_mem_cons] at hnames
    have hsorted := mergeSort_eq_of_perm hperm
      (fun a ha b hb heq => List.inj_on_of_nodup_map hnames.1 ha hb heq)
    simp only [orderSolutions, hsorted, ih hnames.2]

lemma checkSize_eq {ps ps' : List (String × List Solution)} (h : List.Forall₂ Shuffled ps ps') :
    checkSize ps = checkSize ps' := by
  have hsizes : (ps.map fun p => p.2.length) = ps'.map fun p => p.2.length :=
    map_eq_map_of_forall₂ (fun _ _ hp => hp.2.length_eq) h
  unfold checkSize
  dsimp only
  rw [hsizes, h.length_eq]

theorem agree_ofReadings {info : DatasetInfo} {absent absent' : List String} {rs rs' : List Reading}
    (habsent : absent.Perm absent') (h : List.Forall₂ Reading.Alike rs rs')
    (hnames : ∀ x, ofReadings info c seeds absent rs = .ok x →
      ∀ p ∈ x.problems, (p.solutions.map Solution.name).Nodup) :
    Agree Alike (ofReadings info c seeds absent rs) (ofReadings info c seeds absent' rs') := by
  set ps := (rs.filter (Reading.accepted c)).map fun r => (r.problem, r.kept) with hps
  set ps' := (rs'.filter (Reading.accepted c)).map fun r => (r.problem, r.kept) with hps'
  have hshuffled : List.Forall₂ Shuffled ps ps' := by
    rw [hps, hps', List.forall₂_map_left_iff, List.forall₂_map_right_iff]
    exact (Reading.alike_filter h fun _ _ hr => hr.accepted).imp fun _ _ hr => ⟨hr.problem, hr.kept⟩
  cases hsize : checkSize ps with
  | error e =>
    unfold ofReadings
    dsimp only
    rw [← hps, ← hps', ← checkSize_eq hshuffled, hsize]
    exact .error e e
  | ok u =>
    obtain ⟨x, hx⟩ : ∃ x, ofReadings info c seeds absent rs = .ok x :=
      ⟨_, ofReadings_eq_ok.mpr ⟨hsize, rfl⟩⟩
    obtain ⟨x', hx'⟩ : ∃ x, ofReadings info c seeds absent' rs' = .ok x :=
      ⟨_, ofReadings_eq_ok.mpr ⟨(checkSize_eq hshuffled).symm.trans hsize, rfl⟩⟩
    obtain ⟨-, heq⟩ := ofReadings_eq_ok.mp hx
    obtain ⟨-, heq'⟩ := ofReadings_eq_ok.mp hx'
    -- the names are distinct in the corpus, hence in the readings it was made of
    have hdistinct (p : String × List Solution) (hp : p ∈ ps) : (p.2.map Solution.name).Nodup := by
      obtain ⟨q, hq, -, hperm⟩ := exists_of_forall₂_right
        (forall₂_orderSolutions ps (seeds.generator .solutionOrder)).flip hp
      rw [← named_ofProblems info.tokenSet info.vocabulary (orderSolutions _ _)] at hq
      obtain ⟨problem, hproblem, rfl⟩ := List.mem_map.mp hq
      refine (hperm.map _).nodup_iff.mp (hnames x hx problem ?_)
      rwa [heq]
    rw [← hps, orderSolutions_eq hshuffled hdistinct] at heq
    rw [hx, hx', heq, heq']
    exact .ok ⟨rfl, rfl, rfl, rfl, LoadReport.alike_ofReadings habsent h⟩

end Corpus

/-- Loading depends on no order: in trees that differ in order only, with requests that do, it fails
in both, or makes the same corpus with the same report, if no problem has two solutions of one
name. -/
theorem load_reordered {t t' : FileTree} {c : CorpusConfig} {requested : Option (List String)}
    {seeds : Seeds} (h : t.Reordered t') (hlist : Option.Rel List.Perm c.problemList requested)
    (hnames : ∀ x, (Corpus.load t c seeds).outcome = .ok x →
      ∀ p ∈ x.problems, (p.solutions.map Solution.name).Nodup) :
    Agree Corpus.Alike (Corpus.load t c seeds).outcome
      (Corpus.load t' { c with problemList := requested } seeds).outcome := by
  have hsame {α : Type} (y : Except DatasetError α) : Agree Eq y y := .of_eq rfl fun _ => rfl
  rw [Corpus.outcome_load, Corpus.outcome_load]
  dsimp only
  rw [← h.samePlaces.isDirectory_eq, ← DatasetInfo.read_eq h.samePlaces]
  refine (hsame c.check).bind fun _ _ hcheck _ => ?_
  cases hdirectory : t.isDirectory c.directory with
  | false => exact .error _ _
  | true =>
    refine (hsame (DatasetInfo.read t c.directory)).bind ?_
    rintro info _ hinfo rfl
    refine (Candidates.agree_find h hlist).bind fun found found' hfound halike => ?_
    rw [Candidates.select_eq halike.names]
    refine (hsame (Candidates.select c seeds found.names)).bind ?_
    rintro names _ hselect rfl
    refine Corpus.agree_ofReadings halike.absent ?_ fun x hx => hnames x ?_
    · rw [List.forall₂_map_left_iff, List.forall₂_map_right_iff, List.forall₂_same]
      exact fun name _ => Reading.alike_ofProblem h.samePlaces info.vocabulary name
    · exact Corpus.load_eq_ok.mpr ⟨hcheck, hdirectory, info, found, names, hinfo, hfound, hselect, hx⟩

def reversedIndex : String := "\x7b\"c\": 1, \"b\": 2, \"a\": 4\x7d"

def reversedLinesOfA : String := "bad\nz:9,9,9,9,9\ny:1,2\n\nx:1,2,3,4"

def reversedLinesOfB : String := "v:2,2,2,2\nu:1,1,1,1\n"

/-- The dataset of two problems with everything the other way round. -/
def reversedDataset : FileTree where
  entries := [(["ds", "b.tkn"], .file reversedLinesOfB.toUTF8),
    (["ds", "a.tkn"], .file reversedLinesOfA.toUTF8), (["ds", "info.json"], .file javaInfo.toUTF8),
    (["ds", "problems.json"], .file reversedIndex.toUTF8), (["ds"], .directory)]

def mixedCounts : List (String × Json) :=
  [("a", .number ⟨false, ['4'], [], none⟩), ("b", .number ⟨false, ['2'], [], none⟩),
    ("c", .number ⟨false, ['1'], [], none⟩)]

lemma mixedDataset_reordered : mixedDataset.Reordered reversedDataset := by
  have ha : (Text.lines linesOfA).Perm (Text.lines reversedLinesOfA) := by decide +kernel
  have hb : (Text.lines linesOfB).Perm (Text.lines reversedLinesOfB) := by decide +kernel
  have hindex : Option.Rel List.Perm ((Json.parse? mixedIndex).bind ProblemCounts.entries?)
      ((Json.parse? reversedIndex).bind ProblemCounts.entries?) := by
    have hjson : Json.parse? mixedIndex = some (ProblemCounts.object mixedCounts) := by cbv
    have hjson' : Json.parse? reversedIndex = some (ProblemCounts.object mixedCounts.reverse) := by
      cbv
    rw [hjson, hjson']
    exact ProblemCounts.entries?_perm (List.reverse_perm mixedCounts).symm (by decide)
  have hperm := List.reverse_perm mixedDataset.entries
  refine FileTree.reordered_of_entries (by decide +kernel) hperm.symm ?_
  refine .cons ⟨rfl, .text (.lines "b" rfl hb)⟩ (.cons ⟨rfl, .text (.lines "a" rfl ha)⟩ ?_)
  exact .cons ⟨rfl, .same _⟩ (.cons ⟨rfl, .text (.keys rfl hindex)⟩ (.cons ⟨rfl, .directory⟩ .nil))

theorem load_reversedDataset :
    ∃ x, (Corpus.load reversedDataset mixedConfig ⟨101⟩).outcome = .ok x ∧ mixedCorpus.Alike x := by
  have hnames (x : Corpus) (hx : (Corpus.load mixedDataset mixedConfig ⟨101⟩).outcome = .ok x) :
      ∀ p ∈ x.problems, (p.solutions.map Solution.name).Nodup := by
    rw [load_mixedDataset] at hx
    cases hx
    decide
  have hagree := load_reordered mixedDataset_reordered .none hnames
  rw [load_mixedDataset] at hagree
  exact hagree.exists_ok

end PairDatasets
