import Mathlib.Data.List.Forall2
import PairDatasets.Corpus.Load
import PairDatasets.Proofs.Corpus.Reading
import PairDatasets.Proofs.Files.Contents
import PairDatasets.Proofs.Order.Mapping
import PairDatasets.Proofs.Partition.Group
import PairDatasets.Proofs.Random.Permutation

/-! What a loaded corpus consists of. Loading runs through its steps once; the corpus holds the
accepted readings in the order of the names, each with the solutions it kept in another order. -/
namespace PairDatasets
namespace Corpus
variable {t : FileTree} {c : CorpusConfig} {seeds : Seeds} {x : Corpus}

/-- Loading without what it reports on the way. -/
theorem outcome_load : (load t c seeds).outcome = (do
    c.check
    if t.isDirectory c.directory then .ok () else .error (.missing .dataset c.directory)
    let info ← DatasetInfo.read t c.directory
    let found ← Candidates.find t c
    let names ← Candidates.select c seeds found.names
    ofReadings info c seeds found.absent (names.map (Reading.ofProblem t c info.vocabulary))) := by
  have hlift {α : Type} (y : Except DatasetError α) :
      (liftM y : Logged DatasetError α).outcome = y := rfl
  have hthrow (e : DatasetError) : (throw e : Logged DatasetError Unit).outcome = .error e := rfl
  have hok {α β : Type} (a : α) (f : α → Except DatasetError β) : (.ok a >>= f) = f a := rfl
  have herror {α β : Type} (e : DatasetError) (f : α → Except DatasetError β) :
      (.error e >>= f) = .error e := rfl
  have hend (y : Except DatasetError Corpus) : (y >>= fun x => .ok x) = y := by cases y <;> rfl
  unfold load
  cases t.isDirectory c.directory <;>
    simp [hlift, hthrow, hok, herror, hend]

/-- Loading succeeds if and only if every step does. -/
theorem load_eq_ok : (load t c seeds).outcome = .ok x ↔
    c.check = .ok () ∧ t.isDirectory c.directory = true ∧ ∃ info found names,
      DatasetInfo.read t c.directory = .ok info ∧ Candidates.find t c = .ok found ∧
      Candidates.select c seeds found.names = .ok names ∧
      ofReadings info c seeds found.absent (names.map (Reading.ofProblem t c info.vocabulary)) =
        .ok x := by
  rw [outcome_load]
  cases t.isDirectory c.directory <;> simp [bind_eq_ok, Unique.exists_iff]

lemma checkSize_eq_ok {ps : List (String × List Solution)} :
    checkSize ps = .ok () ↔ 2 ≤ ps.length ∧ 2 * ps.length ≤ (ps.map fun p => p.2.length).sum := by
  unfold checkSize
  dsimp only
  split_ifs with h <;> simp <;> omega

lemma forall₂_orderSolutions (ps : List (String × List Solution)) (g : Generator) :
    List.Forall₂ (fun a b => b.1 = a.1 ∧ b.2.Perm a.2) ps (orderSolutions ps g) := by
  induction ps generalizing g with
  | nil => exact .nil
  | cons p ps ih =>
    exact .cons ⟨rfl, (Generator.shuffle_perm _ _).trans (List.mergeSort_perm _ _)⟩ (ih _)

/-- The names and the solutions of a corpus are those it is made of. -/
lemma named_ofProblems (tokenSet : String) (vocabulary : ℕ) (ps : List (String × List Solution)) :
    (ofProblems tokenSet vocabulary ps).problems.map (fun p => (p.name, p.solutions)) = ps := by
  apply List.ext_getElem?
  intro i
  simp [ofProblems, Function.comp_def]

lemma longest_ofProblems (tokenSet : String) (vocabulary : ℕ) (ps : List (String × List Solution)) :
    (ofProblems tokenSet vocabulary ps).longest =
      (((ofProblems tokenSet vocabulary ps).problems.flatMap Problem.solutions).map
        Solution.size).foldl max 0 := by
  change ((ps.flatMap Prod.snd).map Solution.size).foldl max 0 = _
  conv_lhs => rw [← named_ofProblems tokenSet vocabulary ps, List.flatMap_map]

/-- A problem has the solutions that its reading kept, in some order. -/
structure Keeps (r : Reading) (p : Problem) : Prop where
  name : p.name = r.problem
  perm : p.solutions.Perm r.kept

lemma keeps_ofProblems (tokenSet : String) (vocabulary : ℕ) (rs : List Reading) (g : Generator) :
    List.Forall₂ Keeps rs (ofProblems tokenSet vocabulary
      (orderSolutions (rs.map fun r => (r.problem, r.kept)) g)).problems := by
  have hperm := forall₂_orderSolutions (rs.map fun r => (r.problem, r.kept)) g
  rw [← named_ofProblems tokenSet vocabulary (orderSolutions _ g), List.forall₂_map_left_iff,
    List.forall₂_map_right_iff] at hperm
  exact hperm.imp fun _ _ h => ⟨h.1, h.2⟩

lemma counts_of_keeps {rs : List Reading} (h : List.Forall₂ Keeps rs x.problems) :
    x.counts = rs.map fun r => r.kept.length := by
  exact (map_eq_map_of_forall₂ (fun _ _ hkeeps => hkeeps.perm.length_eq.symm) h).symm

/-- The accepted readings as a corpus, with a report on all of them. -/
structure Holds (info : DatasetInfo) (c : CorpusConfig) (absent : List String)
    (readings : List Reading) (x : Corpus) : Prop where
  vocabulary : x.vocabulary = info.vocabulary
  labelled : x.Labelled
  keeps : List.Forall₂ Keeps (readings.filter (Reading.accepted c)) x.problems
  longest : x.longest = ((x.problems.flatMap Problem.solutions).map Solution.size).foldl max 0
  two_le : 2 ≤ x.problemCount
  le_solutionCount : 2 * x.problemCount ≤ x.solutionCount
  report : x.report = .ofReadings c absent readings

lemma ofReadings_eq_ok {info : DatasetInfo} {absent : List String} {readings : List Reading} :
    ofReadings info c seeds absent readings = .ok x ↔
      checkSize ((readings.filter (Reading.accepted c)).map fun r => (r.problem, r.kept)) = .ok () ∧
      x = { ofProblems info.tokenSet info.vocabulary
              (orderSolutions ((readings.filter (Reading.accepted c)).map fun r => (r.problem, r.kept))
                (seeds.generator .solutionOrder)) with
            report := .ofReadings c absent readings } := by
  unfold ofReadings
  simp only [bind_eq_ok, Unique.exists_iff, Except.ok.injEq]
  exact and_congr_right fun _ => eq_comm

theorem ofReadings_holds {info : DatasetInfo} {absent : List String} {readings : List Reading}
    (h : ofReadings info c seeds absent readings = .ok x) : x.Holds info c absent readings := by
  obtain ⟨hsize, rfl⟩ := ofReadings_eq_ok.mp h
  have hkeeps := keeps_ofProblems info.tokenSet info.vocabulary
    (readings.filter (Reading.accepted c)) (seeds.generator .solutionOrder)
  have hcounts := counts_of_keeps hkeeps
  have hlength := hkeeps.length_eq
  simp only [checkSize_eq_ok, List.length_map, List.map_map, Function.comp_def] at hsize
  obtain ⟨htwo, hmany⟩ := hsize
  rw [hlength] at htwo hmany
  rw [← hcounts] at hmany
  exact ⟨rfl, labelled_ofProblems info.tokenSet info.vocabulary _, hkeeps,
    longest_ofProblems info.tokenSet info.vocabulary _, htwo, hmany, rfl⟩

/-- What a successful run of loading met and made. -/
theorem holds_of_load (h : (load t c seeds).outcome = .ok x) :
    ∃ info found names, DatasetInfo.read t c.directory = .ok info ∧
      Candidates.find t c = .ok found ∧ Candidates.select c seeds found.names = .ok names ∧
      x.Holds info c found.absent (names.map (Reading.ofProblem t c info.vocabulary)) := by
  obtain ⟨-, -, info, found, names, hinfo, hfound, hnames, hx⟩ := load_eq_ok.mp h
  exact ⟨info, found, names, hinfo, hfound, hnames, ofReadings_holds hx⟩

lemma Holds.exists_text {info : DatasetInfo} {absent names : List String}
    (h : x.Holds info c absent (names.map (Reading.ofProblem t c info.vocabulary))) {p : Problem}
    (hp : p ∈ x.problems) :
    ∃ text, t.readText (c.problemPath p.name) = .ok text ∧
      p.solutions.Perm ((Solution.ofText info.vocabulary text).filter fun s => c.admits s.size) ∧
      p.solutions ≠ [] ∧ c.minSolutions ≤ p.size := by
  obtain ⟨r, hr, hkeeps⟩ := exists_of_forall₂_right h.keeps hp
  rw [List.mem_filter] at hr
  obtain ⟨hmem, haccepted⟩ := hr
  obtain ⟨name, -, rfl⟩ := List.mem_map.mp hmem
  obtain ⟨hreadable, hsome, hmany⟩ := Reading.accepted_iff.mp haccepted
  obtain ⟨text, htext⟩ := Reading.readable_ofProblem.mp hreadable
  have hname : p.name = name := hkeeps.name
  refine ⟨text, hname ▸ htext, Reading.kept_ofProblem htext ▸ hkeeps.perm, ?_, ?_⟩
  · exact fun hnil => hsome (hnil ▸ hkeeps.perm).symm.eq_nil
  · rw [Problem.size, hkeeps.perm.length_eq]
    exact hmany

end Corpus

def javaInfo : String := "\x7b\"token_set\": \"java\", \"n_tokens\": 10\x7d"

def mixedIndex : String := "\x7b\"a\": 4, \"b\": 2, \"c\": 1\x7d"

def linesOfA : String := "x:1,2,3,4\n\ny:1,2\nz:9,9,9,9,9\nbad"

def linesOfB : String := "u:1,1,1,1\nv:2,2,2,2\n"

/-- Two problems and an entry without a file; of the first, one line is bad and one too short. -/
def mixedDataset : FileTree where
  entries := [(["ds"], .directory), (["ds", "problems.json"], .file mixedIndex.toUTF8),
    (["ds", "info.json"], .file javaInfo.toUTF8), (["ds", "a.tkn"], .file linesOfA.toUTF8),
    (["ds", "b.tkn"], .file linesOfB.toUTF8)]

def mixedConfig : CorpusConfig := { directory := "ds" }

def mixedCorpus : Corpus where
  tokenSet := "java"
  vocabulary := 10
  problems := [⟨"b", 0, [⟨"u", [1, 1, 1, 1]⟩, ⟨"v", [2, 2, 2, 2]⟩]⟩,
    ⟨"a", 1, [⟨"x", [1, 2, 3, 4]⟩, ⟨"z", [9, 9, 9, 9, 9]⟩]⟩]
  longest := 5
  report := { tooShort := [("a", [⟨"y", 2⟩])], unreadable := ["c"], rejectedLines := 1, badData := true }

def mixedReadings : List Reading :=
  [⟨"b", "ds/b.tkn", .ok [.kept ⟨"u", [1, 1, 1, 1]⟩, .kept ⟨"v", [2, 2, 2, 2]⟩]⟩,
    ⟨"a", "ds/a.tkn", .ok [.kept ⟨"x", [1, 2, 3, 4]⟩, .tooShort ⟨"y", 2⟩,
      .kept ⟨"z", [9, 9, 9, 9, 9]⟩, .rejected 5 .noColon]⟩,
    ⟨"c", "ds/c.tkn", .error .notFound⟩]

lemma readings_mixedDataset :
    ["b", "a", "c"].map (Reading.ofProblem mixedDataset mixedConfig 10) = mixedReadings := by
  have ha : mixedDataset.look (mixedConfig.problemPath "a") = .ok (.file linesOfA.toUTF8) := rfl
  have hb : mixedDataset.look (mixedConfig.problemPath "b") = .ok (.file linesOfB.toUTF8) := rfl
  have hfates : LineFate.ofText mixedConfig 10 linesOfA =
        [.kept ⟨"x", [1, 2, 3, 4]⟩, .tooShort ⟨"y", 2⟩, .kept ⟨"z", [9, 9, 9, 9, 9]⟩,
          .rejected 5 .noColon] ∧
      LineFate.ofText mixedConfig 10 linesOfB =
        [.kept ⟨"u", [1, 1, 1, 1]⟩, .kept ⟨"v", [2, 2, 2, 2]⟩] := by decide +kernel
  simp only [List.map_cons, List.map_nil, Reading.ofProblem, FileTree.readText_of_look ha,
    FileTree.readText_of_look hb, Except.map, hfates]
  rfl

lemma read_mixedDataset : DatasetInfo.read mixedDataset "ds" = .ok ⟨"java", 10⟩ := by
  have hfile : mixedDataset.isFile (DatasetInfo.path "ds") = true := rfl
  have hlook : mixedDataset.look (DatasetInfo.path "ds") = .ok (.file javaInfo.toUTF8) := rfl
  have hjson : (Json.parse? javaInfo).bind DatasetInfo.ofJson? = some ⟨"java", 10⟩ := by
    decide +kernel
  unfold DatasetInfo.read
  rw [hfile, FileTree.readText_of_look hlook]
  simp [hjson]

lemma counts_mixedDataset :
    ProblemCounts.read mixedDataset "ds" = .ok (some [("a", 4), ("b", 2), ("c", 1)]) := by
  have hfile : mixedDataset.isFile (ProblemCounts.path "ds") = true := rfl
  have hlook : mixedDataset.look (ProblemCounts.path "ds") = .ok (.file mixedIndex.toUTF8) := rfl
  have hjson : (((Json.parse? mixedIndex).bind ProblemCounts.entries?).bind fun entries =>
      (entries.mapM (ProblemCounts.readCount (ProblemCounts.path "ds"))).toOption) =
        some [("a", 4), ("b", 2), ("c", 1)] := by decide +kernel
  obtain ⟨entries, hentries, hcounts⟩ := Option.bind_eq_some_iff.mp hjson
  unfold ProblemCounts.read
  rw [hfile, FileTree.readText_of_look hlook]
  simp [hentries, eq_ok_of_toOption hcounts, Except.map]

lemma load_mixedDataset :
    (Corpus.load mixedDataset mixedConfig ⟨101⟩).outcome = .ok mixedCorpus := by
  have hfound : Candidates.find mixedDataset mixedConfig = .ok ⟨["a", "b", "c"], [], false⟩ := by
    unfold Candidates.find
    rw [show mixedConfig.directory = "ds" from rfl, counts_mixedDataset]
    rfl
  have hnames : Candidates.select mixedConfig ⟨101⟩ ["a", "b", "c"] = .ok ["b", "a", "c"] := by
    have hsorted : ["a", "b", "c"].Pairwise fun x y => decide (x ≤ y) = true := by decide +kernel
    unfold Candidates.select Seeds.shuffleSorted
    rw [List.mergeSort_of_pairwise hsorted]
    exact eq_ok_of_toOption (by decide +kernel)
  refine Corpus.load_eq_ok.mpr ⟨rfl, rfl, _, _, _, read_mixedDataset, hfound, hnames, ?_⟩
  rw [readings_mixedDataset]
  refine Corpus.ofReadings_eq_ok.mpr ⟨eq_ok_of_toOption (by decide +kernel), ?_⟩
  have haccepted : ((mixedReadings.filter (Reading.accepted mixedConfig)).map fun r =>
      (r.problem, r.kept)) = mixedCorpus.problems.map fun p => (p.name, p.solutions) := by
    decide +kernel
  have horder : Corpus.orderSolutions (mixedCorpus.problems.map fun p => (p.name, p.solutions))
      (Seeds.generator ⟨101⟩ .solutionOrder) =
        mixedCorpus.problems.map fun p => (p.name, p.solutions) := by
    have hb : [(⟨"u", [1, 1, 1, 1]⟩ : Solution), ⟨"v", [2, 2, 2, 2]⟩].Pairwise
        fun s s' => decide (s.name ≤ s'.name) = true := by decide +kernel
    have ha : [(⟨"x", [1, 2, 3, 4]⟩ : Solution), ⟨"z", [9, 9, 9, 9, 9]⟩].Pairwise
        fun s s' => decide (s.name ≤ s'.name) = true := by decide +kernel
    simp only [mixedCorpus, List.map_cons, List.map_nil, Corpus.orderSolutions,
      List.mergeSort_of_pairwise hb, List.mergeSort_of_pairwise ha]
    decide +kernel
  rw [haccepted, horder]
  decide +kernel

end PairDatasets
