import PairDatasets.Proofs.Order.Canonical
import PairDatasets.Proofs.Report.Writing

/-! Statistics files. Sections are sorted by rank and gathered by file. Whatever their order was, the training
file has those of validation before those of training, the test file those of tests, and sections of one split
keep their order. -/
namespace PairDatasets.Report
variable {dir : String} {c : Corpus} {statistics : List SplitStatistics} {s : Session}

/-- The sections of one split, in their order. -/
def sections (split : Split) (statistics : List SplitStatistics) : List SplitStatistics :=
  statistics.filter fun x => x.split = split

/-- Sections in one file, with an empty line between neighbours. -/
def sectionsText (c : Corpus) (sections : List SplitStatistics) : String :=
  Text.join "\n" (sections.map (·.text c))

/-- A file of sections, if there are any. -/
def sectionsFile (c : Corpus) (file : String) (sections : List SplitStatistics) : Texts :=
  if sections.isEmpty then [] else [(file, sectionsText c sections)]

lemma text_ne_empty (x : SplitStatistics) (c : Corpus) : x.text c ≠ "" := by
  have happend {a b : String} (ha : a ≠ "") : a ++ b ≠ "" := by simp [ha]
  unfold SplitStatistics.text
  exact happend (happend (happend (happend (happend (by decide)))))

section Gathering
variable {file text begun : String} {front : Texts}

lemma add_of_forall_ne (h : ∀ x ∈ front, x.1 ≠ file) (rest : Texts) :
    Texts.add (front ++ rest) file text = front ++ rest.add file text := by
  induction front with
  | nil => rfl
  | cons x front ih =>
    rw [List.forall_mem_cons] at h
    rw [List.cons_append, Texts.add, if_neg h.1, ih h.2]
    rfl

/-- Texts that are added to the file begun last are joined to its text. -/
lemma foldl_add_begun (hfront : ∀ x ∈ front, x.1 ≠ file) (hbegun : begun ≠ "") (texts : List String) :
    texts.foldl (fun ts text => ts.add file text) (front ++ [(file, begun)]) =
      front ++ [(file, Text.join "\n" (begun :: texts))] := by
  induction texts generalizing begun with
  | nil => rfl
  | cons text texts ih =>
    have hadd : Texts.add [(file, begun)] file text = [(file, begun ++ "\n" ++ text)] := by
      simp [Texts.add, hbegun]
    rw [List.foldl_cons, add_of_forall_ne hfront, hadd, ih (by simp [hbegun])]
    rfl

/-- Sections of a new file are put into it at the end. -/
lemma foldl_add_new (hfront : ∀ x ∈ front, x.1 ≠ file) {added : List SplitStatistics}
    (hadded : ∀ x ∈ added, statisticsFile x.split = file) :
    added.foldl (fun ts x => ts.add (statisticsFile x.split) (x.text c)) front =
      front ++ sectionsFile c file added := by
  have hfold : added.foldl (fun ts x => ts.add (statisticsFile x.split) (x.text c)) front =
      (added.map (·.text c)).foldl (fun ts text => ts.add file text) front := by
    rw [List.foldl_map]
    refine List.foldl_ext _ _ _ fun ts x hx => ?_
    rw [hadded x hx]
  rw [hfold]
  cases added with
  | nil => simp [sectionsFile]
  | cons x added =>
    have hnew : Texts.add (front ++ []) file (x.text c) = front ++ [(file, x.text c)] :=
      add_of_forall_ne hfront []
    rw [List.append_nil] at hnew
    rw [List.map_cons, List.foldl_cons, hnew, foldl_add_begun hfront (text_ne_empty x c)]
    rfl

end Gathering

/-- Sorted by rank, the sections of validation come before those of training and these before those of tests. -/
lemma mergeSort_sections (statistics : List SplitStatistics) :
    (statistics.mergeSort fun x y => sectionRank x.split ≤ sectionRank y.split) =
      sections .validation statistics ++ sections .training statistics ++ sections .test statistics := by
  have hrank (x : SplitStatistics) : sectionRank x.split < 3 := by cases x.split <;> decide
  have hsplit (split : Split) :
      (statistics.filter fun x => sectionRank x.split = sectionRank split) = sections split statistics := by
    refine List.filter_congr fun x _ => ?_
    rw [decide_eq_decide]
    cases x.split <;> cases split <;> decide
  have hrange : List.range 3 = [sectionRank .validation, sectionRank .training, sectionRank .test] := rfl
  rw [mergeSort_eq_flatMap fun x _ => hrank x, hrange]
  simp only [List.flatMap_cons, List.flatMap_nil, hsplit, List.append_nil, List.append_assoc]

lemma mem_sections {split : Split} {x : SplitStatistics} :
    x ∈ sections split statistics ↔ x ∈ statistics ∧ x.split = split := by
  simp [sections]

lemma mem_trainingSections {x : SplitStatistics} :
    x ∈ sections .validation statistics ++ sections .training statistics ↔
      x ∈ statistics ∧ statisticsFile x.split = "TrainDatasetStatistics.lst" := by
  rw [List.mem_append, mem_sections, mem_sections, ← and_or_left, and_congr_right_iff]
  intro _
  cases x.split <;> decide

lemma mem_testSections {x : SplitStatistics} :
    x ∈ sections .test statistics ↔ x ∈ statistics ∧ statisticsFile x.split = "TestDatasetStatistics.lst" := by
  rw [mem_sections, and_congr_right_iff]
  intro _
  cases x.split <;> decide

/-- The training file comes first. -/
lemma statisticsTexts_eq (c : Corpus) (statistics : List SplitStatistics) :
    statisticsTexts c statistics =
      sectionsFile c "TrainDatasetStatistics.lst"
        (sections .validation statistics ++ sections .training statistics) ++
      sectionsFile c "TestDatasetStatistics.lst" (sections .test statistics) := by
  have hother (sections : List SplitStatistics) :
      ∀ x ∈ sectionsFile c "TrainDatasetStatistics.lst" sections, x.1 ≠ "TestDatasetStatistics.lst" := by
    unfold sectionsFile
    split_ifs
    · exact nofun
    · simp
  have hnone : ∀ x ∈ ([] : Texts), x.1 ≠ "TrainDatasetStatistics.lst" := nofun
  unfold statisticsTexts
  rw [mergeSort_sections, List.foldl_append, foldl_add_new hnone fun x hx => (mem_trainingSections.mp hx).2,
    List.nil_append, foldl_add_new (hother _) fun x hx => (mem_testSections.mp hx).2]

lemma exists_of_mem_sectionsFile {file : String} {added : List SplitStatistics} {y : String × String}
    (hy : y ∈ sectionsFile c file added) : (∃ x, x ∈ added) ∧ y = (file, sectionsText c added) := by
  unfold sectionsFile at hy
  split_ifs at hy with h
  · cases hy
  · exact ⟨List.exists_mem_of_ne_nil _ (by simpa using h), by simpa using hy⟩

/-- No file is begun without a section. -/
lemma exists_section {y : String × String} (hy : y ∈ statisticsTexts c statistics) :
    ∃ x ∈ statistics, statisticsFile x.split = y.1 := by
  rw [statisticsTexts_eq, List.mem_append] at hy
  obtain hy | hy := hy
  · obtain ⟨⟨x, hx⟩, rfl⟩ := exists_of_mem_sectionsFile hy
    exact ⟨x, mem_trainingSections.mp hx⟩
  · obtain ⟨⟨x, hx⟩, rfl⟩ := exists_of_mem_sectionsFile hy
    exact ⟨x, mem_testSections.mp hx⟩

/-- A file that has a section is begun. -/
lemma sectionsFile_of_exists {added : List SplitStatistics} (h : ∃ x, x ∈ added) (file : String) :
    sectionsFile c file added = [(file, sectionsText c added)] := by
  obtain ⟨x, hx⟩ := h
  unfold sectionsFile
  rw [if_neg]
  simpa using List.ne_nil_of_mem hx

lemma map_sectionsFile {file : String} {added : List SplitStatistics} {P : Prop} [Decidable P]
    (h : (∃ x, x ∈ added) ↔ P) :
    (sectionsFile c file added).map (fun x => Path.join dir x.1) = if P then [Path.join dir file] else [] := by
  split_ifs with hP
  · rw [sectionsFile_of_exists (h.mpr hP)]
    rfl
  · obtain rfl : added = [] := by
      rw [List.eq_nil_iff_forall_not_mem]
      exact fun x hx => hP (h.mp ⟨x, hx⟩)
    rfl

lemma statisticsTexts_ne_nil (h : statistics ≠ []) : statisticsTexts c statistics ≠ [] := by
  obtain ⟨x, hx⟩ := List.exists_mem_of_ne_nil _ h
  have hfile : statisticsFile x.split = "TrainDatasetStatistics.lst" ∨
      statisticsFile x.split = "TestDatasetStatistics.lst" := by
    cases x.split <;> decide
  rw [statisticsTexts_eq]
  obtain hfile | hfile := hfile
  · rw [sectionsFile_of_exists ⟨x, mem_trainingSections.mpr ⟨hx, hfile⟩⟩]
    exact List.cons_ne_nil _ _
  · rw [sectionsFile_of_exists ⟨x, mem_testSections.mpr ⟨hx, hfile⟩⟩]
    exact List.append_ne_nil_of_right_ne_nil _ (List.cons_ne_nil _ _)

/-- The paths of the files that have a section. -/
def statisticsPaths (dir : String) (statistics : List SplitStatistics) : List String :=
  (if ∃ x ∈ statistics, x.split = .training ∨ x.split = .validation
    then [Path.join dir "TrainDatasetStatistics.lst"] else []) ++
  if ∃ x ∈ statistics, x.split = .test then [Path.join dir "TestDatasetStatistics.lst"] else []

lemma exists_trainingSection : (∃ x, x ∈ sections .validation statistics ++ sections .training statistics) ↔
    ∃ x ∈ statistics, x.split = .training ∨ x.split = .validation := by
  simp only [List.mem_append, mem_sections]
  grind

lemma exists_testSection : (∃ x, x ∈ sections .test statistics) ↔ ∃ x ∈ statistics, x.split = .test := by
  simp only [mem_sections]

lemma map_statisticsTexts (dir : String) (c : Corpus) (statistics : List SplitStatistics) :
    (statisticsTexts c statistics).map (fun x => Path.join dir x.1) = statisticsPaths dir statistics := by
  rw [statisticsTexts_eq, List.map_append, map_sectionsFile exists_trainingSection,
    map_sectionsFile exists_testSection, statisticsPaths]

lemma leaves_writeStatistics (dir : String) (c : Corpus) (statistics : List SplitStatistics) :
    Job.Leaves dir (statisticsTexts c statistics) (statisticsPaths dir statistics)
      (writeStatistics dir c statistics) := by
  rw [← map_statisticsTexts dir c]
  refine leaves_writeTexts dir fun y hy => ?_
  obtain ⟨x, -, hfile⟩ := exists_section hy
  rw [← hfile]
  cases x.split
  · exact ⟨by decide, by decide⟩
  · exact ⟨by decide, by decide⟩
  · exact ⟨by decide, by decide⟩

lemma writeStatistics_nil : writeStatistics dir c [] = pure [] := by
  unfold writeStatistics
  rw [statisticsTexts_eq]
  rfl

/-- Where the directory takes the file of every section, the sections of validation and training make the
training file, those of tests the test file, and nothing else is changed. The result is the paths of the files
with a section. In a file the sections of validation come first, and those of one split as they were given, so
the order of sections of different splits does not matter. -/
theorem writeStatistics_sections (h : ∀ x ∈ statistics, s.files.Writable dir (statisticsFile x.split)) :
    let run := (writeStatistics dir c statistics).run s
    run.1 = .ok (statisticsPaths dir statistics) ∧
      ((∃ x ∈ statistics, x.split = .training ∨ x.split = .validation) →
        run.2.files.readText (Path.join dir "TrainDatasetStatistics.lst") = .ok
          (sectionsText c (sections .validation statistics ++ sections .training statistics))) ∧
      ((∃ x ∈ statistics, x.split = .test) →
        run.2.files.readText (Path.join dir "TestDatasetStatistics.lst") = .ok
          (sectionsText c (sections .test statistics))) ∧
      (statistics = [] → run.2 = s) ∧
      (statistics ≠ [] → ∀ loc, (∀ path ∈ statisticsPaths dir statistics, run.2.files.walk path ≠ .ok loc) →
        run.2.files.entryAt loc = (s.files.makeDirectories dir).1.entryAt loc) ∧
      ∀ statistics', (∀ split, sections split statistics' = sections split statistics) →
        writeStatistics dir c statistics' = writeStatistics dir c statistics := by
  intro run
  have htexts := statisticsTexts_eq c statistics
  have hleaves := leaves_writeStatistics dir c statistics
  have hstored : ∃ t, FileTree.Stored dir (statisticsTexts c statistics) s.files t := by
    refine FileTree.exists_stored hleaves.names fun y hy => ?_
    obtain ⟨x, hx, hfile⟩ := exists_section hy
    rw [← hfile]
    exact h x hx
  have hrun : run.1 = .ok (statisticsPaths dir statistics) := (hleaves.result s _).mpr ⟨rfl, hstored⟩
  have hafter : FileTree.Stored dir (statisticsTexts c statistics) s.files run.2.files :=
    hleaves.stored s _ hrun
  refine ⟨hrun, fun hsome => ?_, fun hsome => ?_, fun hnil => ?_, fun hne loc hloc => ?_,
    fun statistics' hsame => ?_⟩
  · have hbegun := sectionsFile_of_exists (c := c) (exists_trainingSection.mpr hsome)
    rw [hbegun "TrainDatasetStatistics.lst", ← List.nil_append [_], List.append_assoc] at htexts
    refine hafter.readText hleaves.names htexts fun y hy => ?_
    rw [(exists_of_mem_sectionsFile hy).2]
    change "TestDatasetStatistics.lst" ≠ "TrainDatasetStatistics.lst"
    decide
  · rw [sectionsFile_of_exists (exists_testSection.mpr hsome)] at htexts
    exact hafter.readText hleaves.names htexts nofun
  · subst hnil
    change ((writeStatistics dir c []).run s).2 = s
    rw [writeStatistics_nil]
    rfl
  · refine hafter.entryAt hleaves.names (statisticsTexts_ne_nil hne) fun y hy => ?_
    refine hloc _ ?_
    rw [← map_statisticsTexts dir c]
    exact List.mem_map_of_mem hy
  · unfold writeStatistics
    rw [statisticsTexts_eq, statisticsTexts_eq, hsame, hsame, hsame]

/-- The statistics of no pairs. -/
def emptySection (split : Split) : SplitStatistics := .ofPairs split [] ⟨0, []⟩

/-- Sections of all splits, two of them of validation. -/
def fourSections : List SplitStatistics :=
  [emptySection .test, emptySection .validation, emptySection .training, emptySection .validation]

theorem writeStatistics_fourSections :
    let c := Corpus.ofProblems "java" 10 []
    let run := (writeStatistics "out" c fourSections).run ⟨{}, [], []⟩
    (∀ x ∈ fourSections, ({} : FileTree).Writable "out" (statisticsFile x.split)) ∧
      run.1 = .ok ["out/TrainDatasetStatistics.lst", "out/TestDatasetStatistics.lst"] ∧
      run.2.files.readText "out/TrainDatasetStatistics.lst" = .ok (sectionsText c
        [emptySection .validation, emptySection .validation, emptySection .training]) := by
  intro c run
  have h : ∀ x ∈ fourSections, ({} : FileTree).Writable "out" (statisticsFile x.split) := by
    intro x _
    cases x.split
    · exact ⟨rfl, fun text => ⟨_, rfl⟩⟩
    · exact ⟨rfl, fun text => ⟨_, rfl⟩⟩
    · exact ⟨rfl, fun text => ⟨_, rfl⟩⟩
  have htraining : emptySection .training ∈ fourSections := by simp [fourSections]
  have htest : emptySection .test ∈ fourSections := by simp [fourSections]
  obtain ⟨hpaths, htext, -⟩ := writeStatistics_sections (c := c) (s := ⟨{}, [], []⟩) h
  refine ⟨h, hpaths.trans ?_, htext ⟨_, htraining, .inl rfl⟩⟩
  rw [statisticsPaths, if_pos ⟨_, htraining, .inl rfl⟩, if_pos ⟨_, htest, rfl⟩]
  rfl

end PairDatasets.Report
