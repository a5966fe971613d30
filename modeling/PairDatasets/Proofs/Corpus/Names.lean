import PairDatasets.Proofs.Corpus.Load
import PairDatasets.Proofs.Files.Names
import PairDatasets.Proofs.Partition.Separation
import PairDatasets.Proofs.Text.Pieces
import PairDatasets.Report.Writer

/-! Names of problems. An index and a directory name every problem once, and what follows only orders
the names and leaves some of them out; so a corpus holds a problem no more often than it was asked
for. -/
namespace PairDatasets

namespace ProblemCounts
variable {t : FileTree} {dir : String}

lemma keys_setKey {α : Type} (key : String) (value : α) (acc : List (String × α)) :
    (Json.setKey key value acc).map Prod.fst =
      if key ∈ acc.map Prod.fst then acc.map Prod.fst else acc.map Prod.fst ++ [key] := by
  induction acc with
  | nil => rfl
  | cons x acc ih =>
    obtain ⟨k, v⟩ := x
    rw [Json.setKey]
    by_cases hk : k = key
    · simp [hk]
    · rw [if_neg hk, List.map_cons, ih]
      split_ifs <;> simp_all

lemma nodup_setKey {α : Type} {key : String} {value : α} {acc : List (String × α)}
    (h : (acc.map Prod.fst).Nodup) : ((Json.setKey key value acc).map Prod.fst).Nodup := by
  rw [keys_setKey]
  split_ifs with hmem
  · exact h
  · exact h.append (List.nodup_singleton key) (List.disjoint_singleton.mpr hmem)

lemma nodup_entries? {j : Json} {entries : List (String × Json)} (h : entries? j = some entries) :
    (entries.map Prod.fst).Nodup := by
  have hfold (fields : List (Option String × Json)) (acc : List (String × Json))
      (hacc : (acc.map Prod.fst).Nodup) :
      ((fields.foldl (fun acc field => Json.setKey (field.1.getD "") field.2 acc) acc).map
        Prod.fst).Nodup := by
    induction fields generalizing acc with
    | nil => exact hacc
    | cons field fields ih => exact ih _ (nodup_setKey hacc)
  cases j with
  | object fields =>
    unfold entries? at h
    split_ifs at h
    cases h
    exact hfold fields [] .nil
  | _ => cases h

lemma fst_readCount {path : String} {entry : String × Json} {count : String × ℕ}
    (h : readCount path entry = .ok count) : entry.1 = count.1 := by
  unfold readCount at h
  split at h <;> cases h
  rfl

/-- An index counts every problem once. -/
theorem nodup_read {counts : List (String × ℕ)} (h : read t dir = .ok (some counts)) :
    (counts.map Prod.fst).Nodup := by
  unfold read at h
  split at h
  · cases h
  split at h
  · cases h
  split at h
  · cases h
  next entries hentries =>
    cases hcounts : entries.mapM (readCount (path dir)) with
    | error e =>
      rw [hcounts] at h
      cases h
    | ok counts' =>
      rw [hcounts] at h
      cases h
      obtain ⟨j, -, hj⟩ := Option.bind_eq_some_iff.mp hentries
      have hkeys : entries.map Prod.fst = counts.map Prod.fst :=
        map_eq_map_of_forall₂ (fun _ _ hentry => fst_readCount hentry) (mapM_eq_ok.mp hcounts)
      exact hkeys ▸ nodup_entries? hj

end ProblemCounts

/-- Cutting a name loses nothing. -/
lemma Path.eq_of_nameParts {name stem ext : String} (h : nameParts name = (stem, some ext)) :
    name = stem ++ "." ++ ext := by
  unfold nameParts at h
  dsimp only at h
  split at h
  · next ext' c stem' hcut =>
    cases h
    have hname : name.toList = (c :: stem').reverse ++ '.' :: ext'.reverse := by
      rw [← List.reverse_reverse name.toList, (Text.cutFirst?_eq_some_iff.mp hcut).1]
      simp
    rw [← String.toList_inj, hname]
    simp
  · cases h

/-- A directory shows every problem once, because no two of its files share a name. -/
theorem nodup_discoverProblems {t : FileTree} (ht : t.Distinct) (dir : String) :
    (discoverProblems t dir).Nodup := by
  refine (ht.nodup_fileNames dir).filterMap ?_
  intro name name' stem hstem hstem'
  split at hstem
  · next hparts =>
    split at hstem'
    · next hparts' =>
      cases hstem
      cases hstem'
      rw [Path.eq_of_nameParts hparts, Path.eq_of_nameParts hparts']
    · cases hstem'
  · cases hstem

namespace Candidates
variable {t : FileTree} {c : CorpusConfig} {seeds : Seeds} {found : Candidates}

/-- Without a request every candidate is named once, else as often as it was asked for at most. -/
theorem count_names_le (ht : t.Distinct) (h : find t c = .ok found) (name : String) :
    found.names.count name ≤ (c.problemList.map fun names => names.count name).getD 1 := by
  unfold find at h
  obtain ⟨counts, hcounts, h⟩ := bind_eq_ok.mp h
  split at h
  · next names counts hlist =>
    cases h
    rw [hlist]
    exact List.filter_sublist.count_le name
  · next names hlist =>
    cases h
    rw [hlist]
    exact List.filter_sublist.count_le name
  · next counts hlist =>
    cases h
    rw [hlist]
    have hkeys : ((counts.filter fun x => c.minSolutions ≤ x.2).map Prod.fst).Nodup :=
      (ProblemCounts.nodup_read hcounts).sublist (List.filter_sublist.map _)
    exact List.nodup_iff_count_le_one.mp hkeys name
  · next hlist =>
    cases h
    rw [hlist]
    exact List.nodup_iff_count_le_one.mp (nodup_discoverProblems ht c.directory) name

/-- What is selected are some of the names in another order. -/
lemma subperm_select {names order : List String} (h : select c seeds names = .ok order) :
    order.Subperm names := by
  have hshuffle : (seeds.shuffleSorted .problemOrder names).Perm names :=
    (Generator.shuffle_perm _ _).trans (List.mergeSort_perm _ _)
  unfold select at h
  dsimp only at h
  split at h
  · cases h
    exact hshuffle.subperm
  · split_ifs at h
    cases h
    exact (List.take_sublist _ _).subperm.trans hshuffle.subperm

end Candidates

namespace Corpus
variable {t : FileTree} {c : CorpusConfig} {seeds : Seeds} {x : Corpus}

/-- The names of the problems in label order. -/
def names (x : Corpus) : List String := x.problems.map Problem.name

lemma Holds.names_eq {info : DatasetInfo} {absent : List String} {readings : List Reading}
    (h : x.Holds info c absent readings) :
    x.names = (readings.filter (Reading.accepted c)).map Reading.problem :=
  (map_eq_map_of_forall₂ (fun _ _ hkeeps => hkeeps.name.symm) h.keeps).symm

lemma Holds.sublist_names {info : DatasetInfo} {absent names : List String}
    (h : x.Holds info c absent (names.map (Reading.ofProblem t c info.vocabulary))) :
    x.names.Sublist names := by
  have hproblem : Reading.problem ∘ Reading.ofProblem t c info.vocabulary = id := rfl
  rw [h.names_eq]
  refine (List.filter_sublist.map Reading.problem).trans ?_
  rw [List.map_map, hproblem, List.map_id]

/-- A corpus holds a problem once, or as often as it was requested at most. -/
theorem count_names_le (ht : t.Distinct) (h : (load t c seeds).outcome = .ok x) (name : String) :
    x.names.count name ≤ (c.problemList.map fun names => names.count name).getD 1 := by
  obtain ⟨info, found, names, -, hfound, hnames, hx⟩ := holds_of_load h
  calc x.names.count name ≤ names.count name := hx.sublist_names.count_le name
    _ ≤ found.names.count name := (Candidates.subperm_select hnames).count_le name
    _ ≤ _ := Candidates.count_names_le ht hfound name

lemma getElem?_names (l : ℕ) : x.names[l]? = x.problemName? l := by
  simp [names, problemName?, problem?]

/-- Where names are distinct, labels are found by them. -/
lemma labelOf?_of_nodup (h : x.names.Nodup) {l : ℕ} {name : String}
    (hl : x.problemName? l = some name) : x.labelOf? name = some l := by
  rw [← getElem?_names, List.getElem?_eq_some_iff] at hl
  obtain ⟨hlt, rfl⟩ := hl
  have hlt' : l < x.problems.length := by simpa [names] using hlt
  unfold labelOf?
  rw [List.findIdx?_eq_some_iff_getElem]
  refine ⟨hlt', by simp [names], ?_⟩
  intro j hj heq
  have hnames : x.names.get ⟨j, hj.trans hlt⟩ = x.names.get ⟨l, hlt⟩ := by simpa [names] using heq
  exact hj.ne (Fin.mk.inj (h.get_inj_iff.mp hnames))

end Corpus

namespace Report
variable {c : Corpus} {p : Partition}

/-- The file that lists the problems of a split. -/
def listFile : Split → String
  | .training => "training_problems.txt"
  | .validation => "validation_problems.txt"
  | .test => "test_problems.txt"

lemma labels_of_mem_problemLists {s : Split} {labels : List ℕ}
    (h : (listFile s, labels) ∈ problemLists c p) : labels = p.labels s := by
  unfold problemLists at h
  cases s <;> cases hv : p.validation <;> cases ht : p.test <;>
    simp [listFile, hv, ht] at h <;> simp [Partition.labels, Partition.group?, hv, ht, h]

end Report

/-- Some problems of the mixed dataset are requested. -/
def requestOf (requested : List String) : CorpusConfig :=
  { mixedConfig with problemList := some requested }

/-- What is read of the mixed dataset in an order of its problems. -/
def mixedReadingsOf (order : List String) : List Reading :=
  order.filterMap fun name => mixedReadings.find? fun r => r.problem = name

lemma readings_mixedDataset_of {order : List String} (h : ∀ name ∈ order, name ∈ ["b", "a", "c"]) :
    order.map (Reading.ofProblem mixedDataset mixedConfig 10) = mixedReadingsOf order := by
  obtain ⟨hb, ha, hc⟩ : _ ∧ _ ∧ _ := by
    simpa only [mixedReadings, List.map_cons, List.map_nil, List.cons.injEq, and_true] using
      readings_mixedDataset
  induction order with
  | nil => rfl
  | cons name order ih =>
    rw [List.forall_mem_cons] at h
    obtain ⟨hname, horder⟩ := h
    have hfind : (mixedReadings.find? fun r => r.problem = name) =
        some (Reading.ofProblem mixedDataset mixedConfig 10 name) := by
      simp only [List.mem_cons, List.not_mem_nil, or_false] at hname
      rcases hname with rfl | rfl | rfl
      · rw [hb]
        rfl
      · rw [ha]
        rfl
      · rw [hc]
        rfl
    rw [List.map_cons, ih horder]
    simp only [mixedReadingsOf, List.filterMap_cons, hfind]

/-- Loading a request comes down to the order that is drawn and to the size of what is accepted. -/
lemma load_requestOf (requested order : List String) (seeds : Seeds)
    (hsorted : requested.Pairwise fun a b => decide (a ≤ b) = true)
    (hknown : Candidates.requested (fun n => [("a", 4), ("b", 2), ("c", 1)].any fun (k, _) => k = n)
      requested = ⟨requested, [], false⟩)
    (horder : ((seeds.generator .problemOrder).shuffle requested).1 = order)
    (hmem : ∀ name ∈ order, name ∈ ["b", "a", "c"])
    (hsize : Corpus.checkSize (((mixedReadingsOf order).filter
      (Reading.accepted (requestOf requested))).map fun r => (r.problem, r.kept)) = .ok ()) :
    ∃ x, (Corpus.load mixedDataset (requestOf requested) seeds).outcome = .ok x ∧
      x.Holds ⟨"java", 10⟩ (requestOf requested) [] (mixedReadingsOf order) := by
  have hfound : Candidates.find mixedDataset (requestOf requested) = .ok ⟨requested, [], false⟩ := by
    unfold Candidates.find
    rw [show (requestOf requested).directory = "ds" from rfl, counts_mixedDataset]
    exact congrArg Except.ok hknown
  have hselect : Candidates.select (requestOf requested) seeds requested = .ok order := by
    unfold Candidates.select Seeds.shuffleSorted Seeds.shuffle
    rw [List.mergeSort_of_pairwise hsorted, horder]
    rfl
  have hdirectory : mixedDataset.isDirectory "ds" = true := rfl
  have hx : Corpus.ofReadings ⟨"java", 10⟩ (requestOf requested) seeds [] (mixedReadingsOf order) =
      .ok _ := Corpus.ofReadings_eq_ok.mpr ⟨hsize, rfl⟩
  refine ⟨_, Corpus.load_eq_ok.mpr ⟨rfl, hdirectory, _, _, _, read_mixedDataset, hfound, hselect, ?_⟩,
    Corpus.ofReadings_holds hx⟩
  rw [← hx, ← readings_mixedDataset_of hmem]
  rfl

lemma distinct_mixedDataset : mixedDataset.Distinct := by
  unfold FileTree.Distinct
  decide +kernel

/-- If no problem of a loaded corpus was requested twice, its names are distinct: labels are found by
names, and divided by problems no name is listed for two splits. -/
theorem load_names_distinct {t : FileTree} {c : CorpusConfig} {seeds : Seeds} {x : Corpus}
    (ht : t.Distinct)
    (hlist : ∀ names, c.problemList = some names → ∀ name ∈ x.names, names.count name ≤ 1)
    (h : (Corpus.load t c seeds).outcome = .ok x) :
    x.names.Nodup ∧ (∀ l < x.problemCount, (x.problemName? l).bind x.labelOf? = some l) ∧
      ∀ test f s p, x.divide (.disjointProblems test f) s = .ok p → ∀ a b, a ≠ b → ∀ la lb,
        (Report.listFile a, la) ∈ Report.problemLists x p →
        (Report.listFile b, lb) ∈ Report.problemLists x p →
        (la.filterMap x.problemName?).Disjoint (lb.filterMap x.problemName?) := by
  have hnames : x.names.Nodup := by
    rw [List.nodup_iff_count_le_one]
    intro name
    by_cases hmem : name ∈ x.names
    · have hcount := Corpus.count_names_le ht h name
      cases hrequest : c.problemList with
      | none => simpa [hrequest] using hcount
      | some names =>
        rw [hrequest] at hcount
        exact hcount.trans (hlist names hrequest name hmem)
    · rw [List.count_eq_zero_of_not_mem hmem]
      exact Nat.zero_le 1
  refine ⟨hnames, ?_, ?_⟩
  · intro l hl
    obtain ⟨name, hname⟩ : ∃ name, x.problemName? l = some name := by
      rw [← Corpus.getElem?_names]
      exact ⟨_, List.getElem?_eq_getElem (by rw [Corpus.names, List.length_map]; exact hl)⟩
    rw [hname]
    exact Corpus.labelOf?_of_nodup hnames hname
  · intro test f s p hp a b hne la lb hla hlb name ha hb
    obtain ⟨i, hi, hiname⟩ := List.mem_filterMap.mp ha
    obtain ⟨j, hj, hjname⟩ := List.mem_filterMap.mp hb
    -- a name has one label, which would be a label of both splits
    have hij : i = j := Option.some.inj <|
      (Corpus.labelOf?_of_nodup hnames hiname).symm.trans (Corpus.labelOf?_of_nodup hnames hjname)
    subst hij
    obtain ⟨info, found, order, -, -, -, hx⟩ := Corpus.holds_of_load h
    obtain ⟨v, rest, hcut⟩ := Partition.byProblems_cut hx.labelled hp
    rw [Report.labels_of_mem_problemLists hla] at hi
    rw [Report.labels_of_mem_problemLists hlb] at hj
    exact hcut.labels_disjoint hne hi hj

/-- A name that the dataset has no file for may be requested twice. -/
theorem load_absentTwice_names_distinct : ∃ x,
    (Corpus.load mixedDataset (requestOf ["a", "b", "c", "c"]) ⟨101⟩).outcome = .ok x ∧
      x.names.Nodup := by
  obtain ⟨x, hload, hholds⟩ := load_requestOf ["a", "b", "c", "c"] ["b", "a", "c", "c"] ⟨101⟩
    (by decide +kernel) (by decide +kernel) (by decide +kernel) (by decide) (eq_ok_of_toOption (by decide +kernel))
  have hnames : x.names = ["b", "a"] := by
    rw [hholds.names_eq]
    decide +kernel
  refine ⟨x, hload, (load_names_distinct distinct_mixedDataset ?_ hload).1⟩
  intro names hrequest
  cases hrequest
  rw [hnames]
  decide

/-- A request that names two problems twice: the corpus holds both of them twice, and a name is listed
for training and for test. -/
theorem load_requestedTwice_repeats : mixedDataset.Distinct ∧ ∃ x p,
    (Corpus.load mixedDataset (requestOf ["a", "a", "b", "b"]) ⟨1⟩).outcome = .ok x ∧
      ¬ x.names.Nodup ∧ (x.problemName? 2).bind x.labelOf? = some 1 ∧
      x.divide (.disjointProblems (.count 2) 0) ⟨1⟩ = .ok p ∧
      "a" ∈ (p.labels .training).filterMap x.problemName? ∧
      "a" ∈ (p.labels .test).filterMap x.problemName? := by
  obtain ⟨x, hload, hholds⟩ := load_requestOf ["a", "a", "b", "b"] ["b", "a", "a", "b"] ⟨1⟩
    (by decide +kernel) (by decide +kernel) (by decide +kernel) (by decide) (eq_ok_of_toOption (by decide +kernel))
  have hnames : x.names = ["b", "a", "a", "b"] := by
    rw [hholds.names_eq]
    decide +kernel
  have hcount : x.problemCount = 4 := by
    have hlength := congrArg List.length hnames
    rwa [Corpus.names, List.length_map] at hlength
  have hname (l : ℕ) : x.problemName? l = ["b", "a", "a", "b"][l]? := by
    rw [← Corpus.getElem?_names, hnames]
  have hlabel : x.labelOf? "a" = some 1 := by
    have hfind : x.labelOf? "a" = x.names.findIdx? (· = "a") := by
      unfold Corpus.labelOf? Corpus.names
      rw [List.findIdx?_map]
      rfl
    rw [hfind, hnames]
    decide
  have hdivide : x.divide (.disjointProblems (.count 2) 0) ⟨1⟩ =
      .ok ⟨.disjointProblems (.count 2) 0, .whole x 0 2, none, some (.whole x 2 4)⟩ := by
    have hvalidation : Partition.checkValidation 0 = .ok () := rfl
    have haside : Partition.setTestAside x (.count 2) = .ok (2, some (.whole x 2 4)) := by
      unfold Partition.setTestAside
      rw [hcount]
      rfl
    have hcut : cut 0 2 = 0 := by decide +kernel
    change Partition.byProblems x (.count 2) 0 = _
    unfold Partition.byProblems
    rw [hvalidation, haside]
    simp only [bind, Except.bind, hcut]
    rfl
  have hlabels {first last : ℕ} (hlast : last ≤ 4) :
      (Group.whole x first last).labels = List.range' first (last - first) :=
    (Group.spans_whole hholds.labelled (hcount ▸ hlast)).labels
  refine ⟨distinct_mixedDataset, x, _, hload, ?_, ?_, hdivide, ?_, ?_⟩
  · rw [hnames]
    decide
  · rw [hname]
    exact hlabel
  · refine List.mem_filterMap.mpr ⟨1, ?_, hname 1⟩
    change 1 ∈ (Group.whole x 0 2).labels
    rw [hlabels (by decide)]
    decide
  · refine List.mem_filterMap.mpr ⟨2, ?_, hname 2⟩
    change 2 ∈ (Group.whole x 2 4).labels
    rw [hlabels (by decide)]
    decide

end PairDatasets
