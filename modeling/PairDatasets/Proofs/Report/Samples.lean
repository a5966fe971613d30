import Mathlib.Data.List.Forall2
import PairDatasets.Proofs.Report.Writing
import PairDatasets.Proofs.Text.Csv

/-! Writing samples. If every pair has its solutions, nothing but a failure of the files stops it, and the file
then tells the pairs: it is read as a record of names for each of them, and where names are distinct no other
pairs have these records. -/
namespace PairDatasets
variable {c : Corpus} {p p' : Pair} {pairs pairs' : List Pair} {row : List String}

namespace Corpus

/-- Both solutions of a pair exist. -/
def Addresses (c : Corpus) (p : Pair) : Prop :=
  (c.solution? p.problem1 p.solution1).isSome ∧ (c.solution? p.problem2 p.solution2).isSome

/-- A record names the problems and solutions of a pair. -/
def Names (c : Corpus) (p : Pair) (row : List String) : Prop :=
  ∃ a x b y, c.problems[p.problem1]? = some a ∧ a.solutions[p.solution1]? = some x ∧
    c.problems[p.problem2]? = some b ∧ b.solutions[p.solution2]? = some y ∧
      row = [a.name, x.name, b.name, y.name]

/-- No two problems have the same name, and no two solutions of one problem. -/
structure Distinguished (c : Corpus) : Prop where
  problems : (c.problems.map Problem.name).Nodup
  solutions : ∀ a ∈ c.problems, (a.solutions.map Solution.name).Nodup

lemma solution?_eq_some {problem solution : Nat} {x : Solution} : c.solution? problem solution = some x ↔
    ∃ a, c.problems[problem]? = some a ∧ a.solutions[solution]? = some x := Option.bind_eq_some_iff

lemma isSome_sampleNames? (h1 : (c.solution? p.problem1 p.solution1).isSome)
    (h2 : (c.solution? p.problem2 p.solution2).isSome) : (c.sampleNames? p).isSome := by
  obtain ⟨left, hleft⟩ := Option.isSome_iff_exists.mp h1
  obtain ⟨right, hright⟩ := Option.isSome_iff_exists.mp h2
  simp [sampleNames?, hleft, hright]

lemma addresses_of_names (h : c.Names p row) : c.Addresses p := by
  obtain ⟨a, x, b, y, ha, hx, hb, hy, -⟩ := h
  have hleft : c.solution? p.problem1 p.solution1 = some x := solution?_eq_some.mpr ⟨a, ha, hx⟩
  have hright : c.solution? p.problem2 p.solution2 = some y := solution?_eq_some.mpr ⟨b, hb, hy⟩
  simp [Addresses, hleft, hright]

lemma names_of_sampleNames? (h : c.sampleNames? p = some row) : c.Names p row := by
  unfold sampleNames? at h
  obtain ⟨x, hx, h⟩ := Option.bind_eq_some_iff.mp h
  obtain ⟨y, hy, h⟩ := Option.bind_eq_some_iff.mp h
  obtain ⟨a, ha, hax⟩ := solution?_eq_some.mp hx
  obtain ⟨b, hb, hby⟩ := solution?_eq_some.mp hy
  refine ⟨a, x, b, y, ha, hax, hb, hby, ?_⟩
  have hfirst : c.problemName? p.problem1 = some a.name := by simp [problemName?, problem?, ha]
  have hsecond : c.problemName? p.problem2 = some b.name := by simp [problemName?, problem?, hb]
  simpa [hfirst, hsecond, eq_comm] using h

end Corpus

/-- Where names are distinct, an item is told by its name. -/
lemma index_eq_of_name_eq {α : Type} {name : α → String} {xs : List α} (h : (xs.map name).Nodup) {i j : Nat}
    {a b : α} (ha : xs[i]? = some a) (hb : xs[j]? = some b) (hname : name a = name b) : i = j := by
  have hi : i < (xs.map name).length := by
    rw [List.length_map]
    exact (List.getElem?_eq_some_iff.mp ha).1
  refine (List.getElem?_inj hi h).mp ?_
  rw [List.getElem?_map, List.getElem?_map, ha, hb, Option.map_some, Option.map_some, hname]

lemma Corpus.Distinguished.names_inj (h : c.Distinguished) (hp : c.Names p row) (hp' : c.Names p' row) :
    p = p' := by
  obtain ⟨a, x, b, y, ha, hx, hb, hy, rfl⟩ := hp
  obtain ⟨a', x', b', y', ha', hx', hb', hy', hrow⟩ := hp'
  simp only [List.cons.injEq, and_true] at hrow
  obtain ⟨hfirst, hleft, hsecond, hright⟩ := hrow
  have hproblem1 := index_eq_of_name_eq h.problems ha ha' hfirst
  have hproblem2 := index_eq_of_name_eq h.problems hb hb' hsecond
  rw [← hproblem1, ha] at ha'
  rw [← hproblem2, hb] at hb'
  obtain rfl := Option.some.inj ha'
  obtain rfl := Option.some.inj hb'
  have hsolution1 := index_eq_of_name_eq (h.solutions a (List.mem_of_getElem? ha)) hx hx' hleft
  have hsolution2 := index_eq_of_name_eq (h.solutions b (List.mem_of_getElem? hb)) hy hy' hright
  obtain ⟨problem1, solution1, problem2, solution2⟩ := p
  obtain ⟨problem1', solution1', problem2', solution2'⟩ := p'
  simp_all

namespace Samples

lemma snd_records (h : ∀ p ∈ pairs, (c.sampleNames? p).isSome) : (records c pairs).2 = none := by
  induction pairs with
  | nil => rfl
  | cons p ps ih =>
    rw [List.forall_mem_cons] at h
    obtain ⟨names, hnames⟩ := Option.isSome_iff_exists.mp h.1
    rw [records, hnames]
    exact ih h.2

/-- Without a missing pair there is a record for each. -/
lemma names_of_records (h : (records c pairs).2 = none) : List.Forall₂ c.Names pairs (records c pairs).1 := by
  induction pairs with
  | nil => exact .nil
  | cons p ps ih =>
    unfold records at h ⊢
    cases hnames : c.sampleNames? p with
    | none => simp [hnames] at h
    | some names =>
      rw [hnames] at h
      exact .cons (Corpus.names_of_sampleNames? hnames) (ih h)

/-- The file is read as its heading and its records. -/
lemma decode_text {rows : List (List String)} (h : List.Forall₂ c.Names pairs rows) :
    Text.Csv.decode (text rows) = heading :: rows := by
  have hrows : ∀ row ∈ rows, row ≠ [] ∧ row ≠ [""] := by
    induction h with
    | nil => simp
    | cons hrow _ ih =>
      obtain ⟨a, x, b, y, -, -, -, -, rfl⟩ := hrow
      exact List.forall_mem_cons.mpr ⟨by simp, ih⟩
  exact Text.Csv.decode_records (List.forall_mem_cons.mpr ⟨by decide, hrows⟩)

end Samples

namespace Report
variable {dir : String} {split : Split} {s : Session}

theorem raises_writeSamples (h : ∀ p ∈ pairs, (c.sampleNames? p).isSome) (dir : String) (split : Split) :
    Job.Raises (fun e => ∃ fault, e = .file fault ∨ e = .report (.file fault))
      (writeSamples dir c split pairs) := by
  unfold writeSamples
  refine (Job.raises_makeDirectories dir fun e => ⟨e, .inl rfl⟩).bind fun _ => ?_
  refine (Job.raises_write _ _ fun e => ⟨e, .inr rfl⟩).bind fun _ => ?_
  rw [Samples.snd_records h]
  exact (Job.raises_modify _).bind fun _ => Job.raises_pure _

lemma nameEnd_samplesFile (split : Split) : NameEnd (samplesFile split) := by
  cases split
  · exact ⟨by decide, by decide⟩
  · exact ⟨by decide, by decide⟩
  · exact ⟨by decide, by decide⟩

lemma leaves_writeSamples (h : (Samples.records c pairs).2 = none) (dir : String) (split : Split) :
    Job.Leaves dir [(samplesFile split, Samples.text (Samples.records c pairs).1)]
      (Path.join dir (samplesFile split)) (writeSamples dir c split pairs) := by
  unfold writeSamples
  dsimp only
  rw [h, ← bind_assoc]
  exact (Job.leaves_write (nameEnd_samplesFile split) _).bind ((Job.leaves_emit _).bind (Job.leaves_pure _))

/-- With a missing pair there is no result. -/
lemma records_of_writeSamples {path : String} (h : ((writeSamples dir c split pairs).run s).1 = .ok path) :
    (Samples.records c pairs).2 = none := by
  cases hmissing : (Samples.records c pairs).2 with
  | none => rfl
  | some p =>
    unfold writeSamples at h
    dsimp only at h
    rw [hmissing] at h
    obtain ⟨-, -, h⟩ := Job.bind_eq_ok.mp h
    obtain ⟨-, -, h⟩ := Job.bind_eq_ok.mp h
    cases h

/-- Where samples were written their file is read, and every pair has its record. -/
lemma read_writeSamples {path : String} (h : ((writeSamples dir c split pairs).run s).1 = .ok path) :
    path = Path.join dir (samplesFile split) ∧ ∃ rows, List.Forall₂ c.Names pairs rows ∧
      ((writeSamples dir c split pairs).run s).2.files.readText path = .ok (Samples.text rows) := by
  have hrecords := records_of_writeSamples h
  have hleaves := leaves_writeSamples hrecords dir split
  obtain ⟨rfl, -⟩ := (hleaves.result s path).mp h
  refine ⟨rfl, _, Samples.names_of_records hrecords, ?_⟩
  exact (hleaves.stored s _ h).readText hleaves.names (List.nil_append _).symm nofun

lemma addresses_of_forall₂ {rows : List (List String)} (h : List.Forall₂ c.Names pairs rows) :
    ∀ p ∈ pairs, c.Addresses p := by
  induction h with
  | nil => simp
  | cons hrow _ ih => exact List.forall_mem_cons.mpr ⟨Corpus.addresses_of_names hrow, ih⟩

/-- Where the directory takes the file of a split, its samples are written if every pair has its solutions, and
only then. The file is read as a heading and a record for each pair in order, with the names of its problems and
solutions, whatever characters these have; and wherever samples of the corpus were written to a file with the
same text, they were the same pairs. -/
theorem writeSamples_faithful (hc : c.Distinguished) (h : s.files.Writable dir (samplesFile split)) :
    let run := (writeSamples dir c split pairs).run s
    ((∃ path, run.1 = .ok path) ↔ ∀ p ∈ pairs, c.Addresses p) ∧
      ∀ path, run.1 = .ok path → path = Path.join dir (samplesFile split) ∧
        ∃ text rows, run.2.files.readText path = .ok text ∧ Text.Csv.decode text = Samples.heading :: rows ∧
          List.Forall₂ c.Names pairs rows ∧
          ∀ dir' split' pairs' s' path', ((writeSamples dir' c split' pairs').run s').1 = .ok path' →
            ((writeSamples dir' c split' pairs').run s').2.files.readText path' = .ok text → pairs' = pairs := by
  intro run
  refine ⟨⟨?_, fun haddresses => ?_⟩, fun path hpath => ?_⟩
  · rintro ⟨path, hpath⟩
    obtain ⟨-, rows, hrows, -⟩ := read_writeSamples hpath
    exact addresses_of_forall₂ hrows
  · have hnames : ∀ p ∈ pairs, (c.sampleNames? p).isSome := fun p hp =>
      Corpus.isSome_sampleNames? (haddresses p hp).1 (haddresses p hp).2
    have hleaves := leaves_writeSamples (Samples.snd_records hnames) dir split
    refine ⟨_, (hleaves.result s _).mpr ⟨rfl, FileTree.exists_stored hleaves.names ?_⟩⟩
    simpa using h
  · obtain ⟨hjoin, rows, hrows, htext⟩ := read_writeSamples hpath
    have hdecode := Samples.decode_text hrows
    refine ⟨hjoin, _, rows, htext, hdecode, hrows, ?_⟩
    intro dir' split' pairs' s' path' hpath' htext'
    obtain ⟨-, rows', hrows', hwritten⟩ := read_writeSamples hpath'
    rw [hwritten] at htext'
    have hsame : Samples.heading :: rows' = Samples.heading :: rows := by
      rw [← Samples.decode_text hrows', ← hdecode, Except.ok.inj htext']
    obtain rfl := List.tail_eq_of_cons_eq hsame
    have hunique : Relator.LeftUnique c.Names := fun _ _ _ hp hp' => hc.names_inj hp hp'
    exact hunique.forall₂ hrows' hrows

/-- Names with commas, quotes and line breaks. -/
def quotedCorpus : Corpus :=
  .ofProblems "c" 10 [("a,b", [⟨"x\r\n", [1]⟩, ⟨"\"x\"", [2]⟩]), ("\n", [⟨",", [3]⟩, ⟨"", [4]⟩])]

def quotedPairs : List Pair := [⟨0, 0, 1, 1⟩, ⟨1, 0, 1, 1⟩, ⟨0, 1, 0, 0⟩]

theorem writeSamples_faithful_quotedNames : quotedCorpus.Distinguished ∧
    ({} : FileTree).Writable "out" (samplesFile .training) ∧
      let run := (writeSamples "out" quotedCorpus .training quotedPairs).run ⟨{}, [], []⟩
      ∃ path text rows, run.1 = .ok path ∧ run.2.files.readText path = .ok text ∧
        Text.Csv.decode text = Samples.heading :: rows ∧ List.Forall₂ quotedCorpus.Names quotedPairs rows := by
  have hc : quotedCorpus.Distinguished := ⟨by decide, by decide⟩
  have hw : ({} : FileTree).Writable "out" (samplesFile .training) := ⟨rfl, fun text => ⟨_, rfl⟩⟩
  have hpairs : ∀ p ∈ quotedPairs, quotedCorpus.Addresses p := by
    have hsome : ∀ p ∈ quotedPairs, (quotedCorpus.solution? p.problem1 p.solution1).isSome = true ∧
        (quotedCorpus.solution? p.problem2 p.solution2).isSome = true := by decide
    exact hsome
  obtain ⟨hok, hfile⟩ := @writeSamples_faithful quotedCorpus quotedPairs "out" .training ⟨{}, [], []⟩ hc hw
  obtain ⟨path, hpath⟩ := hok.mpr hpairs
  obtain ⟨-, text, rows, htext, hdecode, hrows, -⟩ := hfile path hpath
  exact ⟨hc, hw, path, text, rows, hpath, htext, hdecode, hrows⟩

end Report

end PairDatasets
