import PairDatasets.Proofs.Report.Writing
import PairDatasets.Proofs.Text.Pieces

/-! Problem lists over a history of partitions. The lists that every partition has are those of the last one.
Of a group that a partition may lack, the file holds the list of the last partition that had one: files are only
ever written, so a later partition without the group leaves it as it is. -/
namespace PairDatasets.Report
variable {dir file : String} {calls : List (Corpus × Partition)} {c : Corpus} {p : Partition} {s : Session}

/-- The names of labels in order, one on a line. -/
structure Lists (c : Corpus) (labels : List Nat) (text : String) : Prop where
  text_eq : text = String.join ((labels.filterMap c.problemName?).map (· ++ "\n"))
  lines_eq : (∀ name ∈ labels.filterMap c.problemName?,
      '\n' ∉ name.toList ∧ name.toList.getLast? ≠ some '\r') →
    Text.lines text = labels.filterMap c.problemName?

/-- A file holds the names of labels. -/
def Holds (t : FileTree) (path : String) (c : Corpus) (labels : List Nat) : Prop :=
  ∃ text, t.readText path = .ok text ∧ Lists c labels text

/-- What a file of a group that a partition may lack holds after some calls. -/
structure HoldsLast (path : String) (group : Partition → Option Group) (calls : List (Corpus × Partition))
    (before after : FileTree) : Prop where
  last : ∀ front c p g back, calls = front ++ (c, p) :: back → group p = some g →
    (∀ call ∈ back, group call.2 = none) → Holds after path c g.labels
  untouched : (∀ call ∈ calls, group call.2 = none) → after.look path = before.look path
  exists_iff : (∃ e, after.look path = .ok e) ↔
    (∃ e, before.look path = .ok e) ∨ ∃ call ∈ calls, (group call.2).isSome

lemma lists_namesText (c : Corpus) (labels : List Nat) : Lists c labels (namesText c labels) :=
  ⟨rfl, Text.lines_unlines _⟩

lemma nameEnd_problemLists (c : Corpus) (p : Partition) : ∀ x ∈ problemLists c p, NameEnd x.1 := by
  simp only [problemLists, List.forall_mem_append, List.forall_mem_cons, Option.mem_toList,
    Option.map_eq_some_iff, forall_exists_index, and_imp]
  refine ⟨⟨⟨⟨by decide, by decide⟩, ⟨by decide, by decide⟩, ⟨by decide, by decide⟩, nofun⟩, ?_⟩, ?_⟩
  · rintro _ g - rfl
    exact (⟨by decide, by decide⟩ : NameEnd "validation_problems.txt")
  · rintro _ g - rfl
    exact (⟨by decide, by decide⟩ : NameEnd "test_problems.txt")

/-- What one call writes. -/
def callTexts (call : Corpus × Partition) : List (String × String) :=
  (problemLists call.1 call.2).map fun x => (x.1, namesText call.1 x.2)

/-- Problem lists are written list by list. -/
lemma leaves_writeProblemLists (c : Corpus) (p : Partition) :
    Job.Leaves dir (callTexts (c, p)) () (writeProblemLists dir c p) := by
  have hnames := nameEnd_problemLists c p
  unfold writeProblemLists callTexts
  generalize problemLists c p = lists at hnames
  induction lists with
  | nil => exact Job.leaves_pure ()
  | cons x lists ih =>
    rw [List.forall_mem_cons] at hnames
    rw [List.forIn_cons]
    simp only [bind_assoc, pure_bind]
    exact (leaves_writeText hnames.1 _).bind (ih hnames.2)

lemma leaves_calls (dir : String) (calls : List (Corpus × Partition)) :
    Job.Leaves dir (calls.flatMap callTexts) () (calls.forM fun call => writeProblemLists dir call.1 call.2) :=
  Job.leaves_forM fun call => leaves_writeProblemLists call.1 call.2

/-- The labels that a call lists in a file, if it writes that file. -/
def labels? (file : String) (call : Corpus × Partition) : Option (List Nat) :=
  (problemLists call.1 call.2).lookup file

section Labels
variable (c : Corpus) (p : Partition)

lemma labels?_all : labels? "all_problems.txt" (c, p) = some (List.range c.problemCount) := rfl

lemma labels?_seen : labels? "train_valid_problems.txt" (c, p) = some p.seenLabels := rfl

lemma labels?_training : labels? "training_problems.txt" (c, p) = some p.training.labels := rfl

lemma labels?_validation :
    labels? "validation_problems.txt" (c, p) = p.validation.map Group.labels := by
  obtain ⟨strategy, training, validation, test⟩ := p
  cases validation <;> cases test <;> rfl

lemma labels?_test : labels? "test_problems.txt" (c, p) = p.test.map Group.labels := by
  obtain ⟨strategy, training, validation, test⟩ := p
  cases validation <;> cases test <;> rfl

/-- No file is written twice. -/
lemma nodup_problemLists : ((problemLists c p).map Prod.fst).Nodup := by
  have hfiles : ∀ validates tests : Bool,
      (["all_problems.txt", "train_valid_problems.txt", "training_problems.txt"] ++
        (bif validates then ["validation_problems.txt"] else []) ++
        (bif tests then ["test_problems.txt"] else [])).Nodup := by
    decide
  obtain ⟨strategy, training, validation, test⟩ := p
  cases validation <;> cases test
  · exact hfiles false false
  · exact hfiles false true
  · exact hfiles true false
  · exact hfiles true true

end Labels

/-- What holds of some item holds of a last one. -/
lemma exists_last {α : Type} {P : α → Prop} {xs : List α} (h : ∃ x ∈ xs, P x) :
    ∃ front x back, xs = front ++ x :: back ∧ P x ∧ ∀ y ∈ back, ¬ P y := by
  induction xs with
  | nil => simp at h
  | cons x xs ih =>
    by_cases hrest : ∃ y ∈ xs, P y
    · obtain ⟨front, y, back, rfl, hy, hback⟩ := ih hrest
      exact ⟨x :: front, y, back, rfl, hy, hback⟩
    · have hx : P x := by simpa [hrest] using h
      exact ⟨[], x, xs, rfl, hx, by simpa using hrest⟩

section Calls
variable {call : Corpus × Partition} {labels : List Nat}

lemma callTexts_of_none (h : labels? file call = none) : ∀ x ∈ callTexts call, x.1 ≠ file := by
  unfold callTexts
  rw [List.forall_mem_map]
  intro x hx
  exact (bne_iff_ne.mp (List.lookup_eq_none_iff.mp h x hx)).symm

lemma callTexts_of_some (h : labels? file call = some labels) : ∃ front back,
    callTexts call = front ++ (file, namesText call.1 labels) :: back ∧ ∀ x ∈ back, x.1 ≠ file := by
  obtain ⟨front, back, hlists, -⟩ := List.lookup_eq_some_iff.mp h
  have hnodup := nodup_problemLists call.1 call.2
  rw [hlists, List.map_append, List.map_cons, List.nodup_append, List.nodup_cons] at hnodup
  refine ⟨_, _, by rw [callTexts, hlists, List.map_append, List.map_cons], ?_⟩
  rw [List.forall_mem_map]
  intro x hx heq
  have hkey : x.1 ∈ back.map Prod.fst := List.mem_map_of_mem hx
  exact hnodup.2.1.1 (heq ▸ hkey)

/-- The last call that writes a file writes its last text. -/
lemma flatMap_callTexts {front back : List (Corpus × Partition)} (hcalls : calls = front ++ call :: back)
    (hcall : labels? file call = some labels) (hback : ∀ call ∈ back, labels? file call = none) :
    ∃ front' back', calls.flatMap callTexts = front' ++ (file, namesText call.1 labels) :: back' ∧
      ∀ x ∈ back', x.1 ≠ file := by
  obtain ⟨before, after, hlists, hafter⟩ := callTexts_of_some hcall
  refine ⟨front.flatMap callTexts ++ before, after ++ back.flatMap callTexts, ?_, ?_⟩
  · rw [hcalls, List.flatMap_append, List.flatMap_cons, hlists]
    simp
  · refine List.forall_mem_append.mpr ⟨hafter, ?_⟩
    intro x hx
    obtain ⟨call', hcall', hx⟩ := List.mem_flatMap.mp hx
    exact callTexts_of_none (hback call' hcall') x hx

end Calls

section History
variable {after : FileTree} (h : FileTree.Stored dir (calls.flatMap callTexts) s.files after)
include h

/-- A file holds the list of the last call that wrote it. -/
lemma holds_of_stored {front back : List (Corpus × Partition)} {labels : List Nat}
    (hcalls : calls = front ++ (c, p) :: back) (hcall : labels? file (c, p) = some labels)
    (hback : ∀ call ∈ back, labels? file call = none) : Holds after (Path.join dir file) c labels := by
  obtain ⟨front', back', htexts, hback'⟩ := flatMap_callTexts hcalls hcall hback
  exact ⟨_, h.readText (leaves_calls dir calls).names htexts hback', lists_namesText c labels⟩

lemma holdsLast_of_stored (hne : calls ≠ []) (hfile : NameEnd file) {group : Partition → Option Group}
    (hgroup : ∀ c p, labels? file (c, p) = (group p).map Group.labels) :
    HoldsLast (Path.join dir file) group calls (s.files.makeDirectories dir).1 after := by
  have hnone (call : Corpus × Partition) : labels? file call = none ↔ group call.2 = none := by
    rw [hgroup, Option.map_eq_none_iff]
  have hlast (front : List (Corpus × Partition)) (c : Corpus) (p : Partition) (g : Group)
      (back : List (Corpus × Partition)) (hcalls : calls = front ++ (c, p) :: back)
      (hg : group p = some g) (hback : ∀ call ∈ back, group call.2 = none) :
      Holds after (Path.join dir file) c g.labels :=
    holds_of_stored h hcalls (by rw [hgroup, hg]; rfl) fun call hcall => (hnone call).mpr (hback call hcall)
  have huntouched (hall : ∀ call ∈ calls, group call.2 = none) :
      after.look (Path.join dir file) = (s.files.makeDirectories dir).1.look (Path.join dir file) := by
    refine h.look (leaves_calls dir calls).names ?_ hfile ?_
    · obtain ⟨call, rest, rfl⟩ := List.exists_cons_of_ne_nil hne
      exact List.cons_ne_nil _ _
    · intro x hx
      obtain ⟨call, hcall, hx⟩ := List.mem_flatMap.mp hx
      exact callTexts_of_none ((hnone call).mpr (hall call hcall)) x hx
  refine ⟨hlast, huntouched, ?_⟩
  by_cases hsome : ∃ call ∈ calls, (group call.2).isSome
  · -- the last such call wrote the file
    obtain ⟨front, ⟨c, p⟩, back, hcalls, hp, hback⟩ := exists_last hsome
    obtain ⟨g, hg⟩ := Option.isSome_iff_exists.mp hp
    have hback' : ∀ call ∈ back, group call.2 = none :=
      fun call hcall => Option.not_isSome_iff_eq_none.mp (hback call hcall)
    obtain ⟨text, htext, -⟩ := hlast front c p g back hcalls hg hback'
    obtain ⟨e, he, -⟩ := bind_eq_ok.mp htext
    exact ⟨fun _ => .inr hsome, fun _ => ⟨e, he⟩⟩
  · have hall : ∀ call ∈ calls, group call.2 = none := by
      intro call hcall
      exact Option.not_isSome_iff_eq_none.mp fun h => hsome ⟨call, hcall, h⟩
    rw [huntouched hall]
    exact ⟨.inl, fun h => h.resolve_right hsome⟩

end History

/-- After any history of calls that all succeeded, the lists that every partition has are those of the last one.
The list of a group that a partition may lack is that of the last call with such a group; if there was none, the
file is what it was when the report directory had been made. So it exists if it existed then or some call had
such a group. -/
theorem writeProblemLists_history {earlier : List (Corpus × Partition)}
    (h : (((earlier ++ [(c, p)]).forM fun call => writeProblemLists dir call.1 call.2).run s).1 = .ok ()) :
    let calls := earlier ++ [(c, p)]
    let before := (s.files.makeDirectories dir).1
    let after := ((calls.forM fun call => writeProblemLists dir call.1 call.2).run s).2.files
    Holds after (Path.join dir "all_problems.txt") c (List.range c.problemCount) ∧
      Holds after (Path.join dir "train_valid_problems.txt") c p.seenLabels ∧
      Holds after (Path.join dir "training_problems.txt") c p.training.labels ∧
      HoldsLast (Path.join dir "validation_problems.txt") (·.validation) calls before after ∧
      HoldsLast (Path.join dir "test_problems.txt") (·.test) calls before after := by
  intro calls before after
  have hstored := (leaves_calls dir calls).stored s () h
  have hne : calls ≠ [] := by simp [calls]
  have hlast {file : String} {labels : List Nat} (hlabels : labels? file (c, p) = some labels) :
      Holds after (Path.join dir file) c labels := holds_of_stored hstored rfl hlabels nofun
  exact ⟨hlast (labels?_all c p), hlast (labels?_seen c p), hlast (labels?_training c p),
    holdsLast_of_stored hstored hne ⟨by decide, by decide⟩ labels?_validation,
    holdsLast_of_stored hstored hne ⟨by decide, by decide⟩ labels?_test⟩

def greekCorpus : Corpus :=
  .ofProblems "greek" 10
    [("alpha", [⟨"a0", [1]⟩, ⟨"a1", [2]⟩]), ("beta", [⟨"b0", [3]⟩]), ("gamma", [⟨"g0", [4]⟩])]

/-- Beta is for validation and gamma for tests. -/
def threeGroups : Partition where
  strategy := .disjointProblems (.count 1) 0.5
  training := Group.whole greekCorpus 0 1
  validation := some (Group.whole greekCorpus 1 2)
  test := some (Group.whole greekCorpus 2 3)

/-- Beta is for training too. -/
def twoGroups : Partition where
  strategy := .disjointProblems (.count 1) 0.0
  training := Group.whole greekCorpus 0 2
  validation := none
  test := some (Group.whole greekCorpus 2 3)

/-- The lists of three groups and then of two, written to an empty directory. -/
def twoCalls : Except DatasetError PUnit × Session :=
  (([(greekCorpus, threeGroups)] ++ [(greekCorpus, twoGroups)]).forM fun call =>
    writeProblemLists "out" call.1 call.2).run ⟨{}, [], []⟩

theorem writeProblemLists_history_twoCalls : twoCalls.1 = .ok () ∧
    Holds twoCalls.2.files "out/all_problems.txt" greekCorpus [0, 1, 2] ∧
    Holds twoCalls.2.files "out/training_problems.txt" greekCorpus [0, 1] ∧
    Holds twoCalls.2.files "out/validation_problems.txt" greekCorpus [1] ∧
    Holds twoCalls.2.files "out/test_problems.txt" greekCorpus [2] := by
  have hok : twoCalls.1 = .ok () := eq_ok_of_toOption (by decide +kernel)
  refine ⟨hok, ?_⟩
  rw [twoCalls] at hok ⊢
  obtain ⟨hall, -, htraining, hvalidation, htest⟩ := writeProblemLists_history hok
  refine ⟨hall, htraining, ?_, ?_⟩
  · exact hvalidation.last [] greekCorpus threeGroups _ [(greekCorpus, twoGroups)] rfl rfl (by simp [twoGroups])
  · exact htest.last [(greekCorpus, threeGroups)] greekCorpus twoGroups _ [] rfl rfl nofun

/-- The last partition has no validation group, and yet there is a validation list: that of the call before. -/
theorem writeProblemLists_twoCalls_keep_list : twoCalls.1 = .ok () ∧ twoGroups.validation = none ∧
    twoCalls.2.files.readText "out/validation_problems.txt" = .ok "beta\n" :=
  ⟨eq_ok_of_toOption (by decide +kernel), rfl, eq_ok_of_toOption (by decide +kernel)⟩

end PairDatasets.Report
