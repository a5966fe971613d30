import Mathlib.Algebra.Order.Ring.Nat
import Mathlib.Data.List.Basic
import PairDatasets.Corpus.Reading

/-! The file of a problem. Every line that is not blank has one fate, and the solutions that are kept
are those of the accepted lines whose length lies within the limits. -/
namespace PairDatasets

/-- The lines of a text that are not blank. -/
def Text.entries (text : String) : List String :=
  (lines text).filter fun line => !isBlankLine line

/-- The solutions of the lines of a text that are accepted. -/
def Solution.ofText (vocabulary : ℕ) (text : String) : List Solution :=
  (Text.entries text).filterMap fun line => (ofLine vocabulary line).toOption

/-- A number of tokens lies within the limits. -/
def CorpusConfig.admits (c : CorpusConfig) (n : ℕ) : Bool :=
  decide (c.minTokens ≤ n) && c.maxTokens.all (n ≤ ·)

lemma CorpusConfig.admits_iff {c : CorpusConfig} {n : ℕ} :
    c.admits n = true ↔ c.minTokens ≤ n ∧ ∀ long, c.maxTokens = some long → n ≤ long := by
  unfold admits
  cases c.maxTokens <;> simp

namespace LineFate
variable {c : CorpusConfig} {vocabulary : ℕ}

/-- The solution of a line that is kept. -/
def kept? : LineFate → Option Solution
  | kept s => some s
  | _ => none

lemma kept?_ofLine (line : String) (number : ℕ) :
    (ofLine c vocabulary line number).kept? =
      (Solution.ofLine vocabulary line).toOption.filter fun s => c.admits s.size := by
  unfold ofLine
  cases Solution.ofLine vocabulary line with
  | error e => rfl
  | ok s =>
    simp only [ofSolution, Except.toOption, Option.filter_some, CorpusConfig.admits]
    by_cases hshort : s.size < c.minTokens
    · simp [hshort, kept?]
    · cases c.maxTokens with
      | none => simp [hshort, kept?, Nat.le_of_not_lt hshort]
      | some long =>
        by_cases hlong : long < s.size
        · simp [hshort, hlong, kept?, Nat.not_le_of_lt hlong]
        · simp [hshort, hlong, kept?, Nat.le_of_not_lt hshort, Nat.le_of_not_lt hlong]

/-- What is read off the fates without the numbers of the lines is read off the lines. -/
lemma filterMap_ofText {α : Type} {pick : LineFate → Option α} {read : String → Option α}
    (h : ∀ line number, pick (ofLine c vocabulary line number) = read line) (text : String) :
    (ofText c vocabulary text).filterMap pick = (Text.entries text).filterMap read := by
  unfold ofText Text.entries
  rw [List.filterMap_map]
  conv_rhs => rw [← List.zipIdx_map_fst 1 (Text.lines text), List.filter_map, List.filterMap_map]
  congr 1
  funext ⟨line, number⟩
  exact h line number

lemma length_ofText (text : String) :
    (ofText c vocabulary text).length = (Text.entries text).length := by
  have h : (ofText c vocabulary text).filterMap (fun _ => some ()) =
      (Text.entries text).filterMap fun _ => some () := filterMap_ofText (fun _ _ => rfl) text
  simpa using congrArg List.length h

end LineFate

namespace Reading

lemma kept_eq (r : Reading) : r.kept = r.lines.filterMap LineFate.kept? := rfl

/-- No line is lost, and none counts twice. -/
theorem length_lines (r : Reading) :
    r.lines.length = r.rejected.length + r.tooShort.length + r.tooLong.length + r.kept.length := by
  unfold rejected tooShort tooLong kept
  induction r.lines with
  | nil => rfl
  | cons fate fates ih =>
    rw [List.length_cons, ih]
    cases fate <;> simp only [List.filterMap_cons, List.length_cons] <;> omega

lemma kept_of_not_readable {r : Reading} (h : r.readable = false) : r.kept = [] := by
  unfold readable at h
  unfold kept lines
  cases hr : r.fates with
  | ok fates => simp [hr] at h
  | error e => rfl

section File
variable {t : FileTree} {c : CorpusConfig} {vocabulary : ℕ} {problem text : String}

lemma readable_ofProblem :
    (ofProblem t c vocabulary problem).readable = true ↔
      ∃ text, t.readText (c.problemPath problem) = .ok text := by
  unfold readable ofProblem
  cases t.readText (c.problemPath problem) <;> simp [Except.map]

lemma lines_ofProblem (h : t.readText (c.problemPath problem) = .ok text) :
    (ofProblem t c vocabulary problem).lines = LineFate.ofText c vocabulary text := by
  simp [lines, ofProblem, h, Except.map]

theorem kept_ofProblem (h : t.readText (c.problemPath problem) = .ok text) :
    (ofProblem t c vocabulary problem).kept =
      (Solution.ofText vocabulary text).filter fun s => c.admits s.size := by
  rw [kept_eq, lines_ofProblem h, LineFate.filterMap_ofText LineFate.kept?_ofLine, Solution.ofText,
    List.filter_filterMap]

end File

lemma accepted_iff {c : CorpusConfig} {r : Reading} :
    r.accepted c = true ↔ r.readable = true ∧ r.kept ≠ [] ∧ c.minSolutions ≤ r.kept.length := by
  unfold accepted underpopulated
  cases r.readable <;> simp

/-- Every reading is accepted, or could not be read, or kept too little. -/
lemma trichotomy (c : CorpusConfig) (r : Reading) :
    (r.accepted c = true ∧ r.readable = true ∧ r.underpopulated c = false) ∨
      (r.accepted c = false ∧ r.readable = false ∧ r.underpopulated c = false) ∨
        (r.accepted c = false ∧ r.readable = true ∧ r.underpopulated c = true) := by
  unfold accepted underpopulated
  cases r.readable <;> cases r.kept.isEmpty || decide (r.kept.length < c.minSolutions) <;> simp

end Reading
end PairDatasets
