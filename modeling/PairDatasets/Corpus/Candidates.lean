import PairDatasets.Corpus.Config
import PairDatasets.Corpus.Metadata
import PairDatasets.Log
import PairDatasets.Random.Seeds

/-!
Which problems are read: those that are requested, else those of the index, else those whose files
lie in the directory. They are shuffled and cut to a maximum.
-/
namespace PairDatasets

/-- The problems whose tokenized files lie directly in a directory. -/
def discoverProblems (t : FileTree) (dir : String) : List String :=
  (t.fileNames dir).filterMap fun name =>
    match Path.nameParts name with
    | (stem, some "tkn") => some stem
    | _ => none

/-- The problems to read, before any shuffle. A requested name may be there twice. -/
structure Candidates where
  names : List String
  /-- Requested problems that the dataset does not have. -/
  absent : List String := []
  /-- The directory was searched, because the dataset has no index. -/
  discovered : Bool := false
  deriving DecidableEq, Repr

namespace Candidates

/-- Of the requested problems those that the dataset has. -/
def requested (known : String → Bool) (names : List String) : Candidates where
  names := names.filter known
  absent := names.filter fun name => !known name

/-- Without a request the index decides, by the counts it states; without an index, the files. -/
def find (t : FileTree) (c : CorpusConfig) : Except DatasetError Candidates := do
  let counts ← ProblemCounts.read t c.directory
  match c.problemList, counts with
  | some names, some counts => .ok (requested (fun n => counts.any fun (k, _) => k = n) names)
  | some names, none => .ok (requested (fun n => t.isFile (c.problemPath n)) names)
  | none, some counts =>
    .ok { names := (counts.filter fun (_, n) => c.minSolutions ≤ n).map (·.1) }
  | none, none => .ok { names := discoverProblems t c.directory, discovered := true }

def events (c : CorpusConfig) (found : Candidates) : List Event :=
  (if found.discovered then
    [⟨.debug, "problem index missing; discovering tokenized problem files",
      [("dir", c.directory)]⟩]
  else []) ++
  found.absent.map fun name =>
    ⟨.warn, "requested problem is not in the dataset", [("problem", name), ("dir", c.directory)]⟩

/-- Shuffle the names and take the first ones up to the maximum, which must be reached. -/
def select (c : CorpusConfig) (seeds : Seeds) (names : List String) :
    Except DatasetError (List String) :=
  let order := seeds.shuffleSorted .problemOrder names
  match c.maxProblems with
  | none => .ok order
  | some n => if order.length < n then .error (.tooFewProblems n order.length) else .ok (order.take n)

end Candidates

end PairDatasets
