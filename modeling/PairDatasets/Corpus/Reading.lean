import PairDatasets.Corpus.Config
import PairDatasets.Corpus.Line
import PairDatasets.Log

/-!
Reading the file of a problem: each line has a fate, and what a problem keeps and loses is read off
the fates of its lines.
-/
namespace PairDatasets

/-- What becomes of a line. -/
inductive LineFate where
  | rejected (number : Nat) (e : LineError)
  | tooShort (o : Omitted)
  | tooLong (o : Omitted)
  | kept (s : Solution)
  deriving DecidableEq, Repr

namespace LineFate

/-- Judge a solution by its length. -/
def ofSolution (c : CorpusConfig) (s : Solution) : LineFate :=
  if s.size < c.minTokens then .tooShort ⟨s.name, s.size⟩
  else
    match c.maxTokens with
    | some long => if long < s.size then .tooLong ⟨s.name, s.size⟩ else .kept s
    | none => .kept s

def ofLine (c : CorpusConfig) (vocabulary : Nat) (line : String) (number : Nat) : LineFate :=
  match Solution.ofLine vocabulary line with
  | .error e => .rejected number e
  | .ok s => ofSolution c s

/-- The fates of all lines but the blank ones; lines are numbered from 1. -/
def ofText (c : CorpusConfig) (vocabulary : Nat) (text : String) : List LineFate :=
  (((Text.lines text).zipIdx 1).filter fun (line, _) => !Text.isBlankLine line).map
    fun (line, number) => ofLine c vocabulary line number

end LineFate

/-- A problem and the fates of its lines, or why its file could not be read. -/
structure Reading where
  problem : String
  path : String
  fates : Except FileError (List LineFate)

namespace Reading

def ofProblem (t : FileTree) (c : CorpusConfig) (vocabulary : Nat) (problem : String) : Reading where
  problem := problem
  path := c.problemPath problem
  fates := (t.readText (c.problemPath problem)).map (LineFate.ofText c vocabulary)

/-- The fates, none if the file could not be read. -/
def lines (r : Reading) : List LineFate :=
  match r.fates with
  | .ok fates => fates
  | .error _ => []

def readable (r : Reading) : Bool :=
  match r.fates with
  | .ok _ => true
  | .error _ => false

def kept (r : Reading) : List Solution :=
  r.lines.filterMap fun
    | .kept s => some s
    | _ => none

def tooShort (r : Reading) : List Omitted :=
  r.lines.filterMap fun
    | .tooShort o => some o
    | _ => none

def tooLong (r : Reading) : List Omitted :=
  r.lines.filterMap fun
    | .tooLong o => some o
    | _ => none

def rejected (r : Reading) : List (Nat × LineError) :=
  r.lines.filterMap fun
    | .rejected number e => some (number, e)
    | _ => none

/-- Whether a problem could be read but kept too few solutions. -/
def underpopulated (c : CorpusConfig) (r : Reading) : Bool :=
  r.readable && (r.kept.isEmpty || r.kept.length < c.minSolutions)

/-- Whether a problem goes into the corpus. -/
def accepted (c : CorpusConfig) (r : Reading) : Bool :=
  r.readable && !r.underpopulated c

/-- Whether a problem shows an error in the data. Omitted solutions are none. -/
def faulty (r : Reading) : Bool := !r.readable || r.kept.isEmpty || !r.rejected.isEmpty

def events (c : CorpusConfig) (r : Reading) : List Event :=
  match r.fates with
  | .error e =>
    [⟨.warn, "skipping unreadable problem file",
      [("problem", r.problem), ("path", r.path), ("error", e.message)]⟩]
  | .ok _ =>
    r.rejected.map (fun (number, e) =>
      ⟨.warn, "skipping malformed tokenized solution",
        [("problem", r.problem), ("line", toString number), ("error", e.message)]⟩) ++
    if r.kept.isEmpty then [⟨.warn, "problem has 0 solutions loaded", [("problem", r.problem)]⟩]
    else if r.kept.length < c.minSolutions then
      [⟨.debug, "dropping problem with too few retained solutions",
        [("problem", r.problem), ("solutions", toString r.kept.length),
          ("required", toString c.minSolutions)]⟩]
    else []

/-- Collect what was left out, by problem. -/
def collect (pick : Reading → List Omitted) (readings : List Reading) : OmittedByProblem :=
  readings.foldl (fun m r => (pick r).foldl (fun m o => m.add r.problem o) m) []

end Reading

end PairDatasets
