import PairDatasets.Error
import PairDatasets.Json.Reader
import PairDatasets.Json.Record
import PairDatasets.Text.Blank

/-!
The description files of a dataset: `info.json` with its token set, and `problems.json`, which may
be absent, with the number of solutions of each problem.
-/
namespace PairDatasets

/-- The token set of a dataset, and the number of its tokens. -/
structure DatasetInfo where
  tokenSet : String
  vocabulary : Nat
  deriving DecidableEq, Repr

namespace DatasetInfo

def path (dir : String) : String := Path.join dir "info.json"

/-- The record of both fields; neither has a default. -/
def ofJson? (j : Json) : Option DatasetInfo := do
  let [tokenSet, vocabulary] ← j.record? ["token_set", "n_tokens"] false | none
  let tokenSet ← Json.required? Json.stringText? tokenSet
  let vocabulary ← Json.required? Json.nat64? vocabulary
  return ⟨tokenSet, vocabulary⟩

/-- Read the description of the dataset in a directory. Its vocabulary is not empty. -/
def read (t : FileTree) (dir : String) : Except DatasetError DatasetInfo :=
  if !t.isFile (path dir) then .error (.missing .info (path dir))
  else
    match t.readText (path dir) with
    | .error e => .error (.metadata (path dir) (.unreadable e))
    | .ok text =>
      match (Json.parse? text).bind ofJson? with
      | none => .error (.metadata (path dir) .malformed)
      | some info =>
        if info.vocabulary = 0 then .error (.metadata (path dir) .noTokens) else .ok info

theorem vocabulary_pos {t : FileTree} {dir : String} {info : DatasetInfo}
    (h : read t dir = .ok info) : 0 < info.vocabulary := by
  unfold read at h
  split at h
  · cases h
  · split at h
    · cases h
    · split at h
      · cases h
      · split at h
        · cases h
        · cases h; omega

end DatasetInfo

namespace ProblemCounts

def path (dir : String) : String := Path.join dir "problems.json"

/-- Values are read whole, so the nesting of the document is bounded. -/
def depthLimit : Nat := 128

/-- The values of an object by problem, each problem once. -/
def entries? (j : Json) : Option (List (String × Json)) :=
  match j with
  | .object fields =>
    if j.isPlain && j.depth < depthLimit then
      some (fields.foldl (fun acc (k, v) => Json.setKey (k.getD "") v acc) [])
    else none
  | _ => none

/-- A count is a whole number of 64 bits, or a text that spells one between white space. -/
def count? : Json → Option Nat
  | .number l => l.nat64?
  | .string (some s) => (Decimal.whole64 (Text.trim s)).toOption
  | _ => none

def readCount (path : String) (entry : String × Json) : Except DatasetError (String × Nat) :=
  match count? entry.2 with
  | some n => .ok (entry.1, n)
  | none => .error (.metadata path (.badCount entry.2 entry.1))

/-- The counts in the index of a dataset, in the order of the file; nothing without an index. -/
def read (t : FileTree) (dir : String) : Except DatasetError (Option (List (String × Nat))) :=
  if !t.isFile (path dir) then .ok none
  else
    match t.readText (path dir) with
    | .error e => .error (.metadata (path dir) (.unreadable e))
    | .ok text =>
      match (Json.parse? text).bind entries? with
      | none => .error (.metadata (path dir) .malformed)
      | some entries => (entries.mapM (readCount (path dir))).map some

end ProblemCounts
end PairDatasets
