import PairDatasets.Corpus.Basic
import PairDatasets.Text.Column
import PairDatasets.Text.Pieces

/-!
The listing of solutions that were left out: a block for each problem, its solutions one after
another, with a line break as soon as a line is longer than the limit.
-/
namespace PairDatasets.Listing

/-- Lines are broken beyond this many bytes. -/
def limit : Nat := 80

/-- What a continued line starts with. -/
def indent : String := Text.fill 5 ' '

/-- What a block starts with: the rank of the problem and its name. -/
def header (rank : Nat) (problem : String) : String :=
  Text.rightNat 3 rank ++ " " ++ Text.left 16 problem

/-- A solution and its number of tokens. -/
def entry (o : Omitted) : String := o.solution ++ "/" ++ toString o.tokens

/-- The rest of a block: the line begun, what separates the next entry from it, the entries. A line
of nothing but the indent is dropped. -/
def wrap (line separator : String) : List Omitted → List String
  | [] => if indent.utf8ByteSize < line.utf8ByteSize then [line] else []
  | o :: os =>
    let line := line ++ separator ++ " " ++ entry o
    if limit < line.utf8ByteSize then line :: wrap indent "" os else wrap line "," os

/-- The lines of one problem. -/
def block (rank : Nat) (problem : String) (os : List Omitted) : List String :=
  wrap (header rank problem) ":" os

/-- The whole listing; ranks count from 1. -/
def text (m : OmittedByProblem) : String :=
  String.join (((m.zipIdx 1).flatMap fun ((problem, os), rank) => block rank problem os).map
    (· ++ "\n"))

end PairDatasets.Listing
