import PairDatasets.Text.Blank

/-!
Cutting text at a character: into all its pieces, at the first occurrence only, and into lines.
-/
namespace PairDatasets.Text

/-- The pieces between the occurrences of `sep`, one more than there are occurrences. -/
def pieces (sep : Char) : List Char → List (List Char)
  | [] => [[]]
  | c :: cs =>
    if c = sep then [] :: pieces sep cs
    else
      match pieces sep cs with
      | [] => [[c]]
      | p :: ps => (c :: p) :: ps

/-- What stands before and after the first `sep`, if there is one. -/
def cutFirst? (sep : Char) : List Char → Option (List Char × List Char)
  | [] => none
  | c :: cs =>
    if c = sep then some ([], cs)
    else (cutFirst? sep cs).map fun (before, after) => (c :: before, after)

/-- Drop one carriage return at the end. -/
def dropReturn (cs : List Char) : List Char :=
  match cs.reverse with
  | '\r' :: rest => rest.reverse
  | _ => cs

/-- Lines end with a line feed, before which one carriage return is dropped; what follows the last
line feed is a line if it is not empty, and keeps its carriage return. -/
def lineChars (cs : List Char) : List (List Char) :=
  match (pieces '\n' cs).reverse with
  | [] => []
  | last :: ended =>
    let ended := (ended.map dropReturn).reverse
    if last.isEmpty then ended else ended ++ [last]

def lines (s : String) : List String := (lineChars s.toList).map String.ofList

/-- Put `sep` between neighbours. -/
def join (sep : String) (parts : List String) : String := sep.intercalate parts

/-- Lines, each ended by a line feed. -/
def unlines (ls : List String) : String := String.join (ls.map (· ++ "\n"))

theorem pieces_ne_nil (sep : Char) (cs : List Char) : pieces sep cs ≠ [] := by
  cases cs with
  | nil => simp [pieces]
  | cons c cs =>
    rw [pieces]
    split
    · simp
    · split <;> simp

example : lineChars "a\r\n\nb\r".toList = ["a".toList, [], "b\r".toList] := by decide
example : cutFirst? ':' "s:1:2".toList = some ("s".toList, "1:2".toList) := by decide

end PairDatasets.Text
