import PairDatasets.Text.Pieces

/-!
Comma separated records: a field that holds a comma, a quote or a line break is put in quotes, a
quote inside it is written twice, and a record ends with a line feed.
-/
namespace PairDatasets.Text.Csv

/-- The characters that cannot stand in a bare field. -/
def needsQuotes (c : Char) : Bool := c = ',' || c = '"' || c = '\r' || c = '\n'

/-- Write every quote twice. -/
def doubleQuotes : List Char → List Char
  | [] => []
  | c :: cs => if c = '"' then '"' :: '"' :: doubleQuotes cs else c :: doubleQuotes cs

def fieldChars (cs : List Char) : List Char :=
  if cs.any needsQuotes then '"' :: doubleQuotes cs ++ ['"'] else cs

def field (s : String) : String := String.ofList (fieldChars s.toList)

def record (fields : List String) : String := join "," (fields.map field) ++ "\n"

example : fieldChars "a\"b".toList = "\"a\"\"b\"".toList := by decide
example : fieldChars "a b".toList = "a b".toList := by decide

end PairDatasets.Text.Csv
