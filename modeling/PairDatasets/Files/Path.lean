import PairDatasets.Text.Pieces

/-!
Paths as text: joining, steps, ancestors, and the two parts of a file name.
-/
namespace PairDatasets
namespace Path

def isAbsolute (path : String) : Bool := path.toList.head? = some '/'

def endsInSlash (path : String) : Bool := path.toList.getLast? = some '/'

/-- `name` inside `dir`. An absolute name stands alone, and a slash is added only where one is
missing. -/
def join (dir name : String) : String :=
  if isAbsolute name then name
  else if dir.isEmpty || endsInSlash dir then dir ++ name
  else dir ++ "/" ++ name

/-- The names between the slashes, `.` and `..` among them. -/
def steps (path : String) : List String :=
  ((Text.pieces '/' path.toList).filter fun p => !p.isEmpty).map String.ofList

/-- The steps without `.`; at the front of a relative path it stays. -/
def plainSteps (path : String) : List String :=
  match isAbsolute path, steps path with
  | false, "." :: rest => "." :: rest.filter (· ≠ ".")
  | _, names => names.filter (· ≠ ".")

def ofSteps (absolute : Bool) (names : List String) : String :=
  (if absolute then "/" else "") ++ Text.join "/" names

/-- The directories above a path, nearest first, without the empty path. -/
def ancestors (path : String) : List String :=
  let names := plainSteps path
  let above := (List.range names.length).reverse.map fun n => ofSteps (isAbsolute path) (names.take n)
  above.filter fun p => !p.isEmpty

/-- Cut a file name at its last point, if something stands before it. -/
def nameParts (name : String) : String × Option String :=
  let backward := name.toList.reverse
  match Text.cutFirst? '.' backward with
  | some (ext, c :: stem) => (String.ofList (c :: stem).reverse, some (String.ofList ext.reverse))
  | _ => (name, none)

example : join "ds/" "x" = "ds/x" ∧ join "" "x" = "x" ∧ join "ds" "/x" = "/x" := by decide

end Path
end PairDatasets
