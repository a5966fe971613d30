import PairDatasets.Files.Path

/-!
A file tree as a value, with the failures an operating system reports. Locations are lists of names
from the working directory; the directories above it and the root exist and are otherwise empty.
-/
namespace PairDatasets

/-- Why an operation on a path failed. -/
inductive FileError where
  | notFound
  | alreadyExists
  | notADirectory
  | isADirectory
  | nameTooLong
  | nulInPath
  | notUtf8
  deriving DecidableEq, Repr

def FileError.message : FileError → String
  | notFound => "No such file or directory (os error 2)"
  | alreadyExists => "File exists (os error 17)"
  | notADirectory => "Not a directory (os error 20)"
  | isADirectory => "Is a directory (os error 21)"
  | nameTooLong => "File name too long (os error 36)"
  | nulInPath => "file name contained an unexpected NUL byte"
  | notUtf8 => "stream did not contain valid UTF-8"

/-- Names from the working directory on; `..` steps and a leading `/` leave it. -/
abbrev Location := List String

/-- What stands at a location. -/
inductive Entry where
  | file (content : ByteArray)
  | directory

structure FileTree where
  entries : List (Location × Entry) := []
  deriving Inhabited

namespace FileTree

/-- The working directory, those above it, and the root. -/
def isGiven (loc : Location) : Bool := loc.all (· = "..") || loc = ["/"]

def entryAt (t : FileTree) (loc : Location) : Option Entry :=
  if isGiven loc then some .directory else (t.entries.find? fun (l, _) => l = loc).map (·.2)

/-- Replace the entry at a location, or add it. -/
def put (t : FileTree) (loc : Location) (e : Entry) : FileTree :=
  if t.entries.any fun (l, _) => l = loc then
    ⟨t.entries.map fun (l, old) => if l = loc then (l, e) else (l, old)⟩
  else ⟨t.entries ++ [(loc, e)]⟩

/-- The location above. -/
def above (loc : Location) : Location :=
  if loc.all (· = "..") then loc ++ [".."] else if loc = ["/"] then loc else loc.dropLast

/-- The most bytes of a name. -/
def maxName : Nat := 255

/-- The most bytes of a path. -/
def maxPath : Nat := 4095

/-- Refuse names that no file can have. -/
def checkName (name : String) : Except FileError Unit :=
  if maxName < name.utf8ByteSize then .error .nameTooLong else .ok ()

/-- One step from a location, which must be a directory. -/
def enter (t : FileTree) (loc : Location) (name : String) : Except FileError Location :=
  match t.entryAt loc with
  | none => .error .notFound
  | some (.file _) => .error .notADirectory
  | some .directory =>
    if name = "." then .ok loc
    else if name = ".." then .ok (above loc)
    else (checkName name).map fun _ => loc ++ [name]

/-- Refuse paths that no file can have. -/
def checkPath (path : String) : Except FileError Unit :=
  if path.toList.contains '\x00' then .error .nulInPath
  else if path.isEmpty then .error .notFound
  else if maxPath < path.utf8ByteSize then .error .nameTooLong
  else .ok ()

def start (path : String) : Location := if Path.isAbsolute path then ["/"] else []

/-- Where a path leads. A slash at its end asks for a directory. -/
def walk (t : FileTree) (path : String) : Except FileError Location := do
  checkPath path
  let loc ← (Path.steps path).foldlM t.enter (start path)
  if Path.endsInSlash path then t.enter loc "." else .ok loc

/-- What a path leads to. -/
def look (t : FileTree) (path : String) : Except FileError Entry := do
  let loc ← t.walk path
  match t.entryAt loc with
  | none => .error .notFound
  | some e => .ok e

def isFile (t : FileTree) (path : String) : Bool :=
  match t.look path with
  | .ok (.file _) => true
  | _ => false

def isDirectory (t : FileTree) (path : String) : Bool :=
  match t.look path with
  | .ok .directory => true
  | _ => false

/-- The text of a file. -/
def readText (t : FileTree) (path : String) : Except FileError String := do
  match ← t.look path with
  | .directory => .error .isADirectory
  | .file content =>
    match String.fromUTF8? content with
    | some s => .ok s
    | none => .error .notUtf8

/-- The directory that holds the last step of a path, and that step; none for the root. -/
def walkAbove (t : FileTree) (path : String) : Except FileError (Option (Location × String)) := do
  checkPath path
  match (Path.steps path).getLast? with
  | none => .ok none
  | some name =>
    let loc ← (Path.steps path).dropLast.foldlM t.enter (start path)
    let loc ← t.enter loc "."
    .ok (some (loc, name))

def isDotName (name : String) : Bool := name = "." || name = ".."

/-- Make one directory, which must not exist, in one that does. -/
def makeDirectory (t : FileTree) (path : String) : Except FileError FileTree := do
  match ← t.walkAbove path with
  | none => .error .alreadyExists
  | some (loc, name) =>
    if isDotName name || (t.entryAt (loc ++ [name])).isSome then .error .alreadyExists
    else (checkName name).map fun _ => t.put (loc ++ [name]) .directory

/-- Make the first of some directories, each inside the next, and before it those that it needs. -/
def makeAlong (t : FileTree) : List String → FileTree × Except FileError Unit
  | [] => (t, .ok ())
  | path :: parents =>
    match t.makeDirectory path with
    | .ok t => (t, .ok ())
    | .error .notFound =>
      match makeAlong t parents with
      | (t, .error e) => (t, .error e)
      | (t, .ok ()) =>
        match t.makeDirectory path with
        | .ok t => (t, .ok ())
        | .error e => (t, if t.isDirectory path then .ok () else .error e)
    | .error e => (t, if t.isDirectory path then .ok () else .error e)

/-- Make a directory with all those above it; one that exists is fine. -/
def makeDirectories (t : FileTree) (path : String) : FileTree × Except FileError Unit :=
  if path.isEmpty then (t, .ok ()) else t.makeAlong (path :: Path.ancestors path)

/-- Write a file, new or in place of the old one. A path that names a directory is refused before
its last name is looked at. -/
def write (t : FileTree) (path : String) (content : ByteArray) : Except FileError FileTree := do
  match ← t.walkAbove path with
  | none => .error .isADirectory
  | some (loc, name) =>
    if isDotName name || Path.endsInSlash path then .error .isADirectory
    else
      match t.entryAt (loc ++ [name]) with
      | some .directory => .error .isADirectory
      | _ => (checkName name).map fun _ => t.put (loc ++ [name]) (.file content)

def writeText (t : FileTree) (path text : String) : Except FileError FileTree :=
  t.write path text.toUTF8

/-- The names of the files directly in a directory; none if there is no such directory. -/
def fileNames (t : FileTree) (dir : String) : List String :=
  match t.walk dir with
  | .error _ => []
  | .ok loc => t.entries.filterMap fun (l, e) =>
    match e, l.getLast? with
    | .file _, some name => if l = loc ++ [name] then some name else none
    | _, _ => none

/-- Put a file where its path says, with its directories; a path that ends in a slash makes a
directory. -/
def plant (t : FileTree) (path : String) (content : ByteArray) : FileTree :=
  let (t, _) := t.makeAlong (Path.ancestors path)
  if Path.endsInSlash path then (t.makeDirectories path).1
  else
    match t.write path content with
    | .ok t => t
    | .error _ => t

def ofFiles (files : List (String × ByteArray)) : FileTree :=
  files.foldl (fun t (path, content) => t.plant path content) {}

/-- The files that are new or have another content than before, in the order of their paths. -/
def changes (before after : FileTree) : List (String × ByteArray) :=
  let changed := after.entries.filterMap fun (loc, e) =>
    match e with
    | .directory => none
    | .file content =>
      match before.entryAt loc with
      | some (.file old) => if old == content then none else some (Text.join "/" loc, content)
      | _ => some (Text.join "/" loc, content)
  changed.mergeSort fun a b => a.1 ≤ b.1

end FileTree
end PairDatasets
