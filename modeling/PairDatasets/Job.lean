import PairDatasets.Error
import PairDatasets.Log

/-!
Work on files: it may stop with an error, and keeps the files, the events and the printed lines it
left behind.
-/
namespace PairDatasets

/-- What work leaves behind. -/
structure Session where
  files : FileTree
  events : List Event := []
  printed : List String := []
  deriving Inhabited

abbrev Job := ExceptT DatasetError (StateM Session)

namespace Job

variable {α : Type}

/-- Run work on some files. -/
def start {ε : Type} (job : ExceptT ε (StateM Session) α) (files : FileTree) :
    Except ε α × Session :=
  (ExceptT.run job).run { files := files }

def files : Job FileTree := do return (← get).files

def emit (events : List Event) : Job Unit :=
  modify fun s => { s with events := s.events ++ events }

/-- Take over the events and the outcome of a computation. -/
def ofLogged (m : Logged DatasetError α) : Job α := do
  emit m.events
  liftExcept m.outcome
where
  liftExcept : Except DatasetError α → Job α
    | .ok a => pure a
    | .error e => throw e

def ofExcept (x : Except DatasetError α) : Job α := ofLogged (Logged.ofExcept x)

instance : MonadLift (Except DatasetError) Job := ⟨ofExcept⟩

/-- Make a directory and those above it. What was made stays, even if the rest fails. -/
def makeDirectories (path : String) : Job Unit := do
  let (files, made) := (← get).files.makeDirectories path
  modify fun s => { s with files := files }
  match made with
  | .ok () => pure ()
  | .error e => throw (.file e)

/-- Write a file; the caller says what a failure is called. -/
def write (fault : FileError → DatasetError) (path text : String) : Job Unit := do
  match (← get).files.writeText path text with
  | .ok files => modify fun s => { s with files := files }
  | .error e => throw (fault e)

end Job
end PairDatasets
