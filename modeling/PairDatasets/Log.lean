/-!
What a run reports besides its result: events with a level, a message and named values, in order.
`Logged` is a computation that may stop with an error and keeps its events either way.
-/
namespace PairDatasets

inductive Level where
  | debug
  | info
  | warn
  deriving DecidableEq, Repr

def Level.name : Level → String
  | debug => "DEBUG"
  | info => "INFO"
  | warn => "WARN"

structure Event where
  level : Level
  message : String
  values : List (String × String) := []
  deriving DecidableEq, Repr

/-- One line: level, message, and every value after its name. -/
def Event.line (e : Event) : String :=
  e.level.name ++ " " ++ e.message ++ String.join (e.values.map fun (k, v) => " " ++ k ++ "=" ++ v)

/-- Events, and the value or the error they led to. -/
structure Logged (ε : Type) (α : Type) where
  events : List Event
  outcome : Except ε α

namespace Logged

variable {ε α β : Type}

def pure (a : α) : Logged ε α := ⟨[], .ok a⟩

/-- Go on with a value; after an error nothing more is reported. -/
def bind (m : Logged ε α) (f : α → Logged ε β) : Logged ε β :=
  match m.outcome with
  | .error e => ⟨m.events, .error e⟩
  | .ok a => ⟨m.events ++ (f a).events, (f a).outcome⟩

instance : Monad (Logged ε) where
  pure := Logged.pure
  bind := Logged.bind

/-- Report events. -/
def emit (events : List Event) : Logged ε Unit := ⟨events, .ok ()⟩

def ofExcept (x : Except ε α) : Logged ε α := ⟨[], x⟩

instance : MonadLift (Except ε) (Logged ε) := ⟨ofExcept⟩

instance : MonadExcept ε (Logged ε) where
  throw e := ⟨[], .error e⟩
  tryCatch m handle :=
    match m.outcome with
    | .ok _ => m
    | .error e => ⟨m.events ++ (handle e).events, (handle e).outcome⟩

@[simp] theorem outcome_pure (a : α) : (Pure.pure a : Logged ε α).outcome = .ok a := rfl

@[simp] theorem outcome_bind (m : Logged ε α) (f : α → Logged ε β) :
    (m >>= f).outcome = m.outcome >>= fun a => (f a).outcome := by
  show (Logged.bind m f).outcome = _
  unfold Logged.bind
  cases m.outcome <;> rfl

@[simp] theorem outcome_emit (events : List Event) :
    (emit events : Logged ε Unit).outcome = .ok () := rfl

@[simp] theorem outcome_ofExcept (x : Except ε α) : (ofExcept x).outcome = x := rfl

end Logged
end PairDatasets
