import PairDatasets.Text.Pieces

/-!
The arguments of a command: options with a value, as `--name value` or `--name=value`, and flags.
A value given as an argument of its own is read when the next option begins or the arguments end,
so an argument that is unknown is reported before it. Options that exclude each other are looked for
after the last argument.
-/
namespace PairDatasets

/-- Why an option does not take a value. -/
inductive ValueFault where
  | notAllowed
  | rejected (reason : String)
  deriving DecidableEq, Repr

/-- Why the arguments of a command cannot be read. -/
inductive UsageError where
  | unknown (arg : String)
  /-- Given twice, or beside an option that excludes it. -/
  | conflict (arg : String)
  | valueForFlag (arg : String)
  /-- No value, or none of those that are allowed. -/
  | badValue (arg : String)
  | rejectedValue (arg reason : String)
  | missing (args : List String)
  deriving DecidableEq, Repr

def UsageError.message : UsageError → String
  | unknown arg => s!"unexpected argument '{arg}'"
  | conflict arg => s!"the argument '{arg}' cannot be used here again or beside another"
  | valueForFlag arg => s!"the argument '{arg}' takes no value"
  | badValue arg => s!"the argument '{arg}' needs one of its values"
  | rejectedValue arg reason => s!"invalid value for '{arg}': {reason}"
  | missing args => "required arguments are missing: " ++ Text.join " " args

/-- An option and how its value changes the options of a command. A flag has no value name. -/
structure Opt (O : Type) where
  name : String
  valueName : Option String
  change : String → O → Except ValueFault O
  /-- Names of the options that cannot stand beside it. -/
  excluded : List String := []

namespace Opt

variable {O : Type}

def flag (name : String) (change : O → O) : Opt O where
  name := name
  valueName := none
  change := fun _ o => .ok (change o)

/-- An option whose value is read first. -/
def reading {α : Type} (name valueName : String) (read : String → Except ValueFault α)
    (change : α → O → O) : Opt O where
  name := name
  valueName := some valueName
  change := fun text o => (read text).map fun a => change a o

/-- An option that cannot stand beside those named. -/
def excluding (o : Opt O) (names : List String) : Opt O := { o with excluded := names }

/-- An option in messages. -/
def text (o : Opt O) : String :=
  match o.valueName with
  | none => "--" ++ o.name
  | some v => "--" ++ o.name ++ " <" ++ v ++ ">"

/-- Whether one of two options excludes the other. -/
def opposes (a b : Opt O) : Bool := a.excluded.contains b.name || b.excluded.contains a.name

end Opt

/-- What an argument looks like. -/
inductive Word where
  | long (name : String) (value : Option String)
  | short (letter : Char)
  | plain
  deriving DecidableEq, Repr

/-- A single dash is an ordinary value. -/
def Word.of (arg : String) : Word :=
  match arg.toList with
  | '-' :: '-' :: rest =>
    match Text.cutFirst? '=' rest with
    | some (name, value) => .long (String.ofList name) (some (String.ofList value))
    | none => .long (String.ofList rest) none
  | '-' :: letter :: _ => .short letter
  | _ => .plain

/-- An option that has begun but is not yet read. -/
inductive Begun (O : Type) where
  | nothing
  | unfilled (o : Opt O)
  | filled (o : Opt O) (value : String)

/-- The options so far, those that were given, the latest first, and the one that has begun. -/
structure Scan (O : Type) where
  options : O
  given : List (Opt O) := []
  begun : Begun O := .nothing

namespace Scan

variable {O : Type}

/-- Read the value of an option, which must not have been given before. -/
def apply (s : Scan O) (o : Opt O) (value : String) : Except UsageError (Scan O) :=
  if s.given.any (·.name = o.name) then .error (.conflict o.text)
  else
    match o.change value s.options with
    | .error .notAllowed => .error (.badValue o.text)
    | .error (.rejected reason) => .error (.rejectedValue o.text reason)
    | .ok options => .ok { options := options, given := o :: s.given }

/-- Read the option that has begun. -/
def settle (s : Scan O) : Except UsageError (Scan O) :=
  match s.begun with
  | .nothing => .ok s
  | .unfilled o => .error (.badValue o.text)
  | .filled o value => s.apply o value

/-- Take a known option in. -/
def take (s : Scan O) (o : Opt O) (value : Option String) : Except UsageError (Scan O) :=
  match o.valueName, value with
  | none, some _ => .error (.valueForFlag o.text)
  | none, none => do (← s.settle).apply o ""
  | some _, some v => do (← s.settle).apply o v
  | some _, none => do return { ← s.settle with begun := .unfilled o }

/-- Take an argument that is no option in. -/
def fill (s : Scan O) (arg : String) : Except UsageError (Scan O) :=
  match s.begun with
  | .unfilled o => .ok { s with begun := .filled o arg }
  | _ => .error (.unknown arg)

/-- The option given first of those that exclude another one given. -/
def opposed? (s : Scan O) : Option (Opt O) :=
  s.given.reverse.find? fun o => s.given.any o.opposes

theorem opposed?_eq_none_iff (s : Scan O) :
    s.opposed? = none ↔ ∀ a ∈ s.given, ∀ b ∈ s.given, a.opposes b = false := by
  simp [opposed?]

/-- The options once the arguments have ended. -/
def finish (s : Scan O) : Except UsageError O := do
  let s ← s.settle
  match s.opposed? with
  | some o => .error (.conflict o.text)
  | none => .ok s.options

/-- Read arguments from the left; nothing is the result when help is asked for. After `--` no
argument may follow. -/
def run (opts : List (Opt O)) : List String → Scan O → Except UsageError (Option O)
  | [], s => s.finish.map some
  | arg :: rest, s =>
    if arg = "--" then
      match rest with
      | [] => s.finish.map some
      | extra :: _ => .error (.unknown extra)
    else
      match Word.of arg with
      | .long "help" none => s.settle.map fun _ => none
      | .long "help" (some _) => .error (.valueForFlag "--help")
      | .long name value =>
        match opts.find? (·.name = name) with
        | none => .error (.unknown ("--" ++ name))
        | some o =>
          match s.take o value with
          | .error e => .error e
          | .ok s => run opts rest s
      | .short 'h' => s.settle.map fun _ => none
      | .short letter => .error (.unknown ("-" ++ letter.toString))
      | .plain =>
        match s.fill arg with
        | .error e => .error e
        | .ok s => run opts rest s

end Scan
end PairDatasets
