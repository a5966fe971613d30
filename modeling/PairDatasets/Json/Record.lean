import PairDatasets.Json.Basic

/-!
Typed values from JSON. A record is an object with named fields or an array of its fields in order;
unknown fields are passed over, a known field may stand once. A variant is its name alone or an
object with its name as the only key.
-/
namespace PairDatasets
namespace Json

/-- The known fields of a record, in the order of `names`. An array may leave out fields at its end
only where `short` allows it. -/
def record? (names : List String) (short : Bool) : Json → Option (List (Option Json))
  | .object fields =>
    if fields.any fun (k, _) => k.isNone then none
    else names.mapM fun name =>
      match fields.filter fun (k, _) => k = some name with
      | [] => some none
      | [(_, j)] => some (some j)
      | _ => none
  | .array items =>
    if items.length = names.length ∨ (short ∧ items.length < names.length) then
      some (items.map some ++ List.replicate (names.length - items.length) none)
    else none
  | _ => none

/-- The name of a variant and its content, if it has one. -/
def variant? : Json → Option (String × Option Json)
  | .string (some s) => some (s, none)
  | .object [(some k, j)] => some (k, some j)
  | _ => none

/-- A variant without content: nothing, or `null`. -/
def isBare : Option Json → Bool
  | none => true
  | some .null => true
  | some _ => false

def nat64? : Json → Option Nat
  | .number l => l.nat64?
  | _ => none

def double? : Json → Option Float
  | .number l => l.double?
  | _ => none

def stringText? : Json → Option String
  | .string s => s
  | _ => none

def bool? : Json → Option Bool
  | .bool b => some b
  | _ => none

/-- An array all of whose items are read by `read`. -/
def list? {α : Type _} (read : Json → Option α) : Json → Option (List α)
  | .array items => items.mapM read
  | _ => none

/-- A value that may be `null`. -/
def nullable? {α : Type _} (read : Json → Option α) : Json → Option (Option α)
  | .null => some none
  | j => (read j).map some

/-- A field that must be there. -/
def required? {α : Type _} (read : Json → Option α) : Option Json → Option α
  | none => none
  | some j => read j

/-- A field that has a default. -/
def withDefault? {α : Type _} (read : Json → Option α) (default : α) : Option Json → Option α
  | none => some default
  | some j => read j

end Json
end PairDatasets
