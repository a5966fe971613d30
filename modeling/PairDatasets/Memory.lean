import PairDatasets.Error
import PairDatasets.Plain

/-!
How much can be kept together: blocks of memory have fewer than 2⁶³ bytes, and numbers in them have
64 bits. What asks for more breaks off before it begins.
-/
namespace PairDatasets
open Plain
namespace Memory

/-- No block has as many bytes, and no array as many cells. -/
def limit : Nat := 2 ^ (63 : Nat)

/-- Whether `count` items of `width` bytes fit into one block. -/
def holds (width count : Nat) : Bool := width * count < limit

def product (extents : List Nat) : Nat := extents.foldl (· * ·) 1

/-- Whether an array of 4-byte cells fits. An extent of 0 leaves it without cells; the others must
be countable together even then. -/
def holdsArray (shape : List Nat) : Bool :=
  product (shape.filter (· ≠ 0)) < limit && holds 4 (product shape)

/-- Break off unless something fits. -/
def require (fits : Bool) : Except DatasetError Unit :=
  if fits then .ok () else .error (.breakdown .outOfMemory)

/-- Break off unless a number has 64 bits. -/
def requireWord (n : Nat) : Except DatasetError Unit :=
  if n < 2 ^ (64 : Nat) then .ok () else .error (.breakdown .wordOverflow)

theorem holds_iff {width count : Nat} : holds width count = true ↔ width * count < 2 ^ (63 : Nat) :=
  decide_eq_true_iff

@[simp] theorem require_eq_ok {fits : Bool} : require fits = .ok () ↔ fits = true := by
  cases fits <;> simp [require]

@[simp] theorem requireWord_eq_ok {n : Nat} : requireWord n = .ok () ↔ n < 2 ^ (64 : Nat) := by
  unfold requireWord; split <;> simp_all

example : holdsArray [0, 2 ^ 63 - 1] = true ∧ holdsArray [0, 2 ^ 63] = false := by decide
example : holdsArray [2 ^ 61 - 1] = true ∧ holdsArray [2 ^ 61] = false := by decide

end Memory
end PairDatasets
