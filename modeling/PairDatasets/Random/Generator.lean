import PairDatasets.Plain

/-!
A 64-bit generator: the state moves on by a fixed odd step, the output is a scrambled copy of it.
A draw returns its value together with the generator to go on with, so equal states give equal
streams.
-/
namespace PairDatasets
open Plain

/-- A generator is its 64-bit state. -/
structure Generator where
  state : UInt64
  deriving DecidableEq, Repr, Inhabited

namespace Generator

/-- The distance between two states. It is odd, so the state meets every 64-bit value once before
it comes back. -/
def step : UInt64 := 0x9E3779B97F4A7C15

/-- Two rounds of shift, exclusive or and odd multiplication, and a last exclusive or. Each of them
can be undone, so no two states share an output. -/
def scramble (z : UInt64) : UInt64 :=
  let z := (z ^^^ (z >>> 30)) * 0xBF58476D1CE4E5B9
  let z := (z ^^^ (z >>> 27)) * 0x94D049BB133111EB
  z ^^^ (z >>> 31)

/-- The generator one step on. -/
def advance (g : Generator) : Generator := ⟨g.state + step⟩

/-- The next 64-bit word. -/
def word64 (g : Generator) : UInt64 × Generator := (scramble g.advance.state, g.advance)

/-- The low half of the next 64-bit word. -/
def word32 (g : Generator) : UInt32 × Generator := (g.word64.1.toUInt32, g.word64.2)

/-- The first `n` words and the generator after them. -/
def words : Nat → Generator → List UInt64 × Generator
  | 0, g => ([], g)
  | n + 1, g =>
    let (w, g) := g.word64
    let (ws, g) := words n g
    (w :: ws, g)

/-- The eight bytes of a word, lowest first. -/
def littleEndian (w : UInt64) : List UInt8 :=
  (List.range 8).map fun i => (w >>> (8 * i).toUInt64).toUInt8

/-- `n` bytes: whole words, lowest byte first, and the last word cut short. -/
def bytes (n : Nat) (g : Generator) : List UInt8 × Generator :=
  if n = 0 then ([], g)
  else
    let (w, g) := g.word64
    let (rest, g) := bytes (n - 8) g
    ((littleEndian w).take n ++ rest, g)
termination_by n

/-- After this many steps the generator is back where it began. -/
def period : Nat := 2 ^ (64 : Nat)

@[simp] theorem word64_snd (g : Generator) : g.word64.2 = g.advance := rfl

@[simp] theorem bytes_zero (g : Generator) : bytes 0 g = ([], g) := by simp [bytes]

@[simp] theorem length_littleEndian (w : UInt64) : (littleEndian w).length = 8 := by
  simp [littleEndian]

@[simp] theorem length_bytes (n : Nat) (g : Generator) : (bytes n g).1.length = n := by
  fun_induction bytes n g with
  | case1 => rfl
  | case2 n g _ w g' _ rest g'' e ih =>
    rw [e] at ih
    simp only [List.length_append, List.length_take, length_littleEndian] at ih ⊢
    omega

@[simp] theorem length_words (n : Nat) (g : Generator) : (words n g).1.length = n := by
  induction n generalizing g with
  | zero => rfl
  | succ n ih => simp only [words, List.length_cons, ih]

example : (word64 ⟨0⟩).1 = 16294208416658607535 := by decide

end Generator
end PairDatasets
