/-!
Columns of a fixed width, counted in characters. A cell that is too long is not cut.
-/
namespace PairDatasets.Text

/-- `n` copies of a character. -/
def fill (n : Nat) (c : Char) : String := String.ofList (List.replicate n c)

/-- Numbers stand at the right of their column. -/
def right (width : Nat) (s : String) : String := fill (width - s.length) ' ' ++ s

/-- Names stand at the left of their column. -/
def left (width : Nat) (s : String) : String := s ++ fill (width - s.length) ' '

/-- A natural number at the right of its column. -/
def rightNat (width n : Nat) : String := right width (toString n)

end PairDatasets.Text
