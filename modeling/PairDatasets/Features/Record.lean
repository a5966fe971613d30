import PairDatasets.Corpus.Basic
import PairDatasets.Features.Encoding

/-!
Pairs encoded one at a time: both sides are encoded alone and put side by side.
-/
namespace PairDatasets

/-- The solutions of a pair. Both must exist and keep to the vocabulary. -/
def Corpus.sides (c : Corpus) (p : Pair) : Except DatasetError (Solution × Solution) :=
  match c.solution? p.problem1 p.solution1, c.solution? p.problem2 p.solution2 with
  | some left, some right => do
    checkVocabulary c.vocabulary left.tokens
    checkVocabulary c.vocabulary right.tokens
    .ok (left, right)
  | _, _ => .error (.sampling (.missingSolution p))

theorem Corpus.sides_eq_ok {c : Corpus} {p : Pair} {left right : Solution} :
    c.sides p = .ok (left, right) ↔
      c.solution? p.problem1 p.solution1 = some left ∧
      c.solution? p.problem2 p.solution2 = some right ∧
      (∀ t ∈ left.tokens, t.toNat < c.vocabulary) ∧
      ∀ t ∈ right.tokens, t.toNat < c.vocabulary := by
  unfold sides
  constructor
  · intro h
    split at h
    · rename_i hleft hright
      obtain ⟨_, hcheck, h⟩ := bind_eq_ok.mp h
      obtain ⟨_, hcheck', h⟩ := bind_eq_ok.mp h
      cases h
      exact ⟨hleft, hright, checkVocabulary_eq_ok.mp hcheck, checkVocabulary_eq_ok.mp hcheck'⟩
    · cases h
  · rintro ⟨hleft, hright, htokens, htokens'⟩
    rw [hleft, hright]
    dsimp only
    rw [checkVocabulary_eq_ok.mpr htokens, checkVocabulary_eq_ok.mpr htokens']
    rfl

/-- One encoded pair. -/
inductive PairRecord where
  /-- The left bag, then the right one. -/
  | bag (cells : List Float32)
  | sequences (left right : List Int32)
  /-- In every step the left row, then the right one. -/
  | oneHot (rows : List (List Float32))
  deriving DecidableEq

/-- Put two encoded sides together, the left one first. -/
def PairRecord.join? : Encoded → Encoded → Option PairRecord
  | .bag left, .bag right => some (.bag (left ++ right))
  | .sequence left, .sequence right => some (.sequences left right)
  | .oneHot left, .oneHot right => some (.oneHot (List.zipWith (· ++ ·) left right))
  | _, _ => none

namespace Corpus

/-- Encode the sides of a pair one after the other; a length that is not given is that of the
longest solution. -/
def record (c : Corpus) (encoding : Encoding) (p : Pair) : Except DatasetError PairRecord := do
  let (left, right) ← c.sides p
  let encodeSide (s : Solution) := encode c.vocabulary (encoding.resolve c.longest) s.tokens
  let left ← encodeSide left
  let right ← encodeSide right
  match PairRecord.join? left right with
  | some r => .ok r
  | none => .error (.sampling .mixedEncodings)

/-- Every pair with its label, or why it cannot be encoded. -/
def records (c : Corpus) (encoding : Encoding) (mode : LabelMode) (pairs : List Pair) :
    List (Except DatasetError (PairRecord × Int)) :=
  pairs.map fun p => (c.record encoding p).map fun r => (r, p.label mode)

@[simp] theorem length_records (c : Corpus) (encoding : Encoding) (mode : LabelMode)
    (pairs : List Pair) : (c.records encoding mode pairs).length = pairs.length := by
  simp [records]

end Corpus
end PairDatasets
