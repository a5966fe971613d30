import Mathlib.Algebra.Order.Ring.Int
import Mathlib.Data.List.Forall2
import Mathlib.Tactic.Common
import PairDatasets.Features.Encoding
import PairDatasets.Proofs.Order.Mapping

/-! What padded rows of token ids stand for. An id is one more than its token as a signed number of 32 bits,
so the tokens can be read back as long as their successors are such numbers. The largest token is told
from padding by nothing. -/
namespace PairDatasets
namespace TokenRow
variable {vocabulary length : ℕ} {tokens : List UInt32} {row : List Int32} {t : UInt32}

/-- The tokens that a row stands for: the ids before the first zero, moved back by one. -/
def decode (row : List Int32) : List ℤ := (row.takeWhile (· ≠ 0)).map fun id => id.toInt - 1

/-- A row of a given length that holds the first tokens, each moved on by one, and behind them zeros, so
that they can be read back. -/
structure Pads (length : ℕ) (tokens : List UInt32) (row : List Int32) : Prop where
  length_eq : row.length = length
  entry : ∀ (i : ℕ) (t : UInt32), i < length → tokens[i]? = some t →
    ∃ id : Int32, row[i]? = some id ∧ id.toInt = t.toNat + 1
  padding : ∀ i : ℕ, tokens.length ≤ i → i < length → row[i]? = some 0
  decoded : decode row = (tokens.take length).map fun t => (t.toNat : ℤ)

/-- The tokens are encoded as a row that holds them. -/
def Decodable (vocabulary length : ℕ) (tokens : List UInt32) : Prop :=
  ∃ row, encode vocabulary (.sequence (some length)) tokens = .ok (.sequence row) ∧
    Pads length tokens row

/-- A token with a successor among the signed numbers. -/
def Shiftable (t : UInt32) : Prop := t.toNat < 2 ^ 31 - 1

instance (t : UInt32) : Decidable (Shiftable t) := inferInstanceAs (Decidable (_ < _))

lemma Shiftable.ne (ht : Shiftable t) : t ≠ 0x7FFFFFFF := by
  rintro rfl
  exact absurd ht (by decide)

lemma shift_eq_ok {id : Int32} : shift t = .ok id ↔ t ≠ 0x7FFFFFFF ∧ (t + 1).toInt32 = id := by
  unfold shift
  split_ifs with heq <;> simp [heq]

lemma toInt_of_shiftable (ht : Shiftable t) : (t + 1).toInt32.toInt = t.toNat + 1 := by
  unfold Shiftable at ht
  have hnat : (t + 1).toNat = t.toNat + 1 := by
    rw [UInt32.toNat_add, UInt32.toNat_one, Nat.mod_eq_of_lt (by omega)]
  have hint : (t + 1).toBitVec.toInt = ((t + 1).toNat : ℤ) := by
    refine BitVec.toInt_eq_toNat_of_lt ?_
    rw [UInt32.toNat_toBitVec, hnat]
    omega
  calc (t + 1).toInt32.toInt = (t + 1).toBitVec.toInt := rfl
    _ = ((t + 1).toNat : ℤ) := hint
    _ = t.toNat + 1 := by rw [hnat, Nat.cast_succ]

lemma ne_zero_of_shiftable (ht : Shiftable t) : (t + 1).toInt32 ≠ 0 := by
  intro hzero
  have hint := toInt_of_shiftable ht
  rw [hzero, Int32.toInt_zero] at hint
  omega

/-- The row of tokens that can all be moved on. -/
def shifted (length : ℕ) (tokens : List UInt32) : List Int32 :=
  ((tokens.take length).map fun t => (t + 1).toInt32) ++
    List.replicate (length - (tokens.take length).length) 0

lemma cells_eq_ok : cells length tokens = .ok row ↔
    (∀ t ∈ tokens.take length, t ≠ 0x7FFFFFFF) ∧ shifted length tokens = row := by
  have hids (ids : List Int32) : List.Forall₂ (fun t => Eq (t + 1).toInt32) (tokens.take length) ids ↔
      (tokens.take length).map (fun t => (t + 1).toInt32) = ids := by
    rw [← List.forall₂_eq_eq_eq, List.forall₂_map_left_iff]
  unfold cells shifted
  simp only [bind_eq_ok, mapM_eq_ok, shift_eq_ok, List.forall₂_and_left, Except.ok.injEq, hids]
  constructor
  · rintro ⟨_, ⟨hne, rfl⟩, hrow⟩
    rw [List.length_map] at hrow
    exact ⟨hne, hrow⟩
  · rintro ⟨hne, hrow⟩
    refine ⟨_, ⟨hne, rfl⟩, ?_⟩
    rw [List.length_map]
    exact hrow

/-- Reading stops at the padding, since no token stands for a zero. -/
lemma decode_shifted (h : ∀ t ∈ tokens.take length, Shiftable t) :
    decode (shifted length tokens) = (tokens.take length).map fun t => (t.toNat : ℤ) := by
  have hids : ∀ id ∈ (tokens.take length).map fun t => (t + 1).toInt32,
      decide (id ≠ 0) = true := by
    rw [List.forall_mem_map]
    intro t ht
    exact decide_eq_true (ne_zero_of_shiftable (h t ht))
  have hzeros (n : ℕ) : (List.replicate n (0 : Int32)).takeWhile (· ≠ 0) = [] := by
    cases n <;> simp [List.replicate_succ]
  rw [decode, shifted, List.takeWhile_append_of_pos hids, hzeros, List.append_nil, List.map_map]
  refine List.map_congr_left fun t ht => ?_
  rw [Function.comp_apply, toInt_of_shiftable (h t ht), Int.add_sub_cancel]

theorem pads_shifted (h : ∀ t ∈ tokens.take length, Shiftable t) :
    Pads length tokens (shifted length tokens) where
  length_eq := by simp [shifted]
  entry := by
    intro i t hi ht
    have hget : (tokens.take length)[i]? = some t := by rw [List.getElem?_take_of_lt hi, ht]
    refine ⟨(t + 1).toInt32, ?_, toInt_of_shiftable (h t (List.mem_of_getElem? hget))⟩
    rw [shifted, List.getElem?_append_left, List.getElem?_map, hget, Option.map_some]
    rw [List.length_map]
    exact (List.getElem?_eq_some_iff.mp hget).1
  padding := by
    intro i hlen hi
    have htake : (tokens.take length).length = tokens.length := by
      rw [List.length_take]
      omega
    rw [shifted, List.getElem?_append_right (by rwa [List.length_map, htake]),
      List.getElem?_replicate_of_lt]
    rw [List.length_map, htake]
    omega
  decoded := decode_shifted h

lemma encode_sequence_eq_ok : encode vocabulary (.sequence (some length)) tokens = .ok (.sequence row) ↔
    (∀ t ∈ tokens, t.toNat < vocabulary) ∧ Memory.holdsArray [length] = true ∧
      (∀ t ∈ tokens.take length, t ≠ 0x7FFFFFFF) ∧ shifted length tokens = row := by
  have hmap : (cells length tokens).map Encoded.sequence = .ok (.sequence row) ↔
      cells length tokens = .ok row := by
    cases cells length tokens <;> simp [Except.map]
  rw [encode, checked_eq_ok]
  simp only [Encoding.shape, Option.getD_some, hmap, cells_eq_ok]

/-- Tokens of the vocabulary are encoded if and only if there is memory for the row and the largest
signed number is not among those in it. -/
lemma exists_encode_sequence (h : ∀ t ∈ tokens, t.toNat < vocabulary) :
    (∃ row, encode vocabulary (.sequence (some length)) tokens = .ok (.sequence row)) ↔
      Memory.holdsArray [length] = true ∧ ∀ t ∈ tokens.take length, t ≠ 0x7FFFFFFF := by
  simp only [encode_sequence_eq_ok, exists_and_left, exists_eq', and_true]
  exact and_iff_right h

/-- A row that holds its tokens cannot hold the successor of a token without one. -/
lemma Pads.shiftable (h : Pads length tokens row) : ∀ t ∈ tokens.take length, Shiftable t := by
  intro t ht
  obtain ⟨i, hi, hget⟩ := List.mem_take_iff_getElem.mp ht
  obtain ⟨id, -, hid⟩ := h.entry i t (by omega) (by rw [← hget, List.getElem?_eq_getElem])
  have hlt := Int32.toInt_lt id
  unfold Shiftable
  omega

/-- Tokens of the vocabulary are encoded as a row that holds them if and only if there is memory for the
row and every token in it can be moved on. -/
theorem decodable_iff (h : ∀ t ∈ tokens, t.toNat < vocabulary) : Decodable vocabulary length tokens ↔
    Memory.holdsArray [length] = true ∧ ∀ t ∈ tokens.take length, Shiftable t := by
  constructor
  · rintro ⟨row, hrow, hpads⟩
    exact ⟨(encode_sequence_eq_ok.mp hrow).2.1, hpads.shiftable⟩
  · rintro ⟨hmemory, hshift⟩
    refine ⟨shifted length tokens, ?_, pads_shifted hshift⟩
    exact encode_sequence_eq_ok.mpr ⟨h, hmemory, fun t ht => (hshift t ht).ne, rfl⟩

lemma forall_shiftable_iff :
    (∀ t : UInt32, t.toNat < vocabulary → Shiftable t) ↔ vocabulary ≤ 2 ^ 31 - 1 := by
  unfold Shiftable
  constructor
  · intro h
    by_contra! hlarge
    exact absurd (h 0x7FFFFFFF hlarge) (by decide)
  · intro hvocabulary t ht
    exact ht.trans_le hvocabulary

/-- Tokens of the vocabulary are encoded if there is memory for the row and 2³¹ - 1 is not among the
tokens in it, which has no successor; and the row holds their successors and zeros, from which they can be
read back, if and only if all of them lie below that number. No tokens of the vocabulary fail but for
memory as long as it has fewer than 2³¹ tokens, and only then. -/
theorem encode_sequence_decodable (vocabulary : ℕ) :
    (∀ (length : ℕ) (tokens : List UInt32), (∀ t ∈ tokens, t.toNat < vocabulary) →
      ((∃ row, encode vocabulary (.sequence (some length)) tokens = .ok (.sequence row)) ↔
        Memory.holdsArray [length] = true ∧ ∀ t ∈ tokens.take length, t ≠ 0x7FFFFFFF) ∧
      (Decodable vocabulary length tokens ↔
        Memory.holdsArray [length] = true ∧ ∀ t ∈ tokens.take length, Shiftable t)) ∧
    ((∀ (length : ℕ) (tokens : List UInt32), (∀ t ∈ tokens, t.toNat < vocabulary) →
      Memory.holdsArray [length] = true → Decodable vocabulary length tokens) ↔
        vocabulary ≤ 2 ^ 31 - 1) := by
  refine ⟨fun length tokens h => ⟨exists_encode_sequence h, decodable_iff h⟩, ?_⟩
  rw [← forall_shiftable_iff]
  constructor
  · intro h t ht
    have hone : ∀ t' ∈ [t], t'.toNat < vocabulary := by simpa using ht
    exact ((decodable_iff hone).mp (h 1 [t] hone (by decide))).2 t (by simp)
  · intro h length tokens htokens hmemory
    refine (decodable_iff htokens).mpr ⟨hmemory, fun t ht => ?_⟩
    exact h t (htokens t (List.mem_of_mem_take ht))

theorem encode_sequence_decodable_cutAndPadded :
    (∀ t ∈ [(3 : UInt32), 0, 2], t.toNat < 4) ∧
      encode 4 (.sequence (some 2)) [3, 0, 2] = .ok (.sequence [4, 1]) ∧
      encode 4 (.sequence (some 5)) [3, 0, 2] = .ok (.sequence [4, 1, 3, 0, 0]) ∧
      Decodable 4 2 [3, 0, 2] ∧ Decodable 4 5 [3, 0, 2] := by
  have htokens : ∀ t ∈ [(3 : UInt32), 0, 2], t.toNat < 4 := by simp
  have hall := (encode_sequence_decodable 4).2.mpr (by decide)
  exact ⟨htokens, rfl, rfl, hall 2 _ htokens (by decide), hall 5 _ htokens (by decide)⟩

/-- The largest token is in the vocabulary and encoded as padding is, just as if it was not there; the
largest signed number is in the vocabulary and not encoded. -/
theorem encode_sequence_largest_as_padding :
    (∀ t ∈ [(0xFFFFFFFF : UInt32), 0x7FFFFFFF], t.toNat < 2 ^ 32) ∧
      encode (2 ^ 32) (.sequence (some 1)) [0xFFFFFFFF] = .ok (.sequence [0]) ∧
      encode (2 ^ 32) (.sequence (some 1)) [] = .ok (.sequence [0]) ∧
      encode (2 ^ 32) (.sequence (some 1)) [0x7FFFFFFF] = .error (.breakdown .tokenOverflow) ∧
      ¬Decodable (2 ^ 32) 1 [0xFFFFFFFF] ∧ ¬Decodable (2 ^ 32) 1 [0x7FFFFFFF] := by
  refine ⟨fun t _ => t.toNat_lt, rfl, rfl, rfl, ?_, ?_⟩
  · intro h
    exact absurd (((decodable_iff fun t _ => t.toNat_lt).mp h).2 0xFFFFFFFF (by simp)) (by decide)
  · intro h
    exact absurd (((decodable_iff fun t _ => t.toNat_lt).mp h).2 0x7FFFFFFF (by simp)) (by decide)

end TokenRow
end PairDatasets
