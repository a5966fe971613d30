import Mathlib.Data.Nat.Digits.Defs
import PairDatasets.Proofs.Random.Period

/-! Bytes from the generator. They are the words written one after the other, lowest byte first, and cut where
the request ends, so requests that end between two words go on with each other. -/
namespace PairDatasets
namespace Generator

/-- The lowest digits of a number in a base spell its remainder. -/
lemma ofDigits_range_map (b : ℕ) (x k : ℕ) :
    Nat.ofDigits b ((List.range k).map fun i => x / b ^ i % b) = x % b ^ k := by
  induction k generalizing x with
  | zero => rw [pow_zero, Nat.mod_one]; rfl
  | succ k ih =>
    have hshift (i : ℕ) : x / b ^ (i + 1) % b = x / b / b ^ i % b := by
      rw [Nat.div_div_eq_div_mul, pow_succ']
    rw [List.range_succ_eq_map, List.map_cons, List.map_map, Nat.ofDigits_cons, pow_zero, Nat.div_one]
    simp only [Function.comp_def, Nat.succ_eq_add_one, hshift, ih]
    rw [pow_succ', Nat.mod_mul]

lemma toNat_littleEndian (w : UInt64) :
    (littleEndian w).map UInt8.toNat = (List.range 8).map fun i => w.toNat / 256 ^ i % 256 := by
  rw [littleEndian, List.map_map]
  refine List.map_congr_left fun i hi => ?_
  have hamount : 8 * i % 64 = 8 * i := by
    rw [List.mem_range] at hi
    omega
  have hpow : 2 ^ (8 * i) = 256 ^ i := pow_mul 2 8 i
  simp only [Function.comp_apply, UInt64.toNat_toUInt8, UInt64.toNat_shiftRight, Nat.toUInt64_eq,
    UInt64.toNat_ofNat', Nat.shiftRight_eq_div_pow]
  rw [Nat.mod_mod_of_dvd _ (by decide), hamount, hpow]

/-- The bytes of a word are its digits, lowest first. -/
theorem ofDigits_littleEndian (w : UInt64) :
    Nat.ofDigits 256 ((littleEndian w).map UInt8.toNat) = w.toNat := by
  rw [toNat_littleEndian, ofDigits_range_map]
  exact Nat.mod_eq_of_lt w.toNat_lt

lemma length_flatMap_littleEndian (ws : List UInt64) :
    (ws.flatMap littleEndian).length = 8 * ws.length := by
  induction ws with
  | nil => rfl
  | cons w ws ih =>
    rw [List.flatMap_cons, List.length_append, ih, length_littleEndian, List.length_cons]
    omega

/-- No word is drawn that gives no byte, and the bytes of the last one are cut. -/
theorem bytes_eq (n : ℕ) (g : Generator) :
    bytes n g = (((words ((n + 7) / 8) g).1.flatMap littleEndian).take n,
      (words ((n + 7) / 8) g).2) := by
  fun_induction bytes n g with
  | case1 g => rfl
  | case2 n g hn w g' hword rest g'' hrest ih =>
    have hcount : (n + 7) / 8 = (n - 8 + 7) / 8 + 1 := by omega
    rw [hrest] at ih
    obtain ⟨rfl, rfl⟩ := Prod.mk.inj ih
    rw [hcount, words, hword]
    simp only [List.flatMap_cons, List.take_append, length_littleEndian]

/-- Whole words first, then any bytes: together they are the bytes of one request. -/
lemma bytes_add (k b : ℕ) (g : Generator) :
    bytes (8 * k + b) g = ((bytes (8 * k) g).1 ++ (bytes b (bytes (8 * k) g).2).1,
      (bytes b (bytes (8 * k) g).2).2) := by
  have hwhole : (8 * k + 7) / 8 = k := by omega
  have hcount : (8 * k + b + 7) / 8 = k + (b + 7) / 8 := by omega
  have hlength : ((words k g).1.flatMap littleEndian).length = 8 * k := by
    rw [length_flatMap_littleEndian, length_words]
  rw [bytes_eq (8 * k + b), bytes_eq (8 * k), hwhole, hcount, words_add, bytes_eq b]
  simp only [List.flatMap_append]
  rw [← hlength, List.take_length_add_append, List.take_length]

end Generator

open Generator

/-- Any number of bytes is a prefix of the words written one after the other, each with its lowest byte first,
and takes no more words than it needs. A request for whole words and one for any bytes after it bring together
what one request for both brings. -/
theorem bytes_of_words (g : Generator) :
    (∀ w, (littleEndian w).length = 8 ∧
      Nat.ofDigits 256 ((littleEndian w).map UInt8.toNat) = w.toNat) ∧
    (∀ n, bytes n g = (((words ((n + 7) / 8) g).1.flatMap littleEndian).take n,
      (words ((n + 7) / 8) g).2)) ∧
    ∀ k b, bytes (8 * k + b) g = ((bytes (8 * k) g).1 ++ (bytes b (bytes (8 * k) g).2).1,
      (bytes b (bytes (8 * k) g).2).2) :=
  ⟨fun w => ⟨length_littleEndian w, ofDigits_littleEndian w⟩, fun n => bytes_eq n g,
    fun k b => bytes_add k b g⟩

end PairDatasets
