import PairDatasets.Proofs.Decimal.Whole
import PairDatasets.Proofs.Text.Pieces
import PairDatasets.Sampling.Capacity

/-! Numbers with their thousands separated. The commas go in from the left, at places counted from the right; the
groups between them are told from the left again, the first of which has what the full ones leave. -/
namespace PairDatasets
open Text
variable {digits text first : List Char} {rest : List (List Char)} {n : ℕ}

/-- Digits in groups of three, of which only the first may be shorter. -/
structure Groups (digits first : List Char) (rest : List (List Char)) : Prop where
  digits : first ++ rest.flatten = digits
  first : 1 ≤ first.length ∧ first.length ≤ 3
  full : ∀ group ∈ rest, group.length = 3

/-- A text shows a number with its thousands separated: the digits without the commas, no comma at either end,
up to three digits before the first comma and three after every one. -/
structure Grouped (n : ℕ) (text : String) : Prop where
  digits : text.toList.filter (· ≠ ',') = (toString n).toList
  head : text.toList.head? ≠ some ','
  last : text.toList.getLast? ≠ some ','
  groups : ∃ first rest, pieces ',' text.toList = first :: rest ∧ (1 ≤ first.length ∧ first.length ≤ 3) ∧
    ∀ group ∈ rest, group.length = 3

lemma Groups.length (h : Groups digits first rest) : digits.length = first.length + 3 * rest.length := by
  have hlengths : rest.map List.length = List.replicate rest.length 3 := List.map_eq_replicate_iff.mpr h.full
  rw [← h.digits, List.length_append, List.length_flatten, hlengths, List.sum_replicate_nat, Nat.mul_comm]

/-- There is one way to group digits. -/
theorem Groups.unique {first' : List Char} {rest' : List (List Char)} (h : Groups digits first rest)
    (h' : Groups digits first' rest') : first :: rest = first' :: rest' := by
  have hlength : first.length = first'.length ∧ rest.length = rest'.length := by
    have hsum := h.length
    have hsum' := h'.length
    have hfirst := h.first
    have hfirst' := h'.first
    omega
  rw [List.eq_iff_flatten_eq]
  refine ⟨h.digits.trans h'.digits.symm, ?_⟩
  rw [List.map_cons, List.map_cons, hlength.1, List.map_eq_replicate_iff.mpr h.full,
    List.map_eq_replicate_iff.mpr h'.full, hlength.2]

/-- A digit goes in front of the first group unless that one is full. -/
theorem groups_groupDigits (hcomma : ',' ∉ digits) (hne : digits ≠ []) :
    ∃ first rest, pieces ',' (groupDigits digits) = first :: rest ∧ Groups digits first rest := by
  induction digits with
  | nil => exact absurd rfl hne
  | cons d digits ih =>
    rw [List.mem_cons, not_or] at hcomma
    by_cases hnil : digits = []
    · subst hnil
      exact ⟨[d], [], by simp [groupDigits, pieces, Ne.symm hcomma.1], rfl, by simp, nofun⟩
    · obtain ⟨first, rest, hpieces, hgroups⟩ := ih hcomma.2 hnil
      have hlength := hgroups.length
      have hfirst := hgroups.first
      by_cases hfull : digits.length % 3 = 0
      · refine ⟨[d], first :: rest, ?_, ?_, by simp, ?_⟩
        · rw [groupDigits, if_pos ⟨hfull, hnil⟩]
          simp [pieces, hpieces, Ne.symm hcomma.1]
        · simp [hgroups.digits]
        · exact List.forall_mem_cons.mpr ⟨by omega, hgroups.full⟩
      · refine ⟨d :: first, rest, ?_, ?_, ?_, hgroups.full⟩
        · rw [groupDigits, if_neg fun h => hfull h.1]
          simp [pieces, hpieces, Ne.symm hcomma.1]
        · simp [hgroups.digits]
        · rw [List.length_cons]
          omega

/-- No group is empty, so no comma stands at an end. -/
lemma Groups.head?_ne (h : Groups digits first rest) (hpieces : pieces ',' text = first :: rest) :
    text.head? ≠ some ',' := by
  intro hhead
  obtain ⟨tail, rfl⟩ := List.head?_eq_some_iff.mp hhead
  rw [pieces, if_pos rfl] at hpieces
  have hfirst := h.first.1
  rw [← (List.cons.inj hpieces).1] at hfirst
  exact absurd hfirst (by decide)

lemma Groups.getLast?_ne (h : Groups digits first rest) (hpieces : pieces ',' text = first :: rest) :
    text.getLast? ≠ some ',' := by
  intro hlast
  obtain ⟨front, rfl⟩ := List.getLast?_eq_some_iff.mp hlast
  have hempty : [] ∈ first :: rest := by
    rw [← hpieces, pieces_append_cons]
    exact List.mem_append_right _ (.head _)
  rcases List.mem_cons.mp hempty with rfl | hmem
  · exact absurd h.first.1 (by decide)
  · exact absurd (h.full _ hmem) (by decide)

lemma comma_not_mem_toDigits (n : ℕ) : ',' ∉ Nat.toDigits 10 n :=
  fun hmem => absurd (Nat.isDigit_of_mem_toDigits (by decide) (by decide) hmem) (by decide)

lemma grouped_withCommas (n : ℕ) : Grouped n (withCommas n) := by
  obtain ⟨first, rest, hpieces, hgroups⟩ := groups_groupDigits (comma_not_mem_toDigits n) Nat.toDigits_ne_nil
  have htext : (withCommas n).toList = groupDigits (Nat.toDigits 10 n) := String.toList_ofList
  rw [← htext] at hpieces
  refine ⟨?_, hgroups.head?_ne hpieces, hgroups.getLast?_ne hpieces, first, rest, hpieces, hgroups.first,
    hgroups.full⟩
  rw [← flatten_pieces, hpieces, List.flatten_cons, hgroups.digits]
  exact Nat.toList_repr.symm

lemma Grouped.unique {shown shown' : String} (h : Grouped n shown) (h' : Grouped n shown') : shown = shown' := by
  obtain ⟨first, rest, hpieces, hfirst, hfull⟩ := h.groups
  obtain ⟨first', rest', hpieces', hfirst', hfull'⟩ := h'.groups
  have hdigits : first ++ rest.flatten = (toString n).toList := by
    rw [← h.digits, ← flatten_pieces, hpieces, List.flatten_cons]
  have hdigits' : first' ++ rest'.flatten = (toString n).toList := by
    rw [← h'.digits, ← flatten_pieces, hpieces', List.flatten_cons]
  have heq : first :: rest = first' :: rest' :=
    Groups.unique ⟨hdigits, hfirst, hfull⟩ ⟨hdigits', hfirst', hfull'⟩
  exact String.toList_injective (pieces_injective ',' (hpieces.trans (heq.trans hpieces'.symm)))

/-- A grouped text shows one number. -/
lemma Grouped.number_eq {m : ℕ} {shown : String} (h : Grouped m shown) (h' : Grouped n shown) : m = n := by
  have hdigits : Nat.toDigits 10 m = Nat.toDigits 10 n := by
    rw [← Nat.toList_repr, ← Nat.toList_repr]
    exact h.digits.symm.trans h'.digits
  exact (hdigits ▸ Decimal.spells_toDigits m).unique (Decimal.spells_toDigits n)

/-- With commas a number is written as the one text that is grouped, and no two numbers alike. -/
theorem withCommas_grouped :
    (∀ n text, withCommas n = text ↔ Grouped n text) ∧ Function.Injective withCommas := by
  constructor
  · intro n text
    constructor
    · rintro rfl
      exact grouped_withCommas n
    · exact (grouped_withCommas n).unique
  · intro m n heq
    have hm := grouped_withCommas m
    rw [heq] at hm
    exact hm.number_eq (grouped_withCommas n)

end PairDatasets
