import PairDatasets.Proofs.Corpus.Lines

/-! Numbers and tokens. A field may spell any number of 64 bits that lies in the vocabulary, but a token has 32 bits,
so it is the remainder of its number. Up to a vocabulary of 2³² this is the number itself, and beyond it lines with
different numbers are read as the same tokens. -/
namespace PairDatasets
open Text Decimal
namespace Solution
variable {vocabulary : ℕ} {line : String} {text name : List Char} {numbers ns : List ℕ} {s : Solution}

/-- The numbers that the fields of a line spell, in order. -/
def Numbers (text : List Char) (numbers : List ℕ) : Prop :=
  ∃ name fields, Parts text name fields ∧ List.Forall₂ Spells fields numbers

lemma Parts.unique {name' : List Char} {fields fields' : List (List Char)} (h : Parts text name fields)
    (h' : Parts text name' fields') : name = name' ∧ fields = fields' := by
  obtain ⟨front, back, hcut, rfl, hfields⟩ := parts_iff.mp h
  obtain ⟨front', back', hcut', rfl, hfields'⟩ := parts_iff.mp h'
  rw [hcut] at hcut'
  cases hcut'
  exact ⟨rfl, (fields_iff.mp hfields).trans (fields_iff.mp hfields').symm⟩

lemma Numbers.unique (h : Numbers text numbers) (h' : Numbers text ns) : numbers = ns := by
  obtain ⟨name, fields, hparts, hspells⟩ := h
  obtain ⟨name', fields', hparts', hspells'⟩ := h'
  obtain ⟨-, rfl⟩ := hparts.unique hparts'
  have hunique : Relator.RightUnique Spells := fun _ _ _ => Spells.unique
  exact List.right_unique_forall₂' hunique hspells hspells'

lemma numbers_of_shows (h : Shows text name numbers) (htrimmed : Trimmed name) (hcolon : ':' ∉ name) :
    Numbers text numbers := by
  refine ⟨name, _, h.parts htrimmed hcolon, ?_⟩
  rw [List.forall₂_map_left_iff, List.forall₂_same]
  exact fun n _ => spells_toDigits n

/-- Accepted fields spell numbers of 64 bits in the vocabulary, and the tokens are their low halves. -/
lemma forall₂_accepts_iff {fields : List (List Char)} {tokens : List UInt32} :
    List.Forall₂ (Accepts vocabulary) fields tokens ↔ ∃ numbers, List.Forall₂ Spells fields numbers ∧
      (∀ n ∈ numbers, n < 2 ^ 64 ∧ n < vocabulary) ∧ tokens = numbers.map Nat.toUInt32 := by
  constructor
  · intro h
    induction h with
    | nil => exact ⟨[], .nil, nofun, rfl⟩
    | cons hfield _ ih =>
      obtain ⟨n, hspells, hn, hlt, rfl⟩ := hfield
      obtain ⟨numbers, hnumbers, hall, rfl⟩ := ih
      exact ⟨n :: numbers, .cons hspells hnumbers, List.forall_mem_cons.mpr ⟨⟨hn, hlt⟩, hall⟩, rfl⟩
  · rintro ⟨numbers, hspells, hall, rfl⟩
    induction hspells with
    | nil => exact .nil
    | cons hfield _ ih =>
      obtain ⟨⟨hn, hlt⟩, hall⟩ := List.forall_mem_cons.mp hall
      exact .cons ⟨_, hfield, hn, hlt, rfl⟩ (ih hall)

lemma toNat_toUInt32 (numbers : List ℕ) :
    (numbers.map Nat.toUInt32).map UInt32.toNat = numbers.map (· % 2 ^ 32) := by
  rw [List.map_map]
  exact List.map_congr_left fun n _ => UInt32.toNat_ofNat'

/-- The tokens of a line are the remainders of its numbers, which lie in the vocabulary. -/
lemma tokens_of_ofLine (h : ofLine vocabulary line = .ok s) : ∃ numbers, Numbers line.toList numbers ∧
    (∀ n ∈ numbers, n < vocabulary) ∧ s.tokens.map UInt32.toNat = numbers.map (· % 2 ^ 32) := by
  obtain ⟨fields, hparts, hfields⟩ := ofLine_eq_ok_iff.mp h
  obtain ⟨numbers, hspells, hall, htokens⟩ := forall₂_accepts_iff.mp hfields
  refine ⟨numbers, ⟨_, fields, hparts, hspells⟩, fun n hn => (hall n hn).2, ?_⟩
  rw [htokens, toNat_toUInt32]

lemma toNat_tokens_of_le (hsmall : vocabulary ≤ 2 ^ 32) (h : ofLine vocabulary line = .ok s)
    (hnumbers : Numbers line.toList numbers) : s.tokens.map UInt32.toNat = numbers := by
  obtain ⟨ns, hns, hlt, htokens⟩ := tokens_of_ofLine h
  rw [hnumbers.unique hns, htokens]
  calc ns.map (· % 2 ^ 32) = ns.map id :=
        List.map_congr_left fun n hn => Nat.mod_eq_of_lt ((hlt n hn).trans_le hsmall)
    _ = ns := List.map_id ns

lemma shows_singleton (name : List Char) (n : ℕ) : Shows (name ++ ':' :: Nat.toDigits 10 n) name [n] :=
  ⟨name, Nat.toDigits 10 n, [Nat.toDigits 10 n], rfl, ⟨[], [], nofun, nofun, by simp⟩,
    .cons ⟨[], [], nofun, nofun, by simp⟩ .nil, ⟨[], [], nofun, nofun, by simp⟩⟩

/-- Every number of the vocabulary stands in a line that is accepted. -/
lemma exists_ofLine {n : ℕ} (hn : n < 2 ^ 64) (hlt : n < vocabulary) :
    ∃ line s, ofLine vocabulary line = .ok s ∧ Numbers line.toList [n] ∧ s.tokens = [n.toUInt32] := by
  have htrimmed : Trimmed [] := ⟨nofun, nofun⟩
  have hparts := (shows_singleton [] n).parts htrimmed nofun
  refine ⟨String.ofList (':' :: Nat.toDigits 10 n), ⟨"", [n.toUInt32]⟩, ?_, ?_, rfl⟩
  · rw [ofLine_eq_ok_iff, String.toList_ofList]
    exact ⟨_, hparts, .cons ⟨n, spells_toDigits n, hn, hlt, rfl⟩ .nil⟩
  · rw [String.toList_ofList]
    exact numbers_of_shows (shows_singleton [] n) htrimmed nofun

/-- An accepted line spells one list of numbers, and its tokens are their remainders. That all tokens are their
numbers, and that lines with different numbers are never read as the same tokens, holds of a vocabulary if and only
if 32 bits can count it. -/
theorem ofLine_numbers (vocabulary : ℕ) :
    (∀ line s, ofLine vocabulary line = .ok s → ∃ numbers, (∀ ns, Numbers line.toList ns ↔ ns = numbers) ∧
      (∀ n ∈ numbers, n < vocabulary) ∧ s.tokens.map UInt32.toNat = numbers.map (· % 2 ^ 32)) ∧
    ((∀ line s numbers, ofLine vocabulary line = .ok s → Numbers line.toList numbers →
      s.tokens.map UInt32.toNat = numbers) ↔ vocabulary ≤ 2 ^ 32) ∧
    ((∀ line line' s s' ns ns', ofLine vocabulary line = .ok s → ofLine vocabulary line' = .ok s' →
      Numbers line.toList ns → Numbers line'.toList ns' → s.tokens = s'.tokens → ns = ns') ↔
        vocabulary ≤ 2 ^ 32) := by
  refine ⟨?_, ⟨?_, ?_⟩, ⟨?_, ?_⟩⟩
  · intro line s h
    obtain ⟨numbers, hnumbers, hlt, htokens⟩ := tokens_of_ofLine h
    refine ⟨numbers, fun ns => ⟨fun hns => hns.unique hnumbers, ?_⟩, hlt, htokens⟩
    rintro rfl
    exact hnumbers
  · intro hkeeps
    by_contra hlarge
    obtain ⟨line, s, h, hnumbers, htokens⟩ :=
      exists_ofLine (n := 2 ^ 32) (by decide) (Nat.lt_of_not_le hlarge)
    have hkept := hkeeps line s _ h hnumbers
    rw [htokens] at hkept
    exact absurd hkept (by decide)
  · intro hsmall line s numbers h hnumbers
    exact toNat_tokens_of_le hsmall h hnumbers
  · intro hdistinct
    by_contra hlarge
    obtain ⟨line, s, h, hnumbers, htokens⟩ :=
      exists_ofLine (n := 2 ^ 32) (by decide) (Nat.lt_of_not_le hlarge)
    obtain ⟨line', s', h', hnumbers', htokens'⟩ :=
      exists_ofLine (n := 0) (by decide) (Nat.zero_lt_of_lt (Nat.lt_of_not_le hlarge))
    have htruncated : s.tokens = s'.tokens := by
      rw [htokens, htokens']
      decide
    exact absurd (hdistinct line line' s s' _ _ h h' hnumbers hnumbers' htruncated) (by decide)
  · intro hsmall line line' s s' ns ns' h h' hns hns' htokens
    rw [← toNat_tokens_of_le hsmall h hns, ← toNat_tokens_of_le hsmall h' hns', htokens]

/-- In a vocabulary of 2³² every token is its number, the largest one too. -/
theorem ofLine_numbers_largest : ofLine (2 ^ 32) "s:+4294967295, 007" = .ok ⟨"s", [4294967295, 7]⟩ ∧
    ∃ numbers, (∀ ns, Numbers "s:+4294967295, 007".toList ns ↔ ns = numbers) ∧ numbers = [4294967295, 7] := by
  have hread : ofLine (2 ^ 32) "s:+4294967295, 007" = .ok ⟨"s", [4294967295, 7]⟩ := by decide
  obtain ⟨hnumbers, hkeeps, -⟩ := ofLine_numbers (2 ^ 32)
  obtain ⟨numbers, hunique, -, -⟩ := hnumbers _ _ hread
  exact ⟨hread, numbers, hunique, (hkeeps.mpr le_rfl _ _ _ hread ((hunique numbers).mpr rfl)).symm⟩

/-- In a vocabulary of 2³³ the number 2³² is read as the token 0, as is the number 0. -/
theorem ofLine_wideNumber_truncates :
    ofLine (2 ^ 33) "s:4294967296" = .ok ⟨"s", [0]⟩ ∧ Numbers "s:4294967296".toList [4294967296] ∧
    ofLine (2 ^ 33) "s:0" = .ok ⟨"s", [0]⟩ ∧ Numbers "s:0".toList [0] := by
  have hnumbers (n : ℕ) : Numbers (['s'] ++ ':' :: Nat.toDigits 10 n) [n] :=
    numbers_of_shows (shows_singleton ['s'] n) (by decide) (by decide)
  exact ⟨by decide, hnumbers 4294967296, by decide, hnumbers 0⟩

end Solution
end PairDatasets
