import Mathlib.Algebra.Order.Ring.Nat
import PairDatasets.Corpus.Line
import PairDatasets.Proofs.Decimal.Whole
import PairDatasets.Proofs.Order.Mapping
import PairDatasets.Proofs.Text.Pieces

/-! The lines of a tokenized file. A line is a name, a colon and fields between commas; it is accepted if every
field spells a token of the vocabulary, and else the first field that does not is reported. -/
namespace PairDatasets
open Text Decimal
namespace Solution
variable {vocabulary : ℕ} {line : String} {raw cs name : List Char} {fields : List (List Char)}

section Grammar

/-- The fields of a text: what stands between its commas, each without the white space around it. White space
alone is no field. -/
inductive Fields : List Char → List (List Char) → Prop
  | none {cs : List Char} (hblank : Trims cs []) : Fields cs []
  | some {cs text : List Char} {fields : List (List Char)} (htext : Trims cs text) (hne : text ≠ [])
      (hfields : List.Forall₂ Trims (text.splitOn ',') fields) : Fields cs fields

/-- The parts of a line: before its first colon the name, without the white space around it, and after it the
fields. -/
def Parts (line name : List Char) (fields : List (List Char)) : Prop :=
  ∃ front back, line = front ++ ':' :: back ∧ ':' ∉ front ∧ Trims front name ∧ Fields back fields

/-- A field spells a number of 64 bits that lies in the vocabulary; the token is its low half. -/
def Accepts (vocabulary : ℕ) (field : List Char) (token : UInt32) : Prop :=
  ∃ n, Spells field n ∧ n < 2 ^ 64 ∧ n < vocabulary ∧ token = n.toUInt32

/-- A field spells no number of 64 bits, or one beyond the vocabulary. -/
inductive Refuses (vocabulary : ℕ) (field : List Char) : LineError → Prop
  | notANumber (hnone : ∀ n < 2 ^ 64, ¬ Spells field n) :
      Refuses vocabulary field (.notANumber (String.ofList field))
  | beyondVocabulary {n : ℕ} (hspells : Spells field n) (hn : n < 2 ^ 64) (hbeyond : vocabulary ≤ n) :
      Refuses vocabulary field (.beyondVocabulary n vocabulary)

lemma forall₂_trims_iff {raws : List (List Char)} :
    List.Forall₂ Trims raws fields ↔ raws.map trimChars = fields := by
  have htrims : Trims = fun raw field => trimChars raw = field := by
    funext raw field
    exact propext trimChars_eq_iff.symm
  rw [htrims, ← List.forall₂_map_left_iff, List.forall₂_eq_eq_eq]

lemma fields_iff : Fields cs fields ↔
    fields = if (trimChars cs).isEmpty then [] else (pieces ',' (trimChars cs)).map trimChars := by
  constructor
  · intro h
    cases h with
    | none hblank => rw [trimChars_eq_iff.mpr hblank]; rfl
    | some htext hne hfields =>
      rw [trimChars_eq_iff.mpr htext, if_neg (mt List.isEmpty_iff.mp hne), pieces_eq_splitOn,
        forall₂_trims_iff.mp hfields]
  · rintro rfl
    split_ifs with hempty
    · exact .none (trimChars_eq_iff.mp (List.isEmpty_iff.mp hempty))
    · refine .some (trimChars_eq_iff.mp rfl) (mt List.isEmpty_iff.mpr hempty) ?_
      rw [forall₂_trims_iff, pieces_eq_splitOn]

lemma parts_iff {text : List Char} : Parts text name fields ↔ ∃ front back,
    cutFirst? ':' text = some (front, back) ∧ trimChars front = name ∧ Fields back fields := by
  simp only [Parts, cutFirst?_eq_some_iff, trimChars_eq_iff, and_assoc]

end Grammar

section Reading
variable {token : UInt32} {tokens : List UInt32} {e : LineError} {s : Solution}

/-- A field spells one number of 64 bits, which is then looked at, or none. -/
lemma readToken_cases (vocabulary : ℕ) (raw : List Char) :
    (∃ n < 2 ^ 64, Spells (trimChars raw) n ∧ readToken vocabulary raw =
      if n < vocabulary then .ok n.toUInt32 else .error (.beyondVocabulary n vocabulary)) ∨
    ((∀ n < 2 ^ 64, ¬ Spells (trimChars raw) n) ∧
      readToken vocabulary raw = .error (.notANumber (String.ofList (trimChars raw)))) := by
  have hlimit : 0 < 2 ^ 64 := by decide
  unfold readToken
  cases hwhole : whole (2 ^ 64) (trimChars raw) with
  | error e =>
    refine .inr ⟨?_, by dsimp only; rw [hwhole]⟩
    intro n hn hspells
    rw [(whole_eq_ok_iff hlimit).mpr ⟨hspells, hn⟩] at hwhole
    cases hwhole
  | ok n =>
    obtain ⟨hspells, hn⟩ := (whole_eq_ok_iff hlimit).mp hwhole
    exact .inl ⟨n, hn, hspells, by dsimp only; rw [hwhole]⟩

lemma readToken_eq_ok_iff : readToken vocabulary raw = .ok token ↔
    Accepts vocabulary (trimChars raw) token := by
  rcases readToken_cases vocabulary raw with ⟨n, hn, hspells, heq⟩ | ⟨hnone, heq⟩ <;> rw [heq]
  · constructor
    · intro h
      split_ifs at h with hlt
      cases h
      exact ⟨n, hspells, hn, hlt, rfl⟩
    · rintro ⟨m, hm, -, hlt, rfl⟩
      rw [hm.unique hspells] at hlt ⊢
      rw [if_pos hlt]
  · refine ⟨nofun, ?_⟩
    rintro ⟨n, hspells, hn, -⟩
    exact absurd hspells (hnone n hn)

lemma readToken_eq_error_iff : readToken vocabulary raw = .error e ↔
    Refuses vocabulary (trimChars raw) e := by
  rcases readToken_cases vocabulary raw with ⟨n, hn, hspells, heq⟩ | ⟨hnone, heq⟩ <;> rw [heq]
  · constructor
    · intro h
      split_ifs at h with hlt
      cases h
      exact .beyondVocabulary hspells hn (Nat.le_of_not_lt hlt)
    · intro h
      cases h with
      | notANumber hnone => exact absurd hspells (hnone n hn)
      | beyondVocabulary hm _ hbeyond =>
        rw [hm.unique hspells] at hbeyond ⊢
        rw [if_neg (Nat.not_lt.mpr hbeyond)]
  · constructor
    · rintro ⟨⟩
      exact .notANumber hnone
    · intro h
      cases h with
      | notANumber _ => rfl
      | beyondVocabulary hm hlt _ => exact absurd hm (hnone _ hlt)

lemma readTokens_eq_ok_iff : readTokens vocabulary cs = .ok tokens ↔
    ∃ fields, Fields cs fields ∧ List.Forall₂ (Accepts vocabulary) fields tokens := by
  simp only [fields_iff, exists_eq_left]
  unfold readTokens
  dsimp only
  split_ifs
  · simp [eq_comm]
  · rw [mapM_eq_ok, List.forall₂_map_left_iff]
    simp only [readToken_eq_ok_iff]

lemma readTokens_eq_error_iff : readTokens vocabulary cs = .error e ↔
    ∃ good bad rest, Fields cs (good ++ bad :: rest) ∧
      (∀ field ∈ good, ∃ token, Accepts vocabulary field token) ∧ Refuses vocabulary bad e := by
  simp only [fields_iff]
  unfold readTokens
  dsimp only
  split_ifs
  · simp
  · rw [mapM_eq_error]
    simp only [readToken_eq_ok_iff, readToken_eq_error_iff]
    constructor
    · rintro ⟨front, raw, rest, heq, hfront, hraw⟩
      refine ⟨front.map trimChars, trimChars raw, rest.map trimChars, ?_, ?_, hraw⟩
      · rw [heq, List.map_append, List.map_cons]
      · intro field hfield
        obtain ⟨raw, hmem, rfl⟩ := List.mem_map.mp hfield
        exact hfront raw hmem
    · rintro ⟨good, bad, rest, heq, hgood, hbad⟩
      obtain ⟨front, back, hpieces, rfl, hback⟩ := List.map_eq_append_iff.mp heq.symm
      obtain ⟨raw, rest, rfl, rfl, -⟩ := List.map_eq_cons_iff.mp hback
      exact ⟨front, raw, rest, hpieces, fun raw hmem => hgood _ (List.mem_map_of_mem hmem), hbad⟩

/-- Without a colon there is nothing to read, and with one the fields decide. -/
lemma ofLine_cases (vocabulary : ℕ) (line : String) :
    ((∀ name fields, ¬ Parts line.toList name fields) ∧ ':' ∉ line.toList ∧
      ofLine vocabulary line = .error .noColon) ∨
    ∃ name back, ':' ∈ line.toList ∧
      (∀ name' fields, Parts line.toList name' fields ↔ name' = name ∧ Fields back fields) ∧
      ofLine vocabulary line = (readTokens vocabulary back).map fun tokens => ⟨String.ofList name, tokens⟩ := by
  unfold ofLine
  simp only [parts_iff]
  cases hcut : cutFirst? ':' line.toList with
  | none =>
    refine .inl ⟨?_, cutFirst?_eq_none_iff.mp hcut, rfl⟩
    rintro name fields ⟨front, back, ⟨⟩, -⟩
  | some parts =>
    obtain ⟨front, back⟩ := parts
    refine .inr ⟨trimChars front, back, ?_, ?_, rfl⟩
    · rw [(cutFirst?_eq_some_iff.mp hcut).1]
      exact List.mem_append_right front (.head back)
    · intro name fields
      constructor
      · rintro ⟨_, _, ⟨⟩, rfl, hfields⟩
        exact ⟨rfl, hfields⟩
      · rintro ⟨rfl, hfields⟩
        exact ⟨front, back, rfl, rfl, hfields⟩

lemma ofLine_eq_noColon_iff : ofLine vocabulary line = .error .noColon ↔ ':' ∉ line.toList := by
  rcases ofLine_cases vocabulary line with ⟨-, hcolon, heq⟩ | ⟨name, back, hcolon, -, heq⟩
  · exact iff_of_true heq hcolon
  · refine iff_of_false ?_ (not_not.mpr hcolon)
    rw [heq]
    intro h
    cases hread : readTokens vocabulary back with
    | ok tokens => rw [hread] at h; cases h
    | error e =>
      rw [hread] at h
      cases h
      obtain ⟨_, _, _, -, -, ⟨⟩⟩ := readTokens_eq_error_iff.mp hread

lemma ofLine_eq_ok_iff : ofLine vocabulary line = .ok s ↔
    ∃ fields, Parts line.toList s.name.toList fields ∧
      List.Forall₂ (Accepts vocabulary) fields s.tokens := by
  rcases ofLine_cases vocabulary line with ⟨hparts, -, heq⟩ | ⟨name, back, -, hparts, heq⟩ <;> rw [heq]
  · refine ⟨nofun, ?_⟩
    rintro ⟨fields, hfields, -⟩
    exact absurd hfields (hparts _ _)
  · simp only [hparts, and_assoc, exists_and_left]
    rw [← readTokens_eq_ok_iff]
    cases readTokens vocabulary back with
    | error e => exact ⟨nofun, nofun⟩
    | ok tokens =>
      constructor
      · rintro ⟨⟩
        exact ⟨String.toList_ofList, rfl⟩
      · rintro ⟨rfl, ⟨⟩⟩
        rw [String.ofList_toList]
        rfl

lemma ofLine_eq_error_iff (hcolon : ':' ∈ line.toList) : ofLine vocabulary line = .error e ↔
    ∃ name good bad rest, Parts line.toList name (good ++ bad :: rest) ∧
      (∀ field ∈ good, ∃ token, Accepts vocabulary field token) ∧ Refuses vocabulary bad e := by
  rcases ofLine_cases vocabulary line with ⟨-, hnone, -⟩ | ⟨name, back, -, hparts, heq⟩
  · exact absurd hcolon hnone
  · simp only [hparts, and_assoc, exists_and_left, exists_eq_left]
    rw [← readTokens_eq_error_iff, heq]
    cases readTokens vocabulary back with
    | ok tokens => exact ⟨nofun, nofun⟩
    | error e' =>
      constructor
      · rintro ⟨⟩
        rfl
      · rintro ⟨⟩
        rfl

end Reading

section Rendering
variable {text : List Char} {numbers : List ℕ}

/-- A text shows a name and numbers: the name, a colon, and the numbers in decimal between commas, with any white
space around the name, the numbers and the list of them. -/
def Shows (text name : List Char) (numbers : List ℕ) : Prop :=
  ∃ front back parts, text = front ++ ':' :: back ∧ Padded name front ∧
    List.Forall₂ (fun n part => Padded (Nat.toDigits 10 n) part) numbers parts ∧
      Padded ([','].intercalate parts) back

lemma isBlank_of_isDigit {c : Char} (h : c.isDigit = true) : isBlank c = false := by
  obtain ⟨hlo, hhi⟩ := Char.isDigit_iff_toNat.mp h
  have hlo' : 48 ≤ c.toNat := hlo
  have hhi' : c.toNat ≤ 57 := hhi
  simp only [isBlank, blankRanges, List.any_cons, List.any_nil, Bool.or_false, Bool.or_eq_false_iff,
    Bool.and_eq_false_iff, decide_eq_false_iff_not]
  omega

lemma isDigit_toDigits {n : ℕ} {c : Char} (h : c ∈ Nat.toDigits 10 n) : c.isDigit = true :=
  Nat.isDigit_of_mem_toDigits (by decide) (by decide) h

lemma trimmed_toDigits (n : ℕ) : Trimmed (Nat.toDigits 10 n) :=
  ⟨fun _ hc => isBlank_of_isDigit (isDigit_toDigits (List.mem_of_mem_head? hc)),
    fun _ hc => isBlank_of_isDigit (isDigit_toDigits (List.mem_of_mem_getLast? hc))⟩

/-- The fields of shown numbers are their digits, however much white space there is. -/
lemma fields_of_shown {back : List Char} {parts : List (List Char)}
    (hparts : List.Forall₂ (fun n part => Padded (Nat.toDigits 10 n) part) numbers parts)
    (hback : Padded ([','].intercalate parts) back) :
    Fields back (numbers.map (Nat.toDigits 10)) := by
  have htrim : numbers.map (Nat.toDigits 10) = parts.map trimChars := by
    refine map_eq_map_of_forall₂ ?_ hparts
    intro n part hpadded
    exact (trimChars_eq_iff.mpr ⟨hpadded, trimmed_toDigits n⟩).symm
  have hcomma : ∀ part ∈ parts, ',' ∉ part := by
    intro part hpart
    obtain ⟨n, -, hpadded⟩ := exists_of_forall₂_right hparts hpart
    exact hpadded.not_mem (by decide) fun h => absurd (isDigit_toDigits h) (by decide)
  by_cases hne : parts = []
  · subst hne
    cases hparts
    exact .none ⟨hback, nofun, nofun⟩
  · have hpieces : (pieces ',' (trimChars back)).map trimChars = numbers.map (Nat.toDigits 10) := by
      calc (pieces ',' (trimChars back)).map trimChars = (pieces ',' back).map trimChars :=
            (map_trimChars_pieces (by decide) (padded_trimChars back)).symm
        _ = (pieces ',' ([','].intercalate parts)).map trimChars :=
            map_trimChars_pieces (by decide) hback
        _ = numbers.map (Nat.toDigits 10) := by
            rw [pieces_eq_splitOn, List.splitOn_intercalate ',' hcomma hne, htrim]
    rw [fields_iff, if_neg, hpieces]
    intro hempty
    -- no text at all would be one piece without digits
    rw [List.isEmpty_iff.mp hempty] at hpieces
    have hmem : [] ∈ (pieces ',' []).map trimChars := List.mem_singleton_self []
    rw [hpieces] at hmem
    obtain ⟨n, -, hn⟩ := List.mem_map.mp hmem
    exact Nat.toDigits_ne_nil hn

lemma Shows.parts (h : Shows text name numbers) (htrimmed : Trimmed name) (hcolon : ':' ∉ name) :
    Parts text name (numbers.map (Nat.toDigits 10)) := by
  obtain ⟨front, back, parts, rfl, hname, hparts, hback⟩ := h
  exact ⟨front, back, rfl, hname.not_mem (by decide) hcolon, ⟨hname, htrimmed⟩,
    fields_of_shown hparts hback⟩

lemma accepts_toDigits {token : UInt32} (h : token.toNat < vocabulary) :
    Accepts vocabulary (Nat.toDigits 10 token.toNat) token :=
  ⟨token.toNat, spells_toDigits _, token.toNat_lt.trans (by decide), h, UInt32.ofNat_toNat.symm⟩

/-- What a solution is shown as is read as that solution. -/
lemma ofLine_of_shows {s : Solution} (h : Shows line.toList s.name.toList (s.tokens.map UInt32.toNat))
    (htrimmed : Trimmed s.name.toList) (hcolon : ':' ∉ s.name.toList)
    (htokens : ∀ token ∈ s.tokens, token.toNat < vocabulary) : ofLine vocabulary line = .ok s := by
  rw [ofLine_eq_ok_iff]
  refine ⟨_, h.parts htrimmed hcolon, ?_⟩
  rw [List.map_map, List.forall₂_map_left_iff, List.forall₂_same]
  exact fun token htoken => accepts_toDigits (htokens token htoken)

end Rendering

/-- A line without a colon is refused for that. Any other line is accepted if and only if its fields spell tokens of
the vocabulary, one token for each field in order, and else it is the first field from the left that does not which
is reported. A solution shown in decimal, with any white space, is read back. -/
theorem ofLine_grammar (vocabulary : ℕ) (line : String) :
    (ofLine vocabulary line = .error .noColon ↔ ':' ∉ line.toList) ∧
    (∀ s, ofLine vocabulary line = .ok s ↔ ∃ fields, Parts line.toList s.name.toList fields ∧
      List.Forall₂ (Accepts vocabulary) fields s.tokens) ∧
    (':' ∈ line.toList → ∀ e, ofLine vocabulary line = .error e ↔
      ∃ name good bad rest, Parts line.toList name (good ++ bad :: rest) ∧
        (∀ field ∈ good, ∃ token, Accepts vocabulary field token) ∧ Refuses vocabulary bad e) ∧
    ∀ s : Solution, Shows line.toList s.name.toList (s.tokens.map UInt32.toNat) →
      Trimmed s.name.toList → ':' ∉ s.name.toList → (∀ token ∈ s.tokens, token.toNat < vocabulary) →
        ofLine vocabulary line = .ok s :=
  ⟨ofLine_eq_noColon_iff, fun _ => ofLine_eq_ok_iff, fun hcolon _ => ofLine_eq_error_iff hcolon,
    fun _ => ofLine_of_shows⟩

/-- White space everywhere, and a line whose second and third field are no tokens, of which the second counts. -/
theorem ofLine_grammar_spacedLine :
    Shows " s1 :\t3 , 95 ".toList "s1".toList [3, 95] ∧ Trimmed "s1".toList ∧ ':' ∉ "s1".toList ∧
    (∀ token ∈ ([3, 95] : List UInt32), token.toNat < 96) ∧
    ofLine 96 " s1 :\t3 , 95 " = .ok ⟨"s1", [3, 95]⟩ ∧
    ':' ∈ "s1:3,+ 4,96".toList ∧ ofLine 96 "s1:3,+ 4,96" = .error (.notANumber "+ 4") ∧
    ∃ name good bad rest, Parts "s1:3,+ 4,96".toList name (good ++ bad :: rest) ∧
      (∀ field ∈ good, ∃ token, Accepts 96 field token) ∧ Refuses 96 bad (.notANumber "+ 4") := by
  have hshows : Shows " s1 :\t3 , 95 ".toList "s1".toList [3, 95] :=
    ⟨" s1 ".toList, "\t3 , 95 ".toList, ["3 ".toList, " 95".toList], by decide,
      ⟨[' '], [' '], by decide, by decide, by decide⟩,
      .cons ⟨[], [' '], by decide, by decide, by decide⟩
        (.cons ⟨[' '], [], by decide, by decide, by decide⟩ .nil),
      ⟨['\t'], [' '], by decide, by decide, by decide⟩⟩
  have htrimmed : Trimmed "s1".toList := by decide
  have hcolon : ':' ∉ "s1".toList := by decide
  have htokens : ∀ token ∈ ([3, 95] : List UInt32), token.toNat < 96 := by simp
  have hrefused : ofLine 96 "s1:3,+ 4,96" = .error (.notANumber "+ 4") := by decide
  have hline : ':' ∈ "s1:3,+ 4,96".toList := by decide
  obtain ⟨-, -, -, hread⟩ := ofLine_grammar 96 " s1 :\t3 , 95 "
  obtain ⟨-, -, hfirst, -⟩ := ofLine_grammar 96 "s1:3,+ 4,96"
  exact ⟨hshows, htrimmed, hcolon, htokens, hread ⟨"s1", [3, 95]⟩ hshows htrimmed hcolon htokens,
    hline, hrefused, (hfirst hline _).mp hrefused⟩

end Solution
end PairDatasets
