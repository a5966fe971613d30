import Mathlib.Data.List.DropRight
import PairDatasets.Text.Pieces

/-! Text and its parts. Cutting and trimming are told by what they leave: the parts put together again are the
text, and no part holds what was cut away. -/
namespace PairDatasets.Text
variable {sep : Char} {cs core front back tail : List Char} {parts : List (List Char)}

section Trimming

/-- White space only. -/
def Blank (cs : List Char) : Prop := ∀ c ∈ cs, isBlank c = true

/-- No white space at the ends. -/
def Trimmed (cs : List Char) : Prop :=
  (∀ c ∈ cs.head?, isBlank c = false) ∧ ∀ c ∈ cs.getLast?, isBlank c = false

instance : Decidable (Blank cs) := List.decidableBAll (fun c => isBlank c = true) cs

instance : Decidable (Trimmed cs) :=
  @instDecidableAnd _ _ (Option.decidableForallMem cs.head?) (Option.decidableForallMem cs.getLast?)

/-- `core` with any white space around it. -/
def Padded (core cs : List Char) : Prop := ∃ l r, Blank l ∧ Blank r ∧ cs = l ++ core ++ r

/-- `cs` without the white space at its ends is `core`. -/
def Trims (cs core : List Char) : Prop := Padded core cs ∧ Trimmed core

lemma Blank.not_mem {c : Char} (hc : isBlank c = false) (h : Blank cs) : c ∉ cs := by
  intro hmem
  rw [h c hmem] at hc
  cases hc

lemma Padded.not_mem {c : Char} (hc : isBlank c = false) (hcore : c ∉ core) (h : Padded core cs) :
    c ∉ cs := by
  obtain ⟨l, r, hl, hr, rfl⟩ := h
  simp only [List.mem_append, not_or]
  exact ⟨⟨hl.not_mem hc, hcore⟩, hr.not_mem hc⟩

lemma dropWhile_isBlank (h : ∀ c ∈ cs.head?, isBlank c = false) : cs.dropWhile isBlank = cs := by
  cases cs with
  | nil => rfl
  | cons c cs => exact List.dropWhile_cons_of_neg (by simp [h c rfl])

lemma trimChars_padded (h : Trims cs core) : trimChars cs = core := by
  obtain ⟨⟨l, r, hl, hr, rfl⟩, hhead, hlast⟩ := h
  have hr' : ∀ c ∈ r.reverse, isBlank c = true := fun c hc => hr c (List.mem_reverse.mp hc)
  unfold trimChars
  rw [List.append_assoc, List.dropWhile_append_of_pos hl]
  cases core with
  | nil => rw [List.nil_append, List.dropWhile_eq_nil_iff.mpr hr]; rfl
  | cons c core =>
    have hfront : ((c :: core) ++ r).dropWhile isBlank = (c :: core) ++ r := dropWhile_isBlank hhead
    rw [hfront, List.reverse_append, List.dropWhile_append_of_pos hr', dropWhile_isBlank,
      List.reverse_reverse]
    rwa [List.head?_reverse]

lemma padded_trimChars (cs : List Char) : Padded (trimChars cs) cs := by
  refine ⟨cs.takeWhile isBlank, ((cs.dropWhile isBlank).reverse.takeWhile isBlank).reverse,
    fun c hc => List.mem_takeWhile_imp hc,
    fun c hc => List.mem_takeWhile_imp (List.mem_reverse.mp hc), ?_⟩
  unfold trimChars
  rw [List.append_assoc, ← List.reverse_append, List.takeWhile_append_dropWhile, List.reverse_reverse,
    List.takeWhile_append_dropWhile]

lemma trimmed_trimChars (cs : List Char) : Trimmed (trimChars cs) := by
  constructor
  · intro c hc
    obtain ⟨rest, hrest⟩ : trimChars cs <+: cs.dropWhile isBlank := List.rdropWhile_prefix isBlank _
    have hfirst : c ∈ (cs.dropWhile isBlank).head? := by
      rw [← hrest, List.head?_append, Option.mem_def.mp hc]
      rfl
    have hnot := List.head?_dropWhile_not isBlank cs
    rw [Option.mem_def.mp hfirst] at hnot
    exact hnot
  · intro c hc
    have hlast : c ∈ ((cs.dropWhile isBlank).reverse.dropWhile isBlank).head? := by
      rwa [← List.getLast?_reverse]
    have hnot := List.head?_dropWhile_not isBlank (cs.dropWhile isBlank).reverse
    rw [Option.mem_def.mp hlast] at hnot
    exact hnot

/-- Trimming takes off all the white space at the ends, and nothing else. -/
theorem trimChars_eq_iff : trimChars cs = core ↔ Trims cs core := by
  constructor
  · rintro rfl
    exact ⟨padded_trimChars cs, trimmed_trimChars cs⟩
  · exact trimChars_padded

lemma Padded.trans {mid : List Char} (h : Padded core mid) (h' : Padded mid cs) : Padded core cs := by
  obtain ⟨l, r, hl, hr, rfl⟩ := h
  obtain ⟨l', r', hl', hr', rfl⟩ := h'
  refine ⟨l' ++ l, r ++ r', ?_, ?_, by simp only [List.append_assoc]⟩
  · exact List.forall_mem_append.mpr ⟨hl', hl⟩
  · exact List.forall_mem_append.mpr ⟨hr, hr'⟩

/-- White space at the ends makes no difference to what is trimmed. -/
lemma trimChars_of_padded (h : Padded core cs) : trimChars cs = trimChars core :=
  trimChars_eq_iff.mpr ⟨(padded_trimChars core).trans h, trimmed_trimChars core⟩

end Trimming

section Cutting

lemma pieces_eq_splitOn (sep : Char) (cs : List Char) : pieces sep cs = cs.splitOn sep := by
  induction cs with
  | nil => rfl
  | cons c cs ih =>
    rw [pieces, List.splitOn, List.splitOnP_cons_eq_if_modifyHead, ← List.splitOn, ← ih]
    by_cases hc : c = sep
    · rw [if_pos hc, if_pos (beq_iff_eq.mpr hc)]
    · rw [if_neg hc, if_neg (mt beq_iff_eq.mp hc)]
      cases hps : pieces sep cs with
      | nil => exact absurd hps (pieces_ne_nil sep cs)
      | cons p ps => rfl

/-- The pieces tell the text. -/
lemma pieces_injective (sep : Char) : Function.Injective (pieces sep) := by
  intro cs tail h
  rw [pieces_eq_splitOn, pieces_eq_splitOn] at h
  have htext := congrArg [sep].intercalate h
  rwa [List.intercalate_splitOn, List.intercalate_splitOn] at htext

/-- The pieces hold all but the separators. -/
lemma flatten_pieces (sep : Char) (cs : List Char) : (pieces sep cs).flatten = cs.filter (· ≠ sep) := by
  induction cs with
  | nil => rfl
  | cons c cs ih =>
    by_cases hc : c = sep
    · rw [pieces, if_pos hc, List.filter_cons_of_neg (by simpa using hc), List.flatten_cons, ih]
      rfl
    · obtain ⟨first, rest, hcs⟩ := List.exists_cons_of_ne_nil (pieces_ne_nil sep cs)
      rw [pieces, if_neg hc, List.filter_cons_of_pos (by simpa using hc), ← ih, hcs]
      rfl

lemma pieces_of_not_mem (h : sep ∉ cs) : pieces sep cs = [cs] := by
  induction cs with
  | nil => rfl
  | cons c cs ih =>
    rw [List.mem_cons, not_or] at h
    rw [pieces, if_neg (Ne.symm h.1), ih h.2]

/-- Text without a separator at the end belongs to the last piece. -/
lemma pieces_append (h : sep ∉ tail) :
    ∃ init last, pieces sep cs = init ++ [last] ∧ pieces sep (cs ++ tail) = init ++ [last ++ tail] := by
  induction cs with
  | nil => exact ⟨[], [], rfl, pieces_of_not_mem h⟩
  | cons c cs ih =>
    obtain ⟨init, last, hcs, htail⟩ := ih
    rw [List.cons_append, pieces, pieces, hcs, htail]
    split
    · exact ⟨[] :: init, last, rfl, rfl⟩
    · cases init with
      | nil => exact ⟨[], c :: last, rfl, rfl⟩
      | cons p ps => exact ⟨(c :: p) :: ps, last, rfl, rfl⟩

/-- Text without a separator at the start belongs to the first piece. -/
lemma append_pieces (h : sep ∉ front) :
    ∃ first rest, pieces sep cs = first :: rest ∧ pieces sep (front ++ cs) = (front ++ first) :: rest := by
  obtain ⟨first, rest, hcs⟩ := List.exists_cons_of_ne_nil (pieces_ne_nil sep cs)
  refine ⟨first, rest, hcs, ?_⟩
  induction front with
  | nil => exact hcs
  | cons c front ih =>
    rw [List.mem_cons, not_or] at h
    rw [List.cons_append, pieces, if_neg (Ne.symm h.1), ih h.2]
    rfl

/-- A separator ends one piece and begins another. -/
lemma pieces_append_cons (sep : Char) (cs tail : List Char) :
    pieces sep (cs ++ sep :: tail) = pieces sep cs ++ pieces sep tail := by
  induction cs with
  | nil => simp [pieces]
  | cons c cs ih =>
    rw [List.cons_append, pieces, pieces, ih]
    obtain ⟨first, rest, hcs⟩ := List.exists_cons_of_ne_nil (pieces_ne_nil sep cs)
    rw [hcs]
    split <;> rfl

/-- White space around a text is white space around its outer pieces. -/
lemma map_trimChars_pieces (hsep : isBlank sep = false) (h : Padded core cs) :
    (pieces sep cs).map trimChars = (pieces sep core).map trimChars := by
  obtain ⟨l, r, hl, hr, rfl⟩ := h
  obtain ⟨init, last, hleft, hright⟩ : ∃ init last, pieces sep (l ++ core) = init ++ [last] ∧
      pieces sep (l ++ core ++ r) = init ++ [last ++ r] := pieces_append (hr.not_mem hsep)
  obtain ⟨first, rest, hcore, hfront⟩ : ∃ first rest, pieces sep core = first :: rest ∧
      pieces sep (l ++ core) = (l ++ first) :: rest := append_pieces (hl.not_mem hsep)
  have hlast : trimChars (last ++ r) = trimChars last := trimChars_of_padded ⟨[], r, nofun, hr, rfl⟩
  have hfirst : trimChars (l ++ first) = trimChars first :=
    trimChars_of_padded ⟨l, [], hl, nofun, (List.append_nil _).symm⟩
  calc (pieces sep (l ++ core ++ r)).map trimChars = (pieces sep (l ++ core)).map trimChars := by
        rw [hright, hleft, List.map_append, List.map_append, List.map_singleton, List.map_singleton, hlast]
    _ = (pieces sep core).map trimChars := by
        rw [hfront, hcore, List.map_cons, List.map_cons, hfirst]

/-- Text is cut at the occurrence that has none before it. -/
theorem cutFirst?_eq_some_iff :
    cutFirst? sep cs = some (front, back) ↔ cs = front ++ sep :: back ∧ sep ∉ front := by
  induction cs generalizing front with
  | nil => simp [cutFirst?]
  | cons c cs ih =>
    rw [cutFirst?]
    by_cases hc : c = sep
    · rw [if_pos hc]
      constructor
      · rintro ⟨⟩
        exact ⟨by rw [hc]; rfl, List.not_mem_nil⟩
      · rintro ⟨heq, hfront⟩
        cases front with
        | nil => cases heq; rfl
        | cons a front =>
          obtain ⟨rfl, -⟩ := List.cons.inj heq
          exact absurd (hc ▸ List.mem_cons_self) hfront
    · rw [if_neg hc, Option.map_eq_some_iff]
      constructor
      · rintro ⟨⟨front, back⟩, hcut, ⟨⟩⟩
        obtain ⟨rfl, hfront⟩ := ih.mp hcut
        exact ⟨rfl, List.not_mem_cons_of_ne_of_not_mem (Ne.symm hc) hfront⟩
      · rintro ⟨heq, hfront⟩
        cases front with
        | nil => exact absurd (List.cons.inj heq).1 hc
        | cons a front =>
          obtain ⟨rfl, rfl⟩ := List.cons.inj heq
          exact ⟨(front, back), ih.mpr ⟨rfl, fun hmem => hfront (.tail _ hmem)⟩, rfl⟩

lemma cutFirst?_eq_none_iff : cutFirst? sep cs = none ↔ sep ∉ cs := by
  induction cs with
  | nil => simp [cutFirst?]
  | cons c cs ih =>
    rw [cutFirst?]
    by_cases hc : c = sep
    · simp [hc]
    · simp [hc, ih, Ne.symm hc]

end Cutting

section Lines

/-- The pieces of lines that are ended are those of each of them. -/
lemma pieces_unlines (ls : List String) :
    pieces '\n' (unlines ls).toList = (ls.flatMap fun l => pieces '\n' l.toList) ++ [[]] := by
  induction ls with
  | nil => rfl
  | cons l ls ih =>
    have hcons : (unlines (l :: ls)).toList = l.toList ++ '\n' :: (unlines ls).toList := by
      simp [unlines]
    rw [hcons, pieces_append_cons, ih, List.flatMap_cons, List.append_assoc]

lemma pieces_unlines_of_not_mem {ls : List String} (h : ∀ l ∈ ls, '\n' ∉ l.toList) :
    pieces '\n' (unlines ls).toList = ls.map String.toList ++ [[]] := by
  have hwhole : (ls.flatMap fun l => pieces '\n' l.toList) = ls.flatMap fun l => [l.toList] :=
    List.flatMap_congr fun l hl => pieces_of_not_mem (h l hl)
  rw [pieces_unlines, hwhole, List.map_eq_flatMap]

lemma dropReturn_of_ne (h : cs.getLast? ≠ some '\r') : dropReturn cs = cs := by
  unfold dropReturn
  split
  · next rest hcs =>
    refine absurd ?_ h
    rw [← List.head?_reverse, hcs]
    rfl
  · rfl

/-- Lines without line breaks are read back. -/
theorem lines_unlines (ls : List String)
    (h : ∀ l ∈ ls, '\n' ∉ l.toList ∧ l.toList.getLast? ≠ some '\r') : lines (unlines ls) = ls := by
  have hkept : (ls.map String.toList).map dropReturn = ls.map String.toList := by
    rw [List.map_map]
    exact List.map_congr_left fun l hl => dropReturn_of_ne (h l hl).2
  unfold lines lineChars
  rw [pieces_unlines_of_not_mem fun l hl => (h l hl).1, List.reverse_append]
  simp [hkept]

end Lines
end PairDatasets.Text
