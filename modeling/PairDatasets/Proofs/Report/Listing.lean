import Mathlib.Data.List.Forall2
import Mathlib.Data.String.Basic
import Mathlib.Tactic.Common
import PairDatasets.Proofs.Order.Mapping
import PairDatasets.Proofs.Text.Pieces
import PairDatasets.Report.Listing

/-! Listing of omitted solutions. A line is broken as soon as it is longer than 80 bytes. So the lines of a
problem are the only division of its solutions in which every line but the last is too long, and none was too
long before its last entry. What a line looks like is spelled out here once more, apart from the program. -/
namespace PairDatasets.Listing
variable {o : Omitted} {os : List Omitted}

/-- A line: what it starts with, a mark, and its solutions. -/
structure Row where
  start : String
  mark : String
  entries : List Omitted

namespace Row
variable {r : Row}

/-- Solutions stand after the mark, each with a slash and its number of tokens, with commas between them. -/
def text (r : Row) : String :=
  if r.entries.isEmpty then r.start
  else r.start ++ r.mark ++ " " ++ ", ".intercalate (r.entries.map fun o => o.solution ++ "/" ++ toString o.tokens)

def bytes (r : Row) : Nat := r.text.utf8ByteSize

/-- What a block is begun with: the rank at the right of three columns, a blank, and the name at the left of
sixteen. -/
def heading (rank : Nat) (problem : String) : Row :=
  let digits := toString rank
  ⟨String.ofList (List.replicate (3 - digits.length) ' ') ++ digits ++ " " ++
    problem ++ String.ofList (List.replicate (16 - problem.length) ' '), ":", []⟩

/-- A line that goes on where another was broken, behind five blanks. -/
def continued (os : List Omitted) : Row := ⟨"     ", "", os⟩

def append (r : Row) (os : List Omitted) : Row := { r with entries := r.entries ++ os }

def dropLast (r : Row) : Row := { r with entries := r.entries.dropLast }

/-- What separates the next solution from a line. -/
def separator (r : Row) : String := if r.entries.isEmpty then r.mark else ","

@[simp] lemma entries_append (r : Row) (os : List Omitted) : (r.append os).entries = r.entries ++ os := rfl

@[simp] lemma append_append (r : Row) (os os' : List Omitted) :
    (r.append os).append os' = r.append (os ++ os') := by
  simp [append]

lemma text_of_ne_nil (h : r.entries ≠ []) :
    r.text = r.start ++ r.mark ++ " " ++ Text.join ", " (r.entries.map entry) := by
  unfold text
  rw [if_neg (by simpa using h)]
  rfl

lemma separator_append_singleton (r : Row) (o : Omitted) : (r.append [o]).separator = "," := by
  simp [separator]

lemma text_append_singleton (r : Row) (o : Omitted) :
    (r.append [o]).text = r.text ++ r.separator ++ " " ++ entry o := by
  rw [text_of_ne_nil (by simp)]
  by_cases h : r.entries = []
  · simp [text, separator, h, append, Text.join]
  · have hjoin : Text.join ", " ((r.entries ++ [o]).map entry) =
        Text.join ", " (r.entries.map entry) ++ ", " ++ entry o := by
      rw [List.map_append]
      exact String.intercalate_append_of_ne_nil (by simpa using h) (by simp)
    have hcomma : ", " = "," ++ " " := rfl
    have hseparator : r.separator = "," := by simp [separator, h]
    rw [entries_append, hjoin, text_of_ne_nil h, hseparator, hcomma]
    simp only [append, String.append_assoc]

lemma bytes_lt_append_singleton (r : Row) (o : Omitted) : r.bytes < (r.append [o]).bytes := by
  have hblank : " ".utf8ByteSize = 1 := rfl
  simp only [bytes, text_append_singleton, String.utf8ByteSize_append]
  omega

lemma bytes_le_append (r : Row) (os : List Omitted) : r.bytes ≤ (r.append os).bytes := by
  induction os generalizing r with
  | nil => simp [append]
  | cons o os ih =>
    have hmore := ih (r.append [o])
    rw [append_append] at hmore
    exact Nat.le_trans (Nat.le_of_lt (r.bytes_lt_append_singleton o)) hmore

lemma text_ne_blank (h : 5 < r.bytes) : r.text ≠ "     " := by
  intro heq
  rw [bytes, heq] at h
  revert h
  decide

@[simp] lemma dropLast_append_singleton (r : Row) (o : Omitted) : (r.append [o]).dropLast = r := by
  simp [dropLast, append]

lemma bytes_dropLast_le (r : Row) : r.dropLast.bytes ≤ r.bytes := by
  by_cases h : r.entries = []
  · simp [dropLast, bytes, text, h]
  · have hr : r.dropLast.append [r.entries.getLast h] = r := by
      simp [append, dropLast, List.dropLast_concat_getLast]
    have hle := bytes_le_append r.dropLast [r.entries.getLast h]
    rwa [hr] at hle

end Row

/-- The lines of a block from a line that is begun, which goes on first; all others start with the indent. They
have every solution once and in order, and are broken beyond 80 bytes. -/
structure Wraps (r : Row) (os : List Omitted) (rows : List Row) : Prop where
  starts : ∃ (first : List Omitted) (rest : List (List Omitted)),
    rows = r.append first :: rest.map Row.continued ∧ (first = [] → os = []) ∧ [] ∉ rest
  entries : rows.flatMap Row.entries = r.entries ++ os
  long : ∀ row ∈ rows.dropLast, 80 < row.bytes
  tight : ∀ row ∈ rows, row.dropLast.entries = [] ∨ row.dropLast.bytes ≤ 80
  notBlank : ∀ row ∈ rows, row.text ≠ "     "

section Wraps
variable {r : Row} {rows : List Row}

lemma flatMap_continued (rest : List (List Omitted)) :
    (rest.map Row.continued).flatMap Row.entries = rest.flatten := by
  rw [List.flatMap_map]
  exact List.flatMap_id

lemma flatten_eq_nil {rest : List (List Omitted)} (h : [] ∉ rest) : rest.flatten = [] ↔ rest = [] := by
  refine ⟨fun hflat => ?_, fun hnil => by rw [hnil]; rfl⟩
  rw [List.flatten_eq_nil_iff] at hflat
  rw [List.eq_nil_iff_forall_not_mem]
  intro x hx
  exact h (hflat x hx ▸ hx)

/-- Together the lines have the solutions that were to come. -/
lemma Wraps.exists_rest (h : Wraps r os rows) : ∃ (first : List Omitted) (rest : List (List Omitted)),
    rows = r.append first :: rest.map Row.continued ∧ (first = [] → os = []) ∧ [] ∉ rest ∧
      first ++ rest.flatten = os := by
  obtain ⟨first, rest, rfl, hfirst, hrest⟩ := h.starts
  refine ⟨first, rest, rfl, hfirst, hrest, ?_⟩
  have hentries := h.entries
  rw [List.flatMap_cons, flatMap_continued, Row.entries_append, List.append_assoc] at hentries
  exact List.append_cancel_left hentries

/-- A line that others follow is too long. -/
lemma Wraps.long_head {row : Row} {later : List Row} (h : Wraps r os (row :: later)) (hlater : later ≠ []) :
    80 < row.bytes := by
  refine h.long row ?_
  rw [List.dropLast_cons_of_ne_nil hlater]
  exact .head _

lemma wraps_nil (hblank : r.text ≠ "     ") (hfit : r.entries = [] ∨ r.bytes ≤ 80) :
    Wraps r [] rows ↔ rows = [r] := by
  constructor
  · intro h
    obtain ⟨first, rest, rfl, -, hrest, hos⟩ := h.exists_rest
    obtain ⟨rfl, hflat⟩ := List.append_eq_nil_iff.mp hos
    rw [(flatten_eq_nil hrest).mp hflat]
    simp [Row.append]
  · rintro rfl
    refine ⟨⟨[], [], by simp [Row.append], fun _ => rfl, List.not_mem_nil⟩, by simp, nofun, ?_,
      by simpa using hblank⟩
    rw [List.forall_mem_singleton]
    refine hfit.imp (fun hnil => ?_) (Nat.le_trans r.bytes_dropLast_le)
    simp [Row.dropLast, hnil]

/-- The first solution stands in the line that is begun. -/
lemma Wraps.exists_first (h : Wraps r (o :: os) rows) : ∃ (first : List Omitted) (rest : List (List Omitted)),
    rows = r.append (o :: first) :: rest.map Row.continued ∧ [] ∉ rest ∧ first ++ rest.flatten = os := by
  obtain ⟨first, rest, rfl, hfirst, hrest, hos⟩ := h.exists_rest
  obtain ⟨o', first, rfl⟩ := List.exists_cons_of_ne_nil fun hnil => List.cons_ne_nil _ _ (hfirst hnil)
  rw [List.cons_append, List.cons.injEq] at hos
  obtain ⟨rfl, hos⟩ := hos
  exact ⟨first, rest, rfl, hrest, hos⟩

/-- No line goes on after a solution that did not fit. -/
lemma Wraps.eq_nil_of_long {first : List Omitted} {later : List Row}
    (h : Wraps r os (r.append (o :: first) :: later)) (hlong : 80 < (r.append [o]).bytes) : first = [] := by
  by_contra hne
  have hdrop : (r.append (o :: first)).dropLast = (r.append [o]).append first.dropLast := by
    simp [Row.dropLast, Row.append, List.dropLast_append_of_ne_nil, List.dropLast_cons_of_ne_nil hne]
  have hle := (r.append [o]).bytes_le_append first.dropLast
  obtain hempty | hbytes := h.tight _ (.head _)
  · rw [hdrop] at hempty
    simp at hempty
  · rw [hdrop] at hbytes
    omega

/-- What follows the first line is a block by itself, from a line that goes on. -/
lemma Wraps.tail {row : Row} {x : List Omitted} {rest : List (List Omitted)}
    (h : Wraps r os (row :: (x :: rest).map Row.continued)) (hrest : [] ∉ x :: rest) :
    Wraps (.continued []) (x :: rest).flatten ((x :: rest).map Row.continued) where
  starts := by
    rw [List.mem_cons, not_or] at hrest
    exact ⟨x, rest, rfl, fun hnil => absurd hnil.symm hrest.1, hrest.2⟩
  entries := flatMap_continued (x :: rest)
  long later hlater := by
    refine h.long later ?_
    rw [List.dropLast_cons_of_ne_nil (by simp)]
    exact .tail _ hlater
  tight later hlater := h.tight later (.tail _ hlater)
  notBlank later hlater := h.notBlank later (.tail _ hlater)

/-- A block goes on in lines of its own after a line that is too long. -/
lemma Wraps.cons {later : List Row} (h : Wraps (.continued []) os later) (hos : os ≠ [])
    (hfit : r.entries = [] ∨ r.bytes ≤ 80) (hlong : 80 < (r.append [o]).bytes) :
    Wraps r (o :: os) (r.append [o] :: later) where
  starts := by
    obtain ⟨x, rest, rfl, hx, hrest⟩ := h.starts
    refine ⟨[o], x :: rest, rfl, nofun, ?_⟩
    rw [List.mem_cons, not_or]
    exact ⟨fun hnil => hos (hx hnil.symm), hrest⟩
  entries := by
    rw [List.flatMap_cons, h.entries]
    simp [Row.continued]
  long := by
    obtain ⟨x, rest, rfl, -⟩ := h.starts
    rw [List.dropLast_cons_of_ne_nil (List.cons_ne_nil _ _)]
    exact List.forall_mem_cons.mpr ⟨hlong, h.long⟩
  tight := by
    rw [List.forall_mem_cons, Row.dropLast_append_singleton]
    exact ⟨hfit, h.tight⟩
  notBlank := List.forall_mem_cons.mpr ⟨Row.text_ne_blank (Nat.lt_trans (by decide) hlong), h.notBlank⟩

/-- A line goes on as long as it fits. -/
lemma wraps_cons_of_fits (hfit : (r.append [o]).bytes ≤ 80) :
    Wraps r (o :: os) rows ↔ Wraps (r.append [o]) os rows := by
  constructor
  · intro h
    obtain ⟨first, rest, rfl, hrest, hos⟩ := h.exists_first
    refine ⟨⟨first, rest, by simp, ?_, hrest⟩, by simpa using h.entries, h.long, h.tight, h.notBlank⟩
    -- without more solutions the line is not too long, so no other follows
    rintro rfl
    rw [← hos, List.nil_append, flatten_eq_nil hrest]
    by_contra hne
    exact Nat.not_lt_of_le hfit (h.long_head (by simpa using hne))
  · intro h
    obtain ⟨first, rest, hrows, hfirst, hrest⟩ := h.starts
    exact ⟨⟨o :: first, rest, by simpa using hrows, nofun, hrest⟩, by simpa using h.entries, h.long, h.tight,
      h.notBlank⟩

/-- A line is broken after the solution that does not fit. -/
lemma wraps_cons_of_long (hfit : r.entries = [] ∨ r.bytes ≤ 80) (hlong : 80 < (r.append [o]).bytes) :
    Wraps r (o :: os) rows ↔ ∃ later, rows = r.append [o] :: later ∧
      (os = [] ∧ later = [] ∨ os ≠ [] ∧ Wraps (.continued []) os later) := by
  constructor
  · intro h
    obtain ⟨first, rest, rfl, hrest, rfl⟩ := h.exists_first
    obtain rfl := h.eq_nil_of_long hlong
    refine ⟨_, rfl, ?_⟩
    cases rest with
    | nil => exact .inl ⟨rfl, rfl⟩
    | cons x rest => exact .inr ⟨mt (flatten_eq_nil hrest).mp (List.cons_ne_nil _ _), h.tail hrest⟩
  · rintro ⟨later, rfl, ⟨rfl, rfl⟩ | ⟨hne, h⟩⟩
    · refine ⟨⟨[o], [], rfl, nofun, List.not_mem_nil⟩, by simp, nofun, by simpa using hfit, ?_⟩
      simpa using Row.text_ne_blank (Nat.lt_trans (by decide) hlong)
    · exact h.cons hne hfit hlong

end Wraps

/-- The lines of a block, with what each is made of. -/
def rows (r : Row) : List Omitted → List Row
  | [] => if 5 < r.bytes then [r] else []
  | o :: os =>
    if 80 < (r.append [o]).bytes then r.append [o] :: rows (.continued []) os else rows (r.append [o]) os

lemma indent_eq : indent = "     " := rfl

lemma bytes_blank : "     ".utf8ByteSize = 5 := by decide

lemma wrap_eq (r : Row) (os : List Omitted) : wrap r.text r.separator os = (rows r os).map Row.text := by
  induction os generalizing r with
  | nil =>
    unfold wrap rows Row.bytes
    rw [indent_eq, bytes_blank]
    split_ifs <;> rfl
  | cons o os ih =>
    have hmore := ih (r.append [o])
    rw [Row.separator_append_singleton] at hmore
    unfold wrap rows Row.bytes
    rw [← Row.text_append_singleton, limit]
    dsimp only
    split_ifs
    · exact congrArg ((r.append [o]).text :: ·) (ih (.continued []))
    · exact hmore

/-- The lines of a block are its only greedy division. -/
lemma wraps_iff {r : Row} {block : List Row} (hleast : 5 ≤ r.bytes)
    (hfit : r.entries = [] ∨ r.bytes ≤ 80) (hnil : os = [] → 5 < r.bytes) :
    Wraps r os block ↔ block = rows r os := by
  induction os generalizing r block with
  | nil => rw [wraps_nil (Row.text_ne_blank (hnil rfl)) hfit, rows, if_pos (hnil rfl)]
  | cons o os ih =>
    have hmore := r.bytes_lt_append_singleton o
    unfold rows
    split_ifs with hlong
    · have hlater (later : List Row) : (os = [] ∧ later = [] ∨ os ≠ [] ∧ Wraps (.continued []) os later) ↔
          later = rows (.continued []) os := by
        by_cases hos : os = []
        · subst hos
          simp [rows, Row.bytes, Row.continued, Row.text, bytes_blank]
        · rw [← ih (Nat.le_refl _) (.inl rfl) fun h => absurd h hos]
          simp [hos]
      simp only [wraps_cons_of_long hfit hlong, hlater, exists_eq_right]
    · have hfits : (r.append [o]).bytes ≤ 80 := Nat.le_of_not_lt hlong
      rw [wraps_cons_of_fits hfits]
      exact ih (by omega) (.inr hfits) fun _ => by omega

lemma length_le_utf8ByteSize (s : String) : s.length ≤ s.utf8ByteSize := by
  have hlist (cs : List Char) : cs.length ≤ String.utf8Len cs := by
    induction cs with
    | nil => exact Nat.le_refl 0
    | cons c cs ih =>
      have hc := c.utf8Size_pos
      rw [String.utf8Len_cons, List.length_cons]
      omega
  have h := hlist s.toList
  rwa [← String.utf8ByteSize_ofList, String.ofList_toList, String.length_toList] at h

/-- The rank takes three columns or more and the name sixteen. -/
lemma lt_bytes_heading (rank : Nat) (problem : String) : 5 < (Row.heading rank problem).bytes := by
  have hlength : 5 < (Row.heading rank problem).text.length := by
    simp [Row.text, Row.heading]
    omega
  exact Nat.lt_of_lt_of_le hlength (length_le_utf8ByteSize _)

lemma wraps_heading {rank : Nat} {problem : String} {block : List Row} :
    Wraps (.heading rank problem) os block ↔ rows (.heading rank problem) os = block := by
  have h := lt_bytes_heading rank problem
  rw [wraps_iff (Nat.le_of_lt h) (.inl rfl) fun _ => h, eq_comm]

lemma header_eq (rank : Nat) (problem : String) : header rank problem = (Row.heading rank problem).text := by
  simp [header, Row.heading, Row.text, Text.rightNat, Text.right, Text.left, Text.fill, String.append_assoc]

lemma text_eq (m : OmittedByProblem) : text m = Text.unlines
    (((m.zipIdx 1).map fun x => rows (.heading x.2 x.1.1) x.1.2).flatten.map Row.text) := by
  have hblock (x : (String × List Omitted) × Nat) :
      block x.2 x.1.1 x.1.2 = (rows (.heading x.2 x.1.1) x.1.2).map Row.text := by
    rw [block, header_eq]
    exact wrap_eq (.heading x.2 x.1.1) x.1.2
  unfold text Text.unlines
  simp only [hblock, ← List.flatMap_def, List.map_flatMap]

/-- The lines of all problems: a block for each, in order, with ranks from 1. -/
def Blocks (m : OmittedByProblem) (blocks : List (List Row)) : Prop :=
  List.Forall₂ (fun x block => Wraps (.heading x.2 x.1.1) x.1.2 block) (m.zipIdx 1) blocks

lemma blocks_iff {m : OmittedByProblem} {blocks : List (List Row)} :
    Blocks m blocks ↔ (m.zipIdx 1).map (fun x => rows (.heading x.2 x.1.1) x.1.2) = blocks := by
  unfold Blocks
  simp only [wraps_heading]
  rw [← List.forall₂_map_left_iff, List.forall₂_eq_eq_eq]

lemma Blocks.text_eq {m : OmittedByProblem} {blocks : List (List Row)} (h : Blocks m blocks) :
    text m = Text.unlines (blocks.flatten.map Row.text) := by
  rw [Listing.text_eq, blocks_iff.mp h]

section Flat

/-- No name holds a line feed. -/
def Flat (m : OmittedByProblem) : Prop :=
  ∀ x ∈ m, '\n' ∉ x.1.toList ∧ ∀ o ∈ x.2, '\n' ∉ o.solution.toList

instance (m : OmittedByProblem) : Decidable (Flat m) := List.decidableBAll _ m

lemma not_mem_toDigits (n : Nat) : '\n' ∉ Nat.toDigits 10 n :=
  fun h => absurd (Nat.isDigit_of_mem_toDigits (by decide) (by decide) h) (by decide)

/-- A line without line feeds in its parts has none. -/
lemma Row.not_mem_text {start mark : String} (hstart : '\n' ∉ start.toList) (hmark : '\n' ∉ mark.toList)
    (hos : ∀ o ∈ os, '\n' ∉ o.solution.toList) : '\n' ∉ (Row.text ⟨start, mark, os⟩).toList := by
  induction os using List.reverseRecOn with
  | nil => exact hstart
  | append_singleton os o ih =>
    obtain ⟨hfront, ho⟩ := List.forall_mem_append.mp hos
    have hmore := Row.text_append_singleton ⟨start, mark, os⟩ o
    have hcomma : '\n' ∉ (Row.separator ⟨start, mark, os⟩).toList := by
      unfold Row.separator
      split_ifs
      · exact hmark
      · decide
    rw [Row.append] at hmore
    rw [hmore]
    simp [ih hfront, hcomma, entry, not_mem_toDigits, ho]

lemma Row.not_mem_start (rank : Nat) {problem : String} (h : '\n' ∉ problem.toList) :
    '\n' ∉ (Row.heading rank problem).start.toList := by
  simp [Row.heading, not_mem_toDigits, h, List.mem_replicate]

lemma Wraps.not_mem_text {rank : Nat} {problem : String} {block : List Row}
    (h : Wraps (.heading rank problem) os block) (hproblem : '\n' ∉ problem.toList)
    (hos : ∀ o ∈ os, '\n' ∉ o.solution.toList) : ∀ row ∈ block, '\n' ∉ row.text.toList := by
  obtain ⟨first, rest, rfl, -⟩ := h.starts
  intro row hrow
  have hentries : ∀ o ∈ row.entries, '\n' ∉ o.solution.toList := by
    intro o ho
    have hmem : o ∈ (Row.heading rank problem).entries ++ os := h.entries ▸ List.mem_flatMap.mpr ⟨row, hrow, ho⟩
    exact hos o hmem
  rcases List.mem_cons.mp hrow with rfl | hrow
  · have hmark : '\n' ∉ ":".toList := by decide
    exact Row.not_mem_text (Row.not_mem_start rank hproblem) hmark hentries
  · obtain ⟨later, -, rfl⟩ := List.mem_map.mp hrow
    exact Row.not_mem_text (by decide) (by decide) hentries

lemma Blocks.not_mem_text {m : OmittedByProblem} {blocks : List (List Row)} (h : Blocks m blocks)
    (hflat : Flat m) : ∀ row ∈ blocks.flatten, '\n' ∉ row.text.toList := by
  intro row hrow
  obtain ⟨block, hblock, hrow⟩ := List.mem_flatten.mp hrow
  obtain ⟨x, hx, hwraps⟩ := exists_of_forall₂_right h hblock
  obtain ⟨hproblem, hos⟩ := hflat x.1 (List.fst_mem_of_mem_zipIdx hx)
  exact hwraps.not_mem_text hproblem hos row hrow

end Flat

/-- The listing has a block for each problem in order, and a block is the only greedy division of its solutions
into lines, the first of which starts with the rank of the problem, counted from 1, and its name. Each line is
ended by a line feed, so cut at line feeds the text falls into these lines, and a line falls into further pieces
only where a name in it holds a line feed. -/
theorem text_eq_iff_wraps (m : OmittedByProblem) :
    (∀ listing, text m = listing ↔ ∃ blocks, Blocks m blocks ∧
      listing = String.join (blocks.flatten.map fun row => row.text ++ "\n")) ∧
    ∀ blocks, Blocks m blocks →
      (text m).toList.splitOn '\n' =
        (blocks.flatten.flatMap fun row => row.text.toList.splitOn '\n') ++ [[]] ∧
      (Flat m → (text m).toList.splitOn '\n' = (blocks.flatten.map fun row => row.text.toList) ++ [[]]) := by
  have hjoin (blocks : List (List Row)) (hblocks : Blocks m blocks) :
      text m = String.join (blocks.flatten.map fun row => row.text ++ "\n") := by
    rw [hblocks.text_eq, Text.unlines, List.map_map]
    rfl
  refine ⟨fun listing => ⟨?_, ?_⟩, ?_⟩
  · rintro rfl
    obtain ⟨blocks, hblocks⟩ : ∃ blocks, Blocks m blocks := ⟨_, blocks_iff.mpr rfl⟩
    exact ⟨blocks, hblocks, hjoin blocks hblocks⟩
  · rintro ⟨blocks, hblocks, rfl⟩
    exact hjoin blocks hblocks
  · intro blocks hblocks
    rw [hblocks.text_eq, ← Text.pieces_eq_splitOn]
    constructor
    · rw [Text.pieces_unlines, List.flatMap_map]
      simp only [Text.pieces_eq_splitOn]
    · intro hflat
      rw [Text.pieces_unlines_of_not_mem (List.forall_mem_map.mpr (hblocks.not_mem_text hflat)), List.map_map]
      rfl

/-- A problem whose solutions take more than a line, one without solutions, and one with a short line. -/
def longListing : OmittedByProblem :=
  [("p00001", (List.range 6).map fun i => ⟨"solution_" ++ toString i, 2⟩), ("übung", []), ("p00002", [⟨"tiny", 1⟩])]

/-- The first line is broken at 90 bytes, and the sixth solution stands alone behind five blanks. -/
theorem text_longListing_wraps : Flat longListing ∧
    text longListing =
      "  1 p00001          : solution_0/2, solution_1/2, solution_2/2, solution_3/2, solution_4/2\n" ++
      "      solution_5/2\n" ++ "  2 übung           \n" ++ "  3 p00002          : tiny/1\n" ∧
    ∃ blocks, Blocks longListing blocks ∧ blocks.flatten.map (fun row => row.text.toList) =
      ["  1 p00001          : solution_0/2, solution_1/2, solution_2/2, solution_3/2, solution_4/2".toList,
        "      solution_5/2".toList, "  2 übung           ".toList, "  3 p00002          : tiny/1".toList] := by
  have hflat : Flat longListing := by decide +kernel
  have htext : text longListing =
      "  1 p00001          : solution_0/2, solution_1/2, solution_2/2, solution_3/2, solution_4/2\n" ++
      "      solution_5/2\n" ++ "  2 übung           \n" ++ "  3 p00002          : tiny/1\n" := by
    decide +kernel
  obtain ⟨htexts, hlines⟩ := text_eq_iff_wraps longListing
  obtain ⟨blocks, hblocks, -⟩ := (htexts _).mp htext
  refine ⟨hflat, htext, blocks, hblocks, ?_⟩
  rw [← List.append_left_inj [[]], ← (hlines blocks hblocks).2 hflat, htext]
  simp only [String.toList_append]
  decide +kernel

end PairDatasets.Listing
