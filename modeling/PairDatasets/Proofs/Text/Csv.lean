import Mathlib.Tactic.Common
import PairDatasets.Text.Csv

/-! Reading comma separated records back. A reader goes from character to character; what is written for a field
takes it over that field, so a table of records is read as it was before it was written. -/
namespace PairDatasets.Text.Csv

/-- Where the reader stands: before a record or one of its fields, in a field without quotes, between quotes, or
after a quote that closes the field unless another follows. -/
inductive Mode where
  | record
  | field
  | bare
  | quoted
  | closing
  deriving DecidableEq, Repr

/-- What was read: the records that ended, the fields that ended in the next one, and the field begun in it. -/
structure Reader where
  records : List (List String) := []
  fields : List String := []
  begun : List Char := []
  mode : Mode := .record
  deriving Repr

namespace Reader

def push (r : Reader) (mode : Mode) (c : Char) : Reader := { r with begun := r.begun ++ [c], mode := mode }

def endField (r : Reader) : Reader :=
  { r with fields := r.fields ++ [String.ofList r.begun], begun := [], mode := .field }

def endRecord (r : Reader) : Reader where
  records := r.records ++ [r.fields ++ [String.ofList r.begun]]

/-- A character outside quotes. -/
def plain (r : Reader) (c : Char) : Reader :=
  if c = ',' then r.endField else if c = '\n' ∨ c = '\r' then r.endRecord else r.push .bare c

/-- One character. Lines without any are passed over, and so is the line feed after a carriage return. -/
def step (r : Reader) (c : Char) : Reader :=
  match r.mode with
  | .record =>
    if c = '\n' ∨ c = '\r' then r else if c = '"' then { r with mode := .quoted } else r.plain c
  | .field => if c = '"' then { r with mode := .quoted } else r.plain c
  | .bare => r.plain c
  | .quoted => if c = '"' then { r with mode := .closing } else r.push .quoted c
  | .closing => if c = '"' then r.push .quoted c else r.plain c

/-- The end of the text ends a record that was begun. -/
def finish (r : Reader) : List (List String) :=
  if r.mode = .record then r.records else r.endRecord.records

end Reader

/-- The records of a text. -/
def decode (text : String) : List (List String) := (text.toList.foldl Reader.step {}).finish

example : decode "a,\"b,\"\"c\n\"\r\n\n,d" = [["a", "b,\"c\n"], ["", "d"]] := by decide

section Fields
variable {r : Reader} {cs : List Char} {f : String} {fs : List String} {rows : List (List String)}

namespace Reader

lemma plain_of_not_needsQuotes {c : Char} (hc : needsQuotes c = false) : r.plain c = r.push .bare c := by
  simp only [needsQuotes, Bool.or_eq_false_iff, decide_eq_false_iff_not] at hc
  simp [plain, hc]

lemma foldl_bare (hcs : ∀ c ∈ cs, needsQuotes c = false) (hmode : r.mode = .bare) :
    cs.foldl step r = { r with begun := r.begun ++ cs } := by
  induction cs generalizing r with
  | nil => simp
  | cons c cs ih =>
    rw [List.forall_mem_cons] at hcs
    have hstep : r.step c = r.push .bare c := by
      simp only [step, hmode]
      exact plain_of_not_needsQuotes hcs.1
    rw [List.foldl_cons, hstep, ih hcs.2 rfl]
    simp [push, hmode]

lemma foldl_quoted (hmode : r.mode = .quoted) (cs : List Char) :
    (doubleQuotes cs).foldl step r = { r with begun := r.begun ++ cs } := by
  induction cs generalizing r with
  | nil => simp [doubleQuotes]
  | cons c cs ih =>
    have hread : (doubleQuotes (c :: cs)).foldl step r = (doubleQuotes cs).foldl step (r.push .quoted c) := by
      rw [doubleQuotes]
      split_ifs with hc
      · simp [step, hmode, hc, push]
      · simp [step, hmode, hc]
    rw [hread, ih rfl]
    simp [push, hmode]

/-- A field is read whole, and the reader stands where a comma ends it. -/
lemma foldl_field (hmode : r.mode = .record ∨ r.mode = .field) (hbegun : r.begun = []) (cs : List Char) :
    ∃ mode, (fieldChars cs).foldl step r = { r with begun := cs, mode := mode } ∧ mode ≠ .quoted ∧
      (mode = .record → r.mode = .record ∧ cs = []) := by
  unfold fieldChars
  split_ifs with hquotes
  · refine ⟨.closing, ?_, nofun, nofun⟩
    have hopen : r.step '"' = { r with mode := .quoted } := by
      obtain hmode | hmode := hmode <;> simp [step, hmode]
    rw [List.cons_append, List.foldl_cons, hopen, List.foldl_append, foldl_quoted rfl]
    simp [step, hbegun]
  · have hcs : ∀ c ∈ cs, needsQuotes c = false := by simpa using hquotes
    cases cs with
    | nil =>
      have hread : { r with begun := [] } = r := by rw [← hbegun]
      refine ⟨r.mode, hread.symm, ?_, fun h => ⟨h, rfl⟩⟩
      obtain hmode | hmode := hmode <;> simp [hmode]
    | cons c cs =>
      rw [List.forall_mem_cons] at hcs
      have hfirst : r.step c = r.push .bare c := by
        have hplain := plain_of_not_needsQuotes (r := r) hcs.1
        have hc := hcs.1
        simp only [needsQuotes, Bool.or_eq_false_iff, decide_eq_false_iff_not] at hc
        obtain hmode | hmode := hmode <;> simp [step, hmode, hc, hplain]
      refine ⟨.bare, ?_, nofun, nofun⟩
      rw [List.foldl_cons, hfirst, foldl_bare hcs.2 rfl]
      simp [push, hbegun]

lemma step_comma (h : r.mode ≠ .quoted) : r.step ',' = r.endField := by
  unfold step
  cases hmode : r.mode <;> simp_all [plain]

lemma step_lineFeed (h : r.mode ≠ .quoted) (h' : r.mode ≠ .record) : r.step '\n' = r.endRecord := by
  unfold step
  cases hmode : r.mode <;> simp_all [plain]

end Reader

lemma record_cons_cons (f g : String) (fs : List String) :
    record (f :: g :: fs) = field f ++ "," ++ record (g :: fs) := by
  unfold record
  rw [List.map_cons, List.map_cons, join, String.intercalate_cons_cons]
  simp only [String.append_assoc]
  rfl

/-- A record is read field by field. A line with nothing on it would be no record. -/
lemma foldl_record (hmode : r.mode = .record ∨ r.mode = .field) (hbegun : r.begun = [])
    (hline : r.mode = .record → f :: fs ≠ [""]) :
    (record (f :: fs)).toList.foldl Reader.step r = { records := r.records ++ [r.fields ++ f :: fs] } := by
  have hfield : (field f).toList = fieldChars f.toList := by simp [field]
  induction fs generalizing f r with
  | nil =>
    obtain ⟨mode, hread, hquoted, hrecord⟩ := r.foldl_field hmode hbegun f.toList
    have hmode' : mode ≠ .record := by
      intro h
      obtain ⟨hr, hempty⟩ := hrecord h
      rw [String.toList_eq_nil_iff] at hempty
      exact hline hr (by rw [hempty])
    have htext : (record [f]).toList = fieldChars f.toList ++ ['\n'] := by
      simp [record, join, hfield]
    rw [htext, List.foldl_append, hread, List.foldl_cons, List.foldl_nil, Reader.step_lineFeed hquoted hmode']
    simp [Reader.endRecord]
  | cons g fs ih =>
    obtain ⟨mode, hread, hquoted, -⟩ := r.foldl_field hmode hbegun f.toList
    have htext : (record (f :: g :: fs)).toList = fieldChars f.toList ++ ',' :: (record (g :: fs)).toList := by
      simp [record_cons_cons, hfield]
    have hnext (r : Reader) : (record (g :: fs)).toList.foldl Reader.step r.endField =
        { records := r.records ++ [r.endField.fields ++ g :: fs] } :=
      ih (.inr rfl) rfl nofun (by simp [field])
    rw [htext, List.foldl_append, hread, List.foldl_cons, Reader.step_comma hquoted, hnext]
    simp [Reader.endField]

lemma foldl_records (hrows : ∀ row ∈ rows, row ≠ [] ∧ row ≠ [""]) (before : List (List String)) :
    (String.join (rows.map record)).toList.foldl Reader.step { records := before } =
      { records := before ++ rows } := by
  induction rows generalizing before with
  | nil => simp
  | cons row rows ih =>
    rw [List.forall_mem_cons] at hrows
    obtain ⟨⟨hne, hline⟩, hrows⟩ := hrows
    obtain ⟨f, fs, rfl⟩ := List.exists_cons_of_ne_nil hne
    rw [List.map_cons, String.join_cons, String.toList_append, List.foldl_append,
      foldl_record (.inl rfl) rfl fun _ => hline]
    simpa using ih hrows (before ++ [f :: fs])

/-- A table is read as it was written, if none of its records is an empty line. -/
theorem decode_records (hrows : ∀ row ∈ rows, row ≠ [] ∧ row ≠ [""]) :
    decode (String.join (rows.map record)) = rows := by
  unfold decode
  rw [foldl_records hrows []]
  rfl

end Fields

end PairDatasets.Text.Csv
