import Mathlib.Data.List.Forall2
import Mathlib.Data.List.Nodup
import Mathlib.Data.List.Perm.Basic
import PairDatasets.Corpus.Config
import PairDatasets.Corpus.Metadata
import PairDatasets.Proofs.Files.Contents
import PairDatasets.Proofs.Order.Canonical
import PairDatasets.Proofs.Order.Mapping

/-! Datasets in another order: trees whose directories list their files in another order, whose
solution files have their lines, and whose indices have their keys in another order. Paths lead to
the same places in both, and what is read there differs in order only. -/
namespace PairDatasets

namespace ProblemCounts
variable {fields fields' : List (String × Json)}

lemma setKey_of_not_mem {key : String} {value : Json} {acc : List (String × Json)}
    (h : key ∉ acc.map Prod.fst) : Json.setKey key value acc = acc ++ [(key, value)] := by
  induction acc with
  | nil => rfl
  | cons x acc ih =>
    rw [List.map_cons, List.mem_cons, not_or] at h
    rw [Json.setKey, if_neg (Ne.symm h.1), ih h.2, List.cons_append]

lemma foldl_setKey {acc : List (String × Json)} (h : ((acc ++ fields).map Prod.fst).Nodup) :
    fields.foldl (fun acc x => Json.setKey x.1 x.2 acc) acc = acc ++ fields := by
  -- `acc` holds the fields that were met; a key that is not there goes to its end
  induction fields generalizing acc with
  | nil => simp
  | cons x fields ih =>
    have hx : x.1 ∉ acc.map Prod.fst := by
      rw [List.map_append, List.nodup_append] at h
      intro hmem
      exact h.2.2 _ hmem _ (.head _) rfl
    rw [List.foldl_cons, setKey_of_not_mem hx, ih (by simpa using h)]
    simp

/-- An object whose keys are these texts. -/
def object (fields : List (String × Json)) : Json := .object (fields.map fun (k, v) => (some k, v))

lemma isPlain_object : (object fields).isPlain = fields.all fun x => x.2.isPlain := by
  change Json.plainFields (fields.map fun (k, v) => (some k, v)) = _
  induction fields with
  | nil => rfl
  | cons x fields ih => simp [Json.plainFields, ih]

lemma depth_object : (object fields).depth = (fields.map fun x => x.2.depth).foldr max 0 + 1 := by
  change Json.depthFields (fields.map fun (k, v) => (some k, v)) + 1 = _
  congr 1
  induction fields with
  | nil => rfl
  | cons x fields ih => simp [Json.depthFields, ih]

lemma entries?_object (h : (fields.map Prod.fst).Nodup) : entries? (object fields) =
    if (object fields).isPlain && (object fields).depth < depthLimit then some fields else none := by
  have hfold : fields.foldl (fun acc x => Json.setKey x.1 x.2 acc) [] = [] ++ fields :=
    foldl_setKey h
  unfold entries? object
  simp only [List.foldl_map, Option.getD_some]
  rw [hfold]
  rfl

/-- The entries of an object with distinct keys follow the order of its keys. -/
theorem entries?_perm (hperm : fields.Perm fields') (h : (fields.map Prod.fst).Nodup) :
    Option.Rel List.Perm (entries? (object fields)) (entries? (object fields')) := by
  have h' : (fields'.map Prod.fst).Nodup := (hperm.map Prod.fst).nodup_iff.mp h
  rw [entries?_object h, entries?_object h', isPlain_object, isPlain_object, hperm.all_eq,
    depth_object, depth_object, (hperm.map _).foldr_eq]
  split_ifs
  · exact .some hperm
  · exact .none

end ProblemCounts

/-- Texts in files of one name, in another order: the lines of a solution file, or the entries of an
index. -/
inductive Text.Reordered (name text text' : String) : Prop
  | lines (stem : String) (hname : name = stem ++ ".tkn")
      (h : (Text.lines text).Perm (Text.lines text')) : Reordered name text text'
  | keys (hname : name = "problems.json")
      (h : Option.Rel List.Perm ((Json.parse? text).bind ProblemCounts.entries?)
        ((Json.parse? text').bind ProblemCounts.entries?)) : Reordered name text text'

/-- Entries of one name, in another order. Of bytes that are no text nothing is read. -/
inductive Entry.Reordered (name : String) : Entry → Entry → Prop
  | directory : Reordered name .directory .directory
  | same (content : ByteArray) : Reordered name (.file content) (.file content)
  | bytes {content content' : ByteArray} (h : String.fromUTF8? content = none)
      (h' : String.fromUTF8? content' = none) : Reordered name (.file content) (.file content')
  | text {text text' : String} (h : Text.Reordered name text text') :
      Reordered name (.file text.toUTF8) (.file text'.toUTF8)

namespace FileTree
variable {t t' : FileTree}

/-- The last name of a location. -/
def lastName (loc : Location) : String := loc.getLast?.getD ""

/-- The same places hold the same entries up to order. -/
def SamePlaces (t t' : FileTree) : Prop :=
  ∀ loc, Option.Rel (Entry.Reordered (lastName loc)) (t.entryAt loc) (t'.entryAt loc)

/-- Two trees that differ in order only. -/
structure Reordered (t t' : FileTree) : Prop where
  samePlaces : t.SamePlaces t'
  fileNames : ∀ dir, (t.fileNames dir).Perm (t'.fileNames dir)

/-- No name has two ends of which neither ends in the other. -/
lemma append_ne_append {a b : String} (hab : ¬ a.toList <:+ b.toList) (hba : ¬ b.toList <:+ a.toList)
    (front front' : String) : front ++ a ≠ front' ++ b := by
  intro h
  have ha : a.toList <:+ (front ++ a).toList := by simp
  have hb : b.toList <:+ (front ++ a).toList := by simp [h]
  exact (List.suffix_or_suffix_of_suffix ha hb).elim hab hba

namespace SamePlaces

lemma enter_eq (h : t.SamePlaces t') : t.enter = t'.enter := by
  -- a step asks what kind of entry it leaves, never what is in it
  funext loc name
  have hloc := h loc
  unfold enter
  revert hloc
  cases t.entryAt loc <;> cases t'.entryAt loc <;> rintro ⟨⟩
  · rfl
  · next hentry => cases hentry <;> rfl

lemma walk_eq (h : t.SamePlaces t') : t.walk = t'.walk := by
  funext path
  unfold walk
  rw [h.enter_eq]

/-- A path leads nowhere in both trees, or to the same place. -/
lemma look_cases (h : t.SamePlaces t') (path : String) :
    (∃ e, t.look path = .error e ∧ t'.look path = .error e) ∨
      ∃ loc x x', t.walk path = .ok loc ∧ t.look path = .ok x ∧ t'.look path = .ok x' ∧
        Entry.Reordered (lastName loc) x x' := by
  unfold look
  rw [← h.walk_eq]
  cases t.walk path with
  | error e => exact .inl ⟨e, rfl, rfl⟩
  | ok loc =>
    have hloc := h loc
    revert hloc
    simp only [bind, Except.bind]
    cases t.entryAt loc <;> cases t'.entryAt loc <;> rintro ⟨⟩
    · exact .inl ⟨_, rfl, rfl⟩
    · next hentry => exact .inr ⟨loc, _, _, rfl, rfl, rfl, hentry⟩

lemma isFile_eq (h : t.SamePlaces t') (path : String) : t.isFile path = t'.isFile path := by
  unfold isFile
  obtain ⟨e, he, he'⟩ | ⟨loc, x, x', -, hx, hx', hentry⟩ := h.look_cases path
  · rw [he, he']
  · rw [hx, hx']
    cases hentry <;> rfl

lemma isDirectory_eq (h : t.SamePlaces t') (path : String) :
    t.isDirectory path = t'.isDirectory path := by
  unfold isDirectory
  obtain ⟨e, he, he'⟩ | ⟨loc, x, x', -, hx, hx', hentry⟩ := h.look_cases path
  · rw [he, he']
  · rw [hx, hx']
    cases hentry <;> rfl

theorem readText_cases (h : t.SamePlaces t') {suffix : String} (hend : NameEnd suffix)
    (front : String) :
    t.readText (front ++ suffix) = t'.readText (front ++ suffix) ∨
      ∃ stem text text', t.readText (front ++ suffix) = .ok text ∧
        t'.readText (front ++ suffix) = .ok text' ∧ Text.Reordered (stem ++ suffix) text text' := by
  obtain ⟨e, he, he'⟩ | ⟨loc, x, x', hloc, hx, hx', hentry⟩ := h.look_cases (front ++ suffix)
  · unfold readText
    rw [he, he']
    exact .inl rfl
  · obtain ⟨stem, hstem⟩ := getLast?_of_walk hend hloc
    have hname : lastName loc = stem ++ suffix := by
      rw [lastName, hstem]
      rfl
    rw [hname] at hentry
    cases hentry with
    | text htext => exact .inr ⟨stem, _, _, readText_of_look hx, readText_of_look hx', htext⟩
    | directory =>
      unfold readText
      rw [hx, hx']
      exact .inl rfl
    | same content =>
      unfold readText
      rw [hx, hx']
      exact .inl rfl
    | bytes hbytes hbytes' =>
      unfold readText
      rw [hx, hx']
      simp only [bind, Except.bind, hbytes, hbytes']
      exact .inl trivial

lemma readText_info (h : t.SamePlaces t') (dir : String) :
    t.readText (DatasetInfo.path dir) = t'.readText (DatasetInfo.path dir) := by
  obtain ⟨front, hfront⟩ := Path.join_eq_append dir "info.json"
  have hend : NameEnd "info.json" := ⟨by decide, by decide⟩
  rw [DatasetInfo.path, hfront]
  obtain heq | ⟨stem, text, text', -, -, htext⟩ := h.readText_cases hend front
  · exact heq
  -- a name that ends so is neither that of a solution file nor that of an index
  · cases htext with
    | lines stem' hname => exact absurd hname (append_ne_append (by decide) (by decide) _ _)
    | keys hname =>
      exact absurd hname (show stem ++ "info.json" ≠ "" ++ "problems.json" from
        append_ne_append (by decide) (by decide) _ _)

lemma readText_index (h : t.SamePlaces t') (dir : String) :
    t.readText (ProblemCounts.path dir) = t'.readText (ProblemCounts.path dir) ∨
      ∃ text text', t.readText (ProblemCounts.path dir) = .ok text ∧
        t'.readText (ProblemCounts.path dir) = .ok text' ∧
        Option.Rel List.Perm ((Json.parse? text).bind ProblemCounts.entries?)
          ((Json.parse? text').bind ProblemCounts.entries?) := by
  obtain ⟨front, hfront⟩ := Path.join_eq_append dir "problems.json"
  have hend : NameEnd "problems.json" := ⟨by decide, by decide⟩
  rw [ProblemCounts.path, hfront]
  refine (h.readText_cases hend front).imp_right ?_
  rintro ⟨stem, text, text', hread, hread', htext⟩
  cases htext with
  | lines stem' hname => exact absurd hname (append_ne_append (by decide) (by decide) _ _)
  | keys _ hrel => exact ⟨text, text', hread, hread', hrel⟩

lemma readText_problem (h : t.SamePlaces t') (c : CorpusConfig) (problem : String) :
    t.readText (c.problemPath problem) = t'.readText (c.problemPath problem) ∨
      ∃ text text', t.readText (c.problemPath problem) = .ok text ∧
        t'.readText (c.problemPath problem) = .ok text' ∧
        (Text.lines text).Perm (Text.lines text') := by
  obtain ⟨front, hfront⟩ := Path.join_eq_append c.directory (problem ++ ".tkn")
  have hend : NameEnd ".tkn" := ⟨by decide, by decide⟩
  rw [CorpusConfig.problemPath, hfront, ← String.append_assoc]
  refine (h.readText_cases hend _).imp_right ?_
  rintro ⟨stem, text, text', hread, hread', htext⟩
  cases htext with
  | lines _ _ hperm => exact ⟨text, text', hread, hread', hperm⟩
  | keys hname =>
    exact absurd hname (show stem ++ ".tkn" ≠ "" ++ "problems.json" from
      append_ne_append (by decide) (by decide) _ _)

end SamePlaces

/-- An entry stands where the list of entries says, if no location is there twice. -/
lemma entryAt_eq_some {loc : Location} {e : Entry} (hgiven : isGiven loc = false)
    (h : (t.entries.map Prod.fst).Nodup) : t.entryAt loc = some e ↔ (loc, e) ∈ t.entries := by
  unfold entryAt
  rw [hgiven]
  simp only [Bool.false_eq_true, if_false, Option.map_eq_some_iff]
  constructor
  · rintro ⟨x, hx, rfl⟩
    have hloc : x.1 = loc := by simpa using List.find?_some hx
    rw [← hloc]
    exact List.mem_of_find?_eq_some hx
  · intro hmem
    cases hfind : t.entries.find? fun x => x.1 = loc with
    | none => simpa using List.find?_eq_none.mp hfind _ hmem
    | some x =>
      have hloc : x.1 = loc := by simpa using List.find?_some hfind
      have hx := List.inj_on_of_nodup_map h (List.mem_of_find?_eq_some hfind) hmem hloc
      exact ⟨x, rfl, by rw [hx]⟩

/-- Entries of one location, the same up to order. -/
def Match (x y : Location × Entry) : Prop := x.1 = y.1 ∧ Entry.Reordered (lastName x.1) x.2 y.2

lemma samePlaces_of_entries (h : (t.entries.map Prod.fst).Nodup)
    (h' : (t'.entries.map Prod.fst).Nodup) (hleft : ∀ x ∈ t.entries, ∃ y ∈ t'.entries, Match x y)
    (hright : ∀ y ∈ t'.entries, ∃ x ∈ t.entries, Match x y) : t.SamePlaces t' := by
  intro loc
  cases hgiven : isGiven loc with
  | true =>
    unfold entryAt
    rw [hgiven]
    exact .some .directory
  | false =>
    cases hentry : t.entryAt loc with
    | none =>
      cases hentry' : t'.entryAt loc with
      | none => exact .none
      | some e' =>
        obtain ⟨⟨loc', e⟩, hx, rfl, -⟩ := hright _ ((entryAt_eq_some hgiven h').mp hentry')
        rw [(entryAt_eq_some hgiven h).mpr hx] at hentry
        cases hentry
    | some e =>
      obtain ⟨⟨loc', e'⟩, hy, rfl, hrel⟩ := hleft _ ((entryAt_eq_some hgiven h).mp hentry)
      rw [(entryAt_eq_some hgiven h').mpr hy]
      exact .some hrel

/-- Trees whose entries are the same up to order. -/
theorem reordered_of_entries {entries : List (Location × Entry)}
    (h : (t.entries.map Prod.fst).Nodup) (hperm : t.entries.Perm entries)
    (hrel : List.Forall₂ Match entries t'.entries) : t.Reordered t' := by
  have hlocs : entries.map Prod.fst = t'.entries.map Prod.fst :=
    map_eq_map_of_forall₂ (fun _ _ hxy => hxy.1) hrel
  have h' : (t'.entries.map Prod.fst).Nodup := by
    rw [← hlocs]
    exact (hperm.map Prod.fst).nodup_iff.mp h
  have hplaces : t.SamePlaces t' := by
    refine samePlaces_of_entries h h' ?_ ?_
    · intro x hx
      exact exists_of_forall₂_right hrel.flip (hperm.mem_iff.mp hx)
    · intro y hy
      obtain ⟨x, hx, hxy⟩ := exists_of_forall₂_right hrel hy
      exact ⟨x, hperm.mem_iff.mpr hx, hxy⟩
  refine ⟨hplaces, fun dir => ?_⟩
  unfold fileNames
  rw [hplaces.walk_eq]
  cases t'.walk dir with
  | error e => exact .nil
  | ok loc =>
    refine (hperm.filterMap _).trans (List.Perm.of_eq (filterMap_eq_of_forall₂ ?_ hrel))
    rintro ⟨l, e⟩ ⟨_, e'⟩ ⟨rfl, hentry⟩
    cases hentry with
    | directory => rfl
    | same content => rfl
    | bytes | text =>
      dsimp only
      cases l.getLast? <;> rfl

end FileTree
end PairDatasets
