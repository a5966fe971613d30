import Mathlib.Data.List.Nodup
import PairDatasets.Error
import PairDatasets.Files.Tree

/-! Names of files. Making a directory and writing a file put one entry into a tree. So a tree that is laid out
from files has every location once, whatever is made or written in it, and a directory lists no name twice. -/
namespace PairDatasets.FileTree
variable {t t' : FileTree} {path : String} {content : ByteArray}

section Steps
variable {name : String}

lemma map_checkName_eq_ok {α : Type} {a b : α} :
    ((checkName name).map fun _ => a) = .ok b ↔ checkName name = .ok () ∧ a = b := by
  cases checkName name <;> simp [Except.map]

/-- A directory is made where nothing stands. -/
lemma makeDirectory_eq_ok : t.makeDirectory path = .ok t' ↔ ∃ loc name,
    t.walkAbove path = .ok (some (loc, name)) ∧ isDotName name = false ∧
      t.entryAt (loc ++ [name]) = none ∧ checkName name = .ok () ∧ t' = t.put (loc ++ [name]) .directory := by
  unfold makeDirectory
  rw [bind_eq_ok]
  constructor
  · rintro ⟨found, hfound, h⟩
    split at h
    · cases h
    · next loc name =>
      split_ifs at h with hnew
      rw [Bool.or_eq_true, not_or, Bool.not_eq_true, Option.not_isSome_iff_eq_none] at hnew
      obtain ⟨hname, rfl⟩ := map_checkName_eq_ok.mp h
      exact ⟨loc, name, hfound, hnew.1, hnew.2, hname, rfl⟩
  · rintro ⟨loc, name, hfound, hdot, hnone, hname, rfl⟩
    refine ⟨_, hfound, ?_⟩
    dsimp only
    rw [hdot, hnone, hname]
    rfl

/-- A file is written where no directory stands. -/
lemma write_eq_ok : t.write path content = .ok t' ↔ ∃ loc name,
    t.walkAbove path = .ok (some (loc, name)) ∧ isDotName name = false ∧ Path.endsInSlash path = false ∧
      t.entryAt (loc ++ [name]) ≠ some .directory ∧ checkName name = .ok () ∧
        t' = t.put (loc ++ [name]) (.file content) := by
  unfold write
  rw [bind_eq_ok]
  constructor
  · rintro ⟨found, hfound, h⟩
    split at h
    · cases h
    · next loc name =>
      split_ifs at h with hnew
      rw [Bool.or_eq_true, not_or, Bool.not_eq_true, Bool.not_eq_true] at hnew
      split at h
      · cases h
      · next hfree =>
        obtain ⟨hname, rfl⟩ := map_checkName_eq_ok.mp h
        exact ⟨loc, name, hfound, hnew.1, hnew.2, hfree, hname, rfl⟩
  · rintro ⟨loc, name, hfound, hdot, hslash, hfree, hname, rfl⟩
    refine ⟨_, hfound, ?_⟩
    dsimp only
    rw [hdot, hslash, hname]
    split
    · next h => cases h
    · split
      · next hdirectory => exact absurd hdirectory hfree
      · rfl

end Steps

/-- No location is there twice. -/
def Distinct (t : FileTree) : Prop := (t.entries.map Prod.fst).Nodup

lemma Distinct.put (h : t.Distinct) (loc : Location) (e : Entry) : (t.put loc e).Distinct := by
  unfold FileTree.put
  split_ifs with hany
  · -- the entry is replaced where it stands, so the locations stay as they are
    have hfst (x : Location × Entry) : (if x.1 = loc then (x.1, e) else x).1 = x.1 := by
      split_ifs <;> rfl
    unfold Distinct
    rw [List.map_map]
    exact (List.map_congr_left fun x _ => hfst x).symm ▸ h
  · have hloc : loc ∉ t.entries.map Prod.fst := by
      intro hmem
      obtain ⟨x, hx, rfl⟩ := List.mem_map.mp hmem
      exact hany (List.any_eq_true.mpr ⟨x, hx, by simp⟩)
    unfold Distinct
    rw [List.map_append]
    exact h.append (List.nodup_singleton loc) (List.disjoint_singleton.mpr hloc)

lemma Distinct.makeDirectory (h : t.Distinct) (ht : t.makeDirectory path = .ok t') :
    t'.Distinct := by
  obtain ⟨loc, name, -, -, -, -, rfl⟩ := makeDirectory_eq_ok.mp ht
  exact h.put _ _

lemma Distinct.write (h : t.Distinct) (ht : t.write path content = .ok t') : t'.Distinct := by
  obtain ⟨loc, name, -, -, -, -, -, rfl⟩ := write_eq_ok.mp ht
  exact h.put _ _

lemma Distinct.makeAlong (h : t.Distinct) (paths : List String) : (t.makeAlong paths).1.Distinct := by
  induction paths with
  | nil => exact h
  | cons path parents ih =>
    unfold FileTree.makeAlong
    split
    · next hmade => exact h.makeDirectory hmade
    · split
      · next hparents => rwa [hparents] at ih
      · next hparents =>
        rw [hparents] at ih
        split
        · next hmade => exact ih.makeDirectory hmade
        · exact ih
    · exact h

lemma Distinct.makeDirectories (h : t.Distinct) (path : String) :
    (t.makeDirectories path).1.Distinct := by
  unfold FileTree.makeDirectories
  split_ifs
  · exact h
  · exact h.makeAlong _

lemma Distinct.plant (h : t.Distinct) (path : String) (content : ByteArray) :
    (t.plant path content).Distinct := by
  have habove := h.makeAlong (Path.ancestors path)
  unfold FileTree.plant
  dsimp only
  split_ifs
  · exact habove.makeDirectories path
  · split
    · next hwritten => exact habove.write hwritten
    · exact habove

theorem distinct_ofFiles (files : List (String × ByteArray)) : (ofFiles files).Distinct := by
  have hplants (t : FileTree) (h : t.Distinct) :
      (files.foldl (fun t file => t.plant file.1 file.2) t).Distinct := by
    induction files generalizing t with
    | nil => exact h
    | cons file files ih => exact ih _ (h.plant _ _)
  exact hplants {} List.nodup_nil

/-- The names that a directory lists lead to different locations. -/
lemma sublist_fileNames {dir : String} {loc : Location} (h : t.walk dir = .ok loc) :
    ((t.fileNames dir).map fun name => loc ++ [name]).Sublist (t.entries.map Prod.fst) := by
  unfold fileNames
  rw [h]
  dsimp only
  induction t.entries with
  | nil => exact .slnil
  | cons x entries ih =>
    obtain ⟨l, e⟩ := x
    rw [List.filterMap_cons, List.map_cons]
    split
    · exact ih.cons _
    · next name hname =>
      have hl : l = loc ++ [name] := by
        split at hname
        · split_ifs at hname with hl
          cases hname
          exact hl
        · cases hname
      rw [List.map_cons, hl]
      exact ih.cons_cons _

theorem Distinct.nodup_fileNames (h : t.Distinct) (dir : String) : (t.fileNames dir).Nodup := by
  cases hwalk : t.walk dir with
  | error e =>
    unfold fileNames
    rw [hwalk]
    exact .nil
  | ok loc => exact (h.sublist (sublist_fileNames hwalk)).of_map _

end PairDatasets.FileTree
