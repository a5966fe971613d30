import Mathlib.Data.List.Basic
import PairDatasets.Files.Tree
import PairDatasets.Proofs.Text.Pieces

/-! Reading text files: what a path reads is what stands at the location it leads to, and the name of
that location ends as the path does. -/
namespace PairDatasets

namespace Path

lemma steps_append {suffix : String} (path : String) (hne : suffix.toList ≠ [])
    (h : '/' ∉ suffix.toList) : ∃ init stem, steps (path ++ suffix) = init ++ [stem ++ suffix] := by
  obtain ⟨init, last, -, htail⟩ : ∃ init last, Text.pieces '/' path.toList = init ++ [last] ∧
      Text.pieces '/' (path.toList ++ suffix.toList) = init ++ [last ++ suffix.toList] :=
    Text.pieces_append h
  unfold steps
  rw [String.toList_append, htail]
  refine ⟨(init.filter fun p => !p.isEmpty).map String.ofList, String.ofList last, ?_⟩
  simp [hne, String.ofList_append]

lemma endsInSlash_append {suffix : String} (path : String) (hne : suffix.toList ≠ [])
    (h : '/' ∉ suffix.toList) : endsInSlash (path ++ suffix) = false := by
  unfold endsInSlash
  rw [String.toList_append, List.getLast?_append_of_ne_nil _ hne, decide_eq_false_iff_not]
  intro hlast
  exact h (List.mem_of_getLast? hlast)

lemma join_eq_append (dir name : String) : ∃ front, join dir name = front ++ name := by
  unfold join
  split_ifs
  · exact ⟨"", by simp⟩
  · exact ⟨dir, rfl⟩
  · exact ⟨dir ++ "/", rfl⟩

end Path

/-- The end of a file name: no slash is in it, and no name that ends so is a point or two. -/
structure NameEnd (suffix : String) : Prop where
  flat : '/' ∉ suffix.toList
  long : 2 < suffix.length

namespace NameEnd
variable {suffix : String}

lemma ne_nil (h : NameEnd suffix) : suffix.toList ≠ [] := by
  intro hnil
  have hlong := h.long
  rw [← String.length_toList, hnil] at hlong
  cases hlong

/-- A name with this end is no way back and no way to stay. -/
lemma append_ne (h : NameEnd suffix) (stem : String) {point : String} (hpoint : point.length ≤ 2) :
    stem ++ suffix ≠ point := by
  rintro rfl
  have hlong := h.long
  rw [String.length_append] at hpoint
  omega

lemma ne (h : NameEnd suffix) {point : String} (hpoint : point.length ≤ 2) : suffix ≠ point := by
  rintro rfl
  exact absurd h.long (by omega)

end NameEnd

namespace FileTree
variable {t : FileTree} {path suffix : String} {loc : Location}

lemma getLast?_of_enter {name : String} {loc' : Location} (h : t.enter loc name = .ok loc')
    (hpoint : name ≠ ".") (hpoints : name ≠ "..") : loc'.getLast? = some name := by
  unfold enter checkName at h
  rw [if_neg hpoint, if_neg hpoints] at h
  split at h
  · cases h
  · cases h
  · split_ifs at h <;> cases h
    simp

theorem getLast?_of_walk (hend : NameEnd suffix) (h : t.walk (path ++ suffix) = .ok loc) :
    ∃ stem, loc.getLast? = some (stem ++ suffix) := by
  obtain ⟨init, stem, hsteps⟩ := Path.steps_append path hend.ne_nil hend.flat
  -- the last step is a name of its own and no way back, so the walk ends at it
  unfold walk at h
  rw [hsteps, Path.endsInSlash_append path hend.ne_nil hend.flat, List.foldlM_append] at h
  cases hcheck : checkPath (path ++ suffix) with
  | error e => simp [hcheck, bind, Except.bind] at h
  | ok u =>
    cases hinit : init.foldlM t.enter (start (path ++ suffix)) with
    | error e => simp [hcheck, hinit, bind, Except.bind] at h
    | ok above =>
      cases hlast : t.enter above (stem ++ suffix) with
      | error e => simp [hcheck, hinit, hlast, bind, Except.bind] at h
      | ok last =>
        simp only [hcheck, hinit, hlast, bind, Except.bind, List.foldlM_cons, List.foldlM_nil, pure,
          Except.pure, Bool.false_eq_true, if_false, Except.ok.injEq] at h
        subst h
        exact ⟨stem, getLast?_of_enter hlast (hend.append_ne stem (by decide))
          (hend.append_ne stem (by decide))⟩

lemma fromUTF8?_toUTF8 (s : String) : String.fromUTF8? s.toUTF8 = some s := by
  unfold String.fromUTF8?
  exact dif_pos s.isValidUTF8

lemma readText_of_look {s : String} (h : t.look path = .ok (.file s.toUTF8)) :
    t.readText path = .ok s := by
  unfold readText
  rw [h]
  simp only [bind, Except.bind, fromUTF8?_toUTF8]

end FileTree
end PairDatasets
