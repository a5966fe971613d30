import PairDatasets.Proofs.Files.Contents
import PairDatasets.Proofs.Files.Names

/-! Files of one directory. The path of a name in a directory leads to that name at the place of the directory,
so a text that is written there is read there, and nothing else in the tree has changed. A directory that was
made is not made again. -/
namespace PairDatasets

namespace Path
variable {dir file : String}

lemma isAbsolute_of_nameEnd (hfile : NameEnd file) : isAbsolute file = false := by
  unfold isAbsolute
  rw [decide_eq_false_iff_not]
  intro hhead
  exact hfile.flat (List.mem_of_head? hhead)

/-- What a path to a name says before it: the directory, with a slash after it. -/
lemma join_cases (dir : String) (hfile : NameEnd file) :
    (dir = "" ∧ join dir file = file) ∨
      (dir ≠ "" ∧ ∃ front, (join dir file).toList = front ++ '/' :: file.toList ∧
        (dir.toList = front ∨ dir.toList = front ++ ['/'])) := by
  unfold join
  rw [isAbsolute_of_nameEnd hfile]
  by_cases hempty : dir = ""
  · subst hempty
    exact .inl ⟨rfl, by simp⟩
  · refine .inr ⟨hempty, ?_⟩
    cases hslash : endsInSlash dir with
    | true =>
      obtain ⟨front, hfront⟩ := List.getLast?_eq_some_iff.mp (of_decide_eq_true hslash)
      refine ⟨front, ?_, .inr hfront⟩
      simp [hfront]
    | false => exact ⟨dir.toList, by simp [hempty], .inl rfl⟩

/-- A name in a directory is one more step. -/
lemma steps_join (hfile : NameEnd file) : steps (join dir file) = steps dir ++ [file] := by
  have hlast : Text.pieces '/' file.toList = [file.toList] := Text.pieces_of_not_mem hfile.flat
  have hkeep : [file.toList].filter (fun p => !p.isEmpty) = [file.toList] := by
    simp [hfile.ne_nil]
  unfold steps
  obtain ⟨rfl, hjoin⟩ | ⟨-, front, hjoin, hdir⟩ := join_cases dir hfile
  · rw [hjoin, hlast, hkeep]
    simp [Text.pieces]
  · rw [hjoin, Text.pieces_append_cons, hlast, List.filter_append, List.map_append, hkeep]
    obtain hdir | hdir := hdir
    · rw [hdir]
      simp
    · -- the slash at the end of the directory is followed by an empty piece, which is no step
      rw [hdir, Text.pieces_append_cons]
      simp [Text.pieces]

lemma isAbsolute_join (hfile : NameEnd file) : isAbsolute (join dir file) = isAbsolute dir := by
  obtain ⟨rfl, hjoin⟩ | ⟨hdir, front, hjoin, hfront⟩ := join_cases dir hfile
  · rw [hjoin, isAbsolute_of_nameEnd hfile]
    rfl
  · unfold isAbsolute
    rw [hjoin]
    obtain hfront | hfront := hfront
    · have hne : front ≠ [] := by
        rintro rfl
        exact hdir (String.toList_eq_nil_iff.mp hfront)
      rw [hfront, List.head?_append_of_ne_nil _ hne]
    · rw [hfront]
      cases front <;> rfl

lemma endsInSlash_join (hfile : NameEnd file) : endsInSlash (join dir file) = false := by
  obtain ⟨front, hfront⟩ := join_eq_append dir file
  rw [hfront, endsInSlash_append front hfile.ne_nil hfile.flat]

end Path

namespace FileTree
variable {t t' : FileTree} {dir file path text : String} {loc place : Location} {e : Entry}
  {content : ByteArray}

section Entries

lemma isGiven_append (hfile : NameEnd file) (place : Location) : isGiven (place ++ [file]) = false := by
  have hpoints : file ≠ ".." := hfile.ne (by decide)
  have hslash : file ≠ "/" := hfile.ne (by decide)
  unfold isGiven
  cases place <;> simp [hpoints, hslash]

/-- An entry that is put over another is found where that was. -/
lemma find?_map_replace (entries : List (Location × Entry)) (h : ∃ x ∈ entries, x.1 = loc) (e : Entry)
    (loc' : Location) :
    ((entries.map fun x => if x.1 = loc then (x.1, e) else x).find? fun x => x.1 = loc').map Prod.snd =
      if loc' = loc then some e else (entries.find? fun x => x.1 = loc').map Prod.snd := by
  have hkey : (fun x : Location × Entry => decide (x.1 = loc')) ∘ (fun x => if x.1 = loc then (x.1, e) else x) =
      fun x => decide (x.1 = loc') := by
    funext x
    have hfst : (if x.1 = loc then (x.1, e) else x).1 = x.1 := by split_ifs <;> rfl
    simp [hfst]
  rw [List.find?_map, hkey]
  cases hx : entries.find? fun x => x.1 = loc' with
  | none =>
    have hne : loc' ≠ loc := by
      rintro rfl
      obtain ⟨x, hmem, hloc⟩ := h
      exact List.find?_eq_none.mp hx x hmem (decide_eq_true hloc)
    rw [if_neg hne]
    rfl
  | some x =>
    have hloc : x.1 = loc' := by simpa using List.find?_some hx
    by_cases h : loc' = loc
    · simp [hloc, h]
    · simp [hloc, h]

/-- An entry that is put at the end is found if there was none. -/
lemma find?_append_new (entries : List (Location × Entry)) (h : ∀ x ∈ entries, x.1 ≠ loc) (e : Entry)
    (loc' : Location) :
    ((entries ++ [(loc, e)]).find? fun x => x.1 = loc').map Prod.snd =
      if loc' = loc then some e else (entries.find? fun x => x.1 = loc').map Prod.snd := by
  rw [List.find?_append]
  by_cases hloc : loc' = loc
  · subst hloc
    have hnone : entries.find? (fun x => x.1 = loc') = none := by simpa using h
    simp [hnone]
  · have hne : loc ≠ loc' := Ne.symm hloc
    simp [hloc, hne]

/-- An entry that is put into a tree stands at its location, and all others stay. -/
lemma entryAt_put (hgiven : isGiven loc = false) (e : Entry) (loc' : Location) :
    (t.put loc e).entryAt loc' = if loc' = loc then some e else t.entryAt loc' := by
  have hfind : ((t.put loc e).entries.find? fun x => x.1 = loc').map Prod.snd =
      if loc' = loc then some e else (t.entries.find? fun x => x.1 = loc').map Prod.snd := by
    unfold put
    split
    · next hany => exact find?_map_replace t.entries (by simpa using hany) e loc'
    · next hany =>
      refine find?_append_new t.entries (fun x hx hloc => hany ?_) e loc'
      exact List.any_eq_true.mpr ⟨x, hx, decide_eq_true hloc⟩
  unfold entryAt
  by_cases h : loc' = loc
  · subst h
    rw [hgiven]
    simpa using hfind
  · rw [if_neg h] at hfind
    rw [if_neg h, hfind]

end Entries

section Places

/-- Every directory is still a directory. -/
def Within (t t' : FileTree) : Prop :=
  ∀ loc, t.entryAt loc = some .directory → t'.entryAt loc = some .directory

lemma Within.refl (t : FileTree) : t.Within t := fun _ h => h

lemma within_put (hgiven : isGiven loc = false) (h : t.entryAt loc ≠ some .directory) (e : Entry) :
    t.Within (t.put loc e) := by
  intro loc' hloc'
  rw [entryAt_put hgiven, if_neg, hloc']
  rintro rfl
  exact h hloc'

/-- A step is made from a directory, and where it leads does not depend on the tree. -/
lemma enter_eq_ok {name : String} : t.enter loc name = .ok place ↔
    t.entryAt loc = some .directory ∧
      (if name = "." then .ok loc else if name = ".." then .ok (above loc)
        else (checkName name).map fun _ => loc ++ [name]) = .ok place := by
  unfold enter
  cases t.entryAt loc with
  | none => simp
  | some e => cases e <;> simp

lemma Within.enter (h : t.Within t') {name : String} (hplace : t.enter loc name = .ok place) :
    t'.enter loc name = .ok place := by
  rw [enter_eq_ok] at hplace ⊢
  exact hplace.imp_left (h loc)

lemma Within.foldlM_enter (h : t.Within t') {names : List String}
    (hplace : names.foldlM t.enter loc = .ok place) : names.foldlM t'.enter loc = .ok place := by
  induction names generalizing loc with
  | nil => exact hplace
  | cons name names ih =>
    rw [List.foldlM_cons] at hplace ⊢
    obtain ⟨next, hnext, hplace⟩ := bind_eq_ok.mp hplace
    exact bind_eq_ok.mpr ⟨next, h.enter hnext, ih hplace⟩

lemma look_eq_ok : t.look path = .ok e ↔ ∃ loc, t.walk path = .ok loc ∧ t.entryAt loc = some e := by
  unfold look
  rw [bind_eq_ok]
  refine exists_congr fun loc => and_congr_right fun _ => ?_
  cases t.entryAt loc <;> simp

/-- The place of the files of a directory. -/
def placeOf (t : FileTree) (dir : String) : Except FileError Location := do
  let loc ← (Path.steps dir).foldlM t.enter (start dir)
  t.enter loc "."

lemma Within.placeOf (h : t.Within t') (hplace : t.placeOf dir = .ok place) :
    t'.placeOf dir = .ok place := by
  obtain ⟨loc, hloc, hplace⟩ := bind_eq_ok.mp hplace
  exact bind_eq_ok.mpr ⟨loc, h.foldlM_enter hloc, h.enter hplace⟩

/-- A name and its path in a directory are not too long. -/
structure Fits (dir file : String) : Prop where
  path : checkPath (Path.join dir file) = .ok ()
  name : checkName file = .ok ()

lemma start_join (hfile : NameEnd file) : start (Path.join dir file) = start dir := by
  unfold start
  rw [Path.isAbsolute_join hfile]

lemma walk_join (hfile : NameEnd file) :
    t.walk (Path.join dir file) = checkPath (Path.join dir file) >>= fun _ =>
      t.placeOf dir >>= fun place => (checkName file).map fun _ => place ++ [file] := by
  have hpoint : file ≠ "." := hfile.ne (by decide)
  have hpoints : file ≠ ".." := hfile.ne (by decide)
  have hlast (loc : Location) : t.enter loc file = t.enter loc "." >>= fun place =>
      (checkName file).map fun _ => place ++ [file] := by
    unfold enter
    cases t.entryAt loc with
    | none => rfl
    | some e => cases e <;> simp [hpoint, hpoints, bind, Except.bind]
  have hok (x : Except FileError Location) : (x >>= fun loc => .ok loc) = x := by cases x <;> rfl
  unfold walk placeOf
  rw [Path.steps_join hfile, start_join hfile, Path.endsInSlash_join hfile, List.foldlM_append]
  simp [hlast, hok]

lemma walkAbove_join (hfile : NameEnd file) :
    t.walkAbove (Path.join dir file) = checkPath (Path.join dir file) >>= fun _ =>
      t.placeOf dir >>= fun place => .ok (some (place, file)) := by
  unfold walkAbove placeOf
  rw [Path.steps_join hfile, start_join hfile]
  simp

/-- What the path of a name leads to depends on what stands at the place of its directory. -/
lemma look_join_congr (hfile : NameEnd file) (hplace : t.placeOf dir = .ok place)
    (hplace' : t'.placeOf dir = .ok place)
    (h : t.entryAt (place ++ [file]) = t'.entryAt (place ++ [file])) :
    t.look (Path.join dir file) = t'.look (Path.join dir file) := by
  unfold look
  rw [walk_join hfile, walk_join hfile, hplace, hplace']
  cases checkPath (Path.join dir file) with
  | error e => rfl
  | ok u =>
    cases checkName file with
    | error e => rfl
    | ok u' =>
      dsimp only [bind, Except.bind, Except.map]
      rw [h]

lemma readText_join (hfile : NameEnd file) (hfits : Fits dir file)
    (hplace : t.placeOf dir = .ok place)
    (h : t.entryAt (place ++ [file]) = some (.file text.toUTF8)) :
    t.readText (Path.join dir file) = .ok text := by
  refine readText_of_look (look_eq_ok.mpr ⟨place ++ [file], ?_, h⟩)
  rw [walk_join hfile, hfits.path, hplace, hfits.name]
  rfl

/-- A name of a directory is written to where the path leads. -/
lemma write_join_eq_ok (hfile : NameEnd file) : t.write (Path.join dir file) content = .ok t' ↔
    Fits dir file ∧ ∃ place, t.placeOf dir = .ok place ∧
      t.entryAt (place ++ [file]) ≠ some .directory ∧ t' = t.put (place ++ [file]) (.file content) := by
  have hname : isDotName file = false := by
    have hpoint : file ≠ "." := hfile.ne (by decide)
    have hpoints : file ≠ ".." := hfile.ne (by decide)
    simp [isDotName, hpoint, hpoints]
  rw [write_eq_ok, walkAbove_join hfile]
  constructor
  · rintro ⟨loc, name, hfound, -, -, hfree, hcheck, rfl⟩
    obtain ⟨⟨⟩, hpath, hfound⟩ := bind_eq_ok.mp hfound
    obtain ⟨place, hplace, hsome⟩ := bind_eq_ok.mp hfound
    obtain ⟨rfl, rfl⟩ : place = loc ∧ file = name := by simpa using hsome
    exact ⟨⟨hpath, hcheck⟩, place, hplace, hfree, rfl⟩
  · rintro ⟨hfits, place, hplace, hfree, rfl⟩
    refine ⟨place, file, ?_, hname, Path.endsInSlash_join hfile, hfree, hfits.name, rfl⟩
    rw [hfits.path, hplace]
    rfl

end Places

section Making

/-- A path leads where its steps do; a slash at its end asks for a directory there. -/
lemma walk_eq_ok : t.walk path = .ok loc ↔ checkPath path = .ok () ∧
    (Path.steps path).foldlM t.enter (start path) = .ok loc ∧
      (Path.endsInSlash path = true → t.entryAt loc = some .directory) := by
  unfold walk
  simp only [bind_eq_ok]
  constructor
  · rintro ⟨⟨⟩, hpath, loc', hsteps, hend⟩
    split at hend
    · obtain ⟨hentry, ⟨⟩⟩ := enter_eq_ok.mp hend
      exact ⟨hpath, hsteps, fun _ => hentry⟩
    · next hslash =>
      cases hend
      exact ⟨hpath, hsteps, fun h => absurd h hslash⟩
  · rintro ⟨hpath, hsteps, hend⟩
    refine ⟨(), hpath, loc, hsteps, ?_⟩
    split
    · next hslash => exact enter_eq_ok.mpr ⟨hend hslash, rfl⟩
    · rfl

lemma isDirectory_eq_true : t.isDirectory path = true ↔ checkPath path = .ok () ∧
    ∃ loc, (Path.steps path).foldlM t.enter (start path) = .ok loc ∧
      t.entryAt loc = some .directory := by
  have hlook : t.isDirectory path = true ↔ t.look path = .ok .directory := by
    unfold isDirectory
    split
    · next h => simp [h]
    · next h => simpa using h
  rw [hlook, look_eq_ok]
  simp only [walk_eq_ok]
  constructor
  · rintro ⟨loc, ⟨hpath, hsteps, -⟩, hentry⟩
    exact ⟨hpath, loc, hsteps, hentry⟩
  · rintro ⟨hpath, loc, hsteps, hentry⟩
    exact ⟨loc, ⟨hpath, hsteps, fun _ => hentry⟩, hentry⟩

lemma Within.isDirectory (h : t.Within t') (hpath : t.isDirectory path = true) :
    t'.isDirectory path = true := by
  obtain ⟨hcheck, loc, hsteps, hentry⟩ := isDirectory_eq_true.mp hpath
  exact isDirectory_eq_true.mpr ⟨hcheck, loc, h.foldlM_enter hsteps, h loc hentry⟩

/-- The last step of a path is made from a directory. -/
lemma walkAbove_eq_some {name : String} : t.walkAbove path = .ok (some (loc, name)) ↔
    checkPath path = .ok () ∧ t.entryAt loc = some .directory ∧
      ∃ front, Path.steps path = front ++ [name] ∧ front.foldlM t.enter (start path) = .ok loc := by
  unfold walkAbove
  simp only [bind_eq_ok]
  constructor
  · rintro ⟨⟨⟩, hpath, h⟩
    split at h
    · cases h
    · next hlast =>
      simp only [bind_eq_ok] at h
      obtain ⟨loc', hsteps, place, hpoint, ⟨⟩⟩ := h
      obtain ⟨front, hfront⟩ := List.getLast?_eq_some_iff.mp hlast
      obtain ⟨hentry, ⟨⟩⟩ := enter_eq_ok.mp hpoint
      rw [hfront, List.dropLast_concat] at hsteps
      exact ⟨hpath, hentry, front, hfront, hsteps⟩
  · rintro ⟨hpath, hentry, front, hfront, hsteps⟩
    refine ⟨(), hpath, ?_⟩
    rw [hfront, List.getLast?_concat, List.dropLast_concat]
    simp only [bind_eq_ok]
    exact ⟨loc, hsteps, loc, enter_eq_ok.mpr ⟨hentry, rfl⟩, rfl⟩

lemma isGiven_of_entryAt (h : t.entryAt loc = none) : isGiven loc = false := by
  unfold entryAt at h
  split at h
  · cases h
  · next hgiven => simpa using hgiven

/-- A directory that was made is one. -/
lemma isDirectory_of_makeDirectory (h : t.makeDirectory path = .ok t') :
    t'.isDirectory path = true := by
  obtain ⟨loc, name, hfound, hdot, hnone, hname, rfl⟩ := makeDirectory_eq_ok.mp h
  obtain ⟨hpath, hentry, front, hsteps, hfront⟩ := walkAbove_eq_some.mp hfound
  have hgiven : isGiven (loc ++ [name]) = false := isGiven_of_entryAt hnone
  have hwithin : t.Within (t.put (loc ++ [name]) .directory) :=
    within_put hgiven (by simp [hnone]) .directory
  refine isDirectory_eq_true.mpr ⟨hpath, loc ++ [name], ?_, ?_⟩
  · have hplain : name ≠ "." ∧ name ≠ ".." := by simpa [isDotName] using hdot
    have hlast : (t.put (loc ++ [name]) .directory).enter loc name = .ok (loc ++ [name]) := by
      rw [enter_eq_ok, if_neg hplain.1, if_neg hplain.2, map_checkName_eq_ok]
      exact ⟨hwithin loc hentry, hname, rfl⟩
    rw [hsteps, List.foldlM_append, hwithin.foldlM_enter hfront]
    simp [hlast]
  · rw [entryAt_put hgiven, if_pos rfl]

/-- A directory is not made again. -/
lemma makeDirectory_of_isDirectory (h : t.isDirectory path = true) :
    t.makeDirectory path = .error .alreadyExists := by
  obtain ⟨hpath, loc, hsteps, hentry⟩ := isDirectory_eq_true.mp h
  unfold makeDirectory
  cases hlast : (Path.steps path).getLast? with
  | none =>
    have habove : t.walkAbove path = .ok none := by
      unfold walkAbove
      rw [hpath, hlast]
      rfl
    rw [habove]
    rfl
  | some name =>
    obtain ⟨front, hfront⟩ := List.getLast?_eq_some_iff.mp hlast
    rw [hfront, List.foldlM_append, bind_eq_ok] at hsteps
    obtain ⟨above, habove, hname⟩ := hsteps
    rw [List.foldlM_cons, bind_eq_ok] at hname
    obtain ⟨loc', hname, ⟨⟩⟩ := hname
    obtain ⟨hdirectory, hloc⟩ := enter_eq_ok.mp hname
    have hfound : t.walkAbove path = .ok (some (above, name)) :=
      walkAbove_eq_some.mpr ⟨hpath, hdirectory, front, hfront, habove⟩
    -- a step that is no name leads to a directory that exists, and so does one that was made
    have hthere : (isDotName name || (t.entryAt (above ++ [name])).isSome) = true := by
      by_cases hdot : isDotName name = true
      · rw [hdot, Bool.true_or]
      · have hplain : name ≠ "." ∧ name ≠ ".." := by simpa [isDotName] using hdot
        rw [if_neg hplain.1, if_neg hplain.2, map_checkName_eq_ok] at hloc
        obtain ⟨-, rfl⟩ := hloc
        rw [hentry]
        simp
    rw [hfound]
    exact if_pos hthere

lemma isDirectory_of_makeAlong {parents : List String}
    (h : t.makeAlong (path :: parents) = (t', .ok ())) : t'.isDirectory path = true := by
  have hrefused (t₀ : FileTree) (e : FileError)
      (h₀ : (t₀, if t₀.isDirectory path then .ok () else .error e) = (t', Except.ok ())) :
      t'.isDirectory path = true := by
    obtain ⟨rfl, hthere⟩ := Prod.mk.inj h₀
    by_contra hnot
    rw [if_neg hnot] at hthere
    cases hthere
  unfold makeAlong at h
  split at h
  · next hmade =>
    cases h
    exact isDirectory_of_makeDirectory hmade
  · split at h
    · cases h
    · split at h
      · next hmade =>
        cases h
        exact isDirectory_of_makeDirectory hmade
      · exact hrefused _ _ h
  · exact hrefused _ _ h

/-- After a directory was made with all those above it, no tree that has it makes anything. -/
theorem makeDirectories_again (h : t.makeDirectories dir = (t', .ok ())) {t'' : FileTree}
    (hwithin : t'.Within t'') : t''.makeDirectories dir = (t'', .ok ()) := by
  unfold makeDirectories at h ⊢
  split at h
  · next hempty => rw [if_pos hempty]
  · next hempty =>
    have hthere : t''.isDirectory dir = true := hwithin.isDirectory (isDirectory_of_makeAlong h)
    rw [if_neg hempty, makeAlong, makeDirectory_of_isDirectory hthere]
    change (t'', if t''.isDirectory dir then Except.ok () else _) = _
    rw [if_pos hthere]

end Making
section Storing
variable {texts texts' : List (String × String)} {files : List String}

/-- Texts put at a place, one after another. -/
def store (t : FileTree) (place : Location) (texts : List (String × String)) : FileTree :=
  texts.foldl (fun t x => t.put (place ++ [x.1]) (.file x.2.toUTF8)) t

lemma store_append : t.store place (texts ++ texts') = (t.store place texts).store place texts' :=
  List.foldl_append

lemma entryAt_store_of_ne (hnames : ∀ x ∈ texts, NameEnd x.1)
    (h : ∀ x ∈ texts, loc ≠ place ++ [x.1]) : (t.store place texts).entryAt loc = t.entryAt loc := by
  induction texts generalizing t with
  | nil => rfl
  | cons x texts ih =>
    rw [List.forall_mem_cons] at hnames h
    calc ((t.put (place ++ [x.1]) (.file x.2.toUTF8)).store place texts).entryAt loc
        = (t.put (place ++ [x.1]) (.file x.2.toUTF8)).entryAt loc := ih hnames.2 h.2
      _ = t.entryAt loc := by rw [entryAt_put (isGiven_append hnames.1 place), if_neg h.1]

/-- A file holds the last text that was put there. -/
lemma entryAt_store_last (hnames : ∀ x ∈ texts, NameEnd x.1) {front back : List (String × String)}
    (htexts : texts = front ++ (file, text) :: back) (hback : ∀ x ∈ back, x.1 ≠ file) :
    (t.store place texts).entryAt (place ++ [file]) = some (.file text.toUTF8) := by
  subst htexts
  have hfile : NameEnd file := hnames (file, text) (by simp)
  have hbacknames : ∀ x ∈ back, NameEnd x.1 := fun x hx => hnames x (by simp [hx])
  have hother : ∀ x ∈ back, place ++ [file] ≠ place ++ [x.1] := by
    intro x hx heq
    exact hback x hx (by simpa using heq.symm)
  rw [store_append]
  change (((t.store place front).put (place ++ [file]) (.file text.toUTF8)).store place back).entryAt
    _ = _
  rw [entryAt_store_of_ne hbacknames hother, entryAt_put (isGiven_append hfile place), if_pos rfl]

/-- Files and no directories are put at a place. -/
lemma directory_store (hnames : ∀ x ∈ texts, NameEnd x.1)
    (h : (t.store place texts).entryAt loc = some .directory) : t.entryAt loc = some .directory := by
  induction texts generalizing t with
  | nil => exact h
  | cons x texts ih =>
    rw [List.forall_mem_cons] at hnames
    have hx := ih hnames.2 h
    rw [entryAt_put (isGiven_append hnames.1 place)] at hx
    split at hx
    · cases hx
    · exact hx

/-- A directory can be made, and files of these names can be written at its place. -/
structure Takes (t : FileTree) (dir : String) (place : Location) (files : List String) : Prop where
  made : (t.makeDirectories dir).2 = .ok ()
  leads : (t.makeDirectories dir).1.placeOf dir = .ok place
  fits : ∀ file ∈ files, Fits dir file
  free : ∀ file ∈ files, (t.makeDirectories dir).1.entryAt (place ++ [file]) ≠ some .directory

/-- What texts do to a tree when they are stored in a directory: nothing if there are none, else the
directory is made and the texts are put at its place. -/
def Stored (dir : String) (texts : List (String × String)) (t t' : FileTree) : Prop :=
  texts = [] ∧ t' = t ∨ texts ≠ [] ∧ ∃ place, t.Takes dir place (texts.map Prod.fst) ∧
    t' = (t.makeDirectories dir).1.store place texts

variable (hnames : ∀ x ∈ texts, NameEnd x.1)

section Made
variable (h : t.Takes dir place (texts.map Prod.fst))
include h hnames

lemma Takes.within_store : (t.makeDirectories dir).1.Within ((t.makeDirectories dir).1.store place texts) := by
  intro loc hloc
  rw [entryAt_store_of_ne hnames, hloc]
  rintro x hx rfl
  exact h.free x.1 (List.mem_map_of_mem hx) hloc

/-- The directory is made once. -/
lemma Takes.makeDirectories_store :
    ((t.makeDirectories dir).1.store place texts).makeDirectories dir =
      ((t.makeDirectories dir).1.store place texts, .ok ()) :=
  makeDirectories_again (Prod.ext rfl h.made) (h.within_store hnames)

/-- After texts were put at its place the directory takes the same files. -/
lemma Takes.takes_store {place' : Location} :
    ((t.makeDirectories dir).1.store place texts).Takes dir place' files ↔
      place' = place ∧ t.Takes dir place files := by
  have hagain := h.makeDirectories_store hnames
  have hleads := (h.within_store hnames).placeOf h.leads
  have hentry (loc : Location) :
      ((t.makeDirectories dir).1.store place texts).entryAt loc = some .directory ↔
        (t.makeDirectories dir).1.entryAt loc = some .directory :=
    ⟨directory_store hnames, h.within_store hnames loc⟩
  constructor
  · rintro ⟨-, hplace, hfits, hfree⟩
    rw [hagain] at hplace hfree
    obtain rfl : place = place' := Except.ok.inj (hleads.symm.trans hplace)
    exact ⟨rfl, h.made, h.leads, hfits, fun file hfile => mt (hentry _).mpr (hfree file hfile)⟩
  · rintro ⟨rfl, h'⟩
    refine ⟨by rw [hagain], by rw [hagain]; exact hleads, h'.fits, ?_⟩
    rw [hagain]
    exact fun file hfile => mt (hentry _).mp (h'.free file hfile)

end Made

lemma Takes.append_iff {files' : List String} : t.Takes dir place (files ++ files') ↔
    t.Takes dir place files ∧ t.Takes dir place files' := by
  constructor
  · rintro ⟨hmade, hleads, hfits, hfree⟩
    rw [List.forall_mem_append] at hfits hfree
    exact ⟨⟨hmade, hleads, hfits.1, hfree.1⟩, hmade, hleads, hfits.2, hfree.2⟩
  · rintro ⟨⟨hmade, hleads, hfits, hfree⟩, -, -, hfits', hfree'⟩
    exact ⟨hmade, hleads, List.forall_mem_append.mpr ⟨hfits, hfits'⟩,
      List.forall_mem_append.mpr ⟨hfree, hfree'⟩⟩

/-- No two trees are left. -/
lemma Stored.unique {t₁ t₂ : FileTree} (h₁ : Stored dir texts t t₁) (h₂ : Stored dir texts t t₂) :
    t₁ = t₂ := by
  obtain ⟨hnil, rfl⟩ | ⟨hne, place, h, rfl⟩ := h₁ <;>
    obtain ⟨hnil', rfl⟩ | ⟨hne', place', h', rfl⟩ := h₂
  · rfl
  · exact absurd hnil hne'
  · exact absurd hnil' hne
  · rw [Except.ok.inj (h.leads.symm.trans h'.leads)]

/-- A text is stored by making the directory and writing the file. -/
lemma stored_singleton (hfile : NameEnd file) {t' : FileTree} : Stored dir [(file, text)] t t' ↔
    (t.makeDirectories dir).2 = .ok () ∧
      (t.makeDirectories dir).1.writeText (Path.join dir file) text = .ok t' := by
  unfold writeText
  rw [write_join_eq_ok hfile]
  simp only [Stored, List.cons_ne_nil, false_and, not_false_eq_true, true_and, false_or, ne_eq]
  constructor
  · rintro ⟨place, ⟨hmade, hleads, hfits, hfree⟩, rfl⟩
    exact ⟨hmade, hfits file (.head _), place, hleads, hfree file (.head _), rfl⟩
  · rintro ⟨hmade, hfits, place, hleads, hfree, rfl⟩
    refine ⟨place, ⟨hmade, hleads, ?_, ?_⟩, rfl⟩
    · simpa using hfits
    · simpa using hfree

/-- A directory can be made, and any text can be written to a file in it. -/
structure Writable (t : FileTree) (dir file : String) : Prop where
  directory : (t.makeDirectories dir).2 = .ok ()
  file : ∀ text, ∃ t', (t.makeDirectories dir).1.writeText (Path.join dir file) text = .ok t'

lemma Writable.exists_takes (h : t.Writable dir file) (hfile : NameEnd file) :
    ∃ place, t.Takes dir place [file] := by
  obtain ⟨t', ht'⟩ := h.file ""
  obtain ⟨hnil, -⟩ | ⟨-, place, htakes, -⟩ := (stored_singleton hfile).mpr ⟨h.directory, ht'⟩
  · cases hnil
  · exact ⟨place, htakes⟩

include hnames in
/-- Texts can be stored if each can be written by itself. -/
lemma exists_stored (h : ∀ x ∈ texts, t.Writable dir x.1) : ∃ t', Stored dir texts t t' := by
  by_cases hnil : texts = []
  · exact ⟨t, .inl ⟨hnil, rfl⟩⟩
  · obtain ⟨y, rest, rfl⟩ := List.exists_cons_of_ne_nil hnil
    obtain ⟨place, hmade, hleads, -⟩ := (h y (.head _)).exists_takes (hnames y (.head _))
    have htakes (x : String × String) (hx : x ∈ y :: rest) : t.Takes dir place [x.1] := by
      obtain ⟨place', h'⟩ := (h x hx).exists_takes (hnames x hx)
      rwa [Except.ok.inj (hleads.symm.trans h'.leads)]
    refine ⟨_, .inr ⟨hnil, place, ⟨hmade, hleads, ?_, ?_⟩, rfl⟩⟩
    · rw [List.forall_mem_map]
      exact fun x hx => (htakes x hx).fits x.1 (.head _)
    · rw [List.forall_mem_map]
      exact fun x hx => (htakes x hx).free x.1 (.head _)

include hnames in
/-- Texts are stored at once as they are one part after the other. -/
theorem stored_append {t' : FileTree} : Stored dir (texts ++ texts') t t' ↔
    ∃ mid, Stored dir texts t mid ∧ Stored dir texts' mid t' := by
  by_cases hnil : texts = []
  · subst hnil
    simp [Stored]
  by_cases hnil' : texts' = []
  · subst hnil'
    simp [Stored]
  simp only [Stored, List.append_eq_nil_iff, hnil, hnil', false_and, false_or, not_false_eq_true,
    true_and, ne_eq, List.map_append, Takes.append_iff]
  constructor
  · rintro ⟨place, ⟨h, h'⟩, rfl⟩
    refine ⟨_, ⟨place, h, rfl⟩, place, (h.takes_store hnames).mpr ⟨rfl, h'⟩, ?_⟩
    rw [h.makeDirectories_store hnames, store_append]
  · rintro ⟨mid, ⟨place, h, rfl⟩, place', h', rfl⟩
    obtain ⟨rfl, h'⟩ := (h.takes_store hnames).mp h'
    exact ⟨place', ⟨h, h'⟩, by rw [h.makeDirectories_store hnames, store_append]⟩

section Reading
variable {t' : FileTree} (h : Stored dir texts t t')
include h hnames

lemma Stored.cases : texts = [] ∧ t' = t ∨ texts ≠ [] ∧ ∃ place,
    t.Takes dir place (texts.map Prod.fst) ∧ t' = (t.makeDirectories dir).1.store place texts ∧
      t'.placeOf dir = .ok place := by
  refine h.imp_right (And.imp_right ?_)
  rintro ⟨place, htakes, rfl⟩
  exact ⟨place, htakes, rfl, (htakes.within_store hnames).placeOf htakes.leads⟩

/-- The last text that was stored in a file is read there. -/
theorem Stored.readText {front back : List (String × String)}
    (htexts : texts = front ++ (file, text) :: back) (hback : ∀ x ∈ back, x.1 ≠ file) :
    t'.readText (Path.join dir file) = .ok text := by
  obtain ⟨hnil, -⟩ | ⟨-, place, htakes, ht', hplace⟩ := h.cases hnames
  · simp [htexts] at hnil
  · have hmem : (file, text) ∈ texts := by simp [htexts]
    refine readText_join (hnames _ hmem) (htakes.fits file (List.mem_map_of_mem hmem)) hplace ?_
    rw [ht']
    exact entryAt_store_last hnames htexts hback

/-- Another file of the directory is what it was when the directory had been made. -/
theorem Stored.look (hne : texts ≠ []) (hfile : NameEnd file) (hother : ∀ x ∈ texts, x.1 ≠ file) :
    t'.look (Path.join dir file) = (t.makeDirectories dir).1.look (Path.join dir file) := by
  obtain ⟨hnil, -⟩ | ⟨-, place, htakes, ht', hplace⟩ := h.cases hnames
  · exact absurd hnil hne
  · refine look_join_congr hfile hplace htakes.leads ?_
    rw [ht']
    refine entryAt_store_of_ne hnames ?_
    intro x hx heq
    exact hother x hx (by simpa using heq.symm)

/-- What no path of the files leads to is what it was when the directory had been made. -/
theorem Stored.entryAt (hne : texts ≠ []) (hloc : ∀ x ∈ texts, t'.walk (Path.join dir x.1) ≠ .ok loc) :
    t'.entryAt loc = (t.makeDirectories dir).1.entryAt loc := by
  obtain ⟨hnil, -⟩ | ⟨-, place, htakes, ht', hplace⟩ := h.cases hnames
  · exact absurd hnil hne
  · rw [ht']
    refine entryAt_store_of_ne hnames ?_
    rintro x hx rfl
    have hfits := htakes.fits x.1 (List.mem_map_of_mem hx)
    apply hloc x hx
    rw [walk_join (hnames x hx), hfits.path, hplace, hfits.name]
    rfl

end Reading

end Storing
end FileTree
end PairDatasets
