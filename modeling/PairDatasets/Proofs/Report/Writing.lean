import PairDatasets.Proofs.Files.Directory
import PairDatasets.Proofs.Job
import PairDatasets.Report.Writer

/-! Writing reports. What is written under a directory is stored there text by text: writing succeeds where the
directory takes the files, and changes nothing but these files. -/
namespace PairDatasets

namespace Job
open FileTree
variable {α β : Type} {dir file text : String} {texts texts' : List (String × String)} {a : α} {b : β}

/-- Work that stores texts in a directory and does nothing else to the files. It succeeds where the directory
takes the texts, and then ends with `a`. -/
structure Leaves (dir : String) (texts : List (String × String)) (a : α) (job : Job α) : Prop where
  names : ∀ x ∈ texts, NameEnd x.1
  result : ∀ s b, (job.run s).1 = .ok b ↔ b = a ∧ ∃ t, Stored dir texts s.files t
  stored : ∀ s b, (job.run s).1 = .ok b → Stored dir texts s.files (job.run s).2.files

lemma leaves_pure (a : α) : Leaves dir [] a (pure a : Job α) where
  names := nofun
  result s b := by
    change Except.ok a = .ok b ↔ _
    simp [Stored, eq_comm]
  stored s b _ := .inl ⟨rfl, rfl⟩

lemma leaves_emit (events : List Event) : Leaves dir [] () (emit events) where
  names := nofun
  result s b := by
    change Except.ok () = .ok b ↔ _
    simp [Stored]
  stored s b _ := .inl ⟨rfl, rfl⟩

lemma Leaves.bind {job : Job α} {next : α → Job β} (hjob : Leaves dir texts a job)
    (hnext : Leaves dir texts' b (next a)) : Leaves dir (texts ++ texts') b (job >>= next) where
  names := List.forall_mem_append.mpr ⟨hjob.names, hnext.names⟩
  result s b' := by
    simp only [Job.bind_eq_ok, stored_append hjob.names]
    constructor
    · rintro ⟨a', ha, hb⟩
      obtain ⟨rfl, -⟩ := (hjob.result s a').mp ha
      obtain ⟨rfl, t, ht⟩ := (hnext.result _ b').mp hb
      exact ⟨rfl, t, _, hjob.stored s a' ha, ht⟩
    · rintro ⟨rfl, t, mid, hmid, ht⟩
      have ha : (job.run s).1 = .ok a := (hjob.result s a).mpr ⟨rfl, mid, hmid⟩
      obtain rfl : mid = (job.run s).2.files := hmid.unique (hjob.stored s a ha)
      exact ⟨a, ha, (hnext.result _ b').mpr ⟨rfl, t, ht⟩⟩
  stored s b' h := by
    obtain ⟨a', ha, hb⟩ := Job.bind_eq_ok.mp h
    obtain ⟨rfl, -⟩ := (hjob.result s a').mp ha
    rw [run_bind ha, stored_append hjob.names]
    exact ⟨_, hjob.stored s a' ha, hnext.stored _ b' hb⟩

/-- A directory is made and a file is written in it. -/
lemma leaves_write {fault : FileError → DatasetError} (hfile : NameEnd file) (text : String) :
    Leaves dir [(file, text)] ()
      (makeDirectories dir >>= fun _ => write fault (Path.join dir file) text) := by
  have hwrite (s : Session) : ((write fault (Path.join dir file) text).run s).1 = .ok () ↔
      ∃ t, s.files.writeText (Path.join dir file) text = .ok t := by
    rw [run_write]
    cases s.files.writeText (Path.join dir file) text <;> simp
  refine ⟨by simpa using hfile, fun s b => ?_, fun s b h => ?_⟩
  · simp only [Job.bind_eq_ok, run_makeDirectories, mapError_eq_ok, hwrite, stored_singleton hfile,
      exists_and_left, true_and]
    constructor
    · rintro ⟨⟨⟩, h⟩
      exact h
    · exact fun h => ⟨(), h⟩
  · obtain ⟨⟨⟩, hmade, hb⟩ := Job.bind_eq_ok.mp h
    rw [run_bind hmade]
    rw [run_makeDirectories] at hmade hb ⊢
    obtain ⟨t, ht⟩ := (hwrite _).mp hb
    rw [run_write, ht, stored_singleton hfile]
    exact ⟨mapError_eq_ok.mp hmade, ht⟩

lemma leaves_forM {xs : List β} {f : β → Job Unit} {texts : β → List (String × String)}
    (h : ∀ x, Leaves dir (texts x) () (f x)) : Leaves dir (xs.flatMap texts) () (xs.forM f) := by
  induction xs with
  | nil => exact leaves_pure ()
  | cons x xs ih => exact (h x).bind ih

end Job

namespace Report
variable {dir file : String}

lemma leaves_writeText (hfile : NameEnd file) (text : String) :
    Job.Leaves dir [(file, text)] (Path.join dir file) (writeText dir file text) := by
  unfold writeText
  rw [← bind_assoc]
  exact (Job.leaves_write hfile text).bind ((Job.leaves_emit _).bind (Job.leaves_pure _))

lemma leaves_writeTexts (dir : String) {texts : List (String × String)} (hnames : ∀ x ∈ texts, NameEnd x.1) :
    Job.Leaves dir texts (texts.map fun x => Path.join dir x.1)
      (texts.mapM fun (file, text) => writeText dir file text) := by
  induction texts with
  | nil => exact Job.leaves_pure []
  | cons x texts ih =>
    rw [List.forall_mem_cons] at hnames
    rw [List.mapM_cons]
    have hrest : Job.Leaves dir (texts ++ []) ((x :: texts).map fun x => Path.join dir x.1)
        (texts.mapM (fun (file, text) => writeText dir file text) >>= fun paths =>
          pure (Path.join dir x.1 :: paths)) := (ih hnames.2).bind (Job.leaves_pure _)
    rw [List.append_nil] at hrest
    exact (leaves_writeText hnames.1 x.2).bind hrest

end Report
end PairDatasets
