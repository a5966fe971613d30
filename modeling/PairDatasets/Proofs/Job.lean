import Mathlib.Tactic.Common
import PairDatasets.Job

/-! Work on files. Work in steps succeeds if every step does, and what can be said of each of its steps, of its
results, its errors or its success, can be said of the whole. -/
namespace PairDatasets.Job
variable {α β : Type} {s : Session}

/-- Work in two steps succeeds if the first step does, and the second from where it ended. -/
lemma bind_eq_ok {job : Job α} {next : α → Job β} {b : β} :
    ((job >>= next).run s).1 = .ok b ↔
      ∃ a, (job.run s).1 = .ok a ∧ ((next a).run (job.run s).2).1 = .ok b := by
  change (ExceptT.bindCont next (job.run s).1 (job.run s).2).1 = .ok b ↔ _
  cases (job.run s).1 with
  | error e =>
    constructor
    · intro h
      cases h
    · rintro ⟨a, ha, -⟩
      cases ha
  | ok a =>
    constructor
    · intro h
      exact ⟨a, rfl, h⟩
    · rintro ⟨a', ha, h⟩
      cases ha
      exact h

/-- The second step goes on where the first ended. -/
lemma run_bind {job : Job α} {next : α → Job β} {a : α} (h : (job.run s).1 = .ok a) :
    (job >>= next).run s = (next a).run (job.run s).2 := by
  change ExceptT.bindCont next (job.run s).1 (job.run s).2 = _
  rw [h]
  rfl

/-- What is reported on the way leaves the files as they are. -/
lemma run_ofLogged (m : Logged DatasetError α) :
    (ofLogged m).run s = (m.outcome, { s with events := s.events ++ m.events }) := by
  unfold ofLogged
  cases m.outcome <;> rfl

lemma run_liftM (x : Except DatasetError α) :
    (liftM x : Job α).run s = (x, { s with events := s.events ++ [] }) :=
  run_ofLogged (Logged.ofExcept x)

lemma run_makeDirectories (path : String) : (makeDirectories path).run s =
    ((s.files.makeDirectories path).2.mapError .file,
      { s with files := (s.files.makeDirectories path).1 }) := by
  cases h : s.files.makeDirectories path with
  | mk files made =>
    unfold makeDirectories
    rw [run_bind (a := s) rfl]
    change ExceptT.run (m := StateM Session) _ s = _
    rw [h]
    cases made <;> rfl

lemma run_write (fault : FileError → DatasetError) (path text : String) :
    (write fault path text).run s = match s.files.writeText path text with
      | .ok t => (.ok (), { s with files := t })
      | .error e => (.error (fault e), s) := by
  unfold write
  rw [run_bind (a := s) rfl]
  change ExceptT.run (m := StateM Session) _ s = _
  cases s.files.writeText path text <;> rfl

section Results
variable {P : α → Prop} {Q : β → Prop}

/-- Wherever the work starts, what it results in has a property. -/
def Yields (P : α → Prop) (job : Job α) : Prop := ∀ s a, (job.run s).1 = .ok a → P a

lemma yields_pure {a : α} (h : P a) : Yields P (pure a : Job α) := by
  rintro s a' ⟨⟩
  exact h

lemma Yields.bind {job : Job α} {next : α → Job β} (hjob : Yields P job)
    (hnext : ∀ a, P a → Yields Q (next a)) : Yields Q (job >>= next) := by
  intro s b h
  obtain ⟨a, ha, hb⟩ := bind_eq_ok.mp h
  exact hnext a (hjob s a ha) _ b hb

/-- What the first step results in may not matter. -/
lemma yields_bind {job : Job α} {next : α → Job β} (hnext : ∀ a, Yields Q (next a)) :
    Yields Q (job >>= next) := by
  intro s b h
  obtain ⟨a, -, hb⟩ := bind_eq_ok.mp h
  exact hnext a _ b hb

lemma Yields.apply {job : Job α} (h : Yields P job) {a : α} (ha : (job.run s).1 = .ok a) : P a :=
  h s a ha

lemma yields_ofLogged (m : Logged DatasetError α) :
    Yields (fun a => m.outcome = .ok a) (ofLogged m) := by
  intro s a h
  rwa [run_ofLogged] at h

lemma yields_liftM (x : Except DatasetError α) : Yields (fun a => x = .ok a) (liftM x) :=
  yields_ofLogged (Logged.ofExcept x)

/-- Wherever the work starts, it has a result. -/
def Succeeds (job : Job α) : Prop := ∀ s, ∃ a, (job.run s).1 = .ok a

lemma succeeds_pure (a : α) : Succeeds (pure a : Job α) := fun _ => ⟨a, rfl⟩

lemma Succeeds.bind {job : Job α} {next : α → Job β} (hjob : Succeeds job) (hyields : Yields P job)
    (hnext : ∀ a, P a → Succeeds (next a)) : Succeeds (job >>= next) := by
  intro s
  obtain ⟨a, ha⟩ := hjob s
  obtain ⟨b, hb⟩ := hnext a (hyields s a ha) (job.run s).2
  exact ⟨b, bind_eq_ok.mpr ⟨a, ha, hb⟩⟩

lemma succeeds_bind_ofLogged {m : Logged DatasetError α} {next : α → Job β} {a : α}
    (h : m.outcome = .ok a) (hnext : Succeeds (next a)) : Succeeds (ofLogged m >>= next) := by
  have hm : Succeeds (ofLogged m) := fun s => ⟨a, by rw [run_ofLogged]; exact h⟩
  refine hm.bind (yields_ofLogged m) fun a' ha' => ?_
  rw [h] at ha'
  cases ha'
  exact hnext

lemma succeeds_bind_emit {events : List Event} {next : Unit → Job β} (hnext : Succeeds (next ())) :
    Succeeds (emit events >>= next) :=
  fun s => hnext { s with events := s.events ++ events }

end Results

section Errors
variable {P : DatasetError → Prop}

/-- Whatever the files are, only such errors stop the work. -/
def Raises (P : DatasetError → Prop) (job : Job α) : Prop :=
  ∀ s e, (job.run s).1 = .error e → P e

lemma raises_pure (a : α) : Raises P (pure a : Job α) := by
  intro s e h
  cases h

lemma raises_throw {e : DatasetError} (he : P e) : Raises P (throw e : Job α) := by
  intro s e' h
  cases h
  exact he

lemma raises_get : Raises P (get : Job Session) := by
  intro s e h
  cases h

lemma raises_modify (f : Session → Session) : Raises P (modify f : Job Unit) := by
  intro s e h
  cases h

lemma Raises.bind {job : Job α} {next : α → Job β} (hjob : Raises P job)
    (hnext : ∀ a, Raises P (next a)) : Raises P (job >>= next) := by
  intro s e h
  have hs := hjob s
  change (ExceptT.bindCont next (job.run s).1 (job.run s).2).1 = .error e at h
  cases hrun : (job.run s).1 with
  | error e' =>
    rw [hrun] at h
    cases h
    exact hs e hrun
  | ok a =>
    rw [hrun] at h
    exact hnext a _ e h

lemma raises_makeDirectories (path : String) (hP : ∀ e, P (.file e)) :
    Raises P (makeDirectories path) := by
  unfold makeDirectories
  refine raises_get.bind fun s => ?_
  obtain ⟨files, made⟩ := s.files.makeDirectories path
  refine (raises_modify _).bind fun _ => ?_
  cases made with
  | ok u => exact raises_pure ()
  | error e => exact raises_throw (hP e)

lemma raises_write {fault : FileError → DatasetError} (path text : String)
    (hP : ∀ e, P (fault e)) : Raises P (write fault path text) := by
  unfold write
  refine raises_get.bind fun s => ?_
  cases s.files.writeText path text with
  | ok files => exact raises_modify _
  | error e => exact raises_throw (hP e)

end Errors
end PairDatasets.Job
