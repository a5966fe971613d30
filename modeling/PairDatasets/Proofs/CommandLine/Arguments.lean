import PairDatasets.CommandLine.Grammar
import PairDatasets.Error
import Mathlib.Tactic.Common

/-! What arguments come to. Arguments that are read to the end are options read one after the other, each
at most once and none beside one that it excludes. -/
namespace PairDatasets
variable {O : Type} {opts : List (Opt O)} {start options : O} {given : List (Opt O)}

/-- Reading the options given, the latest first, one after the other from the start. -/
inductive Reads (opts : List (Opt O)) (start : O) : List (Opt O) → O → Prop
  | nothing : Reads opts start [] start
  | next {given : List (Opt O)} {options options' : O} {o : Opt O} {value : String}
      (reads : Reads opts start given options) (known : o ∈ opts)
      (fresh : ∀ a ∈ given, a.name ≠ o.name) (change : o.change value options = .ok options') :
      Reads opts start (o :: given) options'

/-- An option that has begun. -/
def Begun.opt? : Begun O → Option (Opt O)
  | .nothing => none
  | .unfilled o => some o
  | .filled o _ => some o

namespace Scan

/-- The scan has read the options that it lists, and what has begun is a known option. -/
structure Follows (opts : List (Opt O)) (start : O) (s : Scan O) : Prop where
  reads : Reads opts start s.given s.options
  known : ∀ o, s.begun.opt? = some o → o ∈ opts

lemma follows_start : Follows opts start { options := start } :=
  ⟨.nothing, fun _ h => by cases h⟩

variable {s s' : Scan O} {o : Opt O} {value : Option String}

lemma apply_follows {text : String} (hs : s.Follows opts start) (ho : o ∈ opts)
    (h : s.apply o text = .ok s') : s'.Follows opts start := by
  unfold apply at h
  split at h
  · cases h
  · rename_i hfresh
    split at h
    · cases h
    · cases h
    · rename_i options hchange
      cases h
      refine ⟨.next hs.reads ho ?_ hchange, fun _ hnone => by cases hnone⟩
      intro a ha heq
      exact hfresh (List.any_eq_true.mpr ⟨a, ha, by simpa using heq⟩)

lemma settle_follows (hs : s.Follows opts start) (h : s.settle = .ok s') : s'.Follows opts start := by
  unfold settle at h
  split at h
  · cases h
    exact hs
  · cases h
  · rename_i o value hbegun
    exact apply_follows hs (hs.known o (by rw [hbegun]; rfl)) h

lemma take_follows (hs : s.Follows opts start) (ho : o ∈ opts) (h : s.take o value = .ok s') :
    s'.Follows opts start := by
  unfold take at h
  split at h
  · cases h
  · obtain ⟨s₁, hsettle, happly⟩ := bind_eq_ok.mp h
    exact apply_follows (settle_follows hs hsettle) ho happly
  · obtain ⟨s₁, hsettle, happly⟩ := bind_eq_ok.mp h
    exact apply_follows (settle_follows hs hsettle) ho happly
  · obtain ⟨s₁, hsettle, hbegin⟩ := bind_eq_ok.mp h
    cases hbegin
    refine ⟨(settle_follows hs hsettle).reads, ?_⟩
    rintro a ⟨⟩
    exact ho

lemma fill_follows {arg : String} (hs : s.Follows opts start) (h : s.fill arg = .ok s') :
    s'.Follows opts start := by
  unfold fill at h
  split at h
  · rename_i o hbegun
    cases h
    refine ⟨hs.reads, ?_⟩
    rintro a ⟨⟩
    exact hs.known o (by rw [hbegun]; rfl)
  · cases h

/-- Arguments read to the end. -/
structure Complete (opts : List (Opt O)) (start : O) (given : List (Opt O)) (options : O) : Prop where
  reads : Reads opts start given options
  unopposed : ∀ a ∈ given, ∀ b ∈ given, a.opposes b = false

lemma finish_complete (hs : s.Follows opts start) (h : s.finish = .ok options) :
    ∃ given, Complete opts start given options := by
  obtain ⟨s₁, hsettle, hend⟩ := bind_eq_ok.mp h
  split at hend
  · cases hend
  · rename_i hnone
    cases hend
    exact ⟨s₁.given, (settle_follows hs hsettle).reads, (opposed?_eq_none_iff s₁).mp hnone⟩

/-- Arguments that are read to the end, and not only up to a call for help, are options read in a row. -/
theorem run_complete {args : List String} (hs : s.Follows opts start)
    (h : run opts args s = .ok (some options)) : ∃ given, Complete opts start given options := by
  have hfinish {s : Scan O} (hs : s.Follows opts start) (h : s.finish.map some = .ok (some options)) :
      ∃ given, Complete opts start given options := by
    refine finish_complete hs ?_
    cases hend : s.finish with
    | error e => rw [hend] at h; cases h
    | ok o => rw [hend] at h; cases h; rfl
  have hhelp {s : Scan O} : s.settle.map (fun _ => none) ≠ .ok (some options) := by
    cases s.settle <;> exact nofun
  induction args generalizing s with
  | nil => exact hfinish hs h
  | cons arg rest ih =>
    unfold run at h
    split at h
    · cases rest with
      | nil => exact hfinish hs h
      | cons extra rest => cases h
    · split at h
      · exact absurd h hhelp
      · cases h
      · rename_i name value _ _
        split at h
        · cases h
        · rename_i o hfind
          split at h
          · cases h
          · rename_i s₁ htake
            exact ih (take_follows hs (List.mem_of_find?_eq_some hfind) htake) h
      · exact absurd h hhelp
      · cases h
      · split at h
        · cases h
        · rename_i s₁ hfill
          exact ih (fill_follows hs hfill) h

end Scan
end PairDatasets
