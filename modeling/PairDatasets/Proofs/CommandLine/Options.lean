import Mathlib.Algebra.Order.Ring.Nat
import PairDatasets.CommandLine.Build
import PairDatasets.Proofs.CommandLine.Arguments
import PairDatasets.Proofs.Decimal.Whole

/-! What can be said of options that were read from arguments: a seed offset has 64 bits, and reports are
not asked for and refused together. All other values are what some text stands for. -/
namespace PairDatasets

lemma Opt.reading_eq_ok {O α : Type} {name valueName text : String}
    {read : String → Except ValueFault α} {change : α → O → O} {o o' : O}
    (h : (Opt.reading name valueName read change).change text o = .ok o') :
    ∃ v, read text = .ok v ∧ o' = change v o := by
  change (read text).map (fun v => change v o) = .ok o' at h
  cases hread : read text with
  | error e => rw [hread] at h; cases h
  | ok v => rw [hread] at h; cases h; exact ⟨v, rfl, rfl⟩

namespace BuildOptions

/-- What reading one option may do to the values that depend on how options are read. -/
structure Touches (a : Opt BuildOptions) (o o' : BuildOptions) : Prop where
  seedOffset : o'.seedOffset = o.seedOffset ∨ ∃ n < 2 ^ 64, o'.seedOffset = some n
  reports : o'.reports = o.reports ∨ a.name = "report-dir"
  noReports : o'.noReports = o.noReports ∨ "report-dir" ∈ a.excluded

/-- Reading the option does no more than that. -/
def Tame (a : Opt BuildOptions) : Prop := ∀ text o o', a.change text o = .ok o' → Touches a o o'

/-- The values that depend on how options are read are the same. -/
structure Kept (o o' : BuildOptions) : Prop where
  seedOffset : o'.seedOffset = o.seedOffset
  reports : o'.reports = o.reports
  noReports : o'.noReports = o.noReports

lemma Kept.touches {o o' : BuildOptions} (h : Kept o o') (a : Opt BuildOptions) : Touches a o o' :=
  ⟨.inl h.seedOffset, .inl h.reports, .inl h.noReports⟩

lemma tame_reading {α : Type} {name valueName : String} {read : String → Except ValueFault α}
    {change : α → BuildOptions → BuildOptions} (h : ∀ v o, Kept o (change v o)) :
    Tame (.reading name valueName read change) := by
  intro text o o' hchange
  obtain ⟨v, -, rfl⟩ := Opt.reading_eq_ok hchange
  exact (h v o).touches _

lemma tame_flag {name : String} {change : BuildOptions → BuildOptions} (h : ∀ o, Kept o (change o)) :
    Tame (.flag name change) := by
  rintro text o o' ⟨⟩
  exact (h o).touches _

lemma tame_seedOffset : Tame (.reading "seed-offset" "SEED_OFFSET" Value.number fun v o =>
    { o with seedOffset := some v }) := by
  intro text o o' hchange
  obtain ⟨n, hread, rfl⟩ := Opt.reading_eq_ok hchange
  have hwhole : Decimal.whole64 text = .ok n := mapError_eq_ok.mp hread
  have hlt : n < 2 ^ 64 := ((Decimal.whole_eq_ok_iff (by decide)).mp hwhole).2
  exact ⟨.inr ⟨n, hlt, rfl⟩, .inl rfl, .inl rfl⟩

lemma tame_reports : Tame (.reading "report-dir" "DIR" Value.path fun v o =>
    { o with reports := some v }) := by
  intro text o o' hchange
  obtain ⟨v, -, rfl⟩ := Opt.reading_eq_ok hchange
  exact ⟨.inl rfl, .inr rfl, .inl rfl⟩

lemma tame_noReports : Tame (Opt.excluding (.flag "no-reports" fun o => { o with noReports := true })
    ["report-dir"]) := by
  rintro text o o' ⟨⟩
  exact ⟨.inl rfl, .inl rfl, .inr (.head _)⟩

lemma tame_opts : ∀ a ∈ opts, Tame a := by
  simp only [opts, Limits.opts, List.cons_append, List.nil_append, List.forall_mem_cons,
    List.not_mem_nil, false_implies, implies_true, and_true]
  and_intros
  -- all but three options are for other values
  all_goals first
    | exact tame_reading fun _ _ => ⟨rfl, rfl, rfl⟩
    | exact tame_flag fun _ => ⟨rfl, rfl, rfl⟩
    | skip
  · exact tame_seedOffset
  · exact tame_reports
  · exact tame_noReports

/-- What can be said of options that were read. -/
structure Valid (o : BuildOptions) : Prop where
  seedOffset : ∀ n, o.seedOffset = some n → n < 2 ^ 64
  reports : o.noReports = true → o.reports = none

/-- Options and those that must have been given for them. -/
structure Accounts (given : List (Opt BuildOptions)) (o : BuildOptions) : Prop where
  seedOffset : ∀ n, o.seedOffset = some n → n < 2 ^ 64
  reports : o.reports ≠ none → ∃ a ∈ given, a.name = "report-dir"
  noReports : o.noReports = true → ∃ a ∈ given, "report-dir" ∈ a.excluded

lemma reads_accounts {given : List (Opt BuildOptions)} {o : BuildOptions} (h : Reads opts {} given o) :
    Accounts given o := by
  induction h with
  | nothing => exact ⟨nofun, fun h => absurd rfl h, nofun⟩
  | @next given o o' a text _ known _ change ih =>
    obtain ⟨hseed, hreports, hnone⟩ := tame_opts a known text o o' change
    constructor
    · intro n hn
      rcases hseed with heq | ⟨m, hm, heq⟩
      · exact ih.seedOffset n (heq ▸ hn)
      · rw [heq] at hn
        exact Option.some.inj hn ▸ hm
    · intro hsome
      rcases hreports with heq | hname
      · obtain ⟨b, hb, hbname⟩ := ih.reports (heq ▸ hsome)
        exact ⟨b, .tail _ hb, hbname⟩
      · exact ⟨a, .head _, hname⟩
    · intro hflag
      rcases hnone with heq | hexcluded
      · obtain ⟨b, hb, hbexcluded⟩ := ih.noReports (heq ▸ hflag)
        exact ⟨b, .tail _ hb, hbexcluded⟩
      · exact ⟨a, .head _, hexcluded⟩

theorem run_valid {args : List String} {o : BuildOptions}
    (h : Scan.run opts args { options := {} } = .ok (some o)) : o.Valid := by
  obtain ⟨given, hreads, hunopposed⟩ := Scan.run_complete Scan.follows_start h
  have haccounts := reads_accounts hreads
  refine ⟨haccounts.seedOffset, ?_⟩
  intro hflag
  by_contra hsome
  obtain ⟨a, ha, hexcluded⟩ := haccounts.noReports hflag
  obtain ⟨b, hb, hname⟩ := haccounts.reports hsome
  have hopposed := hunopposed a ha b hb
  simp [Opt.opposes, hname, hexcluded] at hopposed

end BuildOptions
end PairDatasets
