import PairDatasets.Proofs.Random.Distinct
import PairDatasets.Proofs.Sampling.Cursor
import PairDatasets.Proofs.Sampling.Pairs

/-! When drawing is refused. Similar pairs are always drawn. Dissimilar pairs are refused when they are
wanted and fewer than two slices have slots: that is so when fewer than two problems have solutions, but
also when there are more of them and the table is too coarse for all but the last. -/
namespace PairDatasets

namespace PlacePair

/-- Of two solutions or more a pair is always drawn. -/
lemma exists_drawSimilar {n : ℕ} (hn : 2 ≤ n) (slice count : ℕ) (acc : Array PlacePair) (g : Generator) :
    ∃ out g', drawSimilar slice n count acc g = (some out, g') := by
  induction count generalizing acc g with
  | zero => exact ⟨acc, g, rfl⟩
  | succ count ih =>
    obtain ⟨a, b, g', hdraw⟩ := Generator.exists_distinct hn g
    rw [drawSimilar, hdraw]
    exact ih _ g'

lemma exists_drawShares {shares : List (ℕ × ℕ × ℕ)} (h : ∀ e ∈ shares, 2 ≤ e.2.1)
    (acc : Array PlacePair) (g : Generator) :
    ∃ out g', drawShares shares acc g = (some out, g') := by
  induction shares generalizing acc g with
  | nil => exact ⟨acc, g, rfl⟩
  | cons e shares ih =>
    obtain ⟨slice, n, share⟩ := e
    rw [List.forall_mem_cons] at h
    obtain ⟨out, g', hdraw⟩ := exists_drawSimilar h.1 slice share acc g
    rw [drawShares, hdraw]
    exact ih h.2 _ g'

/-- All shares are drawn, and together they are as many pairs as they add up to. -/
lemma exists_drawShares_size (sizes : List ℕ) (budget : ℕ) (g : Generator) :
    ∃ out g', drawShares (similarShares sizes budget) #[] g = (some out, g') ∧
      out.size = ((similarShares sizes budget).map fun e => e.2.2).sum := by
  have htwo : ∀ e ∈ similarShares sizes budget, 2 ≤ e.2.1 := fun _ he => (mem_similarShares he).1
  obtain ⟨out, g', hdraw⟩ := exists_drawShares htwo #[] g
  obtain ⟨blocks, hout, hgives⟩ := drawShares_run (fun _ he => mem_similarShares he) hdraw
  refine ⟨out, g', hdraw, ?_⟩
  rw [← length_blocks hgives, ← Array.length_toList, hout]
  rfl

end PlacePair

/-- There are fewer pairs within problems than pairs of all solutions. -/
lemma sum_orderedPairs_le (sizes : List ℕ) :
    (sizes.map orderedPairs).sum ≤ sizes.sum * sizes.sum := by
  induction sizes with
  | nil => exact le_rfl
  | cons n sizes ih =>
    have hn : orderedPairs n ≤ n * n := Nat.mul_le_mul_left _ (Nat.sub_le n 1)
    have hcross : n * n + sizes.sum * sizes.sum ≤ (n + sizes.sum) * (n + sizes.sum) := by
      nlinarith [Nat.zero_le (n * sizes.sum)]
    rw [List.map_cons, List.sum_cons, List.sum_cons]
    exact (Nat.add_le_add hn ih).trans hcross

lemma sum_orderedPairs_lt {sizes : List ℕ} (hsum : sizes.sum < 2 ^ 32) :
    (sizes.map orderedPairs).sum < 2 ^ 64 :=
  calc (sizes.map orderedPairs).sum ≤ sizes.sum * sizes.sum := sum_orderedPairs_le sizes
    _ < 2 ^ 32 * 2 ^ 32 := Nat.mul_lt_mul'' hsum hsum
    _ = 2 ^ 64 := by norm_num

namespace Draft
variable {sizes : List ℕ} {slots target budget : ℕ} {fault : SamplingFault}

/-- Where similar pairs are wanted, all ordered pairs must be countable. -/
def Countable (sizes : List ℕ) (budget : ℕ) : Prop := budget = 0 ∨ (sizes.map orderedPairs).sum < 2 ^ 64

instance : Decidable (Countable sizes budget) := inferInstanceAs (Decidable (_ ∨ _))

/-- Without a budget the shares are nothing. -/
lemma sum_shares_zero (sizes : List ℕ) : ((similarShares sizes 0).map fun e => e.2.2).sum = 0 := by
  rw [← PlacePair.length_blocks (gives_zero sizes)]
  simp

/-- Countable pairs are drawn, as many as the shares add up to. -/
theorem exists_drawSimilar (h : Countable sizes budget) (g : Generator) :
    ∃ out g', drawSimilar sizes budget g = (.ok out, g') ∧
      out.size = ((similarShares sizes budget).map fun e => e.2.2).sum := by
  by_cases hzero : budget = 0
  · subst hzero
    exact ⟨#[], g, rfl, (sum_shares_zero sizes).symm⟩
  · obtain ⟨out, g', hdraw, hsize⟩ := PlacePair.exists_drawShares_size sizes budget g
    have hcount : countPairs sizes = .ok () := Memory.requireWord_eq_ok.mpr (h.resolve_left hzero)
    refine ⟨out, g', ?_, hsize⟩
    rw [drawSimilar, if_neg hzero, hcount]
    dsimp only
    rw [hdraw]

/-- Others break off. -/
lemma drawSimilar_of_not_countable (h : ¬Countable sizes budget) (g : Generator) :
    drawSimilar sizes budget g = (.error (.breakdown .wordOverflow), g) := by
  rw [Countable, not_or] at h
  have hcount : countPairs sizes = .error (.breakdown .wordOverflow) := if_neg h.2
  rw [drawSimilar, if_neg h.1, hcount]

/-- Dissimilar pairs are refused for want of two slices with slots, and for nothing else. -/
lemma complete_refuses_iff {similar : Array PlacePair} {g : Generator} :
    (complete sizes slots target similar g).1 = .error (.sampling fault) ↔
      similar.size < target ∧ Memory.holds 8 slots = true ∧ SlotTable.Forward sizes slots ∧
        SlotTable.reach sizes slots < 2 ∧
        fault = .tooFewProblems (target - similar.size) (SlotTable.reach sizes slots) := by
  constructor
  · intro h
    unfold complete at h
    dsimp only at h
    split at h
    · cases h
    split at h
    · cases h
    split at h
    · rename_i hmake
      cases h
      rcases SlotTable.error_of_make hmake with hmake | hmake <;> cases hmake
    rename_i hmake
    obtain ⟨hmemory, hforward, rfl⟩ := SlotTable.make_eq_ok_iff.mp hmake
    split at h
    · rename_i hreach
      cases h
      exact ⟨by omega, hmemory, hforward, hreach, rfl⟩
    · split at h <;> cases h
  · rintro ⟨hmissing, hmemory, hforward, hreach, rfl⟩
    have hsome : target - similar.size ≠ 0 := by omega
    unfold complete
    dsimp only
    rw [if_neg hmissing.le.not_gt, if_neg hsome, SlotTable.make_of_forward hmemory hforward]
    exact congrArg Prod.fst (if_pos hreach)

theorem draw_refuses_iff {fraction : Float} (hfraction : isFraction fraction = true)
    {g : Generator} {shares : ℕ}
    (hshares : shares =
      ((similarShares sizes (similarBudget target fraction)).map fun e => e.2.2).sum) :
    (draw sizes slots target fraction g).1 = .error (.sampling fault) ↔
      Memory.holds Pair.bytes target = true ∧ Countable sizes (similarBudget target fraction) ∧
        shares < target ∧ Memory.holds 8 slots = true ∧ SlotTable.Forward sizes slots ∧
        SlotTable.reach sizes slots < 2 ∧
        fault = .tooFewProblems (target - shares) (SlotTable.reach sizes slots) := by
  by_cases hcount : Countable sizes (similarBudget target fraction)
  · obtain ⟨similar, g', hdraw, hsize⟩ := exists_drawSimilar hcount g
    rw [hshares, ← hsize, ← complete_refuses_iff (g := g'), draw, hfraction, hdraw]
    cases hpairs : Memory.holds Pair.bytes target with
    | false => simp
    | true =>
      cases hcomplete : complete sizes slots target similar g' with
      | mk outcome g'' => cases outcome <;> simp [hcomplete, hcount]
  · rw [draw, hfraction, drawSimilar_of_not_countable hcount]
    cases Memory.holds Pair.bytes target <;> simp [hcount]

end Draft

namespace Group

/-- How many problems of the group have solutions. -/
def populated (g : Group) : ℕ := SlotTable.populated g.sizes

/-- Two problems have solutions, but the table is too coarse for them: the first problem before the last
that moves the cursor, if there is one, takes all slots. -/
structure Crowded (g : Group) (slots : ℕ) : Prop where
  populated : 2 ≤ g.populated
  stop : ∀ c, SlotTable.firstStop g.sizes slots = some c → slots ≤ c

/-- How many similar pairs the group gives. -/
def similarTotal (g : Group) (budget : ℕ) : ℕ := ((g.similarShares budget).map Prod.snd).sum

/-- The pairs of a group are refused where its places are. -/
lemma drawPairs_eq_error (group : Group) {slots target : ℕ} {fraction : Float} {g : Generator}
    {e : DatasetError} : (group.drawPairs slots target fraction g).1 = .error e ↔
      (Draft.draw group.sizes slots target fraction g).1 = .error e := by
  unfold drawPairs
  cases h : (Draft.draw group.sizes slots target fraction g).1 <;> simp [Except.map, h]

lemma similarTotal_eq (group : Group) (budget : ℕ) : group.similarTotal budget =
    ((PairDatasets.similarShares group.sizes budget).map fun e => e.2.2).sum := by
  unfold similarTotal Group.similarShares
  rw [List.map_map]
  rfl

variable {group : Group} {slots : ℕ}

lemma reach_lt_two_iff (hforward : SlotTable.Forward group.sizes slots) :
    SlotTable.reach group.sizes slots < 2 ↔ group.populated < 2 ∨ group.Crowded slots := by
  rw [← not_le, SlotTable.two_le_reach_iff hforward]
  constructor
  · intro hnone
    rcases Nat.lt_or_ge group.populated 2 with hfew | hmany
    · exact .inl hfew
    · refine .inr ⟨hmany, ?_⟩
      intro c hstop
      by_contra hlt
      exact hnone ⟨c, hstop, Nat.lt_of_not_le hlt⟩
  · rintro (hfew | hcrowded) ⟨c, hstop, hlt⟩
    · exact hfew.not_ge (SlotTable.two_le_of_firstStop hstop)
    · exact hlt.not_ge (hcrowded.stop c hstop)

end Group

/-- Drawing is refused exactly if dissimilar pairs are wanted and either fewer than two problems have
solutions or the table is too coarse; the message counts one problem then, even if there are more. Where
some problem before the last has more than one slot's share it is never refused. Below 2³² solutions and
2⁵³ slots neither the cursor of the table nor the count of pairs breaks off before. -/
theorem drawPairs_refuses_iff {group : Group} {slots target : ℕ} {fraction : Float}
    (hfraction : isFraction fraction = true) (hslots : 0 < slots) (g : Generator)
    (fault : SamplingFault) :
    ((group.drawPairs slots target fraction g).1 = .error (.sampling fault) ↔
      Memory.holds Pair.bytes target = true ∧ Memory.holds 8 slots = true ∧
        SlotTable.Forward group.sizes slots ∧
        Draft.Countable group.sizes (similarBudget target fraction) ∧
        group.similarTotal (similarBudget target fraction) < target ∧
        (group.populated < 2 ∨ group.Crowded slots) ∧
        fault = .tooFewProblems (target - group.similarTotal (similarBudget target fraction))
          (min 1 group.populated)) ∧
      (group.solutionCount < 2 ^ 53 → ∀ n, SlotTable.Early group.sizes n →
        group.solutionCount < n * slots →
          (group.drawPairs slots target fraction g).1 ≠ .error (.sampling fault)) ∧
      (group.solutionCount < 2 ^ 32 → slots < 2 ^ 53 → SlotTable.Forward group.sizes slots ∧
        Draft.Countable group.sizes (similarBudget target fraction)) := by
  have hrefuses : (group.drawPairs slots target fraction g).1 = .error (.sampling fault) ↔ _ :=
    group.drawPairs_eq_error.trans (Draft.draw_refuses_iff hfraction (group.similarTotal_eq _))
  refine ⟨?_, ?_, ?_⟩
  · rw [hrefuses]
    constructor
    · rintro ⟨hpairs, hcount, hmissing, hmemory, hforward, hreach, rfl⟩
      have hfew := (Group.reach_lt_two_iff hforward).mp hreach
      exact ⟨hpairs, hmemory, hforward, hcount, hmissing, hfew,
        by rw [SlotTable.reach_of_lt_two hslots hreach]; rfl⟩
    · rintro ⟨hpairs, hmemory, hforward, hcount, hmissing, hfew, rfl⟩
      have hreach := (Group.reach_lt_two_iff hforward).mpr hfew
      exact ⟨hpairs, hcount, hmissing, hmemory, hforward, hreach,
        by rw [SlotTable.reach_of_lt_two hslots hreach]; rfl⟩
  · intro hsum n hn hshare h
    obtain ⟨-, -, -, hmemory, hforward, hreach, -⟩ := hrefuses.mp h
    have hword : slots < 2 ^ 64 := by
      rw [Memory.holds_iff] at hmemory
      omega
    exact hreach.not_ge (SlotTable.two_le_reach_of_share hforward hsum hslots hword hn hshare)
  · intro hsum hsmall
    exact ⟨SlotTable.forward_of_lt (hsum.trans (by decide)) hsmall, .inr (sum_orderedPairs_lt hsum)⟩

/-- One slot is too few for the problems of a group, sixteen are not. -/
theorem drawPairs_refuses_unevenGroup :
    (unevenGroup.drawPairs 1 10 0.5 ⟨1917⟩).1 = .error (.sampling (.tooFewProblems 6 1)) ∧
      ∀ fault, (unevenGroup.drawPairs 16 10 0.5 ⟨1917⟩).1 ≠ .error (.sampling fault) := by
  have hfraction : isFraction 0.5 = true := by decide +kernel
  have hcrowded : unevenGroup.Crowded 1 := by
    have hstop : SlotTable.firstStop unevenGroup.sizes 1 = none := by decide +kernel
    refine ⟨by decide, ?_⟩
    rw [hstop]
    rintro c ⟨⟩
  constructor
  · refine (drawPairs_refuses_iff hfraction Nat.one_pos ⟨1917⟩ _).1.mpr ?_
    exact ⟨by decide, by decide, by decide +kernel, .inr (by decide), by decide +kernel, .inr hcrowded,
      by decide +kernel⟩
  · intro fault
    have hthree : SlotTable.Early unevenGroup.sizes 3 := .head _
    exact (drawPairs_refuses_iff hfraction (by decide) ⟨1917⟩ fault).2.1 (by decide) 3 hthree (by decide)

/-- One solution of the first problem, and as many of the second as the default table has slots. -/
def crowdedGroup : Group := ⟨0, [⟨0, [0]⟩, ⟨1, List.range 131072⟩]⟩

/-- Both problems have solutions and no similar pair is wanted, but with the default table a pair of
both is refused. -/
theorem drawPairs_refuses_crowdedGroup : crowdedGroup.labels.Nodup ∧ isFraction 0.0 = true ∧
    crowdedGroup.populated = 2 ∧ crowdedGroup.similarTotal (similarBudget 1 0.0) = 0 ∧
    (crowdedGroup.drawPairs defaultSlots 1 0.0 ⟨1917⟩).1 =
      .error (.sampling (.tooFewProblems 1 1)) := by
  have hsizes : crowdedGroup.sizes = [1, 131072] := by
    simp [crowdedGroup, Group.sizes, Slice.size]
  have hfraction : isFraction 0.0 = true := by decide +kernel
  have htotal : 0 = crowdedGroup.similarTotal (similarBudget 1 0.0) := by
    rw [Group.similarTotal_eq, hsizes]
    decide +kernel
  refine ⟨by decide, hfraction, ?_, htotal.symm, ?_⟩
  · rw [Group.populated, hsizes]
    rfl
  · rw [Group.drawPairs_eq_error,
      Draft.draw_refuses_iff hfraction (htotal.trans (Group.similarTotal_eq _ _)), hsizes]
    decide +kernel

end PairDatasets
