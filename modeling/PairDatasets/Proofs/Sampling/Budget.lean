import PairDatasets.Proofs.Sampling.Refusal
import PairDatasets.Proofs.Sampling.Share

/-! The budget of similar pairs and its shares. The budget is at most the target. Below 2⁵⁰ the errors of all
shares together are less than one pair, so the shares stay within the budget, and they miss it by what is cut off
from them: less than one pair for each problem that has pairs. -/
namespace PairDatasets
open Double

section Target
variable {target : ℕ} {fraction : Float}

/-- What does not exceed a whole number is not rounded above it. -/
lemma roundHalfUp_le {x : Float} {u n : ℕ} (hx : HasUnits x u) (hle : u ≤ n * unity) (hn : n < 2 ^ 53) :
    roundHalfUp x ≤ n := by
  have hwhole : u / unity ≤ n := Nat.div_le_of_le_mul (by rwa [Nat.mul_comm])
  have hword : x.toUInt64.toNat = u / unity := by
    rw [hx.toNat_toUInt64]
    omega
  unfold roundHalfUp
  dsimp only
  rw [hword]
  split_ifs with hhalf
  · -- a half is left over only where the whole part lies below `n`
    refine Nat.succ_le_of_lt (hwhole.lt_of_ne fun heq => ?_)
    have hexact : u = n * unity := le_antisymm hle ((Nat.le_div_iff_mul_le unity_pos).mp heq.ge)
    have hcut := hasUnits_toFloat x.toUInt64
    have hsame := nearest_of_representable Nat.one_pos (representable_whole hn)
    rw [Nat.mul_one] at hsame
    rw [hword, heq, hsame, ← hexact] at hcut
    exact not_half_le_sub hx hcut hhalf
  · exact hwhole

/-- The budget does not exceed the target. -/
theorem similarBudget_le (htarget : target < 2 ^ 53) (hfraction : isFraction fraction = true) :
    similarBudget target fraction ≤ target := by
  obtain ⟨hzero, hone⟩ : 0.0 ≤ fraction ∧ fraction ≤ 1.0 := by simpa [isFraction] using hfraction
  obtain ⟨u, hunits⟩ := exists_hasUnits hzero hone
  have hu := hunits.le_unity hone
  have hle : nearest (target * unity * u) unity ≤ target * unity :=
    nearest_le unity_pos (representable_whole htarget) (Nat.mul_le_mul_left _ hu)
  have hword : target * unity ≤ 2 ^ 64 * unity :=
    Nat.mul_le_mul_right _ (htarget.le.trans (by decide))
  have hrange := (hle.trans hword).trans_lt two_pow_mul_one_lt_beyond
  exact roundHalfUp_le (hasUnits_mul (hasUnits_ofNat_of_lt htarget) hunits hrange) hle htarget

end Target

section Sum
variable {budget total : ℕ}

/-- The shares of some problems together: close to the exact sum before they are cut, and cut by at most one
pair each. -/
lemma exists_sum_shares (hbudget : budget < 2 ^ 50) (hword : total < 2 ^ 64) {pairs : List ℕ}
    (hpairs : ∀ p ∈ pairs, 0 < p ∧ p ≤ total) :
    ∃ units, Close 8 (total * units) (budget * pairs.sum * unity) ∧
      (pairs.map fun p => pairShare budget p total).sum * unity ≤ units ∧
      units ≤ ((pairs.map fun p => pairShare budget p total).sum + pairs.length) * unity := by
  induction pairs with
  | nil => exact ⟨0, by simpa using Close.zero 8, by simp, by simp⟩
  | cons p pairs ih =>
    rw [List.forall_mem_cons] at hpairs
    obtain ⟨⟨hp, hle⟩, hrest⟩ := hpairs
    obtain ⟨units, hclose, hlow, hhigh⟩ := ih hrest
    have hfirst := close_shareUnits budget hp (hp.trans_le hle) hword
    have hcut := Nat.div_mul_le_self (shareUnits budget p total) unity
    have hover : shareUnits budget p total ≤ (shareUnits budget p total / unity + 1) * unity := by
      rw [Nat.mul_comm]
      exact (Nat.lt_mul_div_succ _ unity_pos).le
    refine ⟨shareUnits budget p total + units, ?_, ?_, ?_⟩
    · convert hfirst.add hclose using 1
      · ring
      · rw [List.sum_cons]; ring
    · rw [List.map_cons, List.sum_cons, pairShare_eq hbudget hp hle hword, Nat.add_mul]
      exact Nat.add_le_add hcut hlow
    · rw [List.map_cons, List.sum_cons, List.length_cons, pairShare_eq hbudget hp hle hword]
      linarith

/-- Shares of all pairs meet the budget up to one pair for each problem. -/
theorem sum_shares_bounds (hbudget : budget < 2 ^ 50) {pairs : List ℕ} (hpairs : ∀ p ∈ pairs, 0 < p)
    (htotal : 0 < pairs.sum) (hword : pairs.sum < 2 ^ 64) :
    (pairs.map fun p => pairShare budget p pairs.sum).sum ≤ budget ∧
      budget ≤ (pairs.map fun p => pairShare budget p pairs.sum).sum + pairs.length := by
  obtain ⟨units, hclose, hlow, hhigh⟩ := exists_sum_shares hbudget hword
    fun p hp => ⟨hpairs p hp, List.single_le_sum (by simp) p hp⟩
  rw [Nat.mul_comm budget, Nat.mul_assoc] at hclose
  obtain ⟨hle, hge⟩ := hclose.of_mul_left htotal
  -- eight parts of the budget are less than one pair
  have hspare : 8 * (budget * unity) < 2 ^ 53 * unity := by
    rw [← Nat.mul_assoc]
    exact Nat.mul_lt_mul_of_pos_right (by omega) unity_pos
  constructor
  · have hbelow : units < (budget + 1) * unity := by
      refine Nat.lt_of_mul_lt_mul_right (a := 2 ^ 53) ?_
      calc units * 2 ^ 53 ≤ budget * unity * (2 ^ 53 + 8) := hle
        _ = budget * unity * 2 ^ 53 + 8 * (budget * unity) := by ring
        _ < budget * unity * 2 ^ 53 + 2 ^ 53 * unity := Nat.add_lt_add_left hspare _
        _ = (budget + 1) * unity * 2 ^ 53 := by ring
    exact Nat.le_of_lt_succ (Nat.lt_of_mul_lt_mul_right (hlow.trans_lt hbelow))
  · have habove : budget * unity < units + unity := by
      refine Nat.lt_of_mul_lt_mul_right (a := 2 ^ 53) ?_
      calc budget * unity * 2 ^ 53 ≤ units * 2 ^ 53 + 8 * (budget * unity) := hge
        _ < units * 2 ^ 53 + 2 ^ 53 * unity := Nat.add_lt_add_left hspare _
        _ = (units + unity) * 2 ^ 53 := by ring
    refine Nat.le_of_lt_succ (Nat.lt_of_mul_lt_mul_right (a := unity) (habove.trans_le ?_))
    rw [Nat.succ_mul]
    exact Nat.add_le_add_right hhigh _

end Sum

section Sizes
variable {sizes : List ℕ}

/-- The ordered pairs of every size that has some. -/
def pairCounts (sizes : List ℕ) : List ℕ := (sizes.filter fun n => 2 ≤ n).map orderedPairs

lemma orderedPairs_pos {n : ℕ} (hn : 2 ≤ n) : 0 < orderedPairs n :=
  Nat.mul_pos (by omega) (by omega)

lemma orderedPairs_eq_zero {n : ℕ} (hn : ¬ 2 ≤ n) : orderedPairs n = 0 := by
  rcases Nat.le_one_iff_eq_zero_or_eq_one.mp (by omega : n ≤ 1) with rfl | rfl <;> rfl

lemma pairCounts_pos : ∀ p ∈ pairCounts sizes, 0 < p := by
  intro p hp
  obtain ⟨n, hn, rfl⟩ := List.mem_map.mp hp
  exact orderedPairs_pos (by simpa using (List.mem_filter.mp hn).2)

lemma pairCounts_eq_nil (hzero : (pairCounts sizes).sum = 0) : pairCounts sizes = [] := by
  rw [List.eq_nil_iff_forall_not_mem]
  intro p hp
  have hle := List.single_le_sum (by simp) p hp
  have hpos := pairCounts_pos p hp
  omega

/-- Sizes without pairs add nothing. -/
lemma sum_pairCounts (sizes : List ℕ) : (pairCounts sizes).sum = (sizes.map orderedPairs).sum := by
  unfold pairCounts
  induction sizes with
  | nil => rfl
  | cons n sizes ih =>
    by_cases hn : 2 ≤ n
    · simp [hn, ih]
    · simp [hn, ih, orderedPairs_eq_zero hn]

/-- The shares are those of the sizes that have pairs. -/
lemma map_share (sizes : List ℕ) (budget : ℕ) : ((similarShares sizes budget).map fun e => e.2.2) =
    (pairCounts sizes).map fun p => pairShare budget p (pairCounts sizes).sum := by
  have hsum := sum_pairCounts sizes
  unfold similarShares
  dsimp only
  split_ifs with hzero
  · rw [pairCounts_eq_nil (hsum.trans hzero)]
    rfl
  · have hfilter : (sizes.zipIdx.filter fun e => decide (2 ≤ e.1)).map Prod.fst =
        sizes.filter fun n => 2 ≤ n := by
      conv_rhs => rw [← List.zipIdx_map_fst 0 sizes, List.filter_map]
      rfl
    rw [hsum, pairCounts, ← hfilter]
    simp only [List.map_map]
    rfl

end Sizes

namespace Group

/-- How many problems have two solutions or more. -/
def paired (g : Group) : ℕ := g.sizes.countP fun n => 2 ≤ n

/-- The similar pairs of a group do not exceed the budget and miss it by one pair for each problem at most. -/
lemma similarTotal_bounds {group : Group} {budget : ℕ} (hsum : group.solutionCount < 2 ^ 32)
    (hbudget : budget < 2 ^ 50) : group.similarTotal budget ≤ budget ∧
      (0 < group.paired → budget ≤ group.similarTotal budget + group.paired) := by
  have hlength : (pairCounts group.sizes).length = group.paired := by
    rw [pairCounts, List.length_map, paired, List.countP_eq_length_filter]
  have hword : (pairCounts group.sizes).sum < 2 ^ 64 := by
    rw [sum_pairCounts]
    exact sum_orderedPairs_lt hsum
  rw [similarTotal_eq, map_share, ← hlength]
  rcases Nat.eq_zero_or_pos (pairCounts group.sizes).sum with hzero | hpos
  · rw [pairCounts_eq_nil hzero]
    exact ⟨Nat.zero_le _, fun hpos => absurd hpos (Nat.lt_irrefl 0)⟩
  · obtain ⟨hle, hge⟩ := sum_shares_bounds hbudget pairCounts_pos hpos hword
    exact ⟨hle, fun _ => hge⟩

end Group

namespace Draft
variable {sizes : List ℕ} {slots target : ℕ}

lemma complete_ne_sharesExceedTarget {similar : Array PlacePair} (hle : similar.size ≤ target)
    (g : Generator) :
    (complete sizes slots target similar g).1 ≠ .error (.breakdown .sharesExceedTarget) := by
  intro h
  unfold complete at h
  dsimp only at h
  rw [if_neg hle.not_gt] at h
  split at h
  · cases h
  split at h
  · rename_i hmake
    cases h
    rcases SlotTable.error_of_make hmake with hmake | hmake <;> cases hmake
  split at h
  · cases h
  split at h <;> cases h

/-- Where the shares do not exceed the target, drawing does not break off for that reason. -/
lemma draw_ne_sharesExceedTarget {fraction : Float} (hle :
      ((similarShares sizes (similarBudget target fraction)).map fun e => e.2.2).sum ≤ target)
    (g : Generator) :
    (draw sizes slots target fraction g).1 ≠ .error (.breakdown .sharesExceedTarget) := by
  intro h
  unfold draw at h
  split at h
  · cases h
  split at h
  · cases h
  by_cases hcount : Countable sizes (similarBudget target fraction)
  · obtain ⟨similar, g', hdraw, hsize⟩ := exists_drawSimilar hcount g
    rw [hdraw] at h
    dsimp only at h
    split at h
    · rename_i hcomplete
      cases h
      exact complete_ne_sharesExceedTarget (hsize ▸ hle) g' (congrArg Prod.fst hcomplete)
    · cases h
  · rw [drawSimilar_of_not_countable hcount] at h
    cases h

end Draft

/-- The similar pairs of a group stay within their budget and the budget within the target, so dissimilar pairs
can always make up the rest; and the budget is met up to one pair for each problem that has pairs. -/
theorem similarTotal_within_budget {group : Group} {target : ℕ} {fraction : Float}
    (hsum : group.solutionCount < 2 ^ 32) (htarget : target < 2 ^ 50)
    (hfraction : isFraction fraction = true) :
    similarBudget target fraction ≤ target ∧
      group.similarTotal (similarBudget target fraction) ≤ similarBudget target fraction ∧
      (0 < group.paired → similarBudget target fraction ≤
        group.similarTotal (similarBudget target fraction) + group.paired) ∧
      ∀ slots g, (group.drawPairs slots target fraction g).1 ≠
        .error (.breakdown .sharesExceedTarget) := by
  have hbudget := similarBudget_le (htarget.trans (by decide)) hfraction
  obtain ⟨hle, hge⟩ := Group.similarTotal_bounds hsum (hbudget.trans_lt htarget)
  refine ⟨hbudget, hle, hge, ?_⟩
  intro slots g h
  rw [Group.similarTotal_eq] at hle
  exact Draft.draw_ne_sharesExceedTarget (hle.trans hbudget) g (group.drawPairs_eq_error.mp h)

/-- Of the largest target nine tenths of a pair are rounded up to the budget; the shares of two problems miss
it by one pair. So they do when all of the target is to be similar. -/
theorem similarTotal_unevenGroup_within_budget :
    unevenGroup.solutionCount < 2 ^ 32 ∧ unevenGroup.paired = 2 ∧
      (isFraction 0.3 = true ∧ (2 ^ 50 - 1) * 3 / 10 = 337769972052786 ∧
        similarBudget (2 ^ 50 - 1) 0.3 = 337769972052787 ∧ 337769972052787 ≤ 2 ^ 50 - 1 ∧
        unevenGroup.similarTotal 337769972052787 ≤ 337769972052787 ∧
        337769972052787 ≤ unevenGroup.similarTotal 337769972052787 + 2 ∧
        unevenGroup.similarTotal 337769972052787 = 337769972052786) ∧
      (isFraction 1.0 = true ∧ similarBudget (2 ^ 50 - 1) 1.0 = 2 ^ 50 - 1 ∧
        unevenGroup.similarTotal (2 ^ 50 - 1) ≤ 2 ^ 50 - 1 ∧
        2 ^ 50 - 1 ≤ unevenGroup.similarTotal (2 ^ 50 - 1) + 2 ∧
        unevenGroup.similarTotal (2 ^ 50 - 1) = 2 ^ 50 - 2) := by
  have hsum : unevenGroup.solutionCount < 2 ^ 32 := by decide
  have hpaired : unevenGroup.paired = 2 := by decide
  have htarget : 2 ^ 50 - 1 < 2 ^ 50 := by decide
  refine ⟨hsum, hpaired, ?_, ?_⟩
  · have hfraction : isFraction 0.3 = true := by decide +kernel
    have hrounded : similarBudget (2 ^ 50 - 1) 0.3 = 337769972052787 := by decide +kernel
    obtain ⟨hbudget, hle, hge, -⟩ := similarTotal_within_budget hsum htarget hfraction
    rw [hrounded] at hbudget hle hge
    rw [hpaired] at hge
    exact ⟨hfraction, by decide, hrounded, hbudget, hle, hge (by decide), by decide +kernel⟩
  · have hfraction : isFraction 1.0 = true := by decide +kernel
    have hall : similarBudget (2 ^ 50 - 1) 1.0 = 2 ^ 50 - 1 := by decide +kernel
    obtain ⟨-, hle, hge, -⟩ := similarTotal_within_budget hsum htarget hfraction
    rw [hall] at hle hge
    rw [hpaired] at hge
    exact ⟨hfraction, hall, hle, hge (by decide), by decide +kernel⟩

end PairDatasets
