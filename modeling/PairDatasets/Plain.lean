/-!
Powers and sums of natural numbers by the instances of the core library. Where a library of algebra
is at hand, others would take their place in a definition, so the ones that are meant stand first.
-/
namespace PairDatasets.Plain

@[reducible] scoped instance (priority := 1100) natPow : Pow Nat Nat := instPowNat

@[reducible] scoped instance (priority := 1100) natZero : Zero Nat := Zero.ofOfNat0

end PairDatasets.Plain
