import PairDatasets.Decimal.Shortest
import PairDatasets.Files.Tree
import PairDatasets.Json.Printer
import PairDatasets.Partition.Split
import PairDatasets.Sampling.Pair

/-!
Why a run stops. Every cause is a constructor with the values it needs; the wording of each is
given once, by the `message` functions.
-/
namespace PairDatasets

/-- Numbers in messages: shortest digits, never an exponent, whole numbers without a point. -/
def amountLayout : Decimal.Layout := ⟨.up, false, none⟩

def amount (x : Float) : String := amountLayout.text x

/-- What a missing path should have been. -/
inductive Missing where
  | dataset
  | info
  | config
  deriving DecidableEq, Repr

def Missing.message : Missing → String
  | dataset => "dataset directory"
  | info => "dataset info file"
  | config => "configuration file"

/-- Why a description file cannot be used. -/
inductive MetadataFault where
  /-- The text is not the JSON that was expected. -/
  | malformed
  | unreadable (e : FileError)
  | noTokens
  | badCount (value : Json) (problem : String)

def MetadataFault.message : MetadataFault → String
  | malformed => "not a JSON description of the expected form"
  | unreadable e => e.message
  | noTokens => "n_tokens must be positive"
  | badCount value problem =>
    "invalid solution count " ++ value.print ++ " for problem " ++ problem

/-- Values that no run can start from. -/
inductive ConfigFault where
  | thresholdsCrossed (long short : Nat)
  | noProblems
  | similarFraction (x : Float)
  | noSlots
  | testAmount (x : Float)
  | testCount (x : Float)
  | testFraction (x : Float)
  | validationFraction (x : Float)
  | nothingToTrain (problem : String) (solutions test validation : Nat)
  | unknownToken (token : UInt32) (vocabulary : Nat)
  | lengthsDiffer (predictions labels pairs : Nat)
  | noDataset (split : Split)
  deriving DecidableEq

def ConfigFault.message : ConfigFault → String
  | thresholdsCrossed long short =>
    s!"long code threshold {long} is below short code threshold {short}"
  | noProblems => "max_n_problems must be greater than zero"
  | similarFraction x => "similar fraction must be in [0, 1], got " ++ amount x
  | noSlots => "selection table size must be greater than zero"
  | testAmount x => "test amount must be a non-negative number, got " ++ amount x
  | testCount x => "test problem count must be an integer, got " ++ amount x
  | testFraction x => "test fraction must be in [0, 1), got " ++ amount x
  | validationFraction x => "validation fraction must be in [0, 1), got " ++ amount x
  | nothingToTrain problem n test validation =>
    s!"problem {problem} has {n} solutions; test ({test}) and validation ({validation}) " ++
      "cuts leave none for training"
  | unknownToken token vocabulary =>
    s!"token {token} is outside the vocabulary of {vocabulary} tokens"
  | lengthsDiffer predictions labels pairs =>
    s!"evaluation inputs differ in length: {predictions} predictions, {labels} labels, " ++
      s!"{pairs} pairs"
  | noDataset split => s!"no {split.name} dataset was produced"

/-- Why pairs cannot be drawn or encoded. -/
inductive SamplingFault where
  | tooFewProblems (pairs problems : Nat)
  | missingSolution (pair : Pair)
  /-- The sides of a pair are not encoded alike. -/
  | mixedEncodings
  deriving DecidableEq

def SamplingFault.message : SamplingFault → String
  | tooFewProblems pairs problems =>
    s!"{pairs} dissimilar pairs requested but only {problems} problems with solutions " ++
      "are available"
  | missingSolution pair => s!"pair {pair.text} references a solution missing from the corpus"
  | mixedEncodings => "mismatched encodings within one pair"

/-- Why a sample file cannot be written. -/
inductive ReportFault where
  | file (e : FileError)
  | missingSolution (pair : Pair)
  deriving DecidableEq

def ReportFault.message : ReportFault → String
  | file e => e.message
  | missingSolution pair => s!"sample {pair.text} references a solution missing from the corpus"

/-- Conditions under which a run breaks off instead of reporting an error of its input. -/
inductive Breakdown where
  /-- The shares of the similar pairs exceed the number of pairs. -/
  | sharesExceedTarget
  /-- No round of a whole generator period drew two different values. -/
  | endlessDraw
  /-- A token id has no successor among 32-bit signed numbers. -/
  | tokenOverflow
  /-- More is to be kept together than memory can hold. -/
  | outOfMemory
  /-- A label or a sum of counts is no 64-bit number. -/
  | wordOverflow
  /-- A range ends before it begins. -/
  | rangeReversed
  deriving DecidableEq, Repr

def Breakdown.message : Breakdown → String
  | sharesExceedTarget => "similar shares exceed the number of pairs"
  | endlessDraw => "no two different values were drawn"
  | tokenOverflow => "token id is too large to be shifted"
  | outOfMemory => "more memory is needed than there can be"
  | wordOverflow => "number is too large for 64 bits"
  | rangeReversed => "range ends before it begins"

/-- Every way in which a run can stop. -/
inductive DatasetError where
  | missing (what : Missing) (path : String)
  | metadata (path : String) (fault : MetadataFault)
  | file (e : FileError)
  | configuration (fault : ConfigFault)
  | tooFewProblems (requested available : Nat)
  | corpusTooSmall (solutions problems : Nat)
  | tooFewSolutions (problem : String) (solutions required : Nat)
  | splitTooSmall (split : Split) (count : Nat)
  | sampling (fault : SamplingFault)
  | report (fault : ReportFault)
  | breakdown (b : Breakdown)

def DatasetError.message : DatasetError → String
  | missing what path => s!"{what.message} {path} is not found"
  | metadata path fault => s!"failed to read metadata {path}: {fault.message}"
  | file e => e.message
  | configuration fault => "configuration error: " ++ fault.message
  | tooFewProblems requested available =>
    s!"cannot select required {requested} problems because only {available} qualify"
  | corpusTooSmall solutions problems =>
    s!"loaded only {solutions} solutions of {problems} problems"
  | tooFewSolutions problem n required =>
    s!"problem {problem} has only {n} solutions, at least {required} are required for the split"
  | splitTooSmall split count => s!"too few problems ({count}) for the {split.name} split"
  | sampling fault => "sampling failed: " ++ fault.message
  | report fault => "report failure: " ++ fault.message
  | breakdown b => b.message

/-- Steps in a row succeed if each of them does. -/
@[simp] theorem bind_eq_ok {ε α β : Type} {x : Except ε α} {f : α → Except ε β} {b : β} :
    x >>= f = .ok b ↔ ∃ a, x = .ok a ∧ f a = .ok b := by
  cases x <;> simp [bind, Except.bind]

@[simp] theorem mapError_eq_ok {ε ε' α : Type} {x : Except ε α} {f : ε → ε'} {a : α} :
    x.mapError f = .ok a ↔ x = .ok a := by
  cases x with
  | error e => exact ⟨nofun, nofun⟩
  | ok b =>
    constructor <;> intro h <;> exact congrArg Except.ok (Except.ok.inj h)

/-- Steps in a row fail where the first of them fails. -/
theorem bind_eq_error {ε α β : Type} {x : Except ε α} {f : α → Except ε β} {e : ε} :
    x >>= f = .error e ↔ x = .error e ∨ ∃ a, x = .ok a ∧ f a = .error e := by
  cases x <;> simp [bind, Except.bind]

theorem eq_ok_of_toOption {ε α : Type} {x : Except ε α} {a : α}
    (h : x.toOption = some a) : x = .ok a := by
  cases x with
  | error e => cases h
  | ok b => rw [Option.some.inj h]

theorem exists_of_isOk {α : Type} {x : Except DatasetError α} (h : x.isOk = true) :
    ∃ a, x = .ok a := by
  cases x with
  | error e => cases h
  | ok a => exact ⟨a, rfl⟩

end PairDatasets
