import PairDatasets.CommandLine.Basic
import PairDatasets.CommandLine.Build
import PairDatasets.CommandLine.Grammar
import PairDatasets.CommandLine.Limits
import PairDatasets.CommandLine.Outcome
import PairDatasets.CommandLine.Summary
import PairDatasets.CommandLine.Value
import PairDatasets.Config.Basic
import PairDatasets.Config.Reader
import PairDatasets.Corpus.Basic
import PairDatasets.Corpus.Candidates
import PairDatasets.Corpus.Config
import PairDatasets.Corpus.Lengths
import PairDatasets.Corpus.Line
import PairDatasets.Corpus.Load
import PairDatasets.Corpus.Metadata
import PairDatasets.Corpus.Reading
import PairDatasets.Decimal.Binary
import PairDatasets.Decimal.Fixed
import PairDatasets.Decimal.Literal
import PairDatasets.Decimal.Shortest
import PairDatasets.Error
import PairDatasets.Evaluation.Basic
import PairDatasets.Evaluation.Ranking
import PairDatasets.Evaluation.Tally
import PairDatasets.Features.Assembly
import PairDatasets.Features.Encoding
import PairDatasets.Features.Record
import PairDatasets.Files.Path
import PairDatasets.Files.Tree
import PairDatasets.Job
import PairDatasets.Json.Basic
import PairDatasets.Json.Printer
import PairDatasets.Json.Reader
import PairDatasets.Json.Record
import PairDatasets.Log
import PairDatasets.Memory
import PairDatasets.Order.Distinct
import PairDatasets.Order.Double
import PairDatasets.Order.Keyed
import PairDatasets.Order.Occurrences
import PairDatasets.Partition.Divide
import PairDatasets.Partition.Group
import PairDatasets.Partition.Split
import PairDatasets.Partition.Strategy
import PairDatasets.Random.Draw
import PairDatasets.Random.Generator
import PairDatasets.Random.Seeds
import PairDatasets.Random.Shuffle
import PairDatasets.Report.Evaluation
import PairDatasets.Report.Listing
import PairDatasets.Report.Samples
import PairDatasets.Report.Statistics
import PairDatasets.Report.Writer
import PairDatasets.Run
import PairDatasets.Sampling.Capacity
import PairDatasets.Sampling.Draw
import PairDatasets.Sampling.Pair
import PairDatasets.Sampling.Share
import PairDatasets.Sampling.SlotTable
import PairDatasets.Statistics.Distribution
import PairDatasets.Statistics.Row
import PairDatasets.Statistics.Skew
import PairDatasets.Statistics.Split
import PairDatasets.Statistics.Usage
import PairDatasets.Text.Blank
import PairDatasets.Text.Column
import PairDatasets.Text.Csv
import PairDatasets.Text.Pieces
import PairDatasets.Proofs.Double.Rounding
import PairDatasets.Proofs.Random.Permutation
import PairDatasets.Main
import PairDatasets.Proofs.Double.Encoding
import PairDatasets.Proofs.Double.Units
import PairDatasets.Proofs.Double.Operations
import PairDatasets.Proofs.Partition.Fraction
import PairDatasets.Proofs.Partition.Group
import PairDatasets.Proofs.Partition.Positional
import PairDatasets.Proofs.Partition.Balanced
import PairDatasets.Proofs.Partition.Sizes
import PairDatasets.Proofs.Sampling.Cursor
import PairDatasets.Proofs.Sampling.Places
import PairDatasets.Proofs.Sampling.Pairs
import PairDatasets.Proofs.Partition.Separation
import PairDatasets.Proofs.Features.Records
import PairDatasets.Proofs.Corpus.Load
import PairDatasets.Proofs.Corpus.Accounts
import PairDatasets.Proofs.Corpus.WellFormed
import PairDatasets.Proofs.Files.Reordering
import PairDatasets.Proofs.Corpus.Reordering
import PairDatasets.Proofs.Statistics.Split
import PairDatasets.Proofs.Run.Independence
import PairDatasets.Proofs.Sampling.Refusal
import PairDatasets.Proofs.Corpus.Lines
import PairDatasets.Proofs.Corpus.Numbers
import PairDatasets.Proofs.Corpus.Names
import PairDatasets.Proofs.Sampling.Table
import PairDatasets.Proofs.Sampling.Proportion
import PairDatasets.Proofs.CommandLine.Arguments
import PairDatasets.Proofs.CommandLine.Options
import PairDatasets.Proofs.CommandLine.Overrides
import PairDatasets.Proofs.Random.Period
import PairDatasets.Proofs.Random.Rounds
import PairDatasets.Proofs.Random.Streams
import PairDatasets.Proofs.Random.Bytes
import PairDatasets.Proofs.Sampling.Relabelling
import PairDatasets.Proofs.Sampling.Budget
import PairDatasets.Proofs.Features.Bag
import PairDatasets.Proofs.Features.Sequence
import PairDatasets.Proofs.Statistics.Marginals
import PairDatasets.Proofs.Evaluation.Additive
import PairDatasets.Proofs.Sampling.Capacity
import PairDatasets.Proofs.Statistics.Usage
import PairDatasets.Proofs.Report.ProblemLists
import PairDatasets.Proofs.Report.Statistics
import PairDatasets.Proofs.Report.Listing
import PairDatasets.Proofs.Evaluation.Ranking
import PairDatasets.Proofs.Statistics.Row
import PairDatasets.Proofs.Text.Thousands
