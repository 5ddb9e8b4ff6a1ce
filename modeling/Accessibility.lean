import Accessibility.CommandLine.Run
import Accessibility.Main
import Accessibility.Proofs.Number.Rounding
import Accessibility.Proofs.Number.Shortest
import Accessibility.Proofs.Evaluation.History
import Accessibility.Proofs.Evaluation.Interference
import Accessibility.Proofs.Evaluation.Gravity
import Accessibility.Proofs.Cache.Store
import Accessibility.Proofs.Cache.Dense
import Accessibility.Proofs.Cache.Ledger
import Accessibility.Proofs.Cache.Sharing
import Accessibility.Proofs.Packet.Answer
import Accessibility.Proofs.Wire.Codec
import Accessibility.Proofs.Wire.Frame
import Accessibility.Proofs.Wire.Strict
import Accessibility.Proofs.Wire.Checksum
import Accessibility.Proofs.Wire.Acceptance
import Accessibility.Proofs.Wire.Corruption
import Accessibility.Proofs.Execution.Local
import Accessibility.Proofs.Execution.Replies
import Accessibility.Proofs.Execution.Loopback
import Accessibility.Proofs.Execution.Failure
import Accessibility.Proofs.Execution.Serial
import Accessibility.Proofs.Execution.Agreement
import Accessibility.Proofs.Evaluation.Settled
import Accessibility.Proofs.Evaluation.Ledger
import Accessibility.Proofs.Execution.Mirror
import Accessibility.Proofs.Execution.Renumber
import Accessibility.Proofs.Execution.Independence
import Accessibility.Proofs.Packet.Range
import Accessibility.Proofs.Packet.Partition
import Accessibility.Proofs.Zone.System
import Accessibility.Proofs.Table.Merge
import Accessibility.Proofs.Job
import Accessibility.Proofs.Number.Text
import Accessibility.Proofs.Text.Delimited
import Accessibility.Proofs.Table.Text
import Accessibility.Proofs.Number.Narrowing
import Accessibility.Proofs.Evaluation.Service
import Accessibility.Proofs.Evaluation.Outcomes
import Accessibility.Proofs.Packet.Outcomes
import Accessibility.Proofs.Packet.Sequence
import Accessibility.Proofs.Execution.Outcomes
import Accessibility.Proofs.Table.Provenance
import Accessibility.Proofs.Table.Tiling
import Accessibility.Proofs.Job.Values
import Accessibility.Proofs.Filing.Path
import Accessibility.Proofs.Filing.Tree
import Accessibility.Proofs.Filing.Session
import Accessibility.Proofs.Table.Storage
import Accessibility.Proofs.Build.Stages
import Accessibility.Proofs.Build.Output
import Accessibility.Proofs.Evaluation.Setup
import Accessibility.Proofs.Evaluation.Faults
import Accessibility.Proofs.Job.Faults
import Accessibility.Proofs.Build.Configuration
import Accessibility.Proofs.Segment.Indexer
import Accessibility.Proofs.Segment.School
import Accessibility.Proofs.Zone.Lookup
import Accessibility.Proofs.Zone.File
import Accessibility.Proofs.Build.Reuse
import Accessibility.Proofs.SizeTerm.Table
import Accessibility.Proofs.Evaluation.Lookups
import Accessibility.Proofs.Cache.Tally
import Accessibility.Proofs.Execution.Moves
import Accessibility.Proofs.Execution.Bookkeeping
import Accessibility.Proofs.Job.Counters
import Accessibility.Proofs.Packet.Bounds
import Accessibility.Proofs.Execution.Attribution
import Accessibility.Proofs.Segment.Names
import Accessibility.Proofs.Segment.Table
import Accessibility.Proofs.Segment.Registration
import Accessibility.Proofs.Segment.Districts
import Accessibility.Proofs.Segment.SchoolLayout
import Accessibility.Proofs.Segment.Resolution
import Accessibility.Proofs.SizeTerm.Weights
import Accessibility.Proofs.SizeTerm.Rows
import Accessibility.Proofs.Evaluation.SizeTerms
import Accessibility.Proofs.Evaluation.GeneralTerms
import Accessibility.Proofs.Evaluation.SchoolTerms
import Accessibility.Proofs.Evaluation.Factors
import Accessibility.Proofs.Evaluation.SchoolFactors
import Accessibility.Proofs.Table.Reading
import Accessibility.Proofs.Text.Suggestion
import Accessibility.Proofs.Toml.Document
import Accessibility.Proofs.Toml.Paths
import Accessibility.Proofs.Settings.Keys
import Accessibility.Proofs.Settings.Accepted
