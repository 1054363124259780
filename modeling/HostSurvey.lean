import HostSurvey.Artifact.Basic
import HostSurvey.Artifact.Category
import HostSurvey.Artifact.Metadata
import HostSurvey.Calendar.Instant
import HostSurvey.Calendar.InstantReader
import HostSurvey.Command.Arguments
import HostSurvey.Command.Basic
import HostSurvey.Config
import HostSurvey.Derived.Distribution
import HostSurvey.Derived.InstalledMemory
import HostSurvey.Derived.Subscription
import HostSurvey.Derived.Utilization
import HostSurvey.Dict
import HostSurvey.Evaluation.Builtin
import HostSurvey.Evaluation.Component
import HostSurvey.Evaluation.Outcome
import HostSurvey.Evaluation.Run
import HostSurvey.Evaluation.Schedule
import HostSurvey.Fact.Basic
import HostSurvey.Fact.Document
import HostSurvey.Fact.Kind
import HostSurvey.Files.Access
import HostSurvey.Files.Disk
import HostSurvey.Files.Path
import HostSurvey.Files.Tree
import HostSurvey.HostDirectory
import HostSurvey.Json.Basic
import HostSurvey.Json.Printer
import HostSurvey.Main
import HostSurvey.Number.Double
import HostSurvey.Number.Layout
import HostSurvey.Number.Reading
import HostSurvey.Number.Rounding
import HostSurvey.Number.Shortest
import HostSurvey.Proofs.Builtin.Derivations
import HostSurvey.Proofs.Builtin.Faults
import HostSurvey.Proofs.Builtin.Findings
import HostSurvey.Proofs.InstalledMemory.Total
import HostSurvey.Proofs.Inventory.Blocks
import HostSurvey.Proofs.Inventory.Reading
import HostSurvey.Proofs.PerformanceLog.Frame
import HostSurvey.Proofs.PerformanceLog.LastWriter
import HostSurvey.Proofs.RepoTable.Rows
import HostSurvey.Proofs.Run.Fixpoint
import HostSurvey.Proofs.Run.Invocation
import HostSurvey.Proofs.Run.Locality
import HostSurvey.Proofs.Run.RootCause
import HostSurvey.Proofs.Run.Rule
import HostSurvey.Proofs.Schedule.Acceptance
import HostSurvey.Proofs.Schedule.Dependence
import HostSurvey.Proofs.Schedule.Walk
import HostSurvey.Proofs.Subscription.Entitlement
import HostSurvey.Reading.Inventory
import HostSurvey.Reading.KernelIdentity
import HostSurvey.Reading.PerformanceLog
import HostSurvey.Reading.PinnedRelease
import HostSurvey.Reading.ReleaseStatement
import HostSurvey.Reading.RepoTable
import HostSurvey.Report.Console
import HostSurvey.Report.Document
import HostSurvey.Report.HostFindings
import HostSurvey.Text.Blank
import HostSurvey.Text.DecimalDigit
import HostSurvey.Text.Key
import HostSurvey.Text.Note
import HostSurvey.Text.Numeral
import HostSurvey.Text.Pieces
import HostSurvey.Toml.Document
import HostSurvey.Toml.Text
import HostSurvey.Toml.Value
import HostSurvey.Proofs.Builtin.JoinedInventories
import HostSurvey.Proofs.Run.Discipline
import HostSurvey.Proofs.Report.Documents
import HostSurvey.Proofs.Command.Derive
import HostSurvey.Proofs.Number.Decimals
import HostSurvey.Proofs.Number.ReadBack
import HostSurvey.Proofs.Json.Printer
import HostSurvey.Proofs.Schedule.DeclaredOrder
import HostSurvey.Proofs.Schedule.Cycle
import HostSurvey.Proofs.InstalledMemory.Exactness
import HostSurvey.Proofs.PerformanceLog.LineGrammar
import HostSurvey.Proofs.RepoTable.Reading
import HostSurvey.Proofs.ReleaseStatement.FirstReadable
import HostSurvey.Proofs.PinnedRelease.Versions
import HostSurvey.Proofs.Distribution.Architecture
import HostSurvey.Proofs.Utilization.Figures
import HostSurvey.Proofs.HostDirectory.Exactness
import HostSurvey.Proofs.Report.ConsoleLines
import HostSurvey.Proofs.PerformanceLog.Insertion
import HostSurvey.Proofs.Text.CanonicalKey
import HostSurvey.Proofs.Artifact.LineBreaks
import HostSurvey.Proofs.Report.Colours
