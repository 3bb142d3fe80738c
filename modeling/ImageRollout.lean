import ImageRollout.Action
import ImageRollout.Authoring
import ImageRollout.Catalogue
import ImageRollout.CommandLine.Arguments
import ImageRollout.CommandLine.Command
import ImageRollout.Draw
import ImageRollout.Failure
import ImageRollout.Flow.Launch
import ImageRollout.Flow.Node
import ImageRollout.Flow.Prefetch
import ImageRollout.Journal
import ImageRollout.Json.Printer
import ImageRollout.Json.Reader
import ImageRollout.Json.Value
import ImageRollout.Logging
import ImageRollout.Main
import ImageRollout.Misuse
import ImageRollout.Murmur
import ImageRollout.Names
import ImageRollout.Number.Binary64
import ImageRollout.Number.Numeral
import ImageRollout.Number.Shortest
import ImageRollout.Plan.Coverage
import ImageRollout.Plan.Entry
import ImageRollout.Plan.Validity
import ImageRollout.Proofs.Action
import ImageRollout.Proofs.Agreement
import ImageRollout.Proofs.Atomicity
import ImageRollout.Proofs.Authoring
import ImageRollout.Proofs.Columns
import ImageRollout.Proofs.Delivery
import ImageRollout.Proofs.EntryPoints
import ImageRollout.Proofs.Flow.Demand
import ImageRollout.Proofs.Flow.Needs
import ImageRollout.Proofs.Flow.Prefetch
import ImageRollout.Proofs.Flow.Stickiness
import ImageRollout.Proofs.Flow.Traversal
import ImageRollout.Proofs.History
import ImageRollout.Proofs.Isolation
import ImageRollout.Proofs.Murmur
import ImageRollout.Proofs.Names
import ImageRollout.Proofs.Number.Value
import ImageRollout.Proofs.Operations
import ImageRollout.Proofs.Plan.Coverage
import ImageRollout.Proofs.Plan.Faults
import ImageRollout.Proofs.Plan.Interchange
import ImageRollout.Proofs.Plan.Order
import ImageRollout.Proofs.Plan.Position
import ImageRollout.Proofs.Plan.Ramping
import ImageRollout.Proofs.Plan.Validity
import ImageRollout.Proofs.Reached
import ImageRollout.Proofs.Resolution.Batch
import ImageRollout.Proofs.Resolution.Calls
import ImageRollout.Proofs.Resolution.Draws
import ImageRollout.Proofs.Resolution.Integrity
import ImageRollout.Proofs.Resolution.Interleaving
import ImageRollout.Proofs.Resolution.Outcome
import ImageRollout.Proofs.Resolution.Reports
import ImageRollout.Proofs.Resolution.Requests
import ImageRollout.Proofs.Resolution.Singly
import ImageRollout.Proofs.Resolution.Survey
import ImageRollout.Proofs.Schema.Canonical
import ImageRollout.Proofs.Schema.Checked
import ImageRollout.Proofs.Schema.Draft
import ImageRollout.Proofs.Schema.Plan
import ImageRollout.Proofs.Settings
import ImageRollout.Proofs.Signatures
import ImageRollout.Proofs.Store.Alike
import ImageRollout.Proofs.Store.Database
import ImageRollout.Proofs.Store.Memory
import ImageRollout.Proofs.Store.Plans
import ImageRollout.Proofs.Store.Portion
import ImageRollout.Proofs.Store.ReadBack
import ImageRollout.Proofs.Store.Registrations
import ImageRollout.Proofs.Store.Session
import ImageRollout.Proofs.Store.Tables
import ImageRollout.Proofs.Store.Versions
import ImageRollout.Proofs.Timeout
import ImageRollout.Proofs.Uuid
import ImageRollout.Resolution.Batch
import ImageRollout.Resolution.Outcome
import ImageRollout.Resolution.Source
import ImageRollout.Resolution.Survey
import ImageRollout.Schema.Checked
import ImageRollout.Schema.Form
import ImageRollout.Schema.Plan
import ImageRollout.Schema.Request
import ImageRollout.Seconds
import ImageRollout.Settings
import ImageRollout.Store.Database
import ImageRollout.Store.Memory
import ImageRollout.Store.Session
import ImageRollout.Store.Tables
import ImageRollout.Store.VersionState
import ImageRollout.Store.Writer
import ImageRollout.Text.Blank
import ImageRollout.Text.Digits
import ImageRollout.Text.LetterCase
import ImageRollout.Text.Lines
import ImageRollout.Text.Printable
import ImageRollout.Text.Quoted
import ImageRollout.Uuid
