import Wiring.Analysis
import Wiring.Cancellation
import Wiring.Check.Captive
import Wiring.Check.Compatibility
import Wiring.Check.Framework
import Wiring.Check.Poll
import Wiring.Check.Resolvability
import Wiring.Config.Options
import Wiring.Config.Source
import Wiring.Diagnostic
import Wiring.Document.Basic
import Wiring.Document.Decoder
import Wiring.Document.Json.Number
import Wiring.Document.Json.Printer
import Wiring.Document.Json.Reader
import Wiring.Document.Json.Text
import Wiring.Document.Json.Token
import Wiring.Document.Yaml.Plain
import Wiring.Document.Yaml.Printer
import Wiring.Document.Yaml.Reader
import Wiring.Document.Yaml.Token
import Wiring.Error
import Wiring.Facts
import Wiring.Format.Facts
import Wiring.Format.Location
import Wiring.Format.Options
import Wiring.Format.Registration
import Wiring.Format.Report
import Wiring.Format.Snapshot
import Wiring.Format.Trace
import Wiring.Format.Type
import Wiring.Graph
import Wiring.Lifetime
import Wiring.Load
import Wiring.Location
import Wiring.Recorder
import Wiring.Registration
import Wiring.Scope.Blocks
import Wiring.Scope.Flow
import Wiring.Scope.Handles
import Wiring.Scope.Report
import Wiring.Scope.States
import Wiring.Service
import Wiring.Shape
import Wiring.Snapshot.Basic
import Wiring.Snapshot.Drawing
import Wiring.Snapshot.Labels
import Wiring.Text.Blank
import Wiring.Text.Case
import Wiring.Text.Printable
import Wiring.Text.Quoted
import Wiring.Text.Ranges
import Wiring.Trace
import Wiring.TypeRef
import Wiring.Proofs.Scope.Reachable
import Wiring.Proofs.Scope.Walks
import Wiring.Proofs.Scope.Handles
import Wiring.Proofs.Scope.Tracked
import Wiring.Proofs.Scope.Undisposed
import Wiring.Proofs.Graph
import Wiring.Proofs.Resolvability.Chains
import Wiring.Proofs.Scope.Misuse
import Wiring.Proofs.Resolvability.Caches
import Wiring.Proofs.Resolvability.Exact
import Wiring.Proofs.Resolvability.Detour
import Wiring.Proofs.Resolvability.Roots
import Wiring.Proofs.Resolvability.Limits
import Wiring.Proofs.Resolvability.PlainSearch
import Wiring.Proofs.Order
import Wiring.Proofs.Sink
import Wiring.Proofs.Turns
import Wiring.Proofs.Arrival
import Wiring.Proofs.Effective
import Wiring.Proofs.Options
import Wiring.Proofs.Scope.Unreachable
import Wiring.Proofs.Schedule
import Wiring.Proofs.Json.Documents
import Wiring.Proofs.Format.Decoding
import Wiring.Proofs.Format.Facts
import Wiring.Proofs.Format.Snapshot
import Wiring.Proofs.Scope.Renumbering
import Wiring.Proofs.Scope.Rounds
import Wiring.Proofs.Scope.Plan
import Wiring.Proofs.Scope.Tables
import Wiring.Proofs.Scope.Settled
import Wiring.Proofs.Scope.Acceptance
import Wiring.Proofs.Scope.StraightLine
import Wiring.Proofs.Accounts
import Wiring.Proofs.Scope.Asynchrony
import Wiring.Proofs.Scope.LaterEvents
import Wiring.Proofs.Captive
import Wiring.Proofs.Compatibility
import Wiring.Proofs.Inheritance
import Wiring.Proofs.Layers
import Wiring.Proofs.Cancellation
import Wiring.Proofs.Recording
import Wiring.Proofs.Consistency
import Wiring.Proofs.Snapshot
import Wiring.Proofs.Scope.PostOrder
import Wiring.Proofs.Resolvability.Wrapping
import Wiring.Proofs.Resolvability.Runs
import Wiring.Proofs.Resolvability.Entries
import Wiring.Proofs.Parameters
import Wiring.Proofs.Quotation
