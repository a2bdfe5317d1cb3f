import GraphWorkbench.Calendar.Day
import GraphWorkbench.Calendar.Instant
import GraphWorkbench.Calendar.Iso
import GraphWorkbench.Document.Basic
import GraphWorkbench.Document.Constraint
import GraphWorkbench.Document.Difference
import GraphWorkbench.Document.Draft
import GraphWorkbench.Document.Exchange
import GraphWorkbench.Document.Format
import GraphWorkbench.Document.History
import GraphWorkbench.Document.Mutation
import GraphWorkbench.Document.Notice
import GraphWorkbench.Document.Patch
import GraphWorkbench.Document.Rejection
import GraphWorkbench.Document.Store
import GraphWorkbench.Document.Value
import GraphWorkbench.Events.Bus
import GraphWorkbench.Events.Log
import GraphWorkbench.Inference.Coverage
import GraphWorkbench.Inference.Engine
import GraphWorkbench.Inference.Registry
import GraphWorkbench.Inference.Targets
import GraphWorkbench.Inference.View
import GraphWorkbench.Json.Basic
import GraphWorkbench.Json.Literal
import GraphWorkbench.Json.Reader
import GraphWorkbench.Json.Source
import GraphWorkbench.Library.ThreatModel
import GraphWorkbench.Library.Topology
import GraphWorkbench.Numeric.Binary64
import GraphWorkbench.Numeric.Shortest
import GraphWorkbench.Pattern.Basic
import GraphWorkbench.Pattern.Matcher
import GraphWorkbench.Pattern.Reader
import GraphWorkbench.Preset.Audit
import GraphWorkbench.Preset.Basic
import GraphWorkbench.Preset.Format
import GraphWorkbench.Preset.Load
import GraphWorkbench.Preset.Migration
import GraphWorkbench.Preset.Words
import GraphWorkbench.Proofs.Document.Acceptance
import GraphWorkbench.Proofs.Document.Effect
import GraphWorkbench.Proofs.Document.Loading
import GraphWorkbench.Proofs.Document.Reachable
import GraphWorkbench.Proofs.Document.Recording
import GraphWorkbench.Proofs.Document.Reload
import GraphWorkbench.Proofs.Document.Staging
import GraphWorkbench.Proofs.Document.Timeline
import GraphWorkbench.Proofs.Document.Trail
import GraphWorkbench.Proofs.Document.Validity
import GraphWorkbench.Proofs.Inference.Chain
import GraphWorkbench.Proofs.Inference.Derivation
import GraphWorkbench.Proofs.Inference.Recompute
import GraphWorkbench.Proofs.Inference.View
import GraphWorkbench.Proofs.Json
import GraphWorkbench.Proofs.Outcome
import GraphWorkbench.Proofs.Place
import GraphWorkbench.Proofs.Preset.Audit
import GraphWorkbench.Proofs.Preset.Migrating
import GraphWorkbench.Proofs.Preset.Reading
import GraphWorkbench.Proofs.Preset.WellFormed
import GraphWorkbench.Proofs.Preset.Searching
import GraphWorkbench.Proofs.Preset.Writing
import GraphWorkbench.Proofs.Schema.Reading
import GraphWorkbench.Proofs.Schema.Telling
import GraphWorkbench.Proofs.Schema.Writing
import GraphWorkbench.Proofs.Stix.Import
import GraphWorkbench.Proofs.Workspace.Session
import GraphWorkbench.Report
import GraphWorkbench.Schema.Decode
import GraphWorkbench.Schema.Issue
import GraphWorkbench.Stix.Bundle
import GraphWorkbench.Stix.Import
import GraphWorkbench.Stix.Issue
import GraphWorkbench.Stix.Kind
import GraphWorkbench.Stix.Mapping
import GraphWorkbench.Stix.Object
import GraphWorkbench.Stix.Validation
import GraphWorkbench.Table
import GraphWorkbench.Text.Case
import GraphWorkbench.Text.Encoding
import GraphWorkbench.Text.Form
import GraphWorkbench.Text.Integer
import GraphWorkbench.Text.Letters
import GraphWorkbench.Text.Printable
import GraphWorkbench.Text.Url
import GraphWorkbench.Workspace.Service
import GraphWorkbench.Workspace.Session
import GraphWorkbench.Workspace.Settings
import GraphWorkbench.Proofs.Document.Faults
import GraphWorkbench.Proofs.Inference.Passes
import GraphWorkbench.Proofs.Inference.Harvest
import GraphWorkbench.Proofs.Inference.Multiplicity
import GraphWorkbench.Proofs.Inference.Completeness
import GraphWorkbench.Proofs.Stix.Repeat
import GraphWorkbench.Proofs.Preset.Judging
import GraphWorkbench.Proofs.Preset.Fixpoint
import GraphWorkbench.Proofs.Preset.Properties
import GraphWorkbench.Proofs.Stix.Share
import GraphWorkbench.Proofs.Stix.Mapping
import GraphWorkbench.Proofs.Stix.Account
import GraphWorkbench.Proofs.Preset.Chain
import GraphWorkbench.Proofs.Inference.Convergence
import GraphWorkbench.Proofs.Document.Entering
import GraphWorkbench.Proofs.Inference.Likeness
import GraphWorkbench.Proofs.Inference.Ways
import GraphWorkbench.Proofs.Inference.Gathered
import GraphWorkbench.Proofs.Inference.Rearranged
import GraphWorkbench.Proofs.Inference.Independence
import GraphWorkbench.Proofs.Document.Marks
import GraphWorkbench.Proofs.Workspace.Ledger
import GraphWorkbench.Proofs.Document.Order
import GraphWorkbench.Proofs.Document.Planning
import GraphWorkbench.Proofs.Document.Updating
import GraphWorkbench.Proofs.Inference.Precedence
import GraphWorkbench.Proofs.Sorting
import GraphWorkbench.Proofs.Inference.Hops
import GraphWorkbench.Proofs.Inference.Reach
import GraphWorkbench.Proofs.Document.Swapping
import GraphWorkbench.Proofs.Stix.Renumbering
import GraphWorkbench.Proofs.Stix.Validation
import GraphWorkbench.Proofs.Stix.Counting
import GraphWorkbench.Proofs.Stix.Quiet
import GraphWorkbench.Proofs.Stix.Joining
import GraphWorkbench.Proofs.Stix.Shuffling
import GraphWorkbench.Proofs.Preset.Omission
import GraphWorkbench.Proofs.Stix.References
import GraphWorkbench.Proofs.Stix.Outcomes
import GraphWorkbench.Proofs.Stix.Lossless
import GraphWorkbench.Proofs.Preset.Lifting
import GraphWorkbench.Proofs.Sameness
import GraphWorkbench.Proofs.Document.Difference
import GraphWorkbench.Proofs.Events.Cascade
import GraphWorkbench.Proofs.Events.Delivery
import GraphWorkbench.Proofs.Events.Subscriptions
import GraphWorkbench.Proofs.Preset.Endpoints
import GraphWorkbench.Proofs.Document.Rereading
