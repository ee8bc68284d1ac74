import BuildRules.Alias.Basic
import BuildRules.Alias.Expansion
import BuildRules.Alias.Table
import BuildRules.CargoConfig
import BuildRules.Command
import BuildRules.CommandLine.Arguments
import BuildRules.CommandLine.Host
import BuildRules.CommandLine.Session
import BuildRules.CommandLine.Usage
import BuildRules.CommandLine.Word
import BuildRules.Config.Error
import BuildRules.Config.Identity
import BuildRules.Config.Load
import BuildRules.Config.Merge
import BuildRules.Config.Packaged
import BuildRules.Digest.Sha256
import BuildRules.Environment
import BuildRules.Execution.Cancellation
import BuildRules.Execution.Launch
import BuildRules.Failure
import BuildRules.Invocation
import BuildRules.Json.Parse
import BuildRules.Json.Render
import BuildRules.Lint.Diagnostic
import BuildRules.Lint.Rule
import BuildRules.Main
import BuildRules.Number.Binary64
import BuildRules.Number.Decimal
import BuildRules.Policy
import BuildRules.Proofs.Alias.DepthFirst
import BuildRules.Proofs.Alias.Exploration
import BuildRules.Proofs.Alias.Stack
import BuildRules.Proofs.Alias.Table
import BuildRules.Proofs.Alias.Walk
import BuildRules.Proofs.Policy
import BuildRules.Proofs.Returns
import BuildRules.Proofs.Run.Course
import BuildRules.Proofs.Run.FirstFailure
import BuildRules.Proofs.Run.Mirror
import BuildRules.Proofs.Run.Recording
import BuildRules.Proofs.Run.Step
import BuildRules.Proofs.Stage.Plan
import BuildRules.Proofs.Time.Calendar
import BuildRules.Proofs.Time.IsoText
import BuildRules.Proofs.Value.Entries
import BuildRules.Report
import BuildRules.Run.Log
import BuildRules.Run.Manifest
import BuildRules.Run.Outcome
import BuildRules.Run.Runner
import BuildRules.Shell.Arithmetic
import BuildRules.Shell.Format
import BuildRules.Shell.Machine
import BuildRules.Shell.Script
import BuildRules.Stage.Basic
import BuildRules.Stage.Plan
import BuildRules.Text.Blank
import BuildRules.Text.Digit
import BuildRules.Text.Printable
import BuildRules.Text.Quoted
import BuildRules.Text.Utf8
import BuildRules.Time.Iso
import BuildRules.Time.Timestamp
import BuildRules.Trigger
import BuildRules.Value.Basic
import BuildRules.Value.Display
import BuildRules.Value.Distinct
import BuildRules.Value.Sequence
import BuildRules.Value.Sorted
import BuildRules.Vendor.Requirement
import BuildRules.Vendor.Source
import BuildRules.Workspace.FileTree
import BuildRules.Workspace.Path
import BuildRules.Yaml.Cursor
import BuildRules.Yaml.Document
import BuildRules.Yaml.Node
import BuildRules.Yaml.Scalar
import BuildRules.Yaml.Token
import BuildRules.Proofs.Lint.Effective
import BuildRules.Proofs.Lint.Denial
import BuildRules.Proofs.Run.Attribution
import BuildRules.Proofs.Number.Rounding
import BuildRules.Proofs.Number.Shortest
import BuildRules.Proofs.Json.Numeral
import BuildRules.Proofs.Json.Canonical
import BuildRules.Proofs.Config.Identity
import BuildRules.Proofs.Value.Keyed
import BuildRules.Proofs.Config.Overlay
import BuildRules.Proofs.Alias.Section
import BuildRules.Proofs.Alias.Switch
import BuildRules.Proofs.Json.Document
import BuildRules.Proofs.Policy.Refusal
import BuildRules.Proofs.Stage.Declaration
import BuildRules.Proofs.Policy.Invariant
import BuildRules.Proofs.Value.Reordered
import BuildRules.Proofs.Config.Agreement
import BuildRules.Proofs.Policy.Sections
import BuildRules.Proofs.Alias.Reordered
import BuildRules.Proofs.Policy.KeyOrder
import BuildRules.Proofs.Config.Layers
import BuildRules.Proofs.Lint.Flags
import BuildRules.Proofs.Json.Reading
import BuildRules.Proofs.Json.Restored
import BuildRules.Proofs.Run.Stored
import BuildRules.Proofs.Report.Text
import BuildRules.Proofs.Run.Return
import BuildRules.Proofs.Report.Run
import BuildRules.Proofs.Toml.Grammar
import BuildRules.Proofs.CargoConfig
import BuildRules.Proofs.Lint.Tightened
import BuildRules.Proofs.Run.Tightened
import BuildRules.Proofs.Run.Once
import BuildRules.Proofs.CommandLine.Refusal
import BuildRules.Proofs.Value.Storable
import BuildRules.Proofs.Workspace.FileTree
import BuildRules.Proofs.Run.Storable
import BuildRules.Proofs.Run.Account
import BuildRules.Proofs.CommandLine.Gate
import BuildRules.Proofs.Alias.Locality
import BuildRules.Proofs.Policy.Verified
import BuildRules.Proofs.Run.Log
import BuildRules.Proofs.Run.Trace
import BuildRules.Proofs.Run.Inert
import BuildRules.Proofs.Alias.Depth
import BuildRules.Proofs.Config.Conflict
import BuildRules.Proofs.Config.Reapplied
import BuildRules.Proofs.Lint.Scan
import BuildRules.Proofs.Text.Line
import BuildRules.Proofs.Lint.Conflict
import BuildRules.Proofs.Lint.Joined
import BuildRules.Proofs.Run.AnyOrder
import BuildRules.Proofs.Vendor.Presence
import BuildRules.Proofs.Toml.Decoding
import BuildRules.Proofs.Vendor.Redirect
import BuildRules.Proofs.Run.Replay
import BuildRules.Proofs.Run.History
import BuildRules.Proofs.Report.Failures
import BuildRules.Proofs.Run.Restart
import BuildRules.Proofs.Alias.Turns
import BuildRules.Proofs.Run.Stopped
import BuildRules.Proofs.Registration
import BuildRules.Proofs.Report.Listing
import BuildRules.Proofs.Report.Content
import BuildRules.Proofs.Report.Sound
import BuildRules.Proofs.Report.Reloaded
import BuildRules.Proofs.Toml.BasicString
import BuildRules.Proofs.Toml.SimpleKey
import BuildRules.Proofs.CargoConfig.DeclaredName
import BuildRules.Proofs.Time.Chronology
