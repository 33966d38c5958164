import ScriptWorkspace.Text.Quoted
import ScriptWorkspace.Script.Package
import ScriptWorkspace.Json.Parser
import ScriptWorkspace.Path.Home
import ScriptWorkspace.Toml.Parser
import ScriptWorkspace.Storage.Calls
import ScriptWorkspace.Failure.Basic
import ScriptWorkspace.Session.Files
import ScriptWorkspace.Toml.Layout.Printer
import ScriptWorkspace.Toml.Layout.Document
import ScriptWorkspace.Workspace.Membership
import ScriptWorkspace.Cargo.Call
import ScriptWorkspace.Settings.Store
import ScriptWorkspace.Workspace.Creation
import ScriptWorkspace.Gist.Sync
import ScriptWorkspace.Console.Report
import ScriptWorkspace.CommandLine.Execution
import ScriptWorkspace.Storage.Changes
import ScriptWorkspace.Proofs.Text.RawLines
import ScriptWorkspace.Proofs.Script.Lines
import ScriptWorkspace.Proofs.Script.Scan
import ScriptWorkspace.Proofs.Markdown.Offsets
import ScriptWorkspace.Proofs.Script.Body
import ScriptWorkspace.Proofs.Script.Splice
import ScriptWorkspace.Proofs.Markdown.Rows
import ScriptWorkspace.Proofs.Markdown.Progress
import ScriptWorkspace.Proofs.Markdown.Agreement
import ScriptWorkspace.Proofs.Markdown.Prefix
import ScriptWorkspace.Proofs.Markdown.Fence
import ScriptWorkspace.Proofs.Markdown.Search
import ScriptWorkspace.Proofs.Markdown.Order
import ScriptWorkspace.Proofs.Markdown.Coverage
import ScriptWorkspace.Proofs.Script.Manifest
import ScriptWorkspace.Proofs.Script.RoundTrip
import ScriptWorkspace.Proofs.Script.Locality
import ScriptWorkspace.Proofs.Script.Reread
import ScriptWorkspace.Proofs.Script.CarriageReturns
import ScriptWorkspace.Proofs.Script.Faults
import ScriptWorkspace.Proofs.Script.LineEnds
import ScriptWorkspace.Proofs.Script.Tail
import ScriptWorkspace.Proofs.Session.Perform
import ScriptWorkspace.Proofs.Gist.Client
import ScriptWorkspace.Proofs.Gist.Push
import ScriptWorkspace.Proofs.Toml.LineReaders
import ScriptWorkspace.Proofs.Toml.PlainScalars
import ScriptWorkspace.Proofs.Toml.Margin
import ScriptWorkspace.Proofs.Toml.Strings
import ScriptWorkspace.Proofs.Toml.LongStrings
import ScriptWorkspace.Proofs.Toml.Rules
import ScriptWorkspace.Proofs.Toml.Taking
import ScriptWorkspace.Proofs.Toml.Unindent
import ScriptWorkspace.Proofs.Toml.Documents
import ScriptWorkspace.Proofs.Toml.Equality
import ScriptWorkspace.Proofs.Script.Meaning
import ScriptWorkspace.Proofs.Session.OnlyAsks
import ScriptWorkspace.Proofs.Gist.Registry
import ScriptWorkspace.Proofs.CommandLine.Reading
import ScriptWorkspace.Proofs.DryRun.Steps
import ScriptWorkspace.Proofs.DryRun.Operations
import ScriptWorkspace.Proofs.DryRun.Commands
import ScriptWorkspace.Proofs.DryRun.CommandLines
import ScriptWorkspace.Proofs.Gist.Address
import ScriptWorkspace.Proofs.Gist.Stored
import ScriptWorkspace.Proofs.Gist.Store
import ScriptWorkspace.Proofs.Storage.Tree
import ScriptWorkspace.Proofs.Storage.Staging
import ScriptWorkspace.Proofs.Storage.Moving
import ScriptWorkspace.Proofs.Session.Replacement
import ScriptWorkspace.Proofs.Session.Reading
import ScriptWorkspace.Proofs.Path.Spelling
import ScriptWorkspace.Proofs.Toml.Values
import ScriptWorkspace.Proofs.Toml.Changes
import ScriptWorkspace.Proofs.Toml.Members
import ScriptWorkspace.Proofs.Toml.Orderly
import ScriptWorkspace.Proofs.Toml.Lookup
import ScriptWorkspace.Proofs.Toml.Arrays
import ScriptWorkspace.Proofs.Workspace.Plan
import ScriptWorkspace.Proofs.Workspace.Lists
import ScriptWorkspace.Proofs.Workspace.Modification
import ScriptWorkspace.Proofs.Storage.Growth
import ScriptWorkspace.Proofs.Session.Growing
import ScriptWorkspace.Proofs.Session.Writing
import ScriptWorkspace.Proofs.Workspace.Import
import ScriptWorkspace.Proofs.Gist.Pull
import ScriptWorkspace.Proofs.DryRun.Forecast
import ScriptWorkspace.Proofs.DryRun.Prediction
import ScriptWorkspace.Proofs.Gist.Changed
import ScriptWorkspace.Proofs.Gist.Pulled
import ScriptWorkspace.Proofs.Gist.Convergence
import ScriptWorkspace.Proofs.Session.Runs
import ScriptWorkspace.Proofs.Storage.Regions
import ScriptWorkspace.Proofs.Session.Staying
import ScriptWorkspace.Proofs.Workspace.Roster
import ScriptWorkspace.Proofs.Workspace.Rereading
import ScriptWorkspace.Proofs.Workspace.Removal
import ScriptWorkspace.Proofs.Workspace.Distinct
import ScriptWorkspace.Proofs.Workspace.Staying
import ScriptWorkspace.Proofs.Workspace.Tasks
import ScriptWorkspace.Proofs.Workspace.Apart
import ScriptWorkspace.Proofs.Workspace.Confinement
import ScriptWorkspace.Proofs.Session.OnFiles
import ScriptWorkspace.Proofs.Session.Input
import ScriptWorkspace.Proofs.CommandLine.Input
import ScriptWorkspace.Proofs.Path.Home
import ScriptWorkspace.Proofs.Toml.Arrangement
import ScriptWorkspace.Proofs.Settings.Rereading
import ScriptWorkspace.Proofs.Settings.Entries
import ScriptWorkspace.Proofs.Settings.Registration
import ScriptWorkspace.Proofs.CommandLine.Template
import ScriptWorkspace.Proofs.Session.Calls
import ScriptWorkspace.Proofs.Workspace.Virtual
import ScriptWorkspace.Proofs.Workspace.Registration
import ScriptWorkspace.Proofs.CommandLine.Runner
import ScriptWorkspace.Proofs.Script.Opaque
import ScriptWorkspace.Proofs.Script.Comments
import ScriptWorkspace.Proofs.Script.Attributes
import ScriptWorkspace.Proofs.Session.Failing
import ScriptWorkspace.Proofs.Workspace.Registered
import ScriptWorkspace.Proofs.Storage.Listing
import ScriptWorkspace.Proofs.Workspace.Copying
import ScriptWorkspace.Proofs.Workspace.FromTemplate
import ScriptWorkspace.Proofs.Diff.Matching
import ScriptWorkspace.Proofs.Diff.Script
import ScriptWorkspace.Proofs.Path.Forms
import ScriptWorkspace.Proofs.Toml.Distinct
import ScriptWorkspace.Proofs.Toml.Readings
import ScriptWorkspace.Proofs.Workspace.Renaming
import ScriptWorkspace.Proofs.CommandLine.Numerals
import ScriptWorkspace.Proofs.Cargo.Decoding
import ScriptWorkspace.Proofs.Script.Harvest
import ScriptWorkspace.Proofs.Script.Layout
