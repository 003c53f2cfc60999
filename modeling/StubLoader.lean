import StubLoader.Artifact
import StubLoader.Batch
import StubLoader.Command.Delivery
import StubLoader.Command.Line
import StubLoader.Command.Session
import StubLoader.Compiler
import StubLoader.Complaint
import StubLoader.Decimal.Binary64
import StubLoader.Decimal.Shortest
import StubLoader.Event
import StubLoader.Failure
import StubLoader.FileTree
import StubLoader.Host
import StubLoader.Json.Basic
import StubLoader.Json.Decode
import StubLoader.Json.Fault
import StubLoader.Json.Number
import StubLoader.Json.Printer
import StubLoader.Json.Reader
import StubLoader.Json.Skip
import StubLoader.LogFilter
import StubLoader.LogLevel
import StubLoader.Machine
import StubLoader.Machine.World
import StubLoader.Main
import StubLoader.Mode
import StubLoader.Options
import StubLoader.Output
import StubLoader.Path.Basic
import StubLoader.Path.Normal
import StubLoader.Pattern.Atom
import StubLoader.Pattern.Basic
import StubLoader.Pattern.Bracket
import StubLoader.Pattern.Reader
import StubLoader.Project
import StubLoader.Proofs.Json.Decoding
import StubLoader.Proofs.Json.Grammar
import StubLoader.Proofs.Json.LastWins
import StubLoader.Proofs.Json.Literal
import StubLoader.Proofs.Json.Members
import StubLoader.Proofs.Json.Numeral
import StubLoader.Proofs.Json.Plain
import StubLoader.Proofs.Json.Printing
import StubLoader.Proofs.Json.Reading
import StubLoader.Proofs.Json.Spelling
import StubLoader.Proofs.Json.StringText
import StubLoader.Proofs.Path.Normal
import StubLoader.Proofs.Reference.Companion
import StubLoader.Proofs.Reference.ForcedMode
import StubLoader.Proofs.Reference.Literal
import StubLoader.Proofs.Reference.Reading
import StubLoader.Proofs.Reference.RoundTrip
import StubLoader.Proofs.Run.Alike
import StubLoader.Proofs.Run.Cleanup
import StubLoader.Proofs.Run.Ledger
import StubLoader.Proofs.Run.Polling
import StubLoader.Proofs.Run.Transcript
import StubLoader.Proofs.Stub.Occurrences
import StubLoader.Proofs.Stub.Redirect
import StubLoader.Proofs.Text.Blank
import StubLoader.Proofs.Text.Utf8
import StubLoader.Reference
import StubLoader.Request
import StubLoader.Run
import StubLoader.RunState
import StubLoader.Scripted.Batch
import StubLoader.Scripted.Host
import StubLoader.Scripted.Parts
import StubLoader.Settings
import StubLoader.Shell.Format
import StubLoader.Shell.Script
import StubLoader.Shell.Token
import StubLoader.Stub
import StubLoader.Text.Blank
import StubLoader.Text.Letter
import StubLoader.Text.Quoted
import StubLoader.Text.Terminal
import StubLoader.Text.Utf8
import StubLoader.Text.Visible
import StubLoader.Toml.Basic
import StubLoader.Toml.Blank
import StubLoader.Toml.Document
import StubLoader.Toml.Moment
import StubLoader.Toml.Reader
import StubLoader.Toml.Scalar
import StubLoader.Toml.Text
import StubLoader.Workspace
import StubLoader.World
import StubLoader.Proofs.Run.Following
import StubLoader.Proofs.Json.Meaning
import StubLoader.Proofs.Reference.WireFormat
import StubLoader.Proofs.Reference.Emitted
import StubLoader.Proofs.Batch.Ledgers
import StubLoader.Proofs.Batch.Permits
import StubLoader.Proofs.Batch.Cancellation
import StubLoader.Proofs.Path.Joining
import StubLoader.Proofs.Batch.Sandbox
import StubLoader.Proofs.Batch.Twins
import StubLoader.Proofs.Batch.Isolation
import StubLoader.Proofs.Scripted.Sandbox
import StubLoader.Proofs.Stub.SingleImport
import StubLoader.Proofs.Path.Names
import StubLoader.Proofs.Path.Naming
import StubLoader.Proofs.Run.Lockstep
import StubLoader.Proofs.Run.Respelled
import StubLoader.Proofs.Run.Steps
import StubLoader.Proofs.Run.Logs
import StubLoader.Proofs.Run.States
import StubLoader.Proofs.Path.Canonical
import StubLoader.Proofs.Path.Detours
import StubLoader.Proofs.Path.Containment
import StubLoader.Proofs.Stub.Sibling
import StubLoader.Sink
import StubLoader.Proofs.Run.Warnings
import StubLoader.Proofs.Batch.Warnings
import StubLoader.Proofs.Path.Rooted
import StubLoader.Proofs.Json.Reordering
import StubLoader.Proofs.Reference.Canonical
import StubLoader.Proofs.Batch.Limits
import StubLoader.Proofs.Batch.AtOnce
import StubLoader.Proofs.Command.Delivery
import StubLoader.Proofs.Command.Steps
import StubLoader.Proofs.Command.Settling
import StubLoader.Proofs.Command.Batch
import StubLoader.Proofs.Json.Skipping
import StubLoader.Proofs.Settings.Reading
import StubLoader.Proofs.Settings.Forms
import StubLoader.Proofs.FileTree.Places
import StubLoader.Proofs.FileTree.Writing
import StubLoader.Proofs.Command.Files
import StubLoader.Proofs.Path.Targets
import StubLoader.Proofs.Machine.Files
import StubLoader.Proofs.Command.Artifacts
