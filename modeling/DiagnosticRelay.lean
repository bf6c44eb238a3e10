import DiagnosticRelay.Main
import DiagnosticRelay.Provider.Rest
import DiagnosticRelay.Provider.Session
import DiagnosticRelay.Publisher.Release
import DiagnosticRelay.Publisher.Session
import DiagnosticRelay.Span.Decoding
import DiagnosticRelay.Subscription.Release
import DiagnosticRelay.Proofs.Spellings
import DiagnosticRelay.Proofs.Ledger
import DiagnosticRelay.Proofs.Provider.Course
import DiagnosticRelay.Proofs.Provider.Change
import DiagnosticRelay.Proofs.Provider.Watching
import DiagnosticRelay.Proofs.Provider.Watching.Upkeep
import DiagnosticRelay.Proofs.Provider.Watching.Release
import DiagnosticRelay.Proofs.Provider.Watching.Ends
import DiagnosticRelay.Proofs.Provider.Watching.Agreement
import DiagnosticRelay.Proofs.Provider.Account
import DiagnosticRelay.Proofs.Provider.Overtaking
import DiagnosticRelay.Proofs.Provider.Reference
import DiagnosticRelay.Proofs.Provider.Reference.Following
import DiagnosticRelay.Proofs.Provider.Reference.Hearing
import DiagnosticRelay.Proofs.Publisher.Delivery
import DiagnosticRelay.Proofs.Publisher.Cascade
import DiagnosticRelay.Proofs.Publisher.Holding
import DiagnosticRelay.Proofs.Publisher.Correspondence
import DiagnosticRelay.Proofs.Building
import DiagnosticRelay.Proofs.Provider.Failure
import DiagnosticRelay.Proofs.Provider.Reissue
import DiagnosticRelay.Proofs.Provider.Reissue.Upkeep
import DiagnosticRelay.Proofs.Provider.Reissue.Owners
import DiagnosticRelay.Proofs.Provider.Reissue.Stale
import DiagnosticRelay.Proofs.Provider.Starting
import DiagnosticRelay.Proofs.Provider.Ending
import DiagnosticRelay.Proofs.Replay.Serving
import DiagnosticRelay.Proofs.Replay.Draining
import DiagnosticRelay.Proofs.Replay.ClosedForm
import DiagnosticRelay.Proofs.Replay.Naming
import DiagnosticRelay.Proofs.Provider.Silence
import DiagnosticRelay.Proofs.Consumer
import DiagnosticRelay.Proofs.Provider.Showing
import DiagnosticRelay.Proofs.Json.Tree
import DiagnosticRelay.Proofs.Json.Scanning
import DiagnosticRelay.Proofs.Json.Numerals
import DiagnosticRelay.Proofs.Json.Skipping
import DiagnosticRelay.Proofs.Json.Reading
import DiagnosticRelay.Proofs.Json.Records
import DiagnosticRelay.Proofs.Json.Rendering
import DiagnosticRelay.Proofs.Compile.Decoding
import DiagnosticRelay.Proofs.Output
import DiagnosticRelay.Proofs.CommandLine
import DiagnosticRelay.Proofs.Configured
import DiagnosticRelay.Proofs.Grouping
import DiagnosticRelay.Proofs.Building.ClosedForm
import DiagnosticRelay.Proofs.Tracker.Operations
import DiagnosticRelay.Proofs.Tracker.Conservation
import DiagnosticRelay.Proofs.Subscription.Cascade
import DiagnosticRelay.Proofs.Subscription.Account
import DiagnosticRelay.Proofs.Grammar
import DiagnosticRelay.Proofs.Tracker.Retraction
import DiagnosticRelay.Proofs.Rows
import DiagnosticRelay.Proofs.Toml.Spelling
import DiagnosticRelay.Proofs.Toml.Layout
import DiagnosticRelay.Proofs.Toml.Values
import DiagnosticRelay.Proofs.Toml.Lines
import DiagnosticRelay.Proofs.Toml.Outline
import DiagnosticRelay.Proofs.Toml.Printing
import DiagnosticRelay.Proofs.ConfigFile
import DiagnosticRelay.Proofs.ConfigFile.RoundTrip
