import CommandRelay.Command.Record
import CommandRelay.Command.Redirection
import CommandRelay.Command.Notice
import CommandRelay.Failure.Report
import CommandRelay.Authorization.Audit
import CommandRelay.Stream.Reader
import CommandRelay.Execution.Run
import CommandRelay.Program.Launch
import CommandRelay.Document.Toml.Reader
import CommandRelay.Disk.Path
import CommandRelay.Configuration.Load
import CommandRelay.Worker.Serve
import CommandRelay.Journal.Registry
import CommandRelay.Disk.Writer
import CommandRelay.Cancellation.Observed
import CommandRelay.Cancellation.Program
import CommandRelay.Sink.Registry
import CommandRelay.Proofs.Redirection.Grammar
import CommandRelay.Proofs.Redirection.RoundTrip
import CommandRelay.Proofs.Redirection.Gluing
import CommandRelay.Proofs.Execution.Moments
import CommandRelay.Proofs.Relay.Stir
import CommandRelay.Proofs.Relay.Turns
import CommandRelay.Proofs.Execution.Opening
import CommandRelay.Proofs.Execution.Staging
import CommandRelay.Proofs.Sink.Delivery
import CommandRelay.Proofs.Sink.FileContent
import CommandRelay.Proofs.Stream.Published
import CommandRelay.Proofs.Relay.Quiet
import CommandRelay.Proofs.Relay.Flow
import CommandRelay.Proofs.Relay.Copying
import CommandRelay.Proofs.Execution.FreshFiles
import CommandRelay.Proofs.Relay.Lossless
import CommandRelay.Proofs.Execution.Transfer
import CommandRelay.Proofs.Stream.Chunking
import CommandRelay.Proofs.Stream.Reading
import CommandRelay.Proofs.Text.Utf8RoundTrip
import CommandRelay.Proofs.Text.WideRoundTrip
import CommandRelay.Proofs.Document.JsonRoundTrip
import CommandRelay.Proofs.Document.JsonEncodings
import CommandRelay.Proofs.Command.RecordRoundTrip
import CommandRelay.Proofs.Command.EncodedRecord
import CommandRelay.Proofs.Command.RenderedLine
import CommandRelay.Proofs.Relay.Steps
import CommandRelay.Proofs.Execution.Reaping
import CommandRelay.Proofs.Sink.Refusal
import CommandRelay.Proofs.Relay.Conveyance
import CommandRelay.Proofs.Relay.Course
import CommandRelay.Proofs.Execution.Outcome
import CommandRelay.Proofs.Text.LossyDecoding
import CommandRelay.Proofs.Sink.ConsoleText
import CommandRelay.Proofs.Sink.Handles
import CommandRelay.Proofs.Execution.OpenFiles
import CommandRelay.Proofs.Execution.OwnedFiles
import CommandRelay.Proofs.Execution.Closing
import CommandRelay.Proofs.Execution.Unopened
import CommandRelay.Proofs.Execution.Obstacles
import CommandRelay.Proofs.Execution.FailedSetup
import CommandRelay.Proofs.Cancellation.Schedules
import CommandRelay.Proofs.Cancellation.Notification
import CommandRelay.Proofs.Cancellation.Lock
import CommandRelay.Proofs.Cancellation.Removal
import CommandRelay.Proofs.Cancellation.Record
import CommandRelay.Proofs.Cancellation.Observation
import CommandRelay.Proofs.Relay.Upkeep
import CommandRelay.Proofs.Relay.Standstill
import CommandRelay.Proofs.Execution.Progress
import CommandRelay.Proofs.Command.StrictDecoding
import CommandRelay.Proofs.Execution.LateChunks
import CommandRelay.Proofs.Redirection.Joining
import CommandRelay.Proofs.Redirection.Normalization
import CommandRelay.Proofs.Relay.Depletion
import CommandRelay.Proofs.Sink.BrokenCall
import CommandRelay.Proofs.Relay.Loss
import CommandRelay.Proofs.Execution.LostOutput
import CommandRelay.Proofs.Sink.Likeness
import CommandRelay.Proofs.Relay.Likeness
import CommandRelay.Proofs.Relay.Footprint
import CommandRelay.Proofs.Execution.IgnoredTargets
import CommandRelay.Proofs.Stream.Ending
import CommandRelay.Proofs.Sink.CallOrder
import CommandRelay.Proofs.Sink.ConsoleOrder
import CommandRelay.Proofs.Relay.LeadingFile
import CommandRelay.Proofs.Execution.SharedFile
import CommandRelay.Proofs.Redirection.Refusals
import CommandRelay.Proofs.Command.RenderedCommand
import CommandRelay.Proofs.Document.JsonNesting
import CommandRelay.Proofs.Authorization.AuditRecord
import CommandRelay.Proofs.Authorization.Decisions
import CommandRelay.Proofs.Configuration.Acceptance
import CommandRelay.Proofs.Configuration.Loading
import CommandRelay.Proofs.Journal.Outputs
import CommandRelay.Proofs.Journal.Registration
import CommandRelay.Proofs.Journal.Openings
import CommandRelay.Proofs.Journal.Sources
import CommandRelay.Proofs.Journal.LevelNames
import CommandRelay.Proofs.Journal.Noting
import CommandRelay.Proofs.Journal.History
import CommandRelay.Proofs.Journal.Isolation
import CommandRelay.Proofs.Journal.Thresholds
