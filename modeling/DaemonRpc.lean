import DaemonRpc.Config.Builder
import DaemonRpc.Signal.Scenario
import DaemonRpc.Proofs.Body.RecordTrace
import DaemonRpc.Proofs.Session.Observation
import DaemonRpc.Proofs.Session.Accounts
import DaemonRpc.Proofs.Signal.Views
import DaemonRpc.Proofs.Signal.Attachments
import DaemonRpc.Proofs.Signal.Deeds
import DaemonRpc.Proofs.Signal.Bookkeeping
import DaemonRpc.Proofs.Signal.Reports
import DaemonRpc.Proofs.Signal.Silence
import DaemonRpc.Proofs.Body.ReportedFailures
import DaemonRpc.Proofs.Body.Whole
import DaemonRpc.Proofs.Session.Firing
import DaemonRpc.Proofs.Session.Verdict
import DaemonRpc.Proofs.Session.Resolution
import DaemonRpc.Proofs.Request.Destination
import DaemonRpc.Proofs.Request.Query
import DaemonRpc.Proofs.Signal.Delivery
import DaemonRpc.Proofs.Signal.Following
import DaemonRpc.Proofs.Signal.FirstSource
import DaemonRpc.Proofs.Request.Precedence
import DaemonRpc.Proofs.Body.RecordedEndings
import DaemonRpc.Proofs.Session.Interleaving
import DaemonRpc.Proofs.Duration.Limits
import DaemonRpc.Proofs.Duration.Language
import DaemonRpc.Proofs.Duration.Search
import DaemonRpc.Proofs.Request.Placement
import DaemonRpc.Proofs.Request.Rebuilding
import DaemonRpc.Proofs.Classification.Verdict
import DaemonRpc.Proofs.Classification.Payload
import DaemonRpc.Proofs.Duration.Readings
import DaemonRpc.Proofs.Request.HeaderFields
import DaemonRpc.Proofs.Request.Acceptance
import DaemonRpc.Proofs.Request.Multimap
import DaemonRpc.Proofs.Session.OpenedStreams
import DaemonRpc.Proofs.Body.Buffering
