import GgRelay.Session.Manager.Slots
import GgRelay.Session.Manager.Terminal
import GgRelay.Session.Manager.Watchdog
import GgRelay.Session.Manager.Submit
import GgRelay.Session.Manager.Atomic
import GgRelay.Session.Control.Plane
import GgRelay.Session.Hitl.Reach
import GgRelay.Session.Hitl.Agreement
import GgRelay.Session.Hitl.Proxy
import GgRelay.Session.Hitl.Policy
import GgRelay.Session.Spec
import GgRelay.Session.Environment
import GgRelay.Core.Dispatch
import GgRelay.Core.Accounting
import GgRelay.Store.DurableEvents
import GgRelay.Api.Sse
import GgRelay.Api.Reconnect
import GgRelay.Api.Streams
import GgRelay.Api.Backfill
import GgRelay.Api.RateLimit
import GgRelay.Session.Drive
import GgRelay.Session.Numbering
import GgRelay.Session.Recovery.Paused
import GgRelay.Session.Recovery.Startup
import GgRelay.Api.AdminKeys
import GgRelay.Auth.Revocation
import GgRelay.Api.DashboardKeys
import GgRelay.Cluster.Backends
import GgRelay.Cluster.RedisRateLimit
import GgRelay.Store.Listing.Paging
import GgRelay.Store.Replay
import GgRelay.Session.Frames.Convert
import GgRelay.Session.Retry
import GgRelay.Session.Attribution
import GgRelay.Session.InMemory.Receive
import GgRelay.Session.K8sJob.Resources
import GgRelay.Store.Listing.Binding
import GgRelay.Store.Listing.Search
import GgRelay.Subscribers.AlertRouter
import GgRelay.Proxy.Server
import GgRelay.Session.Hitl.Waiters
import GgRelay.Lib.JsonRoundTrip
import GgRelay.Session.SpecText
import GgRelay.Lib.LineReader
import GgRelay.Session.Transport.Ndjson
import GgRelay.Lib.Uuid
import GgRelay.Cluster.WireText
import GgRelay.Lib.JsonCanon
import GgRelay.Lib.Pairing
import GgRelay.Session.ToolUse
import GgRelay.Maintenance.Retention
import GgRelay.Lib.Utf8Pieces
import GgRelay.Session.PreRun
import GgRelay.Tracing.ActiveSessions
import GgRelay.Lib.Items
import GgRelay.Auth.EnvKeys
import GgRelay.Lib.TopRows
import GgRelay.Api.Cost
import GgRelay.Tracing.Spans
import GgRelay.Tracing.SpanLifecycle
import GgRelay.Tracing.Usage
import GgRelay.Session.Manager.Reasons
import GgRelay.Lib.Regex
import GgRelay.Lib.Substitute
import GgRelay.Redaction.Patterns
import GgRelay.Redaction.Coverage
import GgRelay.Redaction.Settling
import GgRelay.Lib.UniqueRows
import GgRelay.Api.Roles
import GgRelay.Api.UserCredentials
import GgRelay.Api.CredentialPrivacy
import GgRelay.Lib.CheckThenAct
import GgRelay.Api.Comments
import GgRelay.Api.CommentRequests
import GgRelay.Cluster.KeyInvalidate
import GgRelay.Api.AuditView
import GgRelay.Session.Docker
import GgRelay.Api.Pipeline
