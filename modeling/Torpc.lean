import Torpc.Lib.Lts
import Torpc.Lib.Liveness
import Torpc.Lib.Prog
import Torpc.Lib.Interleave
import Torpc.Lib.Census
import Torpc.Lib.Budget
import Torpc.Lib.Observe
import Torpc.Lib.Clients
import Torpc.Lib.Tasks
import Torpc.Lib.Queues
import Torpc.Lib.Joined
import Torpc.Lib.Net
import Torpc.Lib.HostPort
import Torpc.Lib.AddrText
import Torpc.Lib.FixedWindow
import Torpc.Lib.History
import Torpc.Lib.Http
import Torpc.Lib.Redirect
import Torpc.Lib.Toml
import Torpc.Lib.Text
import Torpc.Lib.Bytes
import Torpc.Model.Json
import Torpc.Model.JsonText
import Torpc.Model.RpcTypes
import Torpc.Model.CircuitBreaker
import Torpc.Model.RateLimit
import Torpc.Model.Daemon
import Torpc.Model.Proxy
import Torpc.Model.MevClient
import Torpc.Model.Submission
import Torpc.Model.App
import Torpc.Model.PublicRouter
import Torpc.Model.Admin
import Torpc.Model.Upstream
import Torpc.Model.World
import Torpc.Model.Auth
import Torpc.Model.Assembly
import Torpc.Model.ClientProxy
import Torpc.Model.Tunnel
import Torpc.Model.Wire
import Torpc.Model.Discovery
import Torpc.Model.ClientConfig
import Torpc.Model.Controller
import Torpc.Model.Lifecycle
import Torpc.Model.Gui
import Torpc.Model.Desktop
import Torpc.Model.Tor
import Torpc.Results.Breaker
import Torpc.Results.Limiter
import Torpc.Results.AllowList
import Torpc.Results.Transparency
import Torpc.Results.Confidentiality
import Torpc.Results.WriteBudget
import Torpc.Results.LostFailure
import Torpc.Results.Dispatch
import Torpc.Results.SharedFile
import Torpc.Results.StaleTasks
import Torpc.Results.WriteCap
import Torpc.Results.Deadlock
import Torpc.Results.Reconfigure
import Torpc.Results.Unlinkable
import Torpc.Results.RelayCircuit
import Torpc.Results.BundleFidelity
import Torpc.Results.GethBody
import Torpc.Results.ErrorBodies
import Torpc.Results.Rejections
import Torpc.Results.AnonymityGate
import Torpc.Results.RequestIds
import Torpc.Results.RequestMembers
import Torpc.Results.BreakerHistory
import Torpc.Results.StaleResults
import Torpc.Results.Coherence
import Torpc.Results.EndpointGuard
import Torpc.Results.DiscoveryCoherence
import Torpc.Results.RetryDecision
import Torpc.Results.Accounting
import Torpc.Results.TorAddress
import Torpc.Results.NextBlock
import Torpc.Results.Signatures
import Torpc.Results.ReplyClassifiers
import Torpc.Results.DiscoverySecrecy
import Torpc.Results.WalletAnswers
import Torpc.Results.ForwardedFields
import Torpc.Results.MetricsAccount
import Torpc.Results.ConfiguredLimits
import Torpc.Results.LimiterMemory
import Torpc.Results.Backoff
import Torpc.Results.RouterCap
import Torpc.Results.EndpointValidation
import Torpc.Results.ProbeVerdict
import Torpc.Results.Amplification
import Torpc.Results.Recovery
import Torpc.Results.Protection
import Torpc.Results.Snapshots
import Torpc.Results.Provenance
import Torpc.Results.Sessions
import Torpc.Results.Resave
import Torpc.Results.Settings
import Torpc.Results.Window
import Torpc.Results.OwnDaemon
import Torpc.Results.Progress
import Torpc.Results.Responsive
import Torpc.Results.Journey
