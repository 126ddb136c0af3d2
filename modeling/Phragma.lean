import Phragma.Lib.Collect
import Phragma.Lib.Expiring
import Phragma.Go.Netip
import Phragma.Go.Text
import Phragma.Go.Lines
import Phragma.Go.Scan
import Phragma.Policy.Check
import Phragma.Policy.ValidateRouting
import Phragma.Compiler.CompileRouting
import Phragma.Policy.Model
import Phragma.Policy.RuleIdentity
import Phragma.Engines.Supervisor
import Phragma.Policy.Validate
import Phragma.Lib.Resolve
import Phragma.Compiler.Compile
import Phragma.Nft.Ruleset
import Phragma.Renderers.Nftables
import Phragma.Explain.ExplainFlow
import Phragma.Policy.Accepted
import Phragma.Compiler.Compiled
import Phragma.Explain.Agreement
import Phragma.Renderers.ZoneScope
import Phragma.Renderers.Suricata
import Phragma.Renderers.RenderAll
import Phragma.Renderers.Prevent
import Phragma.Go.Json
import Phragma.Lib.Bucket
import Phragma.Lib.Tx
import Phragma.Lib.HashChain
import Phragma.Go.Time
import Phragma.Lib.Machine
import Phragma.Store.Model
import Phragma.Store.Audit
import Phragma.Store.Operations
import Phragma.Store.Effects
import Phragma.Store.AuditChain
import Phragma.Store.Tamper
import Phragma.Store.Reopen
import Phragma.Store.Versions
import Phragma.Store.Approvals
import Phragma.Apiserver.Apply
import Phragma.Apiserver.InStep
import Phragma.Lib.Thread
import Phragma.Apiserver.CandidateNat
import Phragma.Apiserver.Concurrent
import Phragma.Lib.Mutex
import Phragma.Apiserver.Rename
import Phragma.Apiserver.CandidateEdits
import Phragma.Apiserver.CommitReview
import Phragma.Compiler.Complete
import Phragma.Compiler.Applications
import Phragma.Renderers.Plain
import Phragma.Renderers.Complete
import Phragma.Engines.Lines
import Phragma.Engines.Netdev
import Phragma.Engines.Wireguard
import Phragma.Explain.Applications
import Phragma.Explain.AppIDControls
import Phragma.Renderers.Unbroken
import Phragma.Engines.Suricata
import Phragma.Engines.SelfDescribing
import Phragma.Engines.Queues
import Phragma.Apiserver.HighAvailability
import Phragma.Apiserver.SplitBrain
import Phragma.Apiserver.Replication
import Phragma.Apiserver.ReviewLoop
import Phragma.Engines.Routes
import Phragma.Authz.StepUp
import Phragma.Authz.Roles
import Phragma.Authz.Sessions
import Phragma.Authz.Users
import Phragma.Controld.ClientKey
import Phragma.Engines.Process
import Phragma.Lib.Allot
import Phragma.Renderers.HostInput
import Phragma.Explain.RouteAgreement
import Phragma.Policy.UniqueIdentity
import Phragma.Supportbundle.Redact
import Phragma.Authz.Browsers
import Phragma.Controld.CookieAuth
import Phragma.Controld.RateLimit
import Phragma.Fleet.Store
import Phragma.Contentpkg.History
import Phragma.Store.ApprovalIds
import Phragma.Store.LastKnownGood
import Phragma.Appid.Observations
import Phragma.Authz.ReturnPath
import Phragma.Intel.Feed
import Phragma.Intel.Refresh
import Phragma.Policydiff.LineDiff
import Phragma.Go.AddrText
import Phragma.Lib.FirstMatch
import Phragma.Explain.FirstRule
import Phragma.Apiserver.StageObservation
import Phragma.Apiserver.ObjectNames
import Phragma.Threatid.Replay
import Phragma.Compiler.Sids
import Phragma.Renderers.Suppressions
import Phragma.Policy.ValidateTelemetry
import Phragma.Renderers.Sinks
import Phragma.Go.Filepath
import Phragma.Contentpkg.OnDisk
import Phragma.Telemetry.Eve
import Phragma.Conntrack.Session
import Phragma.Apiserver.Listings
import Phragma.Lib.KeyedDiff
import Phragma.Policy.Impact
import Phragma.Policy.Risk
import Phragma.Policy.Tolerable
import Phragma.Explain.LowRisk
import Phragma.Explain.Shadows
import Phragma.Apiserver.ChangeSummaries
import Phragma.Apiserver.RiskGate
import Phragma.Engines.RouteRestore
import Phragma.Engines.HAPromotion
import Phragma.Apiserver.IntelReload
import Phragma.Explain.Identity
import Phragma.Appid.Classify
