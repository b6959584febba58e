import DnsIngress.Transition
import DnsIngress.Progress
import DnsIngress.Counters
import DnsIngress.Permits
import DnsIngress.Error
import DnsIngress.Timed
import DnsIngress.Backoff
import DnsIngress.Pacing
import DnsIngress.AcceptLoop
import DnsIngress.AcceptLoopProgress
import DnsIngress.Relay
import DnsIngress.RelayTransparency
import DnsIngress.RelayProgress
import DnsIngress.ListenerLimits
import DnsIngress.QuicPool
import DnsIngress.QuicPoolCapacity
import DnsIngress.QuicPoolSessions
import DnsIngress.QuicPoolAcquire
import DnsIngress.QuicPoolOverload
import DnsIngress.QuicPoolEviction
import DnsIngress.QuicPoolInvalidate
import DnsIngress.QuicPoolProgress
import DnsIngress.ShardedMap
import DnsIngress.HttpClientPool
import DnsIngress.HttpClientCache
import DnsIngress.TaskGroup
import DnsIngress.TaskGroupSafety
import DnsIngress.TaskGroupProgress
import DnsIngress.Shutdown
import DnsIngress.ShutdownProgress
import DnsIngress.Startup
import DnsIngress.Launch
import DnsIngress.Framing
import DnsIngress.QuicStream
import DnsIngress.QuicForward
import DnsIngress.DoqStream
import DnsIngress.DoqConnection
import DnsIngress.DoqFraming
import DnsIngress.DoqTimeout
import DnsIngress.Ascii
import DnsIngress.Config
import DnsIngress.PortConflict
import DnsIngress.PermitCounts
import DnsIngress.Rewriter
import DnsIngress.TlsUtils
import DnsIngress.Http
import DnsIngress.Doh
import DnsIngress.Routing
import DnsIngress.DohResponse
import DnsIngress.Occurrence
import DnsIngress.DohValidation
import DnsIngress.BoundedBody
import DnsIngress.BodyProgress
import DnsIngress.DohStatus
import DnsIngress.UpstreamHeaders
import DnsIngress.Base64
import DnsIngress.UpstreamUri
import DnsIngress.DohQuery
import DnsIngress.DohTransparency
import DnsIngress.Doh3Stream
import DnsIngress.RewrittenNames
import DnsIngress.CertificateLookup
import DnsIngress.Metrics
import DnsIngress.RequestMetrics
import DnsIngress.DotConnection
import DnsIngress.MetricsAccount
import DnsIngress.DoqSession
import DnsIngress.BinaryFormat
import DnsIngress.Exposition
import DnsIngress.Healthcheck
import DnsIngress.Toml
import DnsIngress.ConfigFile
