import ServicePlatform.Kernel.OutboxFidelity
import ServicePlatform.Kernel.EventLoss
import ServicePlatform.Kernel.BusEquivalence
import ServicePlatform.Kernel.IdempotencyRace
import ServicePlatform.Kernel.IdentityIsolation
import ServicePlatform.Kernel.RelayAccounting
import ServicePlatform.Service.UserOutbox
import ServicePlatform.Gateway.Failover
import ServicePlatform.Gateway.HalfOpen
import ServicePlatform.Gateway.HealthLedger
import ServicePlatform.Gateway.PoolRefresh
import ServicePlatform.Gateway.WriteFailover
import ServicePlatform.Autoscaler.Controller
import ServicePlatform.Autoscaler.ReplicaBounds
import ServicePlatform.Autoscaler.MissingData
import ServicePlatform.Transition.Streak
import ServicePlatform.Text.Hex
import ServicePlatform.Kernel.Telemetry
import ServicePlatform.Gateway.TraceContinuity
import ServicePlatform.Kernel.Metrics
import ServicePlatform.Text.Fields
import ServicePlatform.Storage.Dict
import ServicePlatform.Autoscaler.Metrics
import ServicePlatform.Autoscaler.LabelSearch
import ServicePlatform.Autoscaler.ParsedCounts
import ServicePlatform.Autoscaler.MetricsReadBack
import ServicePlatform.Autoscaler.Commands
import ServicePlatform.Autoscaler.ConstantLoad
import ServicePlatform.Kernel.Exchange
import ServicePlatform.Kernel.ReplayFidelity
import ServicePlatform.Kernel.ReplayScope
import ServicePlatform.Kernel.ServiceApp
import ServicePlatform.Kernel.RetryableFailures
import ServicePlatform.Gateway.Whitelist
import ServicePlatform.Gateway.Correlation
import ServicePlatform.Gateway.ErrorConsistency
import ServicePlatform.Rotation.Sweep
import ServicePlatform.Gateway.SoloRequest
import ServicePlatform.Gateway.PoolConstruction
import ServicePlatform.Rotation.Rounds
import ServicePlatform.Gateway.Fairness
import ServicePlatform.Autoscaler.SustainRule
import ServicePlatform.Autoscaler.LoadEstimate
import ServicePlatform.Autoscaler.MalformedLines
import ServicePlatform.Kernel.StatusPreservation
import ServicePlatform.Gateway.IdentityTransfer
import ServicePlatform.Service.DuplicateEmail
import ServicePlatform.Service.UserCalls
import ServicePlatform.Kernel.AccessLog
import ServicePlatform.Kernel.Logging
import ServicePlatform.Kernel.MaskedValues
import ServicePlatform.Kernel.SecretMasking
import ServicePlatform.Text.Url
import ServicePlatform.Gateway.ForwardedPath
import ServicePlatform.Kernel.RelayOwnership
import ServicePlatform.Kernel.RelayClock
import ServicePlatform.Kernel.Backoff
import ServicePlatform.Storage.Leases
import ServicePlatform.Kernel.Registry
import ServicePlatform.Kernel.LocalRegistry
import ServicePlatform.Text.Glob
import ServicePlatform.Kernel.RegistryAgreement
import ServicePlatform.Kernel.SlowQueries
import ServicePlatform.Kernel.DatabaseRouter
import ServicePlatform.Service.QueryLogging
import ServicePlatform.Text.Json
import ServicePlatform.Kernel.LineReading
import ServicePlatform.Kernel.UnifiedFields
import ServicePlatform.Kernel.RouteLabels
import ServicePlatform.Text.Timestamp
import ServicePlatform.Contract.DateTimeText
import ServicePlatform.Contract.Schema
import ServicePlatform.Service.StagedContract
import ServicePlatform.Text.Regex
import ServicePlatform.Text.RegexReader
import ServicePlatform.Gateway.SegmentMatch
import ServicePlatform.Storage.Scan
import ServicePlatform.Gateway.Discovery
import ServicePlatform.Gateway.DiscoveredPool
import ServicePlatform.Gateway.PoolMembership
import ServicePlatform.Kernel.IdempotencyStores
import ServicePlatform.Kernel.ConsumerWindow
import ServicePlatform.Kernel.RelayProgress
import ServicePlatform.Kernel.RelayBacklog
import ServicePlatform.Transition.Noninterference
import ServicePlatform.Service.UserApi
import ServicePlatform.Storage.Schema
import ServicePlatform.Service.Migrations
import ServicePlatform.Service.UserRows
import ServicePlatform.Kernel.Health
import ServicePlatform.Service.ReadReplicas
import ServicePlatform.Autoscaler.Convergence
import ServicePlatform.Service.Announcements
import ServicePlatform.Storage.Histogram
import ServicePlatform.Kernel.MetricsMiddleware
import ServicePlatform.Platform.System
import ServicePlatform.Platform.Mediation
import ServicePlatform.Platform.Responses
import ServicePlatform.Platform.ReadAfterCreate
import ServicePlatform.Kernel.ErrorCatalogue
