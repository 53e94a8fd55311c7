import AegisGateway.Accounting
import AegisGateway.Admission
import AegisGateway.CacheHistory
import AegisGateway.CacheUse
import AegisGateway.Assessment
import AegisGateway.Attempts
import AegisGateway.Bodies
import AegisGateway.Canary
import AegisGateway.Diagnostics
import AegisGateway.EventStream
import AegisGateway.Evidence
import AegisGateway.Fallback
import AegisGateway.Artifacts
import AegisGateway.Quiescence
import AegisGateway.Quota
import AegisGateway.Independence
import AegisGateway.Isolation
import AegisGateway.LiveGuard
import AegisGateway.Parity
import AegisGateway.Promotion
import AegisGateway.Routing
import AegisGateway.Shadow
import AegisGateway.SseDecoding
import AegisGateway.Structured
import AegisGateway.Templates
import AegisGateway.Transcript
import AegisGateway.Lib.Ranks
import AegisGateway.Verdict
import AegisGateway.CircuitHistory
import AegisGateway.Ranking
import AegisGateway.RetryHint
import AegisGateway.Latest
import AegisGateway.Persistence
import AegisGateway.Scoring
import AegisGateway.Compat
import AegisGateway.Gauge
import AegisGateway.Storage
import AegisGateway.Boundary
import AegisGateway.ChatStream
import AegisGateway.Telemetry
import AegisGateway.Metering
import AegisGateway.Budget
import AegisGateway.Tenants
import AegisGateway.Shutdown
import AegisGateway.Payloads
import AegisGateway.Surrender
import AegisGateway.Embedding
