import ChronoSynth.Agent.NeverWidens
import ChronoSynth.Agent.ToolQuota
import ChronoSynth.Audit.Anchors
import ChronoSynth.Audit.AppendVerify
import ChronoSynth.Audit.TamperEvidence
import ChronoSynth.Billing.Agreement
import ChronoSynth.Billing.Entitlements
import ChronoSynth.Billing.PlanSync
import ChronoSynth.Billing.StripeWebhookService
import ChronoSynth.Billing.Subscriptions
import ChronoSynth.DataPlane.Consumption
import ChronoSynth.DataPlane.Draining
import ChronoSynth.DataPlane.DualWrite
import ChronoSynth.DataPlane.TenantVault
import ChronoSynth.Earning.InsideCaps
import ChronoSynth.Earning.Monotone
import ChronoSynth.Edge.Conflict
import ChronoSynth.Edge.Restarts
import ChronoSynth.Edge.TeacherJobRunner
import ChronoSynth.Edge.ValueAgreement
import ChronoSynth.Identity.BreakGlassUse
import ChronoSynth.Identity.Registration
import ChronoSynth.Identity.SingleUse
import ChronoSynth.Learning.CoreUpdateGate
import ChronoSynth.Learning.ArtifactGate
import ChronoSynth.Learning.DistillationService
import ChronoSynth.Learning.Generated
import ChronoSynth.Learning.LearningService
import ChronoSynth.Learning.Scoring
import ChronoSynth.Lease.MutualExclusion
import ChronoSynth.Lib.JsonNested
import ChronoSynth.Lib.Reinsert
import ChronoSynth.Lib.RootedTree
import ChronoSynth.Lib.Search
import ChronoSynth.Memory.Consolidation
import ChronoSynth.Memory.Decay
import ChronoSynth.Memory.Eviction
import ChronoSynth.Memory.GraphRuns
import ChronoSynth.Memory.Related
import ChronoSynth.Memory.Spread
import ChronoSynth.Metering.Delivery
import ChronoSynth.Metering.Sources
import ChronoSynth.Metering.TokenBudget
import ChronoSynth.Observability.ExactlyOnce
import ChronoSynth.Persona.Acceptance
import ChronoSynth.Persona.Death
import ChronoSynth.Persona.Disputes
import ChronoSynth.Persona.GrowthLog
import ChronoSynth.Persona.LiveAssignment
import ChronoSynth.Persona.PaidOnce
import ChronoSynth.Persona.PayoutReplay
import ChronoSynth.Persona.Recovery
import ChronoSynth.Persona.ResourceAllocator
import ChronoSynth.Persona.Sanctions
import ChronoSynth.Persona.Sessions
import ChronoSynth.Persona.Transfers
import ChronoSynth.Persona.WalletLedger
import ChronoSynth.Privacy.Erasure
import ChronoSynth.Privacy.Imports
import ChronoSynth.Privacy.LegalHolds
import ChronoSynth.Privacy.PackSigning
import ChronoSynth.Privacy.RoundTrip
import ChronoSynth.Privacy.Versions
import ChronoSynth.Queue.Budgets
import ChronoSynth.Queue.Fencing
import ChronoSynth.Server.CircuitBreaker
import ChronoSynth.Server.KeyRing
import ChronoSynth.Storage.Encryption
import ChronoSynth.Storage.ShardRouter
import ChronoSynth.Sync.Blocks
import ChronoSynth.Sync.Capabilities
import ChronoSynth.Sync.MapV1
import ChronoSynth.Sync.QueuedWrites
import ChronoSynth.Sync.RunBookkeeping
import ChronoSynth.Tenancy.QuotaManager
import ChronoSynth.Tenancy.QuotaWindows
import ChronoSynth.Web.PersistenceController
import ChronoSynth.Web.SyncClient
import ChronoSynth.Workforce.Approvals
import ChronoSynth.Workforce.Bootstrap
import ChronoSynth.Workforce.ChartRuns
import ChronoSynth.Workforce.Treasury
