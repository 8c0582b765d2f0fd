import EnterpriseSystem.Application.AuthenticateUser
import EnterpriseSystem.Application.ConcurrentRefresh
import EnterpriseSystem.Application.CreateUser
import EnterpriseSystem.Application.FailedRefresh
import EnterpriseSystem.Application.PasswordPolicy
import EnterpriseSystem.Application.RefreshToken
import EnterpriseSystem.Application.ResultCombinators
import EnterpriseSystem.Application.ReuseDetection
import EnterpriseSystem.Application.SessionTable
import EnterpriseSystem.Authentication.AuthService
import EnterpriseSystem.Authentication.Cleanup
import EnterpriseSystem.Authentication.ConcurrentRefresh
import EnterpriseSystem.Authentication.History
import EnterpriseSystem.Authentication.Logout
import EnterpriseSystem.Authentication.MassRevocation
import EnterpriseSystem.Authentication.Reuse
import EnterpriseSystem.Authentication.Rotation
import EnterpriseSystem.Authentication.Sessions
import EnterpriseSystem.Authorization.Admission
import EnterpriseSystem.Authorization.Guards
import EnterpriseSystem.Authorization.Issuance
import EnterpriseSystem.Base.Along
import EnterpriseSystem.Base.Async
import EnterpriseSystem.Base.AtomicCommit
import EnterpriseSystem.Base.Base64
import EnterpriseSystem.Base.Bookkeeping
import EnterpriseSystem.Base.Calendar
import EnterpriseSystem.Base.Delimited
import EnterpriseSystem.Base.FixedWindow
import EnterpriseSystem.Base.Forest
import EnterpriseSystem.Base.Gate
import EnterpriseSystem.Base.HashChain
import EnterpriseSystem.Base.Hex
import EnterpriseSystem.Base.History
import EnterpriseSystem.Base.Json
import EnterpriseSystem.Base.Memo
import EnterpriseSystem.Base.Method
import EnterpriseSystem.Base.Nested
import EnterpriseSystem.Base.Numeric
import EnterpriseSystem.Base.Observed
import EnterpriseSystem.Base.Paging
import EnterpriseSystem.Base.Pattern
import EnterpriseSystem.Base.Program
import EnterpriseSystem.Base.Reactive
import EnterpriseSystem.Base.ReadCommitted
import EnterpriseSystem.Base.RelyGuarantee
import EnterpriseSystem.Base.Residues
import EnterpriseSystem.Base.Run
import EnterpriseSystem.Base.SearchPath
import EnterpriseSystem.Base.Table
import EnterpriseSystem.Base.ThreeValued
import EnterpriseSystem.Base.TokenBucket
import EnterpriseSystem.Base.TwoRuns
import EnterpriseSystem.Base.TwoStores
import EnterpriseSystem.Base.Unicode
import EnterpriseSystem.Base.Waiting
import EnterpriseSystem.Caching.CacheAside
import EnterpriseSystem.Caching.CacheService
import EnterpriseSystem.Caching.Cached
import EnterpriseSystem.Caching.InvalidatePattern
import EnterpriseSystem.Caching.Namespaces
import EnterpriseSystem.Common.DateUtil
import EnterpriseSystem.Common.Duration
import EnterpriseSystem.Common.IsoFormat
import EnterpriseSystem.Database.AtOnce
import EnterpriseSystem.Database.AuditChain
import EnterpriseSystem.Database.AuditPreimage
import EnterpriseSystem.Database.AuditSections
import EnterpriseSystem.Database.AuditTrail
import EnterpriseSystem.Database.AuditVisibility
import EnterpriseSystem.Database.BalanceSnapshot
import EnterpriseSystem.Database.BlockedAttacks
import EnterpriseSystem.Database.ConcurrentLedger
import EnterpriseSystem.Database.Currency
import EnterpriseSystem.Database.Custody
import EnterpriseSystem.Database.Deadlock
import EnterpriseSystem.Database.Finance
import EnterpriseSystem.Database.FrozenAccounts
import EnterpriseSystem.Database.Idempotency
import EnterpriseSystem.Database.Isolation
import EnterpriseSystem.Database.Ledger
import EnterpriseSystem.Database.Membership
import EnterpriseSystem.Database.OwnWrites
import EnterpriseSystem.Database.Ownership
import EnterpriseSystem.Database.Paging
import EnterpriseSystem.Database.PlanLimit
import EnterpriseSystem.Database.Progress
import EnterpriseSystem.Database.RateLimit
import EnterpriseSystem.Database.Readers
import EnterpriseSystem.Database.References
import EnterpriseSystem.Database.Replay
import EnterpriseSystem.Database.RoleChange
import EnterpriseSystem.Database.Rules
import EnterpriseSystem.Database.Schema
import EnterpriseSystem.Database.Security
import EnterpriseSystem.Database.Serializable
import EnterpriseSystem.Database.Solvency
import EnterpriseSystem.Database.Tenancy
import EnterpriseSystem.Database.TenantRuns
import EnterpriseSystem.Database.Transfer
import EnterpriseSystem.Database.ValidTransfer
import EnterpriseSystem.Database.WriteIsolation
import EnterpriseSystem.Encryption.EncryptionService
import EnterpriseSystem.Encryption.PasswordHashing
import EnterpriseSystem.Encryption.SecretComparison
import EnterpriseSystem.Encryption.SecureRandom
import EnterpriseSystem.ExternalServices.EmailService
import EnterpriseSystem.Identity.AggregateVersion
import EnterpriseSystem.Identity.Credentials
import EnterpriseSystem.Identity.EmailGrammar
import EnterpriseSystem.Identity.EmailUniqueness
import EnterpriseSystem.Identity.Lifecycle
import EnterpriseSystem.Identity.LongPasswords
import EnterpriseSystem.Identity.LostUpdates
import EnterpriseSystem.Identity.Mutators
import EnterpriseSystem.Identity.Revocation
import EnterpriseSystem.Identity.RoleIdentity
import EnterpriseSystem.Identity.RoundTrip
import EnterpriseSystem.Identity.SpuriousConflicts
import EnterpriseSystem.Identity.StatusHistory
import EnterpriseSystem.Identity.StoredValues
import EnterpriseSystem.Identity.UnitOfWork
import EnterpriseSystem.Identity.User
import EnterpriseSystem.Identity.UserAggregate
import EnterpriseSystem.Identity.UserDomainService
import EnterpriseSystem.Identity.UserRepository
import EnterpriseSystem.Identity.Values
import EnterpriseSystem.Logging.Audit
import EnterpriseSystem.Logging.Redaction
import EnterpriseSystem.Messaging.EventProcessor
import EnterpriseSystem.Messaging.EventTransport
import EnterpriseSystem.Presentation.Envelope
import EnterpriseSystem.Presentation.Pagination
import EnterpriseSystem.Presentation.ValidationErrors
import EnterpriseSystem.RateLimiting.ClientAddress
import EnterpriseSystem.RateLimiting.Headers
import EnterpriseSystem.RateLimiting.ThrottlerGuard
import EnterpriseSystem.Resilience.CircuitBreaker
import EnterpriseSystem.Resilience.HalfOpen
import EnterpriseSystem.Resilience.HttpClient
import EnterpriseSystem.Resilience.MonitoringWindow
import EnterpriseSystem.Resilience.Probes
import EnterpriseSystem.Scheduling.Backoff
import EnterpriseSystem.Scheduling.BoundedScheduler
import EnterpriseSystem.Scheduling.FailFast
import EnterpriseSystem.Scheduling.Parallel
import EnterpriseSystem.Scheduling.Retry
