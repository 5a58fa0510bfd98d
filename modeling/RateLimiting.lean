import RateLimiting.Foundation.Interleaving
import RateLimiting.Foundation.MachineNumber
import RateLimiting.Limiter
import RateLimiting.Store.Local
import RateLimiting.Store.Etcd
import RateLimiting.Config
import RateLimiting.Concurrency.Serializability
import RateLimiting.Store.Json
import RateLimiting.Concurrency.AtMostOnce
import RateLimiting.Store.Interchange
import RateLimiting.Sequential
import RateLimiting.Isolation
import RateLimiting.Http.MacRoundTrip
import RateLimiting.Quota.FixedWindow
import RateLimiting.Quota.ExactEnvelope
import RateLimiting.Quota.RateEnvelope
import RateLimiting.Quota.SlidingWindowCounter
import RateLimiting.Quota.SlidingWindowLog
import RateLimiting.Http.SignedPayload
import RateLimiting.BucketEquivalence
import RateLimiting.Quota.ExactLog
import RateLimiting.Quota.ExactWindow
import RateLimiting.Restarts
import RateLimiting.RetryAfter
import RateLimiting.RemainingRange
import RateLimiting.Invisible
import RateLimiting.Foundation.Contract
import RateLimiting.Concurrency.StateRanges
import RateLimiting.Concurrency.Contention
import RateLimiting.Concurrency.FailingReads
import RateLimiting.Quota.CounterFormula
import RateLimiting.Foundation.FrameCode
import RateLimiting.Tcp.Session
import RateLimiting.Http.HeaderVerdict
import RateLimiting.Http.Middleware
import RateLimiting.Concurrency.VersionOrder
import RateLimiting.Concurrency.LogOrder
import RateLimiting.ArithmeticSafety
import RateLimiting.Quota.Setbacks
import RateLimiting.Concurrency.Termination
import RateLimiting.ProtectedApp
import RateLimiting.ServingProgress
import RateLimiting.Concurrency.SharedEtcd
import RateLimiting.Deployment
import RateLimiting.Foundation.Sharing
import RateLimiting.Services
