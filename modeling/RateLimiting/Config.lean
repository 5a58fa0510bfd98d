import RateLimiting.Algorithms.FixedWindow
import RateLimiting.Algorithms.LeakyBucket
import RateLimiting.Algorithms.SlidingWindowCounter
import RateLimiting.Algorithms.SlidingWindowLog
import RateLimiting.Algorithms.TokenBucket

/-! # Configuration -/

namespace RateLimiting

inductive Algorithm
  | fixedWindow
  | slidingWindowLog
  | slidingWindowCounter
  | tokenBucket
  | leakyBucket
deriving DecidableEq, Repr

structure RateLimiterConfig where
  algorithm : Algorithm
  maxRequests : UInt64
  windowSecs : UInt64
  bucketCapacity : ℚ
  refillRate : ℚ
  leakRate : ℚ
  queueCapacity : UInt64

structure RateLimiterConfig.Positive (config : RateLimiterConfig) : Prop where
  window : 0 < config.windowSecs.toNat
  capacity : 0 ≤ config.bucketCapacity
  refill : 0 < config.refillRate
  leak : 0 < config.leakRate

/-- The limiter that `main` builds from the configuration. -/
@[reducible] def RateLimiterConfig.limiter (config : RateLimiterConfig) : CheckLoop :=
  match config.algorithm with
  | .fixedWindow =>
      FixedWindowLimiter.loop ⟨config.maxRequests, config.windowSecs⟩
  | .slidingWindowLog =>
      (SlidingWindowLogLimiter.new config.maxRequests config.windowSecs).loop
  | .slidingWindowCounter =>
      SlidingWindowCounterLimiter.loop ⟨config.maxRequests, config.windowSecs⟩
  | .tokenBucket =>
      TokenBucketLimiter.loop ⟨config.bucketCapacity, config.refillRate⟩
  | .leakyBucket =>
      LeakyBucketLimiter.loop ⟨config.leakRate, config.queueCapacity⟩

/-- The two window counters divide every reading of their clock by the window, which
nothing keeps from being zero. -/
def RateLimiterConfig.dividesByZero (config : RateLimiterConfig) : Bool :=
  match config.algorithm with
  | .fixedWindow | .slidingWindowCounter => config.windowSecs == 0
  | .slidingWindowLog | .tokenBucket | .leakyBucket => false

/-- The replies that a check panics on: a reading that it divides by zero. -/
def RateLimiterConfig.panics (config : RateLimiterConfig) {Time : Type} {I : Interface} :
    (op : (checkInterface Time I).Op) → (checkInterface Time I).Reply op → Bool
  | .now, _ => config.dividesByZero
  | .store _, _ => false

theorem RateLimiterConfig.panics_eq_false {config : RateLimiterConfig} {Time : Type}
    {I : Interface} (divides : config.dividesByZero = false)
    (op : (checkInterface Time I).Op) (reply : (checkInterface Time I).Reply op) :
    config.panics op reply = false := by
  cases op with
  | now => exact divides
  | store op => rfl

end RateLimiting
