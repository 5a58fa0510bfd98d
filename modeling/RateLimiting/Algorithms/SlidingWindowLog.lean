import RateLimiting.Algorithms.Basic
import RateLimiting.Foundation.MachineNumber

/-! # Sliding window log -/

namespace RateLimiting

structure SlidingWindowLogLimiter where
  maxRequests : UInt64
  windowMs : Int64

namespace SlidingWindowLog

structure State where
  /-- Unix timestamps in milliseconds, oldest first. -/
  timestampsMs : List Int64
deriving DecidableEq, Repr

end SlidingWindowLog

namespace SlidingWindowLogLimiter

open SlidingWindowLog

/-- The product and the cast wrap. -/
def new (maxRequests windowSecs : UInt64) : SlidingWindowLogLimiter where
  maxRequests := maxRequests
  windowMs := (windowSecs * 1000).toInt64

variable (self : SlidingWindowLogLimiter)

def cutoff (now : Millis) : Int64 :=
  now.val - self.windowMs

theorem toInt_cutoff {self : SlidingWindowLogLimiter}
    (windowNonneg : 0 ≤ self.windowMs.toInt) (now : Millis) :
    (self.cutoff now).toInt = now.val.toInt - self.windowMs.toInt :=
  toInt_sub_of_nonneg now.toInt_nonneg windowNonneg

theorem cutoff_mono {self : SlidingWindowLogLimiter}
    (windowNonneg : 0 ≤ self.windowMs.toInt) {earlier later : Millis}
    (ordered : Millis.reading earlier ≤ Millis.reading later) :
    self.cutoff earlier ≤ self.cutoff later := by
  rw [Int64.le_iff_toInt_le, toInt_cutoff windowNonneg, toInt_cutoff windowNonneg,
    ← earlier.coe_reading, ← later.coe_reading]
  omega

def retained (now : Millis) (state : State) : List Int64 :=
  state.timestampsMs.filter fun t => self.cutoff now < t

/-- Lengths are naturals: a `Vec<i64>` holds less than `2 ^ 60` timestamps, so
`current + cost` does not wrap. -/
def step (now : Millis) (state : State) (cost : UInt32) : State × Decision :=
  let timestamps := self.retained now state
  let current := timestamps.length
  let (newTimestamps, allowed, retryAfterMs) :=
    if current + cost.toNat ≤ self.maxRequests.toNat then
      (timestamps ++ List.replicate cost.toNat now.val, true, (0 : Int64))
    else
      let oldest := timestamps.head?.getD now.val
      let waitMs := max (oldest + self.windowMs - now.val) 0
      (timestamps, false, waitMs)
  ({ timestampsMs := newTimestamps },
    { allowed := allowed
      limit := self.maxRequests.toInt64
      remaining := (UInt64.ofNat (self.maxRequests.toNat -
        (current + if allowed then cost.toNat else 0))).toInt64
      retryAfterMs := retryAfterMs
      reason :=
        if allowed then
          s!"ok — {current + cost.toNat}/{self.maxRequests} in window"
        else s!"sliding-log limit {current}/{self.maxRequests} exceeded, " ++
          s!"retry in {retryAfterMs}ms" })

theorem step_ordinary (now : Millis) (state : State) (cost : UInt32) :
    (self.step now state cost).2 ≠ concurrentUpdate self.maxRequests.toInt64 := by
  apply ne_concurrentUpdate_of_head
  by_cases fits : (self.retained now state).length + cost.toNat ≤
      self.maxRequests.toNat <;>
    simp [step, fits, toString]

theorem step_allowed (now : Millis) (state : State) (cost : UInt32) :
    (self.step now state cost).2.allowed =
      decide ((self.retained now state).length + cost.toNat ≤
        self.maxRequests.toNat) := by
  by_cases fits : (self.retained now state).length + cost.toNat ≤
      self.maxRequests.toNat <;>
    simp [step, fits]

theorem step_state (now : Millis) (state : State) (cost : UInt32) :
    (self.step now state cost).1 =
      { timestampsMs := if (self.step now state cost).2.allowed
          then self.retained now state ++ List.replicate cost.toNat now.val
          else self.retained now state } := by
  by_cases fits : (self.retained now state).length + cost.toNat ≤
      self.maxRequests.toNat <;>
    simp [step, fits]

@[simp] theorem step_limit (now : Millis) (state : State) (cost : UInt32) :
    (self.step now state cost).2.limit = self.maxRequests.toInt64 := by
  simp only [step]

theorem step_remaining (now : Millis) (state : State) (cost : UInt32) :
    (self.step now state cost).2.remaining =
      (UInt64.ofNat (self.maxRequests.toNat - ((self.retained now state).length +
        if (self.step now state cost).2.allowed then cost.toNat else 0))).toInt64 := by
  simp only [step]

theorem step_retryAfterMs (now : Millis) (state : State) (cost : UInt32) :
    (self.step now state cost).2.retryAfterMs =
      if (self.step now state cost).2.allowed then 0
      else max ((self.retained now state).head?.getD now.val + self.windowMs -
        now.val) 0 := by
  by_cases fits : (self.retained now state).length + cost.toNat ≤
      self.maxRequests.toNat <;>
    simp [step, fits]

@[reducible] def loop : CheckLoop where
  name := "sliding_window_log"
  Time := Millis
  reading := Millis.reading
  State := State
  fresh _ := { timestampsMs := [] }
  step := self.step
  fallback := concurrentUpdate self.maxRequests.toInt64
  fallback_denied := rfl
  step_ordinary := self.step_ordinary

def check {I : Interface} (json : SerdeJson State) (store : StateStore I)
    (clientId resource : String) (cost : UInt32) :
    Program (checkInterface Millis I) Decision :=
  self.loop.check json store clientId resource cost

end SlidingWindowLogLimiter

end RateLimiting
