import RateLimiting.Algorithms.Basic
import RateLimiting.Foundation.MachineNumber

/-! # Fixed window counter -/

namespace RateLimiting

/-- `windowSecs` divides the clock; the source divides by zero, and panics, when
it is zero. -/
structure FixedWindowLimiter where
  maxRequests : UInt64
  windowSecs : UInt64

namespace FixedWindow

structure State where
  count : UInt64
  windowId : UInt64
deriving DecidableEq, Repr

end FixedWindow

namespace FixedWindowLimiter

open FixedWindow

variable (self : FixedWindowLimiter)

def windowId (now : UInt64) : UInt64 :=
  now / self.windowSecs

def count (now : UInt64) (state : State) : UInt64 :=
  if state.windowId = self.windowId now then state.count else 0

def step (now : UInt64) (state : State) (cost : UInt32) : State × Decision :=
  let cost := cost.toUInt64
  let windowId := self.windowId now
  let count := self.count now state
  let (newCount, allowed, retryAfterMs) :=
    if count + cost ≤ self.maxRequests then
      (count + cost, true, (0 : Int64))
    else
      let windowEnd := (windowId + 1) * self.windowSecs
      let waitMs := saturatingSub windowEnd now * 1000
      (count, false, waitMs.toInt64)
  ({ count := newCount, windowId := windowId },
    { allowed := allowed
      limit := self.maxRequests.toInt64
      remaining := (saturatingSub self.maxRequests newCount).toInt64
      retryAfterMs := retryAfterMs
      reason :=
        if allowed then s!"ok — {newCount}/{self.maxRequests} used"
        else s!"fixed-window limit {count}/{self.maxRequests} exceeded, " ++
          s!"resets in {retryAfterMs}ms" })

theorem step_ordinary (now : UInt64) (state : State) (cost : UInt32) :
    (self.step now state cost).2 ≠ concurrentUpdate self.maxRequests.toInt64 := by
  apply ne_concurrentUpdate_of_head
  by_cases fits : self.count now state + cost.toUInt64 ≤ self.maxRequests <;>
    simp [step, fits, toString]

theorem step_allowed (now : UInt64) (state : State) (cost : UInt32) :
    (self.step now state cost).2.allowed =
      decide (self.count now state + cost.toUInt64 ≤ self.maxRequests) := by
  by_cases fits : self.count now state + cost.toUInt64 ≤ self.maxRequests <;>
    simp [step, fits]

theorem step_state (now : UInt64) (state : State) (cost : UInt32) :
    (self.step now state cost).1 =
      { count := if (self.step now state cost).2.allowed
          then self.count now state + cost.toUInt64 else self.count now state
        windowId := self.windowId now } := by
  by_cases fits : self.count now state + cost.toUInt64 ≤ self.maxRequests <;>
    simp [step, fits]

@[simp] theorem step_limit (now : UInt64) (state : State) (cost : UInt32) :
    (self.step now state cost).2.limit = self.maxRequests.toInt64 := by
  simp only [step]

theorem step_remaining (now : UInt64) (state : State) (cost : UInt32) :
    (self.step now state cost).2.remaining =
      (saturatingSub self.maxRequests (self.step now state cost).1.count).toInt64 := by
  simp only [step]

theorem step_retryAfterMs (now : UInt64) (state : State) (cost : UInt32) :
    (self.step now state cost).2.retryAfterMs =
      if (self.step now state cost).2.allowed then 0
      else (saturatingSub ((self.windowId now + 1) * self.windowSecs) now *
        1000).toInt64 := by
  by_cases fits : self.count now state + cost.toUInt64 ≤ self.maxRequests <;>
    simp [step, fits]

@[reducible] def loop : CheckLoop where
  name := "fixed_window"
  Time := UInt64
  reading := UInt64.toNat
  State := State
  fresh now := { count := 0, windowId := self.windowId now }
  step := self.step
  fallback := concurrentUpdate self.maxRequests.toInt64
  fallback_denied := rfl
  step_ordinary := self.step_ordinary

def check {I : Interface} (json : SerdeJson State) (store : StateStore I)
    (clientId resource : String) (cost : UInt32) :
    Program (checkInterface UInt64 I) Decision :=
  self.loop.check json store clientId resource cost

end FixedWindowLimiter

end RateLimiting
