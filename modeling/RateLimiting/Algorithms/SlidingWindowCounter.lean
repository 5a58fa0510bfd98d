import RateLimiting.Algorithms.Basic
import RateLimiting.Foundation.MachineNumber

/-! # Sliding window counter

The source weighs the previous window's counter in `f64`; the weights are read
as exact rationals here. -/

namespace RateLimiting

structure SlidingWindowCounterLimiter where
  maxRequests : UInt64
  windowSecs : UInt64

namespace SlidingWindowCounter

structure State where
  prevCount : UInt64
  currCount : UInt64
  currWindowId : UInt64
deriving DecidableEq, Repr

end SlidingWindowCounter

namespace SlidingWindowCounterLimiter

open SlidingWindowCounter

variable (self : SlidingWindowCounterLimiter)

def windowId (now : UInt64) : UInt64 :=
  now / self.windowSecs

def elapsedFraction (now : UInt64) : ℚ :=
  ((now % self.windowSecs).toNat : ℚ) / self.windowSecs.toNat

/-- The previous and the current counter as seen from the window of `now`. A
window before the stored one has difference zero, like the stored one. -/
def counts (now : UInt64) (state : State) : UInt64 × UInt64 :=
  let diff := saturatingSub (self.windowId now) state.currWindowId
  if diff = 0 then (state.prevCount, state.currCount)
  else if diff = 1 then (state.currCount, 0)
  else (0, 0)

def weighted (now : UInt64) (state : State) : ℚ :=
  let (prevCount, currCount) := self.counts now state
  prevCount.toNat * (1 - self.elapsedFraction now) + currCount.toNat

def step (now : UInt64) (state : State) (cost : UInt32) : State × Decision :=
  let cost := cost.toUInt64
  let windowId := self.windowId now
  let elapsedFraction := self.elapsedFraction now
  let prevCount := (self.counts now state).1
  let currCount := (self.counts now state).2
  let weighted := self.weighted now state
  let (newCurr, allowed, retryAfterMs) :=
    if weighted + cost.toNat ≤ self.maxRequests.toNat then
      (currCount + cost, true, (0 : Int64))
    else
      let waitMs := asI64 ((1 - elapsedFraction) * self.windowSecs.toNat * 1000)
      (currCount, false, waitMs)
  let remaining := asI64 (max (self.maxRequests.toNat - weighted - cost.toNat) 0)
  ({ prevCount := prevCount, currCount := newCurr, currWindowId := windowId },
    { allowed := allowed
      limit := self.maxRequests.toInt64
      remaining := if allowed then remaining else 0
      retryAfterMs := retryAfterMs
      reason :=
        if allowed then
          s!"ok — weighted {fixed 1 (weighted + cost.toNat)}/{self.maxRequests} " ++
            "in window"
        else s!"sliding-counter limit exceeded (weighted {fixed 1 weighted}/" ++
          s!"{self.maxRequests}), retry in {retryAfterMs}ms" })

theorem step_ordinary (now : UInt64) (state : State) (cost : UInt32) :
    (self.step now state cost).2 ≠ concurrentUpdate self.maxRequests.toInt64 := by
  apply ne_concurrentUpdate_of_head
  by_cases fits : self.weighted now state + cost.toUInt64.toNat ≤
      self.maxRequests.toNat <;>
    simp only [step, fits] <;> simp [toString]

theorem step_allowed (now : UInt64) (state : State) (cost : UInt32) :
    (self.step now state cost).2.allowed =
      decide (self.weighted now state + cost.toUInt64.toNat ≤
        self.maxRequests.toNat) := by
  by_cases fits : self.weighted now state + cost.toUInt64.toNat ≤
      self.maxRequests.toNat <;>
    simp only [step, fits] <;> simp

theorem step_state (now : UInt64) (state : State) (cost : UInt32) :
    (self.step now state cost).1 =
      { prevCount := (self.counts now state).1
        currCount := if (self.step now state cost).2.allowed
          then (self.counts now state).2 + cost.toUInt64
          else (self.counts now state).2
        currWindowId := self.windowId now } := by
  by_cases fits : self.weighted now state + cost.toUInt64.toNat ≤
      self.maxRequests.toNat <;>
    simp only [step, fits] <;> simp

@[simp] theorem step_limit (now : UInt64) (state : State) (cost : UInt32) :
    (self.step now state cost).2.limit = self.maxRequests.toInt64 := by
  simp only [step]

theorem step_remaining (now : UInt64) (state : State) (cost : UInt32) :
    (self.step now state cost).2.remaining =
      if (self.step now state cost).2.allowed then
        asI64 (max (self.maxRequests.toNat - self.weighted now state - cost.toNat) 0)
      else 0 := by
  by_cases fits : self.weighted now state + cost.toUInt64.toNat ≤
      self.maxRequests.toNat <;>
    simp only [step, fits] <;> simp

theorem step_retryAfterMs (now : UInt64) (state : State) (cost : UInt32) :
    (self.step now state cost).2.retryAfterMs =
      if (self.step now state cost).2.allowed then 0
      else asI64 ((1 - self.elapsedFraction now) * self.windowSecs.toNat * 1000) := by
  by_cases fits : self.weighted now state + cost.toUInt64.toNat ≤
      self.maxRequests.toNat <;>
    simp only [step, fits] <;> simp

theorem elapsedFraction_le_one (now : UInt64) : self.elapsedFraction now ≤ 1 := by
  unfold elapsedFraction
  rcases Nat.eq_zero_or_pos self.windowSecs.toNat with zero | positive
  · simp [zero]
  · rw [div_le_one (by exact_mod_cast positive), UInt64.toNat_mod]
    exact_mod_cast (Nat.mod_lt _ positive).le

theorem weighted_nonneg (now : UInt64) (state : State) :
    0 ≤ self.weighted now state :=
  add_nonneg (mul_nonneg (Nat.cast_nonneg _)
    (sub_nonneg.mpr (self.elapsedFraction_le_one now))) (Nat.cast_nonneg _)

theorem counts_add_le_of_allowed {now : UInt64} {state : State}
    {cost : UInt32} (allowed : (self.step now state cost).2.allowed = true) :
    (self.counts now state).2.toNat + cost.toNat ≤ self.maxRequests.toNat := by
  have weighted : self.weighted now state + cost.toNat ≤ self.maxRequests.toNat := by
    simpa [step_allowed] using allowed
  have previous : 0 ≤ ((self.counts now state).1.toNat : ℚ) *
      (1 - self.elapsedFraction now) :=
    mul_nonneg (Nat.cast_nonneg _) (sub_nonneg.mpr (self.elapsedFraction_le_one now))
  have sum : ((self.counts now state).2.toNat : ℚ) + cost.toNat ≤
      self.maxRequests.toNat := by
    simp only [SlidingWindowCounterLimiter.weighted] at weighted
    linarith
  exact_mod_cast sum

theorem step_currCount {now : UInt64} {state : State} {cost : UInt32} :
    (self.step now state cost).1.currCount.toNat = (self.counts now state).2.toNat +
      if (self.step now state cost).2.allowed then cost.toNat else 0 := by
  rw [step_state]
  cases allowed : (self.step now state cost).2.allowed with
  | true =>
      have bound := self.counts_add_le_of_allowed allowed
      have limit := self.maxRequests.toNat_lt
      have sum : ((self.counts now state).2 + cost.toUInt64).toNat =
          (self.counts now state).2.toNat + cost.toNat :=
        toNat_add_of_lt (by simpa using bound.trans_lt limit)
      simp [sum]
  | false => simp

@[reducible] def loop : CheckLoop where
  name := "sliding_window_counter"
  Time := UInt64
  reading := UInt64.toNat
  State := State
  fresh now := { prevCount := 0, currCount := 0, currWindowId := self.windowId now }
  step := self.step
  fallback := concurrentUpdate self.maxRequests.toInt64
  fallback_denied := rfl
  step_ordinary := self.step_ordinary

def check {I : Interface} (json : SerdeJson State) (store : StateStore I)
    (clientId resource : String) (cost : UInt32) :
    Program (checkInterface UInt64 I) Decision :=
  self.loop.check json store clientId resource cost

end SlidingWindowCounterLimiter

end RateLimiting
