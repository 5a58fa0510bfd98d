import RateLimiting.Algorithms.TokenBucket

/-! # Leaky bucket

The rate and the queue depth are `f64` in the source and exact rationals here;
the capacity is an integer. -/

namespace RateLimiting

structure LeakyBucketLimiter where
  leakRate : ℚ
  capacity : UInt64

namespace LeakyBucket

structure State where
  queue : ℚ
  lastLeakMs : Int64
deriving DecidableEq, Repr

end LeakyBucket

namespace LeakyBucketLimiter

open LeakyBucket

variable (self : LeakyBucketLimiter)

def cap : ℚ :=
  self.capacity.toNat

def queue (now : Millis) (state : State) : ℚ :=
  max (state.queue - elapsedSecs now state.lastLeakMs * self.leakRate) 0

def step (now : Millis) (state : State) (cost : UInt32) : State × Decision :=
  let costF : ℚ := cost.toNat
  let queue := self.queue now state
  let newQueue := queue + costF
  let (finalQueue, allowed, retryAfterMs) :=
    if newQueue ≤ self.cap then
      (newQueue, true, (0 : Int64))
    else
      let overflow := newQueue - self.cap
      (queue, false, waitMs overflow self.leakRate)
  ({ queue := finalQueue, lastLeakMs := now.val },
    { allowed := allowed
      limit := self.capacity.toInt64
      remaining := asI64 (self.cap - finalQueue)
      retryAfterMs := retryAfterMs
      reason :=
        if allowed then
          s!"queued — depth {fixed 1 finalQueue}/{fixed 0 self.cap}"
        else s!"leaky-bucket full ({fixed 1 queue}/{fixed 0 self.cap}), " ++
          s!"retry in {retryAfterMs}ms" })

theorem step_ordinary (now : Millis) (state : State) (cost : UInt32) :
    (self.step now state cost).2 ≠ concurrentUpdate self.capacity.toInt64 := by
  apply ne_concurrentUpdate_of_head
  by_cases fits : self.queue now state + cost.toNat ≤ self.cap <;>
    simp [step, fits, toString]

theorem step_allowed (now : Millis) (state : State) (cost : UInt32) :
    (self.step now state cost).2.allowed =
      decide (self.queue now state + cost.toNat ≤ self.cap) := by
  by_cases fits : self.queue now state + cost.toNat ≤ self.cap <;>
    simp [step, fits]

theorem step_state (now : Millis) (state : State) (cost : UInt32) :
    (self.step now state cost).1 =
      { queue := if (self.step now state cost).2.allowed
          then self.queue now state + cost.toNat else self.queue now state
        lastLeakMs := now.val } := by
  by_cases fits : self.queue now state + cost.toNat ≤ self.cap <;>
    simp [step, fits]

@[simp] theorem step_limit (now : Millis) (state : State) (cost : UInt32) :
    (self.step now state cost).2.limit = self.capacity.toInt64 := by
  simp only [step]

theorem step_remaining (now : Millis) (state : State) (cost : UInt32) :
    (self.step now state cost).2.remaining =
      asI64 (self.cap - (self.step now state cost).1.queue) := by
  simp only [step]

theorem step_retryAfterMs (now : Millis) (state : State) (cost : UInt32) :
    (self.step now state cost).2.retryAfterMs =
      if (self.step now state cost).2.allowed then 0
      else waitMs (self.queue now state + cost.toNat - self.cap) self.leakRate := by
  by_cases fits : self.queue now state + cost.toNat ≤ self.cap <;>
    simp [step, fits]

theorem queue_nonneg (now : Millis) (state : State) : 0 ≤ self.queue now state :=
  le_max_right _ _

theorem queue_le_step_queue (now : Millis) (state : State) (cost : UInt32) :
    self.queue now state ≤ (self.step now state cost).1.queue := by
  rw [step_state]
  split
  · exact le_add_of_nonneg_right (Nat.cast_nonneg _)
  · exact le_rfl

theorem step_queue_le_cap {self : LeakyBucketLimiter} {now : Millis} {state : State}
    (within : self.queue now state ≤ self.cap) (cost : UInt32) :
    (self.step now state cost).1.queue ≤ self.cap := by
  rw [step_state, step_allowed]
  split
  · next fits => exact of_decide_eq_true fits
  · exact within

@[reducible] def loop : CheckLoop where
  name := "leaky_bucket"
  Time := Millis
  reading := Millis.reading
  State := State
  fresh now := { queue := 0, lastLeakMs := now.val }
  step := self.step
  fallback := concurrentUpdate self.capacity.toInt64
  fallback_denied := rfl
  step_ordinary := self.step_ordinary

def check {I : Interface} (json : SerdeJson State) (store : StateStore I)
    (clientId resource : String) (cost : UInt32) :
    Program (checkInterface Millis I) Decision :=
  self.loop.check json store clientId resource cost

end LeakyBucketLimiter

end RateLimiting
