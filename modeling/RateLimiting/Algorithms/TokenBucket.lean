import RateLimiting.Algorithms.Basic
import RateLimiting.Foundation.MachineNumber

/-! # Token bucket

Capacity, rate and token counts are `f64` in the source and exact rationals
here. -/

namespace RateLimiting

structure TokenBucketLimiter where
  capacity : ℚ
  refillRate : ℚ

namespace TokenBucket

structure State where
  tokens : ℚ
  lastRefillMs : Int64
deriving DecidableEq, Repr

end TokenBucket

/-- The time since an earlier reading in seconds, zero when the clock is behind
it. -/
def elapsedSecs (now : Millis) (lastMs : Int64) : ℚ :=
  ((max (now.val - lastMs) 0).toInt : ℚ) / 1000

theorem elapsedSecs_self (now : Millis) : elapsedSecs now now.val = 0 := by
  simp [elapsedSecs]

theorem elapsedSecs_nonneg (now : Millis) (lastMs : Int64) :
    0 ≤ elapsedSecs now lastMs := by
  apply div_nonneg _ (by norm_num)
  rw [toInt_max]
  exact_mod_cast le_max_right _ _

theorem elapsedSecs_eq (now : Millis) {lastMs : Int64} (nonneg : 0 ≤ lastMs.toInt) :
    elapsedSecs now lastMs =
      ((max ((now.reading : Int) - lastMs.toInt) 0 : Int) : ℚ) / 1000 := by
  rw [elapsedSecs, toInt_max, toInt_sub_of_nonneg now.toInt_nonneg nonneg,
    now.coe_reading]
  rfl

theorem elapsedSecs_add {earlier later : Millis} {lastMs : Int64}
    (nonneg : 0 ≤ lastMs.toInt) (past : lastMs.toInt ≤ earlier.val.toInt)
    (ordered : earlier.reading ≤ later.reading) :
    elapsedSecs earlier lastMs + elapsedSecs later earlier.val =
      elapsedSecs later lastMs := by
  have isEarlier := earlier.coe_reading
  rw [elapsedSecs_eq _ nonneg, elapsedSecs_eq _ earlier.toInt_nonneg,
    elapsedSecs_eq _ nonneg, ← add_div, ← Int.cast_add]
  congr 2
  omega

/-- `(amount / rate * 1_000.0) as i64` for a positive amount: with a zero rate
the quotient is infinite and the cast saturates. -/
def waitMs (amount rate : ℚ) : Int64 :=
  if rate = 0 then Int64.maxValue else asI64 (amount / rate * 1000)

namespace TokenBucketLimiter

open TokenBucket

variable (self : TokenBucketLimiter)

def tokens (now : Millis) (state : State) : ℚ :=
  min (state.tokens + elapsedSecs now state.lastRefillMs * self.refillRate)
    self.capacity

def step (now : Millis) (state : State) (cost : UInt32) : State × Decision :=
  let costF : ℚ := cost.toNat
  let tokens := self.tokens now state
  let (newTokens, allowed, retryAfterMs) :=
    if costF ≤ tokens then
      (tokens - costF, true, (0 : Int64))
    else
      let deficit := costF - tokens
      (tokens, false, waitMs deficit self.refillRate)
  ({ tokens := newTokens, lastRefillMs := now.val },
    { allowed := allowed
      limit := asI64 self.capacity
      remaining := asI64 newTokens
      retryAfterMs := retryAfterMs
      reason :=
        if allowed then s!"ok — {fixed 1 newTokens} tokens remaining"
        else s!"token-bucket empty ({fixed 1 newTokens}/{fixed 0 costF} " ++
          s!"available), retry in {retryAfterMs}ms" })

theorem step_ordinary (now : Millis) (state : State) (cost : UInt32) :
    (self.step now state cost).2 ≠ concurrentUpdate (asI64 self.capacity) := by
  apply ne_concurrentUpdate_of_head
  by_cases enough : (cost.toNat : ℚ) ≤ self.tokens now state <;>
    simp [step, enough, toString]

theorem step_allowed (now : Millis) (state : State) (cost : UInt32) :
    (self.step now state cost).2.allowed =
      decide ((cost.toNat : ℚ) ≤ self.tokens now state) := by
  by_cases enough : (cost.toNat : ℚ) ≤ self.tokens now state <;>
    simp [step, enough]

theorem step_state (now : Millis) (state : State) (cost : UInt32) :
    (self.step now state cost).1 =
      { tokens := if (self.step now state cost).2.allowed
          then self.tokens now state - cost.toNat else self.tokens now state
        lastRefillMs := now.val } := by
  by_cases enough : (cost.toNat : ℚ) ≤ self.tokens now state <;>
    simp [step, enough]

@[simp] theorem step_limit (now : Millis) (state : State) (cost : UInt32) :
    (self.step now state cost).2.limit = asI64 self.capacity := by
  simp only [step]

theorem step_remaining (now : Millis) (state : State) (cost : UInt32) :
    (self.step now state cost).2.remaining =
      asI64 (self.step now state cost).1.tokens := by
  simp only [step]

theorem step_retryAfterMs (now : Millis) (state : State) (cost : UInt32) :
    (self.step now state cost).2.retryAfterMs =
      if (self.step now state cost).2.allowed then 0
      else waitMs (cost.toNat - self.tokens now state) self.refillRate := by
  by_cases enough : (cost.toNat : ℚ) ≤ self.tokens now state <;>
    simp [step, enough]

theorem tokens_nonneg {self : TokenBucketLimiter} (capacityNonneg : 0 ≤ self.capacity)
    (rateNonneg : 0 ≤ self.refillRate) {state : State} (nonneg : 0 ≤ state.tokens)
    (now : Millis) : 0 ≤ self.tokens now state :=
  le_min (add_nonneg nonneg (mul_nonneg (elapsedSecs_nonneg ..) rateNonneg))
    capacityNonneg

theorem step_tokens_le (now : Millis) (state : State) (cost : UInt32) :
    (self.step now state cost).1.tokens ≤ self.tokens now state := by
  rw [step_state]
  split
  · exact sub_le_self _ (Nat.cast_nonneg _)
  · exact le_rfl

theorem step_tokens_nonneg {self : TokenBucketLimiter} {now : Millis} {state : State}
    (nonneg : 0 ≤ self.tokens now state) (cost : UInt32) :
    0 ≤ (self.step now state cost).1.tokens := by
  rw [step_state, step_allowed]
  split
  · next enough => exact sub_nonneg.mpr (of_decide_eq_true enough)
  · exact nonneg

@[reducible] def loop : CheckLoop where
  name := "token_bucket"
  Time := Millis
  reading := Millis.reading
  State := State
  fresh now := { tokens := self.capacity, lastRefillMs := now.val }
  step := self.step
  fallback := concurrentUpdate (asI64 self.capacity)
  fallback_denied := rfl
  step_ordinary := self.step_ordinary

def check {I : Interface} (json : SerdeJson State) (store : StateStore I)
    (clientId resource : String) (cost : UInt32) :
    Program (checkInterface Millis I) Decision :=
  self.loop.check json store clientId resource cost

end TokenBucketLimiter

end RateLimiting
