import RateLimiting.Concurrency.StateRanges
import RateLimiting.Quota.SlidingWindowLog
import RateLimiting.Successive

/-! # The remaining units are the headroom

What a decision reports as remaining is what the next call can cost, when no
time passes in between. -/

namespace RateLimiting

namespace CheckLoop

variable {loop : CheckLoop} (json : SerdeJson loop.State) {I : Interface}
  (backend : LawfulStore I)

/-- The next call on the key at the same reading is allowed exactly when it
costs at most what remains. -/
def TrueHeadroom (world : backend.machine.World) (first : Arrival loop) : Prop :=
  ∀ next : Next first, next.call.now = first.now →
    ((next.decision json backend world).allowed = true ↔
      (next.call.request.cost.toNat : Int) ≤
        (serve json backend world first).1.remaining.toInt)

variable {json backend}

theorem trueHeadroom_iff {world : backend.machine.World} {first : Arrival loop} :
    TrueHeadroom json backend world first ↔
      ∀ cost : UInt32,
        (loop.step first.now (outcome json backend world first).1 cost).2.allowed = true ↔
          (cost.toNat : Int) ≤ (outcome json backend world first).2.remaining.toInt := by
  constructor
  · intro headroom cost
    have allowed := headroom (.again first first.now cost le_rfl) rfl
    rwa [Next.decision_eq, serve_decision] at allowed
  · intro headroom next sameNow
    rw [Next.decision_eq, serve_decision, sameNow]
    exact headroom next.call.request.cost

theorem Confines.keeps {inRange : loop.State → Prop} (confines : loop.Confines inRange) :
    loop.Keeps fun _ => inRange where
  fresh := confines.fresh
  step := confines.step
  later _ _ _ _ within := within

end CheckLoop

open CheckLoop

/-! ## The four limiters -/

theorem FixedWindowLimiter.step_headroom {self : FixedWindowLimiter}
    (exact : self.maxRequests.toNat < 2 ^ 53) {now : UInt64} {state : FixedWindow.State}
    {cost : UInt32} (within : (self.step now state cost).1.count ≤ self.maxRequests)
    (next : UInt32) :
    (self.step now (self.step now state cost).1 next).2.allowed = true ↔
      (next.toNat : Int) ≤ (self.step now state cost).2.remaining.toInt := by
  have costFits := next.toNat_lt
  have counted : self.count now (self.step now state cost).1 =
      (self.step now state cost).1.count := by
    rw [count, if_pos]
    rw [step_state]
  rw [UInt64.le_iff_toNat_le] at within
  have sum : ((self.step now state cost).1.count + next.toUInt64).toNat =
      (self.step now state cost).1.count.toNat + next.toNat := by
    rw [toNat_add_of_lt (by rw [UInt32.toNat_toUInt64]; omega), UInt32.toNat_toUInt64]
  have left : (saturatingSub self.maxRequests (self.step now state cost).1.count).toNat =
      self.maxRequests.toNat - (self.step now state cost).1.count.toNat :=
    toNat_saturatingSub ..
  rw [step_allowed, decide_eq_true_iff, counted, UInt64.le_iff_toNat_le, sum,
    step_remaining, toInt_toInt64_of_lt (by omega), left]
  omega

theorem SlidingWindowLogLimiter.retained_step {self : SlidingWindowLogLimiter}
    (window : 0 < self.windowMs.toInt) (now : Millis) (state : SlidingWindowLog.State)
    (cost : UInt32) :
    self.retained now (self.step now state cost).1 =
      (self.step now state cost).1.timestampsMs := by
  have live : self.cutoff now < now.val := by
    rw [Int64.lt_iff_toInt_lt, toInt_cutoff window.le]
    omega
  unfold retained
  apply List.filter_eq_self.mpr
  intro t logged
  rw [step_state] at logged
  split at logged
  · rcases List.mem_append.mp logged with kept | added
    · exact (List.mem_filter.mp kept).2
    · rw [(List.mem_replicate.mp added).2]
      exact decide_eq_true live
  · exact (List.mem_filter.mp logged).2

theorem SlidingWindowLogLimiter.length_step (self : SlidingWindowLogLimiter)
    (now : Millis) (state : SlidingWindowLog.State) (cost : UInt32) :
    (self.step now state cost).1.timestampsMs.length =
      (self.retained now state).length +
        if (self.step now state cost).2.allowed then cost.toNat else 0 := by
  rw [step_state]
  split <;> simp

theorem SlidingWindowLogLimiter.step_headroom {self : SlidingWindowLogLimiter}
    (window : 0 < self.windowMs.toInt) (exact : self.maxRequests.toNat < 2 ^ 53)
    {now : Millis} {state : SlidingWindowLog.State} {cost : UInt32}
    (within : (self.step now state cost).1.timestampsMs.length ≤ self.maxRequests.toNat)
    (next : UInt32) :
    (self.step now (self.step now state cost).1 next).2.allowed = true ↔
      (next.toNat : Int) ≤ (self.step now state cost).2.remaining.toInt := by
  have left : (UInt64.ofNat (self.maxRequests.toNat -
      (self.step now state cost).1.timestampsMs.length)).toNat =
        self.maxRequests.toNat - (self.step now state cost).1.timestampsMs.length := by
    rw [UInt64.toNat_ofNat']
    exact Nat.mod_eq_of_lt (by omega)
  rw [step_allowed, decide_eq_true_iff, retained_step window, step_remaining,
    ← length_step, toInt_toInt64_of_lt (by omega), left]
  omega

theorem TokenBucketLimiter.step_headroom {self : TokenBucketLimiter}
    (exact : self.capacity < 2 ^ 53) {now : Millis} {state : TokenBucket.State}
    {cost : UInt32} (nonneg : 0 ≤ (self.step now state cost).1.tokens)
    (within : (self.step now state cost).1.tokens ≤ self.capacity) (next : UInt32) :
    (self.step now (self.step now state cost).1 next).2.allowed = true ↔
      (next.toNat : Int) ≤ (self.step now state cost).2.remaining.toInt := by
  have stamped : (self.step now state cost).1.lastRefillMs = now.val := by
    rw [step_state]
  have unchanged : self.tokens now (self.step now state cost).1 =
      (self.step now state cost).1.tokens := by
    rw [tokens, stamped, elapsedSecs_self, zero_mul, add_zero, min_eq_left within]
  rw [step_allowed, decide_eq_true_iff, unchanged, step_remaining]
  exact natCast_le_iff_asI64 nonneg (within.trans_lt exact) next.toNat

theorem LeakyBucketLimiter.step_headroom {self : LeakyBucketLimiter}
    (exact : self.capacity.toNat < 2 ^ 53) {now : Millis} {state : LeakyBucket.State}
    {cost : UInt32} (nonneg : 0 ≤ (self.step now state cost).1.queue)
    (within : (self.step now state cost).1.queue ≤ self.cap) (next : UInt32) :
    (self.step now (self.step now state cost).1 next).2.allowed = true ↔
      (next.toNat : Int) ≤ (self.step now state cost).2.remaining.toInt := by
  have stamped : (self.step now state cost).1.lastLeakMs = now.val := by
    rw [step_state]
  have unchanged : self.queue now (self.step now state cost).1 =
      (self.step now state cost).1.queue := by
    rw [queue, stamped, elapsedSecs_self, zero_mul, sub_zero, max_eq_left nonneg]
  have capExact : self.cap < 2 ^ 53 := by
    unfold cap
    exact_mod_cast exact
  rw [step_allowed, decide_eq_true_iff, unchanged, step_remaining, ← le_sub_iff_add_le']
  exact natCast_le_iff_asI64 (sub_nonneg.mpr within) (by linarith) next.toNat

/-! ## Runs -/

/-- The settings that the algorithm reads are in range: limits below `2 ^ 53`,
windows that do not overflow and rates that are positive. -/
def RateLimiterConfig.Moderate (config : RateLimiterConfig) : Prop :=
  match config.algorithm with
  | .fixedWindow | .slidingWindowLog | .slidingWindowCounter =>
      0 < config.windowSecs.toNat ∧ config.windowSecs.toNat * 1000 < 2 ^ 63 ∧
        config.maxRequests.toNat < 2 ^ 53
  | .tokenBucket =>
      0 ≤ config.bucketCapacity ∧ config.bucketCapacity < 2 ^ 53 ∧ 0 < config.refillRate
  | .leakyBucket => config.queueCapacity.toNat < 2 ^ 53 ∧ 0 < config.leakRate

/-- In a sequential run, whatever a call was told remains is what the next one
can cost, for every algorithm but the sliding window counter. -/
theorem RateLimiterConfig.remaining_is_headroom (config : RateLimiterConfig)
    (notCounter : config.algorithm ≠ .slidingWindowCounter) (moderate : config.Moderate)
    (json : SerdeJson config.limiter.State) {I : Interface} (backend : LawfulStore I)
    (world : backend.machine.World) (first : Arrival config.limiter)
    (reached : Reached json backend first.key first.now world) :
    TrueHeadroom json backend world first := by
  apply trueHeadroom_iff.mpr
  intro next
  rcases config with ⟨algorithm, maxRequests, windowSecs, capacity, refill, leak, queue⟩
  cases algorithm with
  | fixedWindow =>
      have confines := FixedWindowLimiter.confines ⟨maxRequests, windowSecs⟩
      have within := confines.step first.now _ first.request.cost
        (confines.keeps.found reached)
      exact FixedWindowLimiter.step_headroom moderate.2.2 within next
  | slidingWindowLog =>
      have confines := SlidingWindowLogLimiter.confines (.new maxRequests windowSecs)
      have within := confines.step first.now _ first.request.cost
        (confines.keeps.found reached)
      have window := SlidingWindowLogLimiter.new_windowMs_pos maxRequests moderate.1
        moderate.2.1
      exact SlidingWindowLogLimiter.step_headroom window moderate.2.2 within next
  | slidingWindowCounter => exact absurd rfl notCounter
  | tokenBucket =>
      rcases moderate with ⟨capacityNonneg, exact, positive⟩
      have confines := TokenBucketLimiter.confines ⟨capacity, refill⟩ capacityNonneg
        positive.le
      rcases confines.step first.now _ first.request.cost
        (confines.keeps.found reached) with ⟨nonneg, within⟩
      exact TokenBucketLimiter.step_headroom exact nonneg within next
  | leakyBucket =>
      rcases moderate with ⟨exact, positive⟩
      have confines := LeakyBucketLimiter.confines ⟨leak, queue⟩ positive.le
      rcases confines.step first.now _ first.request.cost
        (confines.keeps.found reached) with ⟨nonneg, within⟩
      exact LeakyBucketLimiter.step_headroom exact nonneg within next

theorem RateLimiterConfig.remaining_is_headroom_denied :
    let config : RateLimiterConfig := ⟨.fixedWindow, 3, 60, 1, 1, 1, 1⟩
    let earlier : Arrival config.limiter := ⟨(61 : UInt64), ⟨"alice", "/", 2⟩⟩
    let call : Arrival config.limiter := ⟨(62 : UInt64), ⟨"alice", "/", 2⟩⟩
    let world := (config.limiter.runCalls Json.fixedWindow LocalStore.lawful [earlier]
      LocalStore.new).2
    TrueHeadroom Json.fixedWindow LocalStore.lawful world call := by
  intro config earlier call world
  have reached : Reached Json.fixedWindow LocalStore.lawful call.key call.now world :=
    .of_one Json.fixedWindow LocalStore.lawful earlier rfl (by decide)
  exact config.remaining_is_headroom (by decide) ⟨by decide, by decide, by decide⟩
    Json.fixedWindow LocalStore.lawful world call reached

end RateLimiting
