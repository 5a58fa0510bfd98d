import RateLimiting.Restarts
import RateLimiting.Store.Json

/-! # What remains

A decision reports between nothing and the limit, whatever settings the stored
state was written under, with one exception: a queue that is longer than the
new capacity has less than nothing left. -/

namespace RateLimiting

def Decision.WithinLimit (d : Decision) : Prop :=
  0 ≤ d.remaining.toInt ∧ d.remaining.toInt ≤ d.limit.toInt

instance (d : Decision) : Decidable d.WithinLimit :=
  inferInstanceAs (Decidable (_ ∧ _))

theorem withinLimit_of_le {d : Decision} {left quota : UInt64}
    (remaining : d.remaining = left.toInt64) (limit : d.limit = quota.toInt64)
    (within : left.toNat ≤ quota.toNat) (fits : quota.toNat < 2 ^ 63) :
    d.WithinLimit := by
  rw [Decision.WithinLimit, remaining, limit, toInt_toInt64_of_lt fits,
    toInt_toInt64_of_lt (within.trans_lt fits)]
  omega

theorem FixedWindowLimiter.step_withinLimit (limiter : FixedWindowLimiter)
    (fits : limiter.maxRequests.toNat < 2 ^ 63) (now : UInt64)
    (state : FixedWindow.State) (cost : UInt32) :
    (limiter.step now state cost).2.WithinLimit := by
  apply withinLimit_of_le (limiter.step_remaining now state cost)
    (limiter.step_limit now state cost) _ fits
  rw [toNat_saturatingSub]
  exact Nat.sub_le _ _

theorem SlidingWindowLogLimiter.step_withinLimit (limiter : SlidingWindowLogLimiter)
    (fits : limiter.maxRequests.toNat < 2 ^ 63) (now : Millis)
    (state : SlidingWindowLog.State) (cost : UInt32) :
    (limiter.step now state cost).2.WithinLimit := by
  apply withinLimit_of_le (limiter.step_remaining now state cost)
    (limiter.step_limit now state cost) _ fits
  rw [UInt64.toNat_ofNat', Nat.mod_eq_of_lt (by omega)]
  exact Nat.sub_le _ _

theorem SlidingWindowCounterLimiter.step_withinLimit
    (limiter : SlidingWindowCounterLimiter)
    (fits : limiter.maxRequests.toNat < 2 ^ 63) (now : UInt64)
    (state : SlidingWindowCounter.State) (cost : UInt32) :
    (limiter.step now state cost).2.WithinLimit := by
  have weighted := limiter.weighted_nonneg now state
  have quota : (0 : ℚ) ≤ limiter.maxRequests.toNat := Nat.cast_nonneg _
  have costNonneg : (0 : ℚ) ≤ cost.toNat := Nat.cast_nonneg _
  have limit := toInt_toInt64_of_lt fits
  rw [Decision.WithinLimit, step_limit, step_remaining]
  split
  · refine ⟨asI64_nonneg_iff.mpr ?_, ?_⟩
    · exact lt_max_of_lt_right (by norm_num)
    · rw [← asI64_toNat fits]
      exact asI64_mono (max_le (by linarith) quota)
  · rw [Int64.toInt_zero]
    omega

theorem TokenBucketLimiter.step_withinLimit (limiter : TokenBucketLimiter)
    (capacityNonneg : 0 ≤ limiter.capacity) (rateNonneg : 0 ≤ limiter.refillRate)
    {state : TokenBucket.State} (nonneg : 0 ≤ state.tokens) (now : Millis)
    (cost : UInt32) : (limiter.step now state cost).2.WithinLimit := by
  have refilled := tokens_nonneg capacityNonneg rateNonneg nonneg now
  have left := step_tokens_nonneg refilled cost
  have spent := limiter.step_tokens_le now state cost
  rw [Decision.WithinLimit, step_limit, step_remaining]
  exact ⟨asI64_nonneg_iff.mpr (by linarith),
    asI64_mono (spent.trans (min_le_right _ _))⟩

theorem LeakyBucketLimiter.step_withinLimit_iff (limiter : LeakyBucketLimiter)
    (fits : limiter.capacity.toNat < 2 ^ 63) (now : Millis)
    (state : LeakyBucket.State) (cost : UInt32) :
    (limiter.step now state cost).2.WithinLimit ↔
      limiter.queue now state < limiter.cap + 1 := by
  have drained := limiter.queue_nonneg now state
  have grown := limiter.queue_le_step_queue now state cost
  have upper : (asI64 (limiter.cap - (limiter.step now state cost).1.queue)).toInt ≤
      limiter.capacity.toInt64.toInt := by
    rw [← asI64_toNat fits]
    exact asI64_mono (sub_le_self _ (drained.trans grown))
  rw [Decision.WithinLimit, step_limit, step_remaining, and_iff_left upper,
    asI64_nonneg_iff, step_state, step_allowed]
  split
  · next enough =>
      have within := of_decide_eq_true enough
      have costNonneg : (0 : ℚ) ≤ cost.toNat := Nat.cast_nonneg _
      exact iff_of_true (by linarith) (by linarith)
  · constructor <;> intro <;> linarith

/-! ## Runs -/

/-- For the leaky bucket, that the drained queue overruns the capacity by less
than one. -/
def Algorithm.QueueFits : (algorithm : Algorithm) → RateLimiterConfig →
    algorithm.family.Time → algorithm.family.State → Prop
  | .leakyBucket, config, now, state =>
      config.leakyBucket.queue now state < config.queueCapacity.toNat + 1
  | _, _, _, _ => True

def Algorithm.TokensNonneg : (algorithm : Algorithm) → algorithm.family.Time →
    algorithm.family.State → Prop
  | .tokenBucket, _, state => 0 ≤ state.tokens
  | _, _, _ => True

theorem Algorithm.keeps_tokensNonneg (algorithm : Algorithm) :
    algorithm.family.Keeps RateLimiterConfig.Positive algorithm.TokensNonneg := by
  intro config positive
  cases algorithm with
  | tokenBucket =>
      constructor
      · intro now
        exact positive.capacity
      · intro now state cost nonneg
        exact TokenBucketLimiter.step_tokens_nonneg (TokenBucketLimiter.tokens_nonneg
          positive.capacity positive.refill.le nonneg now) cost
      · intro earlier now state _ nonneg
        exact nonneg
  | _ =>
      exact ⟨fun _ => trivial, fun _ _ _ _ => trivial, fun _ _ _ _ _ => trivial⟩

theorem Algorithm.step_withinLimit_iff (algorithm : Algorithm)
    {config : RateLimiterConfig} (positive : config.Positive)
    (quotaExact : config.maxRequests.toNat < 2 ^ 53)
    (queueExact : config.queueCapacity.toNat < 2 ^ 53) {now : algorithm.family.Time}
    {state : algorithm.family.State} (nonneg : algorithm.TokensNonneg now state)
    (cost : UInt32) :
    (algorithm.family.step config now state cost).2.WithinLimit ↔
      algorithm.QueueFits config now state := by
  have quotaFits : config.maxRequests.toNat < 2 ^ 63 := by omega
  have queueFits : config.queueCapacity.toNat < 2 ^ 63 := by omega
  cases algorithm with
  | fixedWindow =>
      exact iff_of_true (config.fixedWindow.step_withinLimit quotaFits now state cost)
        trivial
  | slidingWindowLog =>
      exact iff_of_true (config.slidingWindowLog.step_withinLimit quotaFits now state
        cost) trivial
  | slidingWindowCounter =>
      exact iff_of_true (config.slidingWindowCounter.step_withinLimit quotaFits now state
        cost) trivial
  | tokenBucket =>
      exact iff_of_true (config.tokenBucket.step_withinLimit positive.capacity
        positive.refill.le nonneg now cost) trivial
  | leakyBucket =>
      exact config.leakyBucket.step_withinLimit_iff queueFits now state cost

/-- Through every restart a decision reports between nothing and the limit then
configured, unless it finds a queue that overruns the capacity. -/
theorem Algorithm.withinLimit_iff (algorithm : Algorithm)
    (json : SerdeJson algorithm.family.State) {I : Interface}
    (backend : LawfulStore I) (world : backend.machine.World)
    (calls : List algorithm.family.Call)
    (absent : ∀ call ∈ calls, backend.lookup world call.key = none)
    (ordered : (calls.map fun call => algorithm.family.reading call.now).Pairwise
      (· ≤ ·))
    (positive : ∀ call ∈ calls, call.config.Positive)
    (quotaExact : ∀ call ∈ calls, call.config.maxRequests.toNat < 2 ^ 53)
    (queueExact : ∀ call ∈ calls, call.config.queueCapacity.toNat < 2 ^ 53)
    (k : Nat) (bound : k < calls.length) :
    (∃ decision, (Family.runCalls json backend calls world).1[k]? = some decision ∧
        decision.WithinLimit) ↔
      algorithm.QueueFits calls[k].config calls[k].now
        (Family.found json backend (Family.runCalls json backend (calls.take k) world).2
          calls[k]) := by
  have member := List.getElem_mem bound
  have nonneg := algorithm.keeps_tokensNonneg.found json backend positive world
    ordered k bound (absent _ member)
  simp only [Family.runCalls_getElem? json backend calls world bound,
    Option.some.injEq, exists_eq_left']
  exact algorithm.step_withinLimit_iff (positive _ member) (quotaExact _ member)
    (queueExact _ member) nonneg _

theorem Algorithm.withinLimit_iff_drained :
    let config : UInt64 → RateLimiterConfig := (⟨.leakyBucket, 1, 1, 1, 1, 1, ·⟩)
    let first : Algorithm.leakyBucket.family.Call :=
      ⟨config 4, (⟨0, by decide⟩ : Millis), ⟨"alice", "/", 4⟩⟩
    let second : Algorithm.leakyBucket.family.Call :=
      ⟨config 2, (⟨2000, by decide⟩ : Millis), ⟨"alice", "/", 1⟩⟩
    (∃ decision, (Family.runCalls Json.leakyBucket LocalStore.lawful [first, second]
        LocalStore.new).1[1]? = some decision ∧ decision.WithinLimit) ↔
      Algorithm.leakyBucket.QueueFits (config 2) second.now
        (Family.found Json.leakyBucket LocalStore.lawful
          (Family.runCalls Json.leakyBucket LocalStore.lawful [first] LocalStore.new).2
          second) := by
  intro config first second
  have positive : ∀ capacity, (config capacity).Positive := fun _ =>
    ⟨(by decide : 0 < (1 : UInt64).toNat), zero_le_one, zero_lt_one, zero_lt_one⟩
  exact Algorithm.withinLimit_iff .leakyBucket Json.leakyBucket LocalStore.lawful
    LocalStore.new [first, second] (fun _ _ => rfl) (by decide +kernel)
    (by simp [first, second, positive]) (by simp [first, second, config])
    (by simp [first, second, config]) 1 (by decide)

/-- A full queue of four is found by a process with a capacity of two. -/
theorem Algorithm.smaller_queue_remains_negative :
    let config : UInt64 → RateLimiterConfig := (⟨.leakyBucket, 1, 1, 1, 1, 1, ·⟩)
    let first : Algorithm.leakyBucket.family.Call :=
      ⟨config 4, (⟨0, by decide⟩ : Millis), ⟨"alice", "/", 4⟩⟩
    let second : Algorithm.leakyBucket.family.Call :=
      ⟨config 2, (⟨0, by decide⟩ : Millis), ⟨"alice", "/", 1⟩⟩
    let decisions := (Family.runCalls Json.leakyBucket LocalStore.lawful [first, second]
      LocalStore.new).1
    decisions.map (fun decision => (decision.allowed, decision.remaining)) =
        [(true, 0), (false, -2)] ∧
      ¬ ∃ decision, decisions[1]? = some decision ∧ decision.WithinLimit := by
  intro config first second decisions
  have outside : (decisions[1]?).map (fun decision => decide decision.WithinLimit) =
      some false := by
    decide +kernel
  refine ⟨by decide +kernel, ?_⟩
  rintro ⟨decision, isSecond, within⟩
  rw [isSecond, Option.map_some, decide_eq_true within] at outside
  exact absurd outside (by decide)

end RateLimiting
