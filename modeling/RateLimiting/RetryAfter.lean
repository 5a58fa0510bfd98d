import Mathlib.Tactic.FieldSimp
import RateLimiting.Quota.SlidingWindowLog
import RateLimiting.Restarts
import RateLimiting.Store.Json

/-! # When to retry

Every denial names a time to wait. The windows end, and their oldest entry
leaves, at least a millisecond later; a bucket rounds its wait down and can
reach zero. -/

namespace RateLimiting

/-- No wait after an admission and some wait after a denial. -/
def Decision.WaitsIfDenied (d : Decision) : Prop :=
  if d.allowed then d.retryAfterMs = 0 else 0 < d.retryAfterMs

instance (d : Decision) : Decidable d.WaitsIfDenied :=
  inferInstanceAs (Decidable (if d.allowed = true then d.retryAfterMs = 0
    else 0 < d.retryAfterMs))

theorem Decision.waitsIfDenied_iff {d : Decision} {wait : Int64}
    (retry : d.retryAfterMs = if d.allowed then 0 else wait) :
    d.WaitsIfDenied ↔ (d.allowed = false → 0 < wait) := by
  unfold WaitsIfDenied
  rw [retry]
  cases d.allowed <;> simp

/-! ## Windows -/

theorem FixedWindowLimiter.toInt_waitMs (limiter : FixedWindowLimiter)
    (positive : 0 < limiter.windowSecs.toNat)
    (windowFits : limiter.windowSecs.toNat * 1000 < 2 ^ 63) {now : UInt64}
    (noWrap : now.toNat + limiter.windowSecs.toNat < 2 ^ 64) :
    (saturatingSub ((limiter.windowId now + 1) * limiter.windowSecs) now *
      1000).toInt64.toInt =
        ((limiter.windowSecs.toNat - now.toNat % limiter.windowSecs.toNat) * 1000 :
          Nat) := by
  have quotient := Nat.div_add_mod now.toNat limiter.windowSecs.toNat
  have atMost := Nat.div_le_self now.toNat limiter.windowSecs.toNat
  have next : (limiter.windowId now + 1).toNat =
      now.toNat / limiter.windowSecs.toNat + 1 := by
    rw [toNat_add_of_lt] <;> rw [windowId, UInt64.toNat_div, UInt64.toNat_one]
    omega
  have product : (now.toNat / limiter.windowSecs.toNat + 1) *
      limiter.windowSecs.toNat = now.toNat - now.toNat % limiter.windowSecs.toNat +
        limiter.windowSecs.toNat := by
    rw [Nat.add_mul, Nat.one_mul, Nat.mul_comm]
    omega
  have windowEnd : ((limiter.windowId now + 1) * limiter.windowSecs).toNat =
      now.toNat - now.toNat % limiter.windowSecs.toNat + limiter.windowSecs.toNat := by
    rw [UInt64.toNat_mul, next, product]
    exact Nat.mod_eq_of_lt (by omega)
  have left : now.toNat - now.toNat % limiter.windowSecs.toNat +
      limiter.windowSecs.toNat - now.toNat =
        limiter.windowSecs.toNat - now.toNat % limiter.windowSecs.toNat := by
    have notAfter := Nat.mod_le now.toNat limiter.windowSecs.toNat
    omega
  have small : (limiter.windowSecs.toNat - now.toNat % limiter.windowSecs.toNat) *
      1000 < 2 ^ 63 :=
    (Nat.mul_le_mul_right _ (Nat.sub_le _ _)).trans_lt windowFits
  have wait : (saturatingSub ((limiter.windowId now + 1) * limiter.windowSecs) now *
      1000).toNat =
        (limiter.windowSecs.toNat - now.toNat % limiter.windowSecs.toNat) * 1000 := by
    have thousand : (1000 : UInt64).toNat = 1000 := rfl
    rw [UInt64.toNat_mul, toNat_saturatingSub, windowEnd, left, thousand,
      Nat.mod_eq_of_lt (small.trans (by decide))]
  rw [toInt_toInt64_of_lt (wait ▸ small), wait]

theorem FixedWindowLimiter.step_waits (limiter : FixedWindowLimiter)
    (positive : 0 < limiter.windowSecs.toNat)
    (windowFits : limiter.windowSecs.toNat * 1000 < 2 ^ 63) {now : UInt64}
    (noWrap : now.toNat + limiter.windowSecs.toNat < 2 ^ 64)
    (state : FixedWindow.State) (cost : UInt32) :
    (limiter.step now state cost).2.WaitsIfDenied := by
  apply (Decision.waitsIfDenied_iff (limiter.step_retryAfterMs now state cost)).mpr
  intro _
  have remainder := Nat.mod_lt now.toNat positive
  rw [Int64.lt_iff_toInt_lt, limiter.toInt_waitMs positive windowFits noWrap,
    Int64.toInt_zero, Int.natCast_pos]
  exact Nat.mul_pos (Nat.sub_pos_of_lt remainder) (by decide)

theorem SlidingWindowCounterLimiter.step_waits (limiter : SlidingWindowCounterLimiter)
    (positive : 0 < limiter.windowSecs.toNat) (now : UInt64)
    (state : SlidingWindowCounter.State) (cost : UInt32) :
    (limiter.step now state cost).2.WaitsIfDenied := by
  apply (Decision.waitsIfDenied_iff (limiter.step_retryAfterMs now state cost)).mpr
  intro _
  have secs : (0 : ℚ) < limiter.windowSecs.toNat := Nat.cast_pos.mpr positive
  have rest : (1 - limiter.elapsedFraction now) * limiter.windowSecs.toNat =
      limiter.windowSecs.toNat - (now % limiter.windowSecs).toNat := by
    rw [elapsedFraction, sub_mul, div_mul_cancel₀ _ secs.ne', one_mul]
  have remainder : ((now % limiter.windowSecs).toNat : ℚ) + 1 ≤
      limiter.windowSecs.toNat := by
    rw [UInt64.toNat_mod]
    exact_mod_cast Nat.mod_lt now.toNat positive
  rw [Int64.lt_iff_toInt_lt, Int64.toInt_zero, asI64_pos_iff, rest]
  linarith

namespace SlidingWindowLogLimiter

open SlidingWindowLog

def Past (now : Millis) (state : State) : Prop :=
  ∀ t ∈ state.timestampsMs, 0 ≤ t ∧ t ≤ now.val

theorem step_past (limiter : SlidingWindowLogLimiter) {now : Millis} {state : State}
    (past : Past now state) (cost : UInt32) : Past now (limiter.step now state cost).1 := by
  have kept : ∀ t ∈ limiter.retained now state, 0 ≤ t ∧ t ≤ now.val := by
    intro t member
    exact past t (List.mem_of_mem_filter member)
  intro t member
  rw [step_state] at member
  split at member
  · rcases List.mem_append.mp member with member | member
    · exact kept t member
    · rw [(List.mem_replicate.mp member).2]
      exact ⟨now.property, Int64.le_refl _⟩
  · exact kept t member

theorem keeps_past (limiter : SlidingWindowLogLimiter) : limiter.loop.Keeps Past where
  fresh _ _ member := absurd member List.not_mem_nil
  step _ _ cost past := limiter.step_past past cost
  later earlier now state ordered past t member := by
    rcases past t member with ⟨nonneg, upTo⟩
    change earlier.reading ≤ now.reading at ordered
    rw [Int64.le_iff_toInt_le, ← earlier.coe_reading] at upTo
    have isNow := now.coe_reading
    exact ⟨nonneg, Int64.le_iff_toInt_le.mpr (by omega)⟩

theorem toInt_untilLeaving (limiter : SlidingWindowLogLimiter)
    (positive : 0 < limiter.windowMs.toInt) {now : Millis} {t : Int64}
    (nonneg : 0 ≤ t) (upTo : t ≤ now.val) :
    (t + limiter.windowMs - now.val).toInt =
      t.toInt + limiter.windowMs.toInt - now.val.toInt := by
  rw [Int64.le_iff_toInt_le] at nonneg upTo
  have age := toInt_sub_of_nonneg now.toInt_nonneg nonneg
  have swap : t + limiter.windowMs - now.val = limiter.windowMs - (now.val - t) := by
    grind
  rw [swap, toInt_sub_of_nonneg positive.le (by omega), age]
  omega

theorem step_waits (limiter : SlidingWindowLogLimiter)
    (positive : 0 < limiter.windowMs.toInt) {now : Millis} {state : State}
    (past : Past now state) (cost : UInt32) :
    (limiter.step now state cost).2.WaitsIfDenied := by
  apply (Decision.waitsIfDenied_iff (limiter.step_retryAfterMs now state cost)).mpr
  intro _
  rw [Int64.lt_iff_toInt_lt, toInt_max, Int64.toInt_zero]
  apply lt_max_of_lt_left
  cases first : (limiter.retained now state).head? with
  | none =>
      rw [Option.getD_none, limiter.toInt_untilLeaving positive now.property
        (Int64.le_refl _)]
      omega
  | some t =>
      have member := List.mem_of_head? first
      rcases past t (List.mem_of_mem_filter member) with ⟨nonneg, upTo⟩
      have live : limiter.cutoff now < t := by simpa using (List.mem_filter.mp member).2
      rw [Int64.lt_iff_toInt_lt, toInt_cutoff positive.le] at live
      rw [Option.getD_some, limiter.toInt_untilLeaving positive nonneg upTo]
      omega

end SlidingWindowLogLimiter

/-! ## Buckets -/

/-- A bucket lacks nothing, or what it lacks takes a millisecond to come in. -/
def MissingCounts (missing rate : ℚ) : Prop :=
  0 < missing → rate ≤ missing * 1000

theorem waitMs_pos_iff {missing rate : ℚ} (positive : 0 < rate) :
    0 < waitMs missing rate ↔ rate ≤ missing * 1000 := by
  rw [waitMs, if_neg positive.ne', Int64.lt_iff_toInt_lt, Int64.toInt_zero,
    asI64_pos_iff, div_mul_eq_mul_div, one_le_div positive]

theorem TokenBucketLimiter.step_waits_iff (limiter : TokenBucketLimiter)
    (positive : 0 < limiter.refillRate) (now : Millis) (state : TokenBucket.State)
    (cost : UInt32) :
    (limiter.step now state cost).2.WaitsIfDenied ↔
      MissingCounts (cost.toNat - limiter.tokens now state) limiter.refillRate := by
  rw [Decision.waitsIfDenied_iff (limiter.step_retryAfterMs now state cost),
    waitMs_pos_iff positive, step_allowed, decide_eq_false_iff_not, not_le,
    MissingCounts, sub_pos]

theorem LeakyBucketLimiter.step_waits_iff (limiter : LeakyBucketLimiter)
    (positive : 0 < limiter.leakRate) (now : Millis) (state : LeakyBucket.State)
    (cost : UInt32) :
    (limiter.step now state cost).2.WaitsIfDenied ↔
      MissingCounts (limiter.queue now state + cost.toNat - limiter.cap)
        limiter.leakRate := by
  rw [Decision.waitsIfDenied_iff (limiter.step_retryAfterMs now state cost),
    waitMs_pos_iff positive, step_allowed, decide_eq_false_iff_not, not_le,
    MissingCounts, sub_pos]

/-! ## Runs -/

/-- For a bucket, that a denial's wait does not round down to nothing. -/
def Algorithm.WaitCounts : (algorithm : Algorithm) → RateLimiterConfig →
    algorithm.family.Time → algorithm.family.State → (cost : UInt32) → Prop
  | .tokenBucket, config, now, state, cost =>
      MissingCounts (cost.toNat - config.tokenBucket.tokens now state) config.refillRate
  | .leakyBucket, config, now, state, cost =>
      MissingCounts (config.leakyBucket.queue now state + cost.toNat -
        config.queueCapacity.toNat) config.leakRate
  | _, _, _, _, _ => True

def Algorithm.Past : (algorithm : Algorithm) → algorithm.family.Time →
    algorithm.family.State → Prop
  | .slidingWindowLog, now, state => SlidingWindowLogLimiter.Past now state
  | _, _, _ => True

theorem Algorithm.keeps_past (algorithm : Algorithm) :
    algorithm.family.Keeps (fun _ => True) algorithm.Past := by
  intro config _
  cases algorithm with
  | slidingWindowLog => exact config.slidingWindowLog.keeps_past
  | _ =>
      exact ⟨fun _ => trivial, fun _ _ _ _ => trivial, fun _ _ _ _ _ => trivial⟩

theorem Algorithm.step_waits_iff (algorithm : Algorithm) {config : RateLimiterConfig}
    (positive : config.Positive) (windowFits : config.windowSecs.toNat * 1000 < 2 ^ 63)
    {now : algorithm.family.Time}
    (noWrap : algorithm.family.reading now + config.windowSecs.toNat < 2 ^ 64)
    {state : algorithm.family.State} (past : algorithm.Past now state) (cost : UInt32) :
    (algorithm.family.step config now state cost).2.WaitsIfDenied ↔
      algorithm.WaitCounts config now state cost := by
  cases algorithm with
  | fixedWindow =>
      exact iff_of_true (config.fixedWindow.step_waits positive.window windowFits noWrap
        state cost) trivial
  | slidingWindowLog =>
      have window := SlidingWindowLogLimiter.new_windowMs_pos config.maxRequests
        positive.window windowFits
      exact iff_of_true (config.slidingWindowLog.step_waits window past cost) trivial
  | slidingWindowCounter =>
      exact iff_of_true (config.slidingWindowCounter.step_waits positive.window now state
        cost) trivial
  | tokenBucket => exact config.tokenBucket.step_waits_iff positive.refill now state cost
  | leakyBucket => exact config.leakyBucket.step_waits_iff positive.leak now state cost

/-- A decision of a sequential run has no wait when it allows and some wait when
it denies, unless it denies for want of what a bucket gains in less than a
millisecond. The settings may change from call to call. -/
theorem Algorithm.waits_iff (algorithm : Algorithm)
    (json : SerdeJson algorithm.family.State) {I : Interface}
    (backend : LawfulStore I) (world : backend.machine.World)
    (calls : List algorithm.family.Call)
    (absent : ∀ call ∈ calls, backend.lookup world call.key = none)
    (ordered : (calls.map fun call => algorithm.family.reading call.now).Pairwise
      (· ≤ ·))
    (positive : ∀ call ∈ calls, call.config.Positive)
    (windowFits : ∀ call ∈ calls, call.config.windowSecs.toNat * 1000 < 2 ^ 63)
    (noWrap : ∀ call ∈ calls, algorithm.family.reading call.now +
      call.config.windowSecs.toNat < 2 ^ 64)
    (k : Nat) (bound : k < calls.length) :
    (∃ decision, (Family.runCalls json backend calls world).1[k]? = some decision ∧
        decision.WaitsIfDenied) ↔
      algorithm.WaitCounts calls[k].config calls[k].now
        (Family.found json backend (Family.runCalls json backend (calls.take k) world).2
          calls[k]) calls[k].request.cost := by
  have member := List.getElem_mem bound
  have past := algorithm.keeps_past.found json backend (fun _ _ => trivial) world
    ordered k bound (absent _ member)
  simp only [Family.runCalls_getElem? json backend calls world bound,
    Option.some.injEq, exists_eq_left']
  exact algorithm.step_waits_iff (positive _ member) (windowFits _ member)
    (noWrap _ member) past _

theorem Algorithm.waits_iff_second :
    let config : RateLimiterConfig := ⟨.tokenBucket, 1, 1, 1, 1, 1, 1⟩
    let call : Algorithm.tokenBucket.family.Call :=
      ⟨config, (⟨0, by decide⟩ : Millis), ⟨"alice", "/", 1⟩⟩
    (∃ decision, (Family.runCalls Json.tokenBucket LocalStore.lawful [call, call]
        LocalStore.new).1[1]? = some decision ∧ decision.WaitsIfDenied) ↔
      Algorithm.tokenBucket.WaitCounts config call.now
        (Family.found Json.tokenBucket LocalStore.lawful
          (Family.runCalls Json.tokenBucket LocalStore.lawful [call] LocalStore.new).2
          call) 1 := by
  intro config call
  have positive : config.Positive := ⟨by decide, by decide, by decide, by decide⟩
  exact Algorithm.waits_iff .tokenBucket Json.tokenBucket LocalStore.lawful LocalStore.new
    [call, call] (fun _ _ => rfl) (by decide +kernel) (by simp [call, positive])
    (by simp [call, config]) (by decide +kernel) 1 (by decide)

/-- At ten thousand tokens a second the missing one is there in a tenth of a
millisecond. -/
theorem Algorithm.wait_rounds_to_zero :
    let config : RateLimiterConfig := ⟨.tokenBucket, 1, 1, 1, 10000, 1, 1⟩
    let call : Algorithm.tokenBucket.family.Call :=
      ⟨config, (⟨0, by decide⟩ : Millis), ⟨"alice", "/", 1⟩⟩
    let decisions := (Family.runCalls Json.tokenBucket LocalStore.lawful [call, call]
      LocalStore.new).1
    decisions.map (fun decision => (decision.allowed, decision.retryAfterMs)) =
        [(true, 0), (false, 0)] ∧
      ¬ ∃ decision, decisions[1]? = some decision ∧ decision.WaitsIfDenied := by
  intro config call decisions
  have second : (decisions[1]?).map (fun decision => decide decision.WaitsIfDenied) =
      some false := by
    decide +kernel
  refine ⟨by decide +kernel, ?_⟩
  rintro ⟨decision, isSecond, waits⟩
  rw [isSecond, Option.map_some, decide_eq_true waits] at second
  exact absurd second (by decide)

end RateLimiting
