import RateLimiting.Invisible
import RateLimiting.RetryAfter
import RateLimiting.Successive

/-! # Retrying after the hinted wait

A denial hints at a wait. The fixed window hints at the end of the window, which
is when a retry is allowed. -/

namespace RateLimiting

namespace CheckLoop

variable {loop : CheckLoop} (json : SerdeJson loop.State) {I : Interface}
  (backend : LawfulStore I)

/-- How long after `first` the next call comes. A unit of the clock is `unit`
milliseconds. -/
def Next.waitedMs {first : Arrival loop} (next : Next first) (unit : Nat) : Nat :=
  (loop.reading next.call.now - loop.reading first.now) * unit

/-- The next call on the key, if it costs as much as `first`, is allowed when it
comes after the hinted wait. -/
def RetrySufficient (unit : Nat) (world : backend.machine.World)
    (first : Arrival loop) : Prop :=
  ∀ next : Next first, next.call.request.cost = first.request.cost →
    (serve json backend world first).1.retryAfterMs.toInt ≤ next.waitedMs unit →
    (next.decision json backend world).allowed = true

/-- It is allowed then and not before. -/
def RetryExact (unit : Nat) (world : backend.machine.World)
    (first : Arrival loop) : Prop :=
  ∀ next : Next first, next.call.request.cost = first.request.cost →
    ((next.decision json backend world).allowed = true ↔
      (serve json backend world first).1.retryAfterMs.toInt ≤ next.waitedMs unit)

variable {json backend} {unit : Nat} {world : backend.machine.World}
  {first : Arrival loop}

theorem RetryExact.sufficient (exact : RetryExact json backend unit world first) :
    RetrySufficient json backend unit world first :=
  fun next sameCost waited => (exact next sameCost).mpr waited

theorem Next.not_retrySufficient (next : Next first)
    (sameCost : next.call.request.cost = first.request.cost)
    (waited : (serve json backend world first).1.retryAfterMs.toInt ≤ next.waitedMs unit)
    (denied : (next.decision json backend world).allowed = false) :
    ¬ RetrySufficient json backend unit world first := by
  intro sufficient
  have allowed := sufficient next sameCost waited
  rw [denied] at allowed
  exact absurd allowed (by decide)

theorem retrySufficient_iff :
    RetrySufficient json backend unit world first ↔
      ∀ later, loop.reading first.now ≤ loop.reading later →
        (outcome json backend world first).2.retryAfterMs.toInt ≤
          ((loop.reading later - loop.reading first.now) * unit : Nat) →
        (loop.step later (outcome json backend world first).1
          first.request.cost).2.allowed = true := by
  constructor
  · intro sufficient later ordered waited
    have allowed := sufficient (.again first later first.request.cost ordered) rfl
    rw [Next.decision_eq, serve_decision] at allowed
    exact allowed waited
  · intro sufficient next sameCost waited
    rw [Next.decision_eq, sameCost]
    rw [serve_decision] at waited
    exact sufficient next.call.now next.ordered waited

theorem retryExact_iff :
    RetryExact json backend unit world first ↔
      ∀ later, loop.reading first.now ≤ loop.reading later →
        ((loop.step later (outcome json backend world first).1
            first.request.cost).2.allowed = true ↔
          (outcome json backend world first).2.retryAfterMs.toInt ≤
            ((loop.reading later - loop.reading first.now) * unit : Nat)) := by
  constructor
  · intro exact later ordered
    have allowed := exact (.again first later first.request.cost ordered) rfl
    rwa [Next.decision_eq, serve_decision] at allowed
  · intro exact next sameCost
    rw [Next.decision_eq, sameCost, serve_decision]
    exact exact next.call.now next.ordered

end CheckLoop

open CheckLoop

/-! ## The fixed window -/

namespace FixedWindowLimiter

open FixedWindow

variable {self : FixedWindowLimiter}

theorem allowed_after_denied {now later : UInt64} {state : State} {cost : UInt32}
    (within : cost.toNat ≤ self.maxRequests.toNat)
    (denied : (self.step now state cost).2.allowed = false) :
    (self.step later (self.step now state cost).1 cost).2.allowed = true ↔
      self.windowId now ≠ self.windowId later := by
  have tooMuch : ¬ self.count now state + cost.toUInt64 ≤ self.maxRequests := by
    rwa [step_allowed, decide_eq_false_iff_not] at denied
  rw [step_allowed, decide_eq_true_iff, step_state, denied, if_neg (by decide), count]
  by_cases same : self.windowId now = self.windowId later
  · rw [if_pos same]
    exact iff_of_false tooMuch (not_not.mpr same)
  · rw [if_neg same, UInt64.zero_add, UInt64.le_iff_toNat_le, UInt32.toNat_toUInt64]
    exact iff_of_true within same

theorem windowId_ne_iff (positive : 0 < self.windowSecs.toNat) {now later : UInt64}
    (ordered : now.toNat ≤ later.toNat) :
    self.windowId now ≠ self.windowId later ↔
      self.windowSecs.toNat - now.toNat % self.windowSecs.toNat ≤
        later.toNat - now.toNat := by
  have nowParts := Nat.div_add_mod now.toNat self.windowSecs.toNat
  have remainder := Nat.mod_lt now.toNat positive
  have forward := Nat.div_le_div_right (c := self.windowSecs.toNat) ordered
  have isLater : self.windowId now ≠ self.windowId later ↔
      now.toNat / self.windowSecs.toNat + 1 ≤ later.toNat / self.windowSecs.toNat := by
    rw [windowId, windowId, Ne, ← UInt64.toNat_inj, UInt64.toNat_div, UInt64.toNat_div]
    omega
  rw [isLater, Nat.le_div_iff_mul_le positive, Nat.add_mul, Nat.one_mul, Nat.mul_comm]
  omega

theorem toInt_retryAfterMs (positive : 0 < self.windowSecs.toNat)
    (windowFits : self.windowSecs.toNat * 1000 < 2 ^ 63) {now : UInt64}
    (noWrap : now.toNat + self.windowSecs.toNat < 2 ^ 64) {state : State} {cost : UInt32}
    (denied : (self.step now state cost).2.allowed = false) :
    (self.step now state cost).2.retryAfterMs.toInt =
      ((self.windowSecs.toNat - now.toNat % self.windowSecs.toNat) * 1000 : Nat) := by
  rw [step_retryAfterMs, denied, if_neg (by decide),
    self.toInt_waitMs positive windowFits noWrap]

/-- A denied call is allowed again exactly when the hinted wait is over. -/
theorem retry_exact (limiter : FixedWindowLimiter)
    (positive : 0 < limiter.windowSecs.toNat)
    (windowFits : limiter.windowSecs.toNat * 1000 < 2 ^ 63)
    (json : SerdeJson State) {I : Interface} (backend : LawfulStore I)
    (world : backend.machine.World) (first : Arrival limiter.loop)
    (noWrap : UInt64.toNat first.now + limiter.windowSecs.toNat < 2 ^ 64)
    (within : first.request.cost.toNat ≤ limiter.maxRequests.toNat)
    (denied : (serve json backend world first).1.allowed = false) :
    RetryExact json backend 1000 world first := by
  rw [serve_decision] at denied
  apply retryExact_iff.mpr
  intro later ordered
  have hint : (outcome json backend world first).2.retryAfterMs.toInt = _ :=
    toInt_retryAfterMs positive windowFits noWrap denied
  rw [hint, Int.ofNat_le, Nat.mul_le_mul_right_iff (by decide),
    ← windowId_ne_iff positive ordered]
  exact allowed_after_denied within denied

theorem retry_exact_full :
    let limiter : FixedWindowLimiter := ⟨2, 10⟩
    let call : Arrival limiter.loop := ⟨(13 : UInt64), ⟨"alice", "/", 2⟩⟩
    let full := (serve Json.fixedWindow LocalStore.lawful LocalStore.new call).2
    RetryExact Json.fixedWindow LocalStore.lawful 1000 full call := by
  intro limiter call full
  exact limiter.retry_exact (by decide) (by decide) Json.fixedWindow LocalStore.lawful
    full call (by decide) (by decide) (by decide +kernel)

end FixedWindowLimiter

/-! ## Buckets -/

/-- A wait that a hint in milliseconds can name: a whole number of them, or one
that the clock does not live to see the end of. -/
def Nameable (wait : ℚ) (reading : Nat) : Prop :=
  (∃ ms : Nat, ms < 2 ^ 63 ∧ wait = ms) ∨ (0 < reading ∧ 2 ^ 63 ≤ reading + wait)

theorem truncated_wait_iff {wait : ℚ} (positive : 0 < wait) (now : Millis) :
    (∀ later : Millis, now.reading ≤ later.reading →
      (wait ≤ ((later.reading - now.reading : Nat) : ℚ) ↔
        (asI64 wait).toInt ≤ (later.reading - now.reading : Nat))) ↔
      Nameable wait now.reading := by
  have floorNonneg : 0 ≤ ⌊wait⌋ := Int.floor_nonneg.mpr positive.le
  have floorLe : (⌊wait⌋ : ℚ) ≤ wait := Int.floor_le wait
  rw [toInt_asI64_of_nonneg positive.le]
  constructor
  · intro same
    let hint := (min ⌊wait⌋ (2 ^ 63 - 1)).toNat
    have isHint : (hint : Int) = min ⌊wait⌋ (2 ^ 63 - 1) := Int.toNat_of_nonneg (by omega)
    by_cases readable : now.reading + hint < 2 ^ 63
    · -- the retry at the hinted time is allowed, so the wait was not cut
      rcases Millis.exists_reading readable with ⟨later, isLater⟩
      have elapsed : later.reading - now.reading = hint := by omega
      have enough := (same later (by omega)).mpr (by rw [elapsed, isHint])
      rw [elapsed] at enough
      have notMore : (hint : ℚ) ≤ wait := by
        apply le_trans _ floorLe
        exact_mod_cast isHint.trans_le (min_le_left _ _)
      exact .inl ⟨hint, by omega, le_antisymm enough notMore⟩
    · have started := now.reading_lt
      have beyond : (2 ^ 63 : Int) ≤ now.reading + ⌊wait⌋ := by omega
      refine .inr ⟨by omega, ?_⟩
      have beyondRational : (2 ^ 63 : ℚ) ≤ now.reading + ⌊wait⌋ := by exact_mod_cast beyond
      linarith
  · intro nameable later ordered
    rcases nameable with ⟨ms, fits, rfl⟩ | ⟨started, beyond⟩
    · rw [Int.floor_natCast, min_eq_left (by omega)]
      exact_mod_cast Iff.rfl
    · -- neither the wait nor the hint is ever over
      have ends := later.reading_lt
      have floorBeyond : (2 ^ 63 : Int) - now.reading ≤ ⌊wait⌋ := by
        rw [Int.le_floor]
        push_cast
        linarith
      apply iff_of_false _ (by omega)
      intro waited
      have early : (now.reading : ℚ) + (later.reading - now.reading : Nat) < 2 ^ 63 := by
        exact_mod_cast (by omega : now.reading + (later.reading - now.reading) < 2 ^ 63)
      linarith

theorem missing_le_iff {missing rate : ℚ} (positive : 0 < rate) {now later : Millis}
    (ordered : now.reading ≤ later.reading) :
    missing ≤ elapsedSecs later now.val * rate ↔
      missing / rate * 1000 ≤ ((later.reading - now.reading : Nat) : ℚ) := by
  have elapsed : elapsedSecs later now.val =
      ((later.reading - now.reading : Nat) : ℚ) / 1000 := by
    rw [elapsedSecs_eq later now.toInt_nonneg, ← now.coe_reading, max_eq_left (by omega)]
    congr 1
    exact_mod_cast (Int.ofNat_sub ordered).symm
  rw [elapsed, ← div_le_iff₀ positive, le_div_iff₀ (by norm_num)]

theorem hinted_wait_iff {missing rate : ℚ} (lacks : 0 < missing) (positive : 0 < rate)
    (now : Millis) {allowed : Millis → Prop}
    (allowed_iff : ∀ later, allowed later ↔ missing ≤ elapsedSecs later now.val * rate) :
    (∀ later : Millis, now.reading ≤ later.reading →
      (allowed later ↔
        (waitMs missing rate).toInt ≤ (later.reading - now.reading : Nat))) ↔
      Nameable (missing / rate * 1000) now.reading := by
  have wait : 0 < missing / rate * 1000 := mul_pos (div_pos lacks positive) (by norm_num)
  rw [← truncated_wait_iff wait now, waitMs, if_neg positive.ne']
  apply forall_congr'
  intro later
  apply imp_congr_right
  intro ordered
  rw [allowed_iff later, missing_le_iff positive ordered]

theorem TokenBucketLimiter.denied_lacks {self : TokenBucketLimiter} {now : Millis}
    {state : TokenBucket.State} {cost : UInt32}
    (denied : (self.step now state cost).2.allowed = false) :
    0 < cost.toNat - self.tokens now state ∧
      (self.step now state cost).2.retryAfterMs =
        waitMs (cost.toNat - self.tokens now state) self.refillRate := by
  rw [step_retryAfterMs, denied, if_neg (by decide)]
  rw [step_allowed, decide_eq_false_iff_not, not_le] at denied
  exact ⟨sub_pos.mpr denied, rfl⟩

theorem LeakyBucketLimiter.denied_lacks {self : LeakyBucketLimiter} {now : Millis}
    {state : LeakyBucket.State} {cost : UInt32}
    (denied : (self.step now state cost).2.allowed = false) :
    0 < self.queue now state + cost.toNat - self.cap ∧
      (self.step now state cost).2.retryAfterMs =
        waitMs (self.queue now state + cost.toNat - self.cap) self.leakRate := by
  rw [step_retryAfterMs, denied, if_neg (by decide)]
  rw [step_allowed, decide_eq_false_iff_not, not_le] at denied
  exact ⟨sub_pos.mpr denied, rfl⟩

theorem TokenBucketLimiter.allowed_after_denied {self : TokenBucketLimiter}
    {now : Millis} {state : TokenBucket.State} {cost : UInt32}
    (within : (cost.toNat : ℚ) ≤ self.capacity)
    (denied : (self.step now state cost).2.allowed = false) (later : Millis) :
    (self.step later (self.step now state cost).1 cost).2.allowed = true ↔
      cost.toNat - self.tokens now state ≤ elapsedSecs later now.val * self.refillRate := by
  rw [step_allowed, decide_eq_true_iff, step_state, denied, if_neg (by decide)]
  change (cost.toNat : ℚ) ≤ min (self.tokens now state +
    elapsedSecs later now.val * self.refillRate) self.capacity ↔ _
  rw [le_min_iff, and_iff_left within, sub_le_iff_le_add']

theorem LeakyBucketLimiter.allowed_after_denied {self : LeakyBucketLimiter}
    {now : Millis} {state : LeakyBucket.State} {cost : UInt32}
    (within : (cost.toNat : ℚ) ≤ self.cap)
    (denied : (self.step now state cost).2.allowed = false) (later : Millis) :
    (self.step later (self.step now state cost).1 cost).2.allowed = true ↔
      self.queue now state + cost.toNat - self.cap ≤
        elapsedSecs later now.val * self.leakRate := by
  rw [step_allowed, decide_eq_true_iff, step_state, denied, if_neg (by decide)]
  change max (self.queue now state - elapsedSecs later now.val * self.leakRate) 0 +
    (cost.toNat : ℚ) ≤ self.cap ↔ _
  rw [← le_sub_iff_add_le, max_le_iff, and_iff_left (sub_nonneg.mpr within)]
  constructor <;> intro <;> linarith

def Algorithm.rate : Algorithm → RateLimiterConfig → ℚ
  | .tokenBucket, config => config.refillRate
  | .leakyBucket, config => config.leakRate
  | _, _ => 0

def Algorithm.capacity : Algorithm → RateLimiterConfig → ℚ
  | .tokenBucket, config => config.bucketCapacity
  | .leakyBucket, config => config.queueCapacity.toNat
  | _, _ => 0

def Algorithm.missing : (algorithm : Algorithm) → RateLimiterConfig →
    algorithm.family.Time → algorithm.family.State → (cost : UInt32) → ℚ
  | .tokenBucket, config, now, state, cost =>
      cost.toNat - config.tokenBucket.tokens now state
  | .leakyBucket, config, now, state, cost =>
      config.leakyBucket.queue now state + cost.toNat - config.queueCapacity.toNat
  | _, _, _, _, _ => 0

/-- A denied call on a bucket is allowed again exactly when the hinted wait is
over, if the time that the bucket takes to gain what it lacks is a whole number
of milliseconds. Otherwise the hint is too short. -/
theorem Algorithm.bucket_retry_exact_iff (algorithm : Algorithm)
    (isBucket : algorithm = .tokenBucket ∨ algorithm = .leakyBucket)
    (config : RateLimiterConfig) (positive : 0 < algorithm.rate config)
    (json : SerdeJson algorithm.family.State) {I : Interface}
    (backend : LawfulStore I) (world : backend.machine.World)
    (first : Arrival (algorithm.family.limiter config))
    (within : (first.request.cost.toNat : ℚ) ≤ algorithm.capacity config)
    (denied : (serve json backend world first).1.allowed = false) :
    RetryExact json backend 1 world first ↔
      Nameable (algorithm.missing config first.now (found json backend world first)
        first.request.cost / algorithm.rate config * 1000)
          (algorithm.family.reading first.now) := by
  rw [serve_decision] at denied
  rw [retryExact_iff]
  simp only [Nat.mul_one]
  rcases isBucket with rfl | rfl
  · rcases TokenBucketLimiter.denied_lacks denied with ⟨lacks, hint⟩
    have isHint : (outcome json backend world first).2.retryAfterMs = _ := hint
    rw [isHint]
    exact hinted_wait_iff lacks positive first.now
      (TokenBucketLimiter.allowed_after_denied within denied)
  · rcases LeakyBucketLimiter.denied_lacks denied with ⟨lacks, hint⟩
    have isHint : (outcome json backend world first).2.retryAfterMs = _ := hint
    rw [isHint]
    exact hinted_wait_iff lacks positive first.now
      (LeakyBucketLimiter.allowed_after_denied within denied)

theorem Algorithm.bucket_retry_exact_iff_second :
    let config : RateLimiterConfig := ⟨.tokenBucket, 1, 1, 1, 1, 1, 1⟩
    let call : Arrival (Algorithm.tokenBucket.family.limiter config) :=
      ⟨(⟨0, by decide⟩ : Millis), ⟨"alice", "/", 1⟩⟩
    let empty := (serve Json.tokenBucket LocalStore.lawful LocalStore.new call).2
    RetryExact Json.tokenBucket LocalStore.lawful 1 empty call ↔
      Nameable (Algorithm.tokenBucket.missing config call.now
        (found Json.tokenBucket LocalStore.lawful empty call) 1 /
          Algorithm.tokenBucket.rate config * 1000) 0 := by
  intro config call empty
  exact Algorithm.bucket_retry_exact_iff .tokenBucket (.inl rfl) config (by decide)
    Json.tokenBucket LocalStore.lawful empty call (by decide +kernel) (by decide +kernel)

/-- At three tokens a second the missing one takes a third of a second. The hint
is 333 milliseconds, and a retry after them is denied. -/
theorem Algorithm.third_of_second_too_early :
    let config : RateLimiterConfig := ⟨.tokenBucket, 1, 1, 1, 3, 1, 1⟩
    let call : Arrival (Algorithm.tokenBucket.family.limiter config) :=
      ⟨(⟨0, by decide⟩ : Millis), ⟨"alice", "/", 1⟩⟩
    let empty := (serve Json.tokenBucket LocalStore.lawful LocalStore.new call).2
    let denial := (serve Json.tokenBucket LocalStore.lawful empty call).1
    let retry : Next call := .again call (⟨333, by decide⟩ : Millis) 1 (by decide +kernel)
    denial.allowed = false ∧ denial.retryAfterMs = 333 ∧ retry.waitedMs 1 = 333 ∧
      (retry.decision Json.tokenBucket LocalStore.lawful empty).allowed = false ∧
      ¬ RetryExact Json.tokenBucket LocalStore.lawful 1 empty call := by
  intro config call empty denial retry
  have run : denial.allowed = false ∧ denial.retryAfterMs = 333 ∧
      retry.waitedMs 1 = 333 ∧
      (retry.decision Json.tokenBucket LocalStore.lawful empty).allowed = false := by
    decide +kernel
  rcases run with ⟨denied, hinted, waited, early⟩
  have enough : denial.retryAfterMs.toInt ≤ retry.waitedMs 1 := by
    rw [hinted, waited]
    decide
  refine ⟨denied, hinted, waited, early, fun exact => ?_⟩
  exact retry.not_retrySufficient rfl enough early exact.sufficient

/-! ## The log -/

namespace SlidingWindowLogLimiter

open SlidingWindowLog

variable {self : SlidingWindowLogLimiter}

def newer (self : SlidingWindowLogLimiter) (now : Millis) (state : State) : List Int64 :=
  (self.retained now state).filter fun t =>
    (self.retained now state).head?.getD now.val < t

theorem denied_first (positive : 0 < self.windowMs.toInt) {now : Millis}
    {state : State} (past : Past now state) {cost : UInt32}
    (within : cost.toNat ≤ self.maxRequests.toNat)
    (denied : (self.step now state cost).2.allowed = false) :
    ∃ t, (self.retained now state).head? = some t ∧ 0 ≤ t.toInt ∧
      t.toInt ≤ now.val.toInt ∧ now.val.toInt - self.windowMs.toInt < t.toInt ∧
      (self.step now state cost).2.retryAfterMs.toInt =
        t.toInt + self.windowMs.toInt - now.val.toInt := by
  have hint := self.step_retryAfterMs now state cost
  rw [denied, if_neg (by decide)] at hint
  rw [step_allowed, decide_eq_false_iff_not, not_le] at denied
  cases first : (self.retained now state).head? with
  | none =>
      rw [List.head?_eq_none_iff.mp first, List.length_nil] at denied
      omega
  | some t =>
      have member := List.mem_of_head? first
      rcases past t (List.mem_of_mem_filter member) with ⟨nonneg, upTo⟩
      have live : self.cutoff now < t := by simpa using (List.mem_filter.mp member).2
      rw [Int64.lt_iff_toInt_lt, toInt_cutoff positive.le] at live
      rw [hint, first, Option.getD_some, toInt_max, self.toInt_untilLeaving positive
        nonneg upTo, Int64.toInt_zero]
      rw [Int64.le_iff_toInt_le] at nonneg upTo
      exact ⟨t, rfl, nonneg, upTo, live, max_eq_left (by omega)⟩

theorem allowed_after_hint_iff (positive : 0 < self.windowMs.toInt) {now : Millis}
    (noWrap : now.val.toInt + self.windowMs.toInt < 2 ^ 63) {state : State}
    (past : Past now state) {cost : UInt32}
    (within : cost.toNat ≤ self.maxRequests.toNat)
    (denied : (self.step now state cost).2.allowed = false) :
    (∀ later : Millis, now.reading ≤ later.reading →
      (self.step now state cost).2.retryAfterMs.toInt ≤
        (later.reading - now.reading : Nat) →
      (self.step later (self.step now state cost).1 cost).2.allowed = true) ↔
        (self.newer now state).length + cost.toNat ≤ self.maxRequests.toNat := by
  rcases denied_first positive past within denied with
    ⟨t, first, nonneg, upTo, live, hint⟩
  have isNow := now.coe_reading
  have wrote : (self.step now state cost).1 = ⟨self.retained now state⟩ := by
    rw [step_state, denied, if_neg (by decide)]
  rw [hint, wrote]
  constructor
  · intro sufficient
    have leaves : (t.toInt + self.windowMs.toInt).toNat < 2 ^ 63 := by omega
    rcases Millis.exists_reading leaves with ⟨later, reading⟩
    have value := later.coe_reading
    have cut : self.cutoff later = t := by
      rw [← Int64.toInt_inj, toInt_cutoff positive.le]
      omega
    have allowed := sufficient later (by omega) (by omega)
    have same : self.retained later ⟨self.retained now state⟩ = self.newer now state := by
      rw [newer, first, retained, cut]
      rfl
    rwa [step_allowed, decide_eq_true_iff, same] at allowed
  · intro fits later ordered waited
    have value := later.coe_reading
    have cut : t ≤ self.cutoff later := by
      rw [Int64.le_iff_toInt_le, toInt_cutoff positive.le]
      omega
    have fewer : (self.retained later ⟨self.retained now state⟩).Sublist
        (self.newer now state) := by
      rw [newer, first]
      apply List.monotone_filter_right
      intro other found
      exact decide_eq_true (Int64.lt_of_le_of_lt cut (of_decide_eq_true found))
    rw [step_allowed, decide_eq_true_iff]
    exact (Nat.add_le_add_right fewer.length_le _).trans fits

end SlidingWindowLogLimiter

/-- A denied call on a log is allowed again after the hinted wait exactly when
the timestamps that are newer than the first one leave room for it. -/
theorem SlidingWindowLogLimiter.retry_sufficient_iff_room (maxRequests windowSecs : UInt64)
    (windowPositive : 0 < windowSecs.toNat)
    (windowFits : windowSecs.toNat * 1000 < 2 ^ 63)
    (json : SerdeJson SlidingWindowLog.State) {I : Interface}
    (backend : LawfulStore I) (world : backend.machine.World)
    (first : Arrival (new maxRequests windowSecs).loop)
    (reached : Reached json backend first.key first.now world)
    (noWrap : Millis.reading first.now + windowSecs.toNat * 1000 < 2 ^ 63)
    (within : first.request.cost.toNat ≤ maxRequests.toNat)
    (denied : (serve json backend world first).1.allowed = false) :
    RetrySufficient json backend 1 world first ↔
      ((new maxRequests windowSecs).newer first.now
        (found json backend world first)).length + first.request.cost.toNat ≤
          maxRequests.toNat := by
  have window := SlidingWindowLogLimiter.new_windowMs maxRequests windowFits
  have isNow := Millis.coe_reading first.now
  have past := (SlidingWindowLogLimiter.keeps_past _).found reached
  rw [serve_decision] at denied
  rw [retrySufficient_iff]
  simp only [Nat.mul_one]
  exact allowed_after_hint_iff (new_windowMs_pos maxRequests windowPositive windowFits)
    (by omega) past within denied

theorem SlidingWindowLogLimiter.retry_sufficient_iff_room_equal :
    let limiter := new 2 1
    let earlier : Arrival limiter.loop := ⟨(⟨0, by decide⟩ : Millis), ⟨"alice", "/", 2⟩⟩
    let call : Arrival limiter.loop := ⟨(⟨600, by decide⟩ : Millis), ⟨"alice", "/", 1⟩⟩
    let world := (limiter.loop.runCalls Json.slidingWindowLog LocalStore.lawful [earlier]
      LocalStore.new).2
    RetrySufficient Json.slidingWindowLog LocalStore.lawful 1 world call ↔
      (limiter.newer call.now (found Json.slidingWindowLog LocalStore.lawful world
        call)).length + 1 ≤ 2 := by
  intro limiter earlier call world
  have reached : Reached Json.slidingWindowLog LocalStore.lawful call.key call.now world :=
    .of_one Json.slidingWindowLog LocalStore.lawful earlier rfl (by decide +kernel)
  exact SlidingWindowLogLimiter.retry_sufficient_iff_room 2 1 (by decide) (by decide)
    Json.slidingWindowLog LocalStore.lawful world call reached (by decide +kernel)
    (by decide) (by decide +kernel)

/-- A timestamp at 0 and one at 500. A cost of two is denied at 600 and hinted at
the reading when the first one leaves, at which the second one is in the way. -/
theorem SlidingWindowLogLimiter.second_timestamp_in_the_way :
    let limiter := new 2 1
    let earlier : List (Arrival limiter.loop) :=
      [⟨(⟨0, by decide⟩ : Millis), ⟨"alice", "/", 1⟩⟩,
        ⟨(⟨500, by decide⟩ : Millis), ⟨"alice", "/", 1⟩⟩]
    let call : Arrival limiter.loop := ⟨(⟨600, by decide⟩ : Millis), ⟨"alice", "/", 2⟩⟩
    let world := (limiter.loop.runCalls Json.slidingWindowLog LocalStore.lawful earlier
      LocalStore.new).2
    let denial := (serve Json.slidingWindowLog LocalStore.lawful world call).1
    let retry : Next call := .again call (⟨1000, by decide⟩ : Millis) 2 (by decide +kernel)
    denial.allowed = false ∧ denial.retryAfterMs = 400 ∧ retry.waitedMs 1 = 400 ∧
      (retry.decision Json.slidingWindowLog LocalStore.lawful world).allowed = false ∧
      ¬ RetrySufficient Json.slidingWindowLog LocalStore.lawful 1 world call := by
  intro limiter earlier call world denial retry
  have run : denial.allowed = false ∧ denial.retryAfterMs = 400 ∧
      retry.waitedMs 1 = 400 ∧
      (retry.decision Json.slidingWindowLog LocalStore.lawful world).allowed = false := by
    decide +kernel
  rcases run with ⟨denied, hinted, waited, early⟩
  have enough : denial.retryAfterMs.toInt ≤ retry.waitedMs 1 := by
    rw [hinted, waited]
    decide
  refine ⟨denied, hinted, waited, early, ?_⟩
  exact retry.not_retrySufficient rfl enough early

end RateLimiting
