import RateLimiting.Headroom
import RateLimiting.RetryTimes

/-! # The sliding window counter over time

The weight of the two counters falls as time passes, inside a window and from
one window to the next. At the end of a window it falls to the current counter,
not to zero. -/

namespace RateLimiting

open CheckLoop

namespace SlidingWindowCounterLimiter

open SlidingWindowCounter

variable (self : SlidingWindowCounterLimiter)

theorem weighted_eq (now : UInt64) (state : State) :
    self.weighted now state =
      (self.counts now state).1.toNat * (1 - self.elapsedFraction now) +
        (self.counts now state).2.toNat := rfl

theorem elapsedFraction_nonneg (now : UInt64) : 0 ≤ self.elapsedFraction now :=
  div_nonneg (Nat.cast_nonneg _) (Nat.cast_nonneg _)

variable {self}

theorem elapsedFraction_mono {earlier later : UInt64}
    (ordered : earlier.toNat ≤ later.toNat)
    (same : (self.windowId earlier).toNat = (self.windowId later).toNat) :
    self.elapsedFraction earlier ≤ self.elapsedFraction later := by
  have parts := Nat.div_add_mod earlier.toNat self.windowSecs.toNat
  have laterParts := Nat.div_add_mod later.toNat self.windowSecs.toNat
  rw [windowId, windowId, UInt64.toNat_div, UInt64.toNat_div] at same
  rw [same] at parts
  unfold elapsedFraction
  apply div_le_div_of_nonneg_right _ (Nat.cast_nonneg _)
  rw [UInt64.toNat_mod, UInt64.toNat_mod]
  exact_mod_cast (by omega : earlier.toNat % self.windowSecs.toNat ≤
    later.toNat % self.windowSecs.toNat)

theorem counts_later {earlier later : UInt64} (ordered : earlier.toNat ≤ later.toNat)
    {state : State} (past : state.currWindowId.toNat ≤ (self.windowId earlier).toNat) :
    self.counts later state =
      shift ((self.windowId later).toNat - (self.windowId earlier).toNat)
        (self.counts earlier state) := by
  rw [← self.counts_counts ordered past, counts_eq_shift]
  rfl

theorem weighted_antitone {earlier later : UInt64}
    (ordered : earlier.toNat ≤ later.toNat) {state : State}
    (past : state.currWindowId.toNat ≤ (self.windowId earlier).toNat) :
    self.weighted later state ≤ self.weighted earlier state := by
  have forward : (self.windowId earlier).toNat ≤ (self.windowId later).toNat :=
    toNat_div_mono ordered _
  have counts := self.counts_later ordered past
  have atMost := self.elapsedFraction_le_one earlier
  have laterNonneg := self.elapsedFraction_nonneg later
  have prevNonneg : (0 : ℚ) ≤ (self.counts earlier state).1.toNat := Nat.cast_nonneg _
  have currNonneg : (0 : ℚ) ≤ (self.counts earlier state).2.toNat := Nat.cast_nonneg _
  rcases windows : (self.windowId later).toNat - (self.windowId earlier).toNat with
    _ | _ | windows
  · -- the same window: the previous counter weighs less
    have elapsed := self.elapsedFraction_mono ordered (by omega)
    rw [windows] at counts
    rw [weighted_eq, weighted_eq, counts]
    change ((self.counts earlier state).1.toNat : ℚ) * _ + _ ≤ _
    have lighter := mul_le_mul_of_nonneg_left (sub_le_sub_left elapsed 1) prevNonneg
    exact add_le_add_left lighter _
  · -- the next window: the current counter starts to weigh less
    rw [windows] at counts
    rw [weighted_eq, weighted_eq, counts]
    change ((self.counts earlier state).2.toNat : ℚ) * _ + ((0 : UInt64).toNat : ℚ) ≤ _
    have lighter : ((self.counts earlier state).2.toNat : ℚ) *
        (1 - self.elapsedFraction later) ≤ (self.counts earlier state).2.toNat :=
      mul_le_of_le_one_right currNonneg (sub_le_self 1 laterNonneg)
    have previous := mul_nonneg prevNonneg (sub_nonneg.mpr atMost)
    rw [UInt64.toNat_zero, Nat.cast_zero]
    linarith
  · -- a later window: both counters are gone
    have gone : self.weighted later state = 0 := by
      rw [weighted_eq, counts, windows]
      change ((0 : UInt64).toNat : ℚ) * _ + ((0 : UInt64).toNat : ℚ) = 0
      simp
    rw [gone]
    exact self.weighted_nonneg earlier state

/-- The stored window is not ahead of the clock and the load is within the quota. -/
def Settled (self : SlidingWindowCounterLimiter) (now : UInt64) (state : State) : Prop :=
  state.currWindowId.toNat ≤ (self.windowId now).toNat ∧
    self.weighted now state ≤ self.maxRequests.toNat

theorem weighted_step (now : UInt64) (state : State) (cost : UInt32) :
    self.weighted now (self.step now state cost).1 = self.weighted now state +
      if (self.step now state cost).2.allowed then cost.toNat else 0 := by
  have counts : self.counts now (self.step now state cost).1 =
      ((self.counts now state).1, (self.step now state cost).1.currCount) := by
    rw [counts_eq_shift, step_state, Nat.sub_self]
    rfl
  rw [weighted_eq, counts, step_currCount, weighted_eq]
  push_cast
  ring

theorem keeps_settled (self : SlidingWindowCounterLimiter) :
    self.loop.Keeps self.Settled where
  fresh now := by
    refine ⟨le_rfl, ?_⟩
    change self.weighted now ⟨0, 0, self.windowId now⟩ ≤ _
    rw [weighted_eq, counts_fresh]
    simp
  step now state cost settled := by
    constructor
    · change (self.step now state cost).1.currWindowId.toNat ≤ _
      rw [step_state]
    · change self.weighted now (self.step now state cost).1 ≤ _
      rw [weighted_step, step_allowed]
      split
      · next fits => exact of_decide_eq_true fits
      · simpa using settled.2
  later earlier now state ordered settled :=
    ⟨settled.1.trans (toNat_div_mono ordered _),
      (self.weighted_antitone ordered settled.1).trans settled.2⟩

/-! ## Waiting -/

theorem weighted_found (json : SerdeJson State) {I : Interface} (backend : LawfulStore I)
    (world : backend.machine.World) {earlier later : Arrival self.loop}
    (sameKey : later.key = earlier.key) (now : UInt64) :
    self.weighted now (found json backend world later) =
      self.weighted now (found json backend world earlier) := by
  rw [found_eq, found_eq, sameKey]
  cases (backend.contents world earlier.key).bind json.fromSlice with
  | none =>
      change self.weighted now ⟨0, 0, self.windowId later.now⟩ =
        self.weighted now ⟨0, 0, self.windowId earlier.now⟩
      rw [weighted_eq, weighted_eq, counts_fresh, counts_fresh]
  | some state => rfl

theorem remaining_mono {earlier later : UInt64} {left right : State} (cost : UInt32)
    (lighter : self.weighted later right ≤ self.weighted earlier left) :
    (self.step earlier left cost).2.remaining.toInt ≤
      (self.step later right cost).2.remaining.toInt := by
  have nonneg : 0 ≤ (self.step later right cost).2.remaining.toInt := by
    rw [step_remaining]
    split
    · exact asI64_nonneg_iff.mpr (lt_max_of_lt_right (by norm_num))
    · exact le_rfl
  cases allowed : (self.step earlier left cost).2.allowed with
  | false =>
      rw [self.step_remaining earlier, allowed, if_neg (by decide)]
      exact nonneg
  | true =>
      have fits := allowed
      rw [step_allowed, decide_eq_true_iff] at fits
      have laterAllowed : (self.step later right cost).2.allowed = true := by
        rw [step_allowed, decide_eq_true_iff]
        linarith
      rw [step_remaining, step_remaining, allowed, laterAllowed, if_pos rfl, if_pos rfl]
      apply asI64_mono
      exact max_le_max_right _ (by linarith)

/-- A call that would be allowed is allowed later as well, if nothing happens in
between, and then at least as much remains. -/
theorem waiting_never_hurts (limiter : SlidingWindowCounterLimiter)
    (json : SerdeJson State) {I : Interface} (backend : LawfulStore I)
    (world : backend.machine.World) (earlier later : Arrival limiter.loop)
    (sameKey : later.key = earlier.key)
    (sameCost : later.request.cost = earlier.request.cost)
    (ordered : UInt64.toNat earlier.now ≤ UInt64.toNat later.now)
    (reached : Reached json backend earlier.key earlier.now world) :
    ((serve json backend world earlier).1.allowed = true →
      (serve json backend world later).1.allowed = true) ∧
    (serve json backend world earlier).1.remaining.toInt ≤
      (serve json backend world later).1.remaining.toInt := by
  have settled := limiter.keeps_settled.found reached
  have lighter := limiter.weighted_antitone ordered settled.1
  rw [← limiter.weighted_found json backend world sameKey] at lighter
  rw [serve_decision, serve_decision, outcome, outcome, sameCost]
  refine ⟨fun allowed => ?_, remaining_mono _ lighter⟩
  change (limiter.step _ _ _).2.allowed = true at allowed
  change (limiter.step _ _ _).2.allowed = true
  rw [step_allowed, decide_eq_true_iff] at allowed ⊢
  linarith

theorem waiting_never_hurts_next :
    let limiter : SlidingWindowCounterLimiter := ⟨4, 10⟩
    let first : Arrival limiter.loop := ⟨(3 : UInt64), ⟨"alice", "/", 3⟩⟩
    let earlier : Arrival limiter.loop := ⟨(9 : UInt64), ⟨"alice", "/", 1⟩⟩
    let later : Arrival limiter.loop := ⟨(12 : UInt64), ⟨"alice", "/", 1⟩⟩
    let world := (limiter.loop.runCalls Json.slidingWindowCounter LocalStore.lawful
      [first] LocalStore.new).2
    ((serve Json.slidingWindowCounter LocalStore.lawful world earlier).1.allowed = true →
      (serve Json.slidingWindowCounter LocalStore.lawful world later).1.allowed = true) ∧
    (serve Json.slidingWindowCounter LocalStore.lawful world
        earlier).1.remaining.toInt ≤
      (serve Json.slidingWindowCounter LocalStore.lawful world
        later).1.remaining.toInt := by
  intro limiter first earlier later world
  have reached : Reached Json.slidingWindowCounter LocalStore.lawful earlier.key
      earlier.now world :=
    .of_one Json.slidingWindowCounter LocalStore.lawful first rfl (by decide)
  exact limiter.waiting_never_hurts Json.slidingWindowCounter LocalStore.lawful world
    earlier later rfl rfl (by decide) reached

/-! ## The hinted wait -/

/-- The whole seconds that cover the hint: the rest of the window, as far as its
milliseconds fit in a signed integer. -/
def hintedSecs (self : SlidingWindowCounterLimiter) (now : UInt64) : Nat :=
  min (self.windowSecs.toNat - now.toNat % self.windowSecs.toNat) 9223372036854776

theorem hint_le_iff (positive : 0 < self.windowSecs.toNat) {now : UInt64} {state : State}
    {cost : UInt32} (denied : (self.step now state cost).2.allowed = false)
    (secs : Nat) :
    (self.step now state cost).2.retryAfterMs.toInt ≤ (secs * 1000 : Nat) ↔
      self.hintedSecs now ≤ secs := by
  have nonzero : (self.windowSecs.toNat : ℚ) ≠ 0 := Nat.cast_ne_zero.mpr positive.ne'
  have inside := (Nat.mod_lt now.toNat positive).le
  have rest : (1 - self.elapsedFraction now) * self.windowSecs.toNat * 1000 =
      (((self.windowSecs.toNat - now.toNat % self.windowSecs.toNat) * 1000 : Nat) : ℚ) := by
    rw [elapsedFraction, sub_mul, div_mul_cancel₀ _ nonzero, one_mul, UInt64.toNat_mod]
    push_cast [inside]
    rfl
  rw [step_retryAfterMs, denied, if_neg (by decide), rest,
    toInt_asI64_of_nonneg (Nat.cast_nonneg _), Int.floor_natCast, hintedSecs]
  omega

theorem weighted_hinted (positive : 0 < self.windowSecs.toNat) {now later : UInt64}
    (isLater : later.toNat = now.toNat + self.hintedSecs now) {state : State}
    (past : state.currWindowId.toNat ≤ (self.windowId now).toNat) :
    self.weighted later state = (self.counts now state).1.toNat *
        (1 - (now.toNat % self.windowSecs.toNat + self.hintedSecs now : Nat) /
          (self.windowSecs.toNat : ℚ)) + (self.counts now state).2.toNat := by
  have nonzero : (self.windowSecs.toNat : ℚ) ≠ 0 := Nat.cast_ne_zero.mpr positive.ne'
  have parts := Nat.div_add_mod now.toNat self.windowSecs.toNat
  have inside := Nat.mod_lt now.toNat positive
  have counts := self.counts_later (isLater.symm ▸ Nat.le_add_right _ _) past
  have atMost : self.hintedSecs now ≤
      self.windowSecs.toNat - now.toNat % self.windowSecs.toNat := min_le_left _ _
  have split : later.toNat = now.toNat % self.windowSecs.toNat + self.hintedSecs now +
      self.windowSecs.toNat * (now.toNat / self.windowSecs.toNat) := by
    omega
  rw [windowId, windowId, UInt64.toNat_div, UInt64.toNat_div, split,
    Nat.add_mul_div_left _ _ positive] at counts
  rw [weighted_eq, counts, elapsedFraction, UInt64.toNat_mod, split, Nat.add_mul_mod_self_left]
  rcases Nat.lt_or_ge (now.toNat % self.windowSecs.toNat + self.hintedSecs now)
    self.windowSecs.toNat with before | ended
  · rw [Nat.div_eq_of_lt before, Nat.zero_add, Nat.sub_self, Nat.mod_eq_of_lt before]
    rfl
  · have ends : now.toNat % self.windowSecs.toNat + self.hintedSecs now =
        self.windowSecs.toNat := by
      omega
    rw [ends, Nat.div_self positive, Nat.mod_self, Nat.add_sub_cancel, div_self nonzero]
    simp [shift]

theorem retry_allowed_iff {now later : UInt64} (ordered : now.toNat ≤ later.toNat)
    {state : State} (past : state.currWindowId.toNat ≤ (self.windowId now).toNat)
    {cost : UInt32} (denied : (self.step now state cost).2.allowed = false) :
    (self.step later (self.step now state cost).1 cost).2.allowed = true ↔
      self.weighted later state + cost.toNat ≤ self.maxRequests.toNat := by
  have wrote : (self.step now state cost).1 = self.rotated now state := by
    rw [step_state, denied, if_neg (by decide)]
    rfl
  have same : self.weighted later (self.rotated now state) = self.weighted later state := by
    rw [weighted_eq, weighted_eq, self.counts_counts ordered past]
  rw [step_allowed, decide_eq_true_iff, wrote, same, UInt32.toNat_toUInt64]

/-- A denied call is allowed again after the hinted wait exactly when the
counters, as they weigh at that reading, leave room for it. When the window has
ended by then, this is the current counter alone. -/
theorem retry_sufficient_iff (limiter : SlidingWindowCounterLimiter)
    (positive : 0 < limiter.windowSecs.toNat) (json : SerdeJson State)
    {I : Interface} (backend : LawfulStore I) (world : backend.machine.World)
    (first : Arrival limiter.loop)
    (reached : Reached json backend first.key first.now world)
    (denied : (serve json backend world first).1.allowed = false) :
    let now := UInt64.toNat first.now
    let wait := limiter.hintedSecs first.now
    let counts := limiter.counts first.now (found json backend world first)
    RetrySufficient json backend 1000 world first ↔
      2 ^ 64 ≤ now + wait ∨
        counts.1.toNat * (1 - (now % limiter.windowSecs.toNat + wait : Nat) /
          (limiter.windowSecs.toNat : ℚ)) + counts.2.toNat + first.request.cost.toNat ≤
            limiter.maxRequests.toNat := by
  intro now wait counts
  have past := (limiter.keeps_settled.found reached).1
  rw [serve_decision] at denied
  rw [retrySufficient_iff]
  constructor
  · intro sufficient
    rcases Nat.lt_or_ge (now + wait) (2 ^ 64) with representable | tooLate
    · right
      let later : UInt64 := UInt64.ofNat (now + wait)
      have isLater : later.toNat = now + wait := UInt64.toNat_ofNat_of_lt representable
      have ordered : now ≤ later.toNat := isLater.symm ▸ Nat.le_add_right _ _
      have waited := (limiter.hint_le_iff positive denied (later.toNat - now)).mpr
        (by rw [isLater, Nat.add_sub_cancel_left])
      have allowed := sufficient later ordered waited
      rw [← limiter.weighted_hinted positive isLater past]
      exact (retry_allowed_iff ordered past denied).mp allowed
    · exact .inl tooLate
  · intro room later ordered waited
    have elapsed := (limiter.hint_le_iff positive denied _).mp waited
    have bound := UInt64.toNat_lt later
    have upTo : now + wait ≤ UInt64.toNat later := by
      change wait ≤ UInt64.toNat later - now at elapsed
      change now ≤ UInt64.toNat later at ordered
      omega
    rcases room with tooLate | fits
    · -- no reading is that late
      exact absurd upTo (by omega)
    · let ends : UInt64 := UInt64.ofNat (now + wait)
      have isEnds : ends.toNat = now + wait :=
        UInt64.toNat_ofNat_of_lt (upTo.trans_lt bound)
      have pastEnds := past.trans
        (toNat_div_mono (isEnds.symm ▸ Nat.le_add_right now wait) limiter.windowSecs)
      have lighter := limiter.weighted_antitone (isEnds.symm ▸ upTo) pastEnds
      rw [limiter.weighted_hinted positive isEnds past] at lighter
      apply (retry_allowed_iff ordered past denied).mpr
      linarith

/-- A window that is full in its last second, with room in the next one. -/
theorem retry_sufficient_iff_last :
    let limiter : SlidingWindowCounterLimiter := ⟨3, 60⟩
    let earlier : Arrival limiter.loop := ⟨(59 : UInt64), ⟨"alice", "/", 2⟩⟩
    let call : Arrival limiter.loop := ⟨(59 : UInt64), ⟨"alice", "/", 2⟩⟩
    let world := (limiter.loop.runCalls Json.slidingWindowCounter LocalStore.lawful
      [earlier] LocalStore.new).2
    let counts := limiter.counts call.now
      (found Json.slidingWindowCounter LocalStore.lawful world call)
    RetrySufficient Json.slidingWindowCounter LocalStore.lawful 1000 world call ↔
      2 ^ 64 ≤ 59 + limiter.hintedSecs call.now ∨
        counts.1.toNat * (1 - (59 % 60 + limiter.hintedSecs call.now : Nat) / (60 : ℚ)) +
          counts.2.toNat + 2 ≤ 3 := by
  intro limiter earlier call world counts
  have reached : Reached Json.slidingWindowCounter LocalStore.lawful call.key call.now
      world :=
    .of_one Json.slidingWindowCounter LocalStore.lawful earlier rfl (by decide)
  exact limiter.retry_sufficient_iff (by decide) Json.slidingWindowCounter
    LocalStore.lawful world call reached (by decide +kernel)

/-- The quota spent at the start of a minute. A call that is denied is hinted at
the next minute, where the counter, now the previous one, still weighs in full. -/
theorem spent_window_carries_over :
    let limiter : SlidingWindowCounterLimiter := ⟨3, 60⟩
    let earlier : Arrival limiter.loop := ⟨(0 : UInt64), ⟨"alice", "/", 3⟩⟩
    let call : Arrival limiter.loop := ⟨(0 : UInt64), ⟨"alice", "/", 1⟩⟩
    let world := (limiter.loop.runCalls Json.slidingWindowCounter LocalStore.lawful
      [earlier] LocalStore.new).2
    let denial := (serve Json.slidingWindowCounter LocalStore.lawful world call).1
    let retry : Next call := .again call (60 : UInt64) 1 (by decide)
    denial.allowed = false ∧ denial.retryAfterMs = 60000 ∧ retry.waitedMs 1000 = 60000 ∧
      (retry.decision Json.slidingWindowCounter LocalStore.lawful world).allowed = false ∧
      ¬ RetrySufficient Json.slidingWindowCounter LocalStore.lawful 1000 world call := by
  intro limiter earlier call world denial retry
  have run : denial.allowed = false ∧ denial.retryAfterMs = 60000 ∧
      retry.waitedMs 1000 = 60000 ∧
      (retry.decision Json.slidingWindowCounter LocalStore.lawful world).allowed = false := by
    decide +kernel
  rcases run with ⟨denied, hinted, waited, early⟩
  have enough : denial.retryAfterMs.toInt ≤ retry.waitedMs 1000 := by
    rw [hinted, waited]
    decide
  refine ⟨denied, hinted, waited, early, ?_⟩
  exact retry.not_retrySufficient rfl enough early

/-! ## What remains -/

theorem allowed_again_iff {now : UInt64} {state : State} {cost : UInt32} (next : UInt32) :
    (self.step now (self.step now state cost).1 next).2.allowed = true ↔
      self.weighted now state +
          ((if (self.step now state cost).2.allowed then cost.toNat else 0 : Nat) : ℚ) +
        next.toNat ≤ self.maxRequests.toNat := by
  rw [step_allowed, decide_eq_true_iff, weighted_step, UInt32.toNat_toUInt64]

theorem headroom_of_allowed (exact : self.maxRequests.toNat < 2 ^ 53) {now : UInt64}
    {state : State} {cost : UInt32} (allowed : (self.step now state cost).2.allowed = true)
    (next : UInt32) :
    (self.step now (self.step now state cost).1 next).2.allowed = true ↔
      (next.toNat : Int) ≤ (self.step now state cost).2.remaining.toInt := by
  have load := self.weighted_nonneg now state
  have costNonneg : (0 : ℚ) ≤ cost.toNat := Nat.cast_nonneg _
  have quota : (self.maxRequests.toNat : ℚ) < 2 ^ 53 := by exact_mod_cast exact
  rw [allowed_again_iff, step_remaining, allowed, if_pos rfl, if_pos rfl]
  rw [step_allowed, decide_eq_true_iff, UInt32.toNat_toUInt64] at allowed
  rw [max_eq_left (by linarith), ← natCast_le_iff_asI64 (by linarith) (by linarith)]
  constructor <;> intro <;> linarith

theorem headroom_of_denied {now : UInt64} {state : State}
    (within : self.weighted now state ≤ self.maxRequests.toNat) {cost : UInt32}
    (denied : (self.step now state cost).2.allowed = false) :
    (∀ next : UInt32,
      (self.step now (self.step now state cost).1 next).2.allowed = true ↔
        (next.toNat : Int) ≤ (self.step now state cost).2.remaining.toInt) ↔
      (self.maxRequests.toNat : ℚ) < self.weighted now state + 1 := by
  simp only [allowed_again_iff, step_remaining, denied, Bool.false_eq_true, if_false,
    Nat.cast_zero, add_zero, Int64.toInt_zero]
  constructor
  · intro headroom
    have one : (1 : UInt32).toNat = 1 := rfl
    have tooMuch := mt (headroom 1).mp (by rw [one]; decide)
    rw [one, Nat.cast_one, not_le] at tooMuch
    exact tooMuch
  · intro full next
    rcases Nat.eq_zero_or_pos next.toNat with free | positive
    · rw [free, Nat.cast_zero, add_zero]
      exact iff_of_true within le_rfl
    · have atLeastOne : (1 : ℚ) ≤ next.toNat := by exact_mod_cast positive
      exact iff_of_false (by linarith) (by omega)

/-- What a decision reports as remaining is the headroom exactly when it admits,
or denies with room for less than one unit. A denial reports that nothing
remains, however much room it leaves. -/
theorem remaining_is_headroom_iff (limiter : SlidingWindowCounterLimiter)
    (exact : limiter.maxRequests.toNat < 2 ^ 53) (json : SerdeJson State)
    {I : Interface} (backend : LawfulStore I) (world : backend.machine.World)
    (first : Arrival limiter.loop)
    (reached : Reached json backend first.key first.now world) :
    let load := limiter.weighted first.now (found json backend world first)
    TrueHeadroom json backend world first ↔
      load + first.request.cost.toNat ≤ limiter.maxRequests.toNat ∨
        (limiter.maxRequests.toNat : ℚ) < load + 1 := by
  intro load
  have within := (limiter.keeps_settled.found reached).2
  have admits := limiter.step_allowed first.now (found json backend world first)
    first.request.cost
  rw [trueHeadroom_iff]
  by_cases fits : load + first.request.cost.toNat ≤ limiter.maxRequests.toNat
  · have allowed := admits.trans (decide_eq_true fits)
    exact iff_of_true (headroom_of_allowed exact allowed) (.inl fits)
  · have denied := admits.trans (decide_eq_false fits)
    rw [or_iff_right fits]
    exact headroom_of_denied within denied

theorem remaining_is_headroom_iff_spent :
    let limiter : SlidingWindowCounterLimiter := ⟨10, 60⟩
    let earlier : Arrival limiter.loop := ⟨(0 : UInt64), ⟨"alice", "/", 7⟩⟩
    let call : Arrival limiter.loop := ⟨(0 : UInt64), ⟨"alice", "/", 3⟩⟩
    let world := (limiter.loop.runCalls Json.slidingWindowCounter LocalStore.lawful
      [earlier] LocalStore.new).2
    let load := limiter.weighted call.now
      (found Json.slidingWindowCounter LocalStore.lawful world call)
    TrueHeadroom Json.slidingWindowCounter LocalStore.lawful world call ↔
      load + 3 ≤ 10 ∨ (10 : ℚ) < load + 1 := by
  intro limiter earlier call world load
  have reached : Reached Json.slidingWindowCounter LocalStore.lawful call.key call.now
      world :=
    .of_one Json.slidingWindowCounter LocalStore.lawful earlier rfl (by decide)
  exact limiter.remaining_is_headroom_iff (by decide) Json.slidingWindowCounter
    LocalStore.lawful world call reached

/-- Seven of ten are spent. A cost of four is denied with nothing remaining, and
then a cost of three is allowed. -/
theorem denied_with_room_left :
    let limiter : SlidingWindowCounterLimiter := ⟨10, 60⟩
    let earlier : Arrival limiter.loop := ⟨(0 : UInt64), ⟨"alice", "/", 7⟩⟩
    let call : Arrival limiter.loop := ⟨(0 : UInt64), ⟨"alice", "/", 4⟩⟩
    let world := (limiter.loop.runCalls Json.slidingWindowCounter LocalStore.lawful
      [earlier] LocalStore.new).2
    let denial := (serve Json.slidingWindowCounter LocalStore.lawful world call).1
    let next : Next call := .again call (0 : UInt64) 3 (by decide)
    denial.allowed = false ∧ denial.remaining = 0 ∧
      (next.decision Json.slidingWindowCounter LocalStore.lawful world).allowed = true ∧
      ¬ TrueHeadroom Json.slidingWindowCounter LocalStore.lawful world call := by
  intro limiter earlier call world denial next
  have run : denial.allowed = false ∧ denial.remaining = 0 ∧
      (next.decision Json.slidingWindowCounter LocalStore.lawful world).allowed =
        true := by
    decide +kernel
  rcases run with ⟨denied, remaining, allowed⟩
  refine ⟨denied, remaining, allowed, fun headroom => ?_⟩
  have within : (3 : Int) ≤ denial.remaining.toInt := (headroom next rfl).mp allowed
  rw [remaining] at within
  exact absurd within (by decide)

end SlidingWindowCounterLimiter

end RateLimiting
