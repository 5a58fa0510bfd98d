import RateLimiting.Concurrency.Reachability
import RateLimiting.Foundation.CheckedNumber
import RateLimiting.Quota.SlidingWindowLog

/-! # The arithmetic of the window limiters

The steps again with checked operations. A configuration is safe when they give what
the wrapping steps give, at every reading up to the latest one that is realistic and
for every state that can be found there. -/

namespace RateLimiting

/-! ## The checked steps -/

namespace FixedWindowLimiter

open FixedWindow

variable (self : FixedWindowLimiter)

def checkedAdmission (now windowId count cost : UInt64) :
    Option (UInt64 × Bool × Int64) := do
  let total ← Checked.add count cost
  if total ≤ self.maxRequests then pure (total, true, 0)
  else
    let next ← Checked.add windowId 1
    let windowEnd ← Checked.mul next self.windowSecs
    let waitMs ← Checked.mul (saturatingSub windowEnd now) 1000
    let retryAfterMs ← Checked.toI64 waitMs
    pure (count, false, retryAfterMs)

def checkedStep (now : UInt64) (state : State) (cost : UInt32) :
    Option (State × Decision) := do
  let windowId ← Checked.div now self.windowSecs
  let count := if state.windowId = windowId then state.count else 0
  let (newCount, allowed, retryAfterMs) ←
    self.checkedAdmission now windowId count cost.toUInt64
  let limit ← Checked.toI64 self.maxRequests
  let remaining ← Checked.toI64 (saturatingSub self.maxRequests newCount)
  pure ({ count := newCount, windowId := windowId },
    { allowed := allowed
      limit := limit
      remaining := remaining
      retryAfterMs := retryAfterMs
      reason :=
        if allowed then s!"ok — {newCount}/{self.maxRequests} used"
        else s!"fixed-window limit {count}/{self.maxRequests} exceeded, " ++
          s!"resets in {retryAfterMs}ms" })

variable {self}

theorem toNat_count_le {state : State} (counted : state.count ≤ self.maxRequests)
    (now : UInt64) :
    (self.count now state).toNat ≤ self.maxRequests.toNat := by
  unfold count
  split
  · exact UInt64.le_iff_toNat_le.mp counted
  · exact Nat.zero_le _

theorem windowEnd_le (now : UInt64) :
    ((self.windowId now).toNat + 1) * self.windowSecs.toNat ≤
      now.toNat + self.windowSecs.toNat := by
  rw [windowId, UInt64.toNat_div, Nat.add_mul, Nat.one_mul]
  exact Nat.add_le_add_right (Nat.div_mul_le_self _ _) _

theorem exact_wait {now : UInt64} (window : self.windowSecs ≠ 0)
    (span : now.toNat + self.windowSecs.toNat * 1000 < 2 ^ 63) :
    Checked.add (self.windowId now) 1 = some (self.windowId now + 1) ∧
      Checked.mul (self.windowId now + 1) self.windowSecs =
        some ((self.windowId now + 1) * self.windowSecs) ∧
      Checked.mul (saturatingSub ((self.windowId now + 1) * self.windowSecs) now) 1000 =
        some (saturatingSub ((self.windowId now + 1) * self.windowSecs) now * 1000) ∧
      Checked.toI64 (saturatingSub ((self.windowId now + 1) * self.windowSecs) now * 1000) =
        some (saturatingSub ((self.windowId now + 1) * self.windowSecs) now *
          1000).toInt64 := by
  have windowEnd := self.windowEnd_le now
  have positive := toNat_pos_iff.mpr window
  have id : (self.windowId now).toNat + 1 ≤
      ((self.windowId now).toNat + 1) * self.windowSecs.toNat :=
    Nat.le_mul_of_pos_right _ positive
  have next : (self.windowId now + 1).toNat = (self.windowId now).toNat + 1 :=
    toNat_add_of_lt (by change (self.windowId now).toNat + 1 < 2 ^ 64; omega)
  have fits : (self.windowId now + 1).toNat * self.windowSecs.toNat < 2 ^ 64 := by
    rw [next]
    omega
  have product := Checked.toNat_mul_of_lt fits
  rw [next] at product
  have wait : (saturatingSub ((self.windowId now + 1) * self.windowSecs) now).toNat *
      (1000 : UInt64).toNat < 2 ^ 63 := by
    rw [toNat_saturatingSub, product]
    change _ * 1000 < 2 ^ 63
    omega
  have waitFits := Nat.lt_trans wait (by decide : 2 ^ 63 < 2 ^ 64)
  refine ⟨Checked.add_of_lt ?_, Checked.mul_of_lt fits, Checked.mul_of_lt waitFits,
    Checked.toI64_of_lt ?_⟩
  · change (self.windowId now).toNat + 1 < 2 ^ 64
    omega
  · rw [Checked.toNat_mul_of_lt waitFits]
    exact wait

theorem checkedStep_eq {now : UInt64} {state : State} {cost : UInt32}
    (window : self.windowSecs ≠ 0) (limit : self.maxRequests.toNat < 2 ^ 63)
    (counted : state.count ≤ self.maxRequests)
    (span : now.toNat + self.windowSecs.toNat * 1000 < 2 ^ 63) :
    self.checkedStep now state cost = some (self.step now state cost) := by
  have divided : Checked.div now self.windowSecs = some (now / self.windowSecs) :=
    Checked.div_of_ne window
  have total : Checked.add (self.count now state) cost.toUInt64 =
      some (self.count now state + cost.toUInt64) := by
    have counts := toNat_count_le counted now
    have small := cost.toNat_lt
    apply Checked.add_of_lt
    rw [UInt32.toNat_toUInt64]
    omega
  have limited := Checked.toI64_of_lt limit
  have remaining := Checked.toI64_saturatingSub limit
  simp only [checkedStep, divided, Option.bind_eq_bind, Option.bind_some]
  change (self.checkedAdmission now (self.windowId now) (self.count now state)
    cost.toUInt64).bind _ = _
  by_cases fits : self.count now state + cost.toUInt64 ≤ self.maxRequests
  · simp only [checkedAdmission, total, fits, if_true, limited, remaining,
      Option.bind_eq_bind, Option.bind_some, Option.pure_def]
    simp only [step, fits, if_true]
    rfl
  · rcases exact_wait window span with ⟨next, windowEnd, waitMs, wait⟩
    simp only [checkedAdmission, total, fits, if_false, next, windowEnd, waitMs, wait,
      limited, remaining, Option.bind_eq_bind, Option.bind_some, Option.pure_def]
    simp only [step, fits, if_false]
    rfl

theorem exact_of_checkedStep {now : UInt64} {state : State} {cost : UInt32}
    {result : State × Decision} (exact : self.checkedStep now state cost = some result) :
    self.windowSecs ≠ 0 ∧ self.maxRequests.toNat < 2 ^ 63 := by
  rcases Option.bind_eq_some_iff.mp exact with ⟨windowId, divided, exact⟩
  rcases Option.bind_eq_some_iff.mp exact with ⟨numbers, -, exact⟩
  rcases Option.bind_eq_some_iff.mp exact with ⟨limit, limited, -⟩
  exact ⟨Checked.ne_zero_of_div (Option.isSome_of_eq_some divided),
    Checked.lt_of_toI64 (Option.isSome_of_eq_some limited)⟩

theorem computes (json : SerdeJson State) {latest : Millis} (window : self.windowSecs ≠ 0)
    (limit : self.maxRequests.toNat < 2 ^ 63)
    (span : latest.reading + self.windowSecs.toNat * 1000 < 2 ^ 63) :
    self.loop.Computes json (fun now => UInt64.toNat now * 1000 ≤ latest.reading)
      self.checkedStep := by
  apply (self.confines.keepsWhen _).computes self.confines.fresh
  intro now state cost reading counted
  exact checkedStep_eq window limit counted (by omega)

end FixedWindowLimiter

namespace SlidingWindowCounterLimiter

open SlidingWindowCounter

variable (self : SlidingWindowCounterLimiter)

def checkedAdmission (elapsedFraction weighted : ℚ) (currCount cost : UInt64) :
    Option (UInt64 × Bool × Int64) :=
  if weighted + cost.toNat ≤ self.maxRequests.toNat then do
    let newCurr ← Checked.add currCount cost
    pure (newCurr, true, 0)
  else
    pure (currCount, false,
      asI64 ((1 - elapsedFraction) * self.windowSecs.toNat * 1000))

/-- The casts of the remaining requests and of the wait are from `f64` and saturate. -/
def checkedStep (now : UInt64) (state : State) (cost : UInt32) :
    Option (State × Decision) := do
  let windowId ← Checked.div now self.windowSecs
  let elapsed ← Checked.rem now self.windowSecs
  let elapsedFraction : ℚ := (elapsed.toNat : ℚ) / self.windowSecs.toNat
  let diff := saturatingSub windowId state.currWindowId
  let (prevCount, currCount) :=
    if diff = 0 then (state.prevCount, state.currCount)
    else if diff = 1 then (state.currCount, 0)
    else (0, 0)
  let weighted : ℚ := prevCount.toNat * (1 - elapsedFraction) + currCount.toNat
  let (newCurr, allowed, retryAfterMs) ←
    self.checkedAdmission elapsedFraction weighted currCount cost.toUInt64
  let remaining := asI64 (max (self.maxRequests.toNat - weighted - cost.toNat) 0)
  let limit ← Checked.toI64 self.maxRequests
  pure ({ prevCount := prevCount, currCount := newCurr, currWindowId := windowId },
    { allowed := allowed
      limit := limit
      remaining := if allowed then remaining else 0
      retryAfterMs := retryAfterMs
      reason :=
        if allowed then
          s!"ok — weighted {fixed 1 (weighted + cost.toNat)}/{self.maxRequests} " ++
            "in window"
        else s!"sliding-counter limit exceeded (weighted {fixed 1 weighted}/" ++
          s!"{self.maxRequests}), retry in {retryAfterMs}ms" })

variable {self}

theorem checkedStep_eq {now : UInt64} {state : State} {cost : UInt32}
    (window : self.windowSecs ≠ 0) (limit : self.maxRequests.toNat < 2 ^ 63) :
    self.checkedStep now state cost = some (self.step now state cost) := by
  have divided : Checked.div now self.windowSecs = some (now / self.windowSecs) :=
    Checked.div_of_ne window
  have rest : Checked.rem now self.windowSecs = some (now % self.windowSecs) :=
    Checked.rem_of_ne window
  have limited := Checked.toI64_of_lt limit
  simp only [checkedStep, divided, rest, Option.bind_eq_bind, Option.bind_some]
  change (self.checkedAdmission (self.elapsedFraction now) (self.weighted now state)
    (self.counts now state).2 cost.toUInt64).bind _ = _
  by_cases fits : self.weighted now state + cost.toUInt64.toNat ≤ self.maxRequests.toNat
  · have total : Checked.add (self.counts now state).2 cost.toUInt64 =
        some ((self.counts now state).2 + cost.toUInt64) := by
      apply Checked.add_of_lt
      have admitted : (self.step now state cost).2.allowed = true := by
        rw [step_allowed]
        exact decide_eq_true fits
      have bound := self.counts_add_le_of_allowed admitted
      rw [UInt32.toNat_toUInt64]
      omega
    simp only [checkedAdmission, fits, if_true, total, limited, Option.bind_eq_bind,
      Option.bind_some, Option.pure_def]
    simp only [step, fits, if_true]
    rfl
  · simp only [checkedAdmission, fits, if_false, limited, Option.bind_some, Option.pure_def]
    simp only [step, fits, if_false]
    rfl

theorem computes (json : SerdeJson State) {allowed : UInt64 → Prop}
    (window : self.windowSecs ≠ 0) (limit : self.maxRequests.toNat < 2 ^ 63) :
    self.loop.Computes json allowed self.checkedStep := by
  apply (self.confines.keepsWhen _).computes self.confines.fresh
  intro now state cost _ _
  exact checkedStep_eq window limit

end SlidingWindowCounterLimiter

namespace SlidingWindowLogLimiter

open SlidingWindowLog

def checkedNew (maxRequests windowSecs : UInt64) : Option SlidingWindowLogLimiter := do
  let product ← Checked.mul windowSecs 1000
  let windowMs ← Checked.toI64 product
  pure { maxRequests := maxRequests, windowMs := windowMs }

variable (self : SlidingWindowLogLimiter)

def checkedAdmission (now : Millis) (timestamps : List Int64) (total : UInt64)
    (cost : UInt32) : Option (List Int64 × Bool × Int64) :=
  if total ≤ self.maxRequests then
    pure (timestamps ++ List.replicate cost.toNat now.val, true, 0)
  else do
    let oldest := timestamps.head?.getD now.val
    let windowEnd ← Checked.addI64 oldest self.windowMs
    let waitMs ← Checked.subI64 windowEnd now.val
    pure (timestamps, false, max waitMs 0)

def checkedDecision (current total : UInt64) (cost : UInt32)
    (outcome : List Int64 × Bool × Int64) : Option (State × Decision) := do
  let (newTimestamps, allowed, retryAfterMs) := outcome
  let limit ← Checked.toI64 self.maxRequests
  let used ← Checked.add current (if allowed then cost.toUInt64 else 0)
  let remaining ← Checked.toI64 (saturatingSub self.maxRequests used)
  pure ({ timestampsMs := newTimestamps },
    { allowed := allowed
      limit := limit
      remaining := remaining
      retryAfterMs := retryAfterMs
      reason :=
        if allowed then s!"ok — {total}/{self.maxRequests} in window"
        else s!"sliding-log limit {current}/{self.maxRequests} exceeded, " ++
          s!"retry in {retryAfterMs}ms" })

/-- The length is cast as in the source, and the cast has to keep it. -/
def checkedStep (now : Millis) (state : State) (cost : UInt32) :
    Option (State × Decision) := do
  let cutoff ← Checked.subI64 now.val self.windowMs
  let timestamps := state.timestampsMs.filter fun t => cutoff < t
  let current ← Checked.ofLength timestamps.length
  let total ← Checked.add current cost.toUInt64
  let outcome ← self.checkedAdmission now timestamps total cost
  self.checkedDecision current total cost outcome

variable {self}

theorem checkedNew_eq (maxRequests : UInt64) {windowSecs : UInt64}
    (fits : windowSecs.toNat * 1000 < 2 ^ 63) :
    checkedNew maxRequests windowSecs = some (new maxRequests windowSecs) := by
  have product : windowSecs.toNat * (1000 : UInt64).toNat < 2 ^ 64 :=
    Nat.lt_trans fits (by decide)
  have cast : Checked.toI64 (windowSecs * 1000) = some (windowSecs * 1000).toInt64 := by
    apply Checked.toI64_of_lt
    rw [Checked.toNat_mul_of_lt product]
    exact fits
  simp only [checkedNew, Checked.mul_of_lt product, Option.bind_eq_bind, Option.bind_some,
    cast]
  rfl

theorem fits_of_checkedNew {maxRequests windowSecs : UInt64}
    {result : SlidingWindowLogLimiter}
    (exact : checkedNew maxRequests windowSecs = some result) :
    windowSecs.toNat * 1000 < 2 ^ 63 := by
  rcases Option.bind_eq_some_iff.mp exact with ⟨product, multiplied, exact⟩
  rcases Option.bind_eq_some_iff.mp exact with ⟨windowMs, cast, -⟩
  have fits := Checked.lt_of_mul (Option.isSome_of_eq_some multiplied)
  have narrow := Checked.lt_of_toI64 (Option.isSome_of_eq_some cast)
  rw [Checked.mul_of_lt fits] at multiplied
  cases multiplied
  rw [Checked.toNat_mul_of_lt fits] at narrow
  exact narrow

structure UpTo (limiter : SlidingWindowLogLimiter) (latest : Millis) (state : State) :
    Prop where
  counted : state.timestampsMs.length ≤ limiter.maxRequests.toNat
  past : ∀ t ∈ state.timestampsMs, t.toInt ≤ latest.reading

theorem keeps_upTo (latest : Millis) :
    self.loop.KeepsWhen (fun now _ _ => Millis.reading now ≤ latest.reading)
      (self.UpTo latest) := by
  intro now found cost before reading
  have counted : (found.getD (self.loop.fresh now)).timestampsMs.length ≤
      self.maxRequests.toNat := by
    cases found with
    | none => exact Nat.zero_le _
    | some state => exact (before state rfl).counted
  have past : ∀ t ∈ (found.getD (self.loop.fresh now)).timestampsMs,
      t.toInt ≤ latest.reading := by
    cases found with
    | none => exact fun t member => nomatch member
    | some state => exact (before state rfl).past
  refine ⟨self.confines.step now _ cost counted, fun t member => ?_⟩
  rw [step_state] at member
  split at member
  · rcases List.mem_append.mp member with kept | added
    · exact past t (List.mem_of_mem_filter kept)
    · rw [(List.mem_replicate.mp added).2, ← now.coe_reading]
      exact Int.ofNat_le.mpr reading
  · exact past t (List.mem_of_mem_filter member)

theorem checked_cutoff (window : 0 ≤ self.windowMs.toInt) (now : Millis) :
    Checked.subI64 now.val self.windowMs = some (self.cutoff now) := by
  have low := now.toInt_nonneg
  have high := now.val.toInt_lt
  have windowFits := self.windowMs.toInt_lt
  apply Checked.subI64_of_within <;> omega

theorem oldest_within {latest : Millis} {state : State} (upTo : self.UpTo latest state)
    (window : 0 ≤ self.windowMs.toInt) {now : Millis}
    (reading : now.reading ≤ latest.reading) :
    now.val.toInt - self.windowMs.toInt ≤
        ((self.retained now state).head?.getD now.val).toInt ∧
      ((self.retained now state).head?.getD now.val).toInt ≤ latest.reading := by
  cases head : (self.retained now state).head? with
  | none =>
      have coe := now.coe_reading
      rw [Option.getD_none]
      omega
  | some oldest =>
      have member := List.mem_of_mem_head? head
      rcases List.mem_filter.mp member with ⟨logged, live⟩
      have live := Int64.lt_iff_toInt_lt.mp (of_decide_eq_true live)
      rw [toInt_cutoff window] at live
      exact ⟨live.le, upTo.past oldest logged⟩

theorem exact_wait {latest : Millis} {state : State} (upTo : self.UpTo latest state)
    (window : 0 ≤ self.windowMs.toInt) {now : Millis}
    (reading : now.reading ≤ latest.reading)
    (span : latest.reading + self.windowMs.toInt < 2 ^ 63) :
    let oldest := (self.retained now state).head?.getD now.val
    Checked.addI64 oldest self.windowMs = some (oldest + self.windowMs) ∧
      Checked.subI64 (oldest + self.windowMs) now.val =
        some (oldest + self.windowMs - now.val) := by
  intro oldest
  have within : _ ≤ oldest.toInt ∧ oldest.toInt ≤ _ := oldest_within upTo window reading
  have low := now.toInt_nonneg
  have sum : (oldest + self.windowMs).toInt = oldest.toInt + self.windowMs.toInt := by
    apply Checked.toInt_add_of_within <;> omega
  refine ⟨Checked.addI64_of_within ?_ ?_, Checked.subI64_of_within ?_ ?_⟩ <;> omega

theorem toNat_toUInt64_lt (cost : UInt32) : cost.toUInt64.toNat < 2 ^ 32 := by
  rw [UInt32.toNat_toUInt64]
  exact cost.toNat_lt

theorem exact_sum {length : Nat} (few : length < 2 ^ 63) {units : UInt64}
    (unitsFit : units.toNat < 2 ^ 32) :
    Checked.add (UInt64.ofNat length) units = some (UInt64.ofNat length + units) ∧
      (UInt64.ofNat length + units).toNat = length + units.toNat := by
  have current : (UInt64.ofNat length).toNat = length := by
    rw [UInt64.toNat_ofNat', Nat.mod_eq_of_lt (by omega)]
  have fits : (UInt64.ofNat length).toNat + units.toNat < 2 ^ 64 := by
    rw [current]
    omega
  exact ⟨Checked.add_of_lt fits, by rw [toNat_add_of_lt fits, current]⟩

theorem checkedStep_eq_bind (window : 0 ≤ self.windowMs.toInt) {state : State}
    (few : state.timestampsMs.length < 2 ^ 63) (now : Millis) (cost : UInt32) :
    let current := UInt64.ofNat (self.retained now state).length
    let total := current + cost.toUInt64
    self.checkedStep now state cost =
      (self.checkedAdmission now (self.retained now state) total cost).bind
        (self.checkedDecision current total cost) := by
  intro current total
  have fewer : (self.retained now state).length < 2 ^ 63 :=
    (List.length_filter_le _ _).trans_lt few
  have summed := exact_sum fewer (toNat_toUInt64_lt cost)
  simp only [checkedStep, checked_cutoff window now, Option.bind_eq_bind,
    Option.bind_some]
  change (Checked.ofLength (self.retained now state).length).bind _ = _
  rw [Checked.ofLength_of_lt (fewer.trans (by decide)), Option.bind_some, summed.1,
    Option.bind_some]
  rfl

theorem total_le_iff {length : Nat} (few : length < 2 ^ 63) (cost : UInt32) :
    UInt64.ofNat length + cost.toUInt64 ≤ self.maxRequests ↔
      length + cost.toNat ≤ self.maxRequests.toNat := by
  have summed := exact_sum few (toNat_toUInt64_lt cost)
  rw [UInt64.le_iff_toNat_le, summed.2, UInt32.toNat_toUInt64]

theorem checkedStep_eq {latest : Millis} {state : State} (upTo : self.UpTo latest state)
    (window : 0 ≤ self.windowMs.toInt) (limit : self.maxRequests.toNat < 2 ^ 63)
    {now : Millis} (reading : now.reading ≤ latest.reading)
    (span : latest.reading + self.windowMs.toInt < 2 ^ 63) (cost : UInt32) :
    self.checkedStep now state cost = some (self.step now state cost) := by
  have few := upTo.counted.trans_lt limit
  have fewer : (self.retained now state).length < 2 ^ 63 :=
    (List.length_filter_le _ _).trans_lt few
  have limited := Checked.toI64_of_lt limit
  have remaining := Checked.toI64_saturatingSub limit
  rw [checkedStep_eq_bind window few]
  by_cases fits : (self.retained now state).length + cost.toNat ≤ self.maxRequests.toNat
  · rcases exact_sum fewer (toNat_toUInt64_lt cost) with ⟨used, usedValue⟩
    rw [checkedAdmission, if_pos ((total_le_iff fewer cost).mpr fits)]
    simp only [checkedDecision, limited, used, remaining, step, fits, if_true,
      Option.bind_eq_bind, Option.bind_some, Option.pure_def, toString, usedValue,
      UInt32.toNat_toUInt64]
    rw [saturatingSub_eq_ofNat, usedValue, UInt32.toNat_toUInt64]
  · rcases exact_wait upTo window reading span with ⟨windowEnd, waitMs⟩
    rcases exact_sum fewer (by decide : (0 : UInt64).toNat < 2 ^ 32) with
      ⟨used, usedValue⟩
    have current : (UInt64.ofNat (self.retained now state).length).toNat =
        (self.retained now state).length := by
      rw [UInt64.toNat_ofNat', Nat.mod_eq_of_lt (by omega)]
    rw [checkedAdmission, if_neg (mt (total_le_iff fewer cost).mp fits)]
    simp only [checkedDecision, windowEnd, waitMs, limited, used, remaining, step, fits,
      if_false, Bool.false_eq_true, Option.bind_eq_bind, Option.bind_some,
      Option.pure_def, toString, current]
    rw [saturatingSub_eq_ofNat, usedValue]
    rfl

theorem lt_of_denied (window : 0 ≤ self.windowMs.toInt) {now : Millis} {state : State}
    {cost : UInt32} {result : State × Decision}
    (exact : self.checkedStep now state cost = some result)
    (few : state.timestampsMs.length < 2 ^ 63)
    (denied : self.maxRequests.toNat < (self.retained now state).length + cost.toNat) :
    ((self.retained now state).head?.getD now.val).toInt + self.windowMs.toInt <
      2 ^ 63 := by
  have fewer : (self.retained now state).length < 2 ^ 63 :=
    (List.length_filter_le _ _).trans_lt few
  rw [checkedStep_eq_bind window few] at exact
  rcases Option.bind_eq_some_iff.mp exact with ⟨outcome, admission, -⟩
  rw [checkedAdmission, if_neg (mt (total_le_iff fewer cost).mp (Nat.not_le.mpr denied))]
    at admission
  rcases Option.bind_eq_some_iff.mp admission with ⟨windowEnd, ended, -⟩
  exact Checked.lt_of_addI64 (Option.isSome_of_eq_some ended)

theorem computes (json : SerdeJson State) {latest : Millis}
    (window : 0 ≤ self.windowMs.toInt) (limit : self.maxRequests.toNat < 2 ^ 63)
    (span : latest.reading + self.windowMs.toInt < 2 ^ 63) :
    self.loop.Computes json (fun now => Millis.reading now ≤ latest.reading)
      self.checkedStep := by
  have fresh : self.UpTo latest { timestampsMs := [] } :=
    ⟨Nat.zero_le _, fun _ member => nomatch member⟩
  apply (keeps_upTo latest).computes fun _ => fresh
  intro now state cost reading upTo
  exact checkedStep_eq upTo window limit reading span cost

theorem retained_replicate (window : 0 < self.windowMs.toInt) (latest : Millis)
    (count : Nat) :
    self.retained latest ⟨List.replicate count latest.val⟩ =
      List.replicate count latest.val := by
  have live : self.cutoff latest < latest.val := by
    rw [Int64.lt_iff_toInt_lt, toInt_cutoff window.le]
    omega
  apply List.filter_eq_self.mpr
  intro t member
  rw [(List.mem_replicate.mp member).2]
  exact decide_eq_true live

theorem step_replicate (window : 0 < self.windowMs.toInt) (latest : Millis) {count : Nat}
    (room : count + 1 ≤ self.maxRequests.toNat) :
    (self.step latest ⟨List.replicate count latest.val⟩ 1).1 =
      ⟨List.replicate (count + 1) latest.val⟩ := by
  have retained := retained_replicate window latest count
  have admitted : (self.step latest ⟨List.replicate count latest.val⟩ 1).2.allowed =
      true := by
    rw [step_allowed, retained, List.length_replicate]
    exact decide_eq_true room
  rw [step_state, admitted, if_pos rfl, retained, List.replicate_succ']
  rfl

theorem reachable_replicate (window : 0 < self.windowMs.toInt) (latest : Millis)
    {count : Nat} (room : count + 1 ≤ self.maxRequests.toNat) :
    self.loop.Reachable (fun now => Millis.reading now ≤ latest.reading)
      ⟨List.replicate (count + 1) latest.val⟩ := by
  have here : Millis.reading latest ≤ latest.reading := le_rfl
  induction count with
  | zero =>
      rw [← step_replicate window latest room]
      exact CheckLoop.Reachable.first here 1
  | succ count induction =>
      rw [← step_replicate window latest room]
      exact (induction (by omega)).next here 1

theorem fits_of_computes {json : SerdeJson State} {latest : Millis}
    (window : 0 < self.windowMs.toInt) (limit : self.maxRequests.toNat < 2 ^ 63)
    (computes : self.loop.Computes json (fun now => Millis.reading now ≤ latest.reading)
      self.checkedStep) :
    latest.reading + self.windowMs.toInt < 2 ^ 63 := by
  have exact : self.checkedStep latest
      ⟨List.replicate self.maxRequests.toNat latest.val⟩ 1 =
        some (self.step latest ⟨List.replicate self.maxRequests.toNat latest.val⟩ 1) := by
    cases full : self.maxRequests.toNat with
    | zero => exact computes latest none 1 le_rfl fun _ member => nomatch member
    | succ count =>
        refine computes latest (some ⟨List.replicate (count + 1) latest.val⟩) 1 le_rfl ?_
        rintro state ⟨⟩
        exact CheckLoop.storable_iff.mpr (reachable_replicate window latest full.ge)
  have retained := retained_replicate window latest self.maxRequests.toNat
  have wait := lt_of_denied window.le exact (by rw [List.length_replicate]; exact limit)
    (by rw [retained, List.length_replicate]; exact Nat.lt_succ_self _)
  have oldest : (List.replicate self.maxRequests.toNat latest.val).head?.getD latest.val =
      latest.val := by
    cases self.maxRequests.toNat <;> rfl
  rw [retained, oldest, ← latest.coe_reading] at wait
  exact wait

end SlidingWindowLogLimiter

/-! ## Configurations -/

/-- No operation of the window limiters divides by zero or overflows, and no cast
changes a value, at any reading up to the latest. The decision after five conflicts
casts nothing but the limit. -/
structure ArithmeticSafe (fixed : SerdeJson FixedWindow.State)
    (counter : SerdeJson SlidingWindowCounter.State) (log : SerdeJson SlidingWindowLog.State)
    (maxRequests windowSecs : UInt64) (latest : Millis) : Prop where
  fixedWindow : (FixedWindowLimiter.loop ⟨maxRequests, windowSecs⟩).Computes fixed
    (fun now => UInt64.toNat now * 1000 ≤ latest.reading)
    (FixedWindowLimiter.checkedStep ⟨maxRequests, windowSecs⟩)
  slidingWindowCounter :
    (SlidingWindowCounterLimiter.loop ⟨maxRequests, windowSecs⟩).Computes counter
      (fun now => UInt64.toNat now * 1000 ≤ latest.reading)
      (SlidingWindowCounterLimiter.checkedStep ⟨maxRequests, windowSecs⟩)
  new : SlidingWindowLogLimiter.checkedNew maxRequests windowSecs =
    some (.new maxRequests windowSecs)
  slidingWindowLog :
    (SlidingWindowLogLimiter.new maxRequests windowSecs).loop.Computes log
      (fun now => Millis.reading now ≤ latest.reading)
      (SlidingWindowLogLimiter.new maxRequests windowSecs).checkedStep

/-- The settings that the arithmetic is safe for. -/
theorem arithmeticSafe_iff (fixed : SerdeJson FixedWindow.State)
    (counter : SerdeJson SlidingWindowCounter.State) (log : SerdeJson SlidingWindowLog.State)
    (maxRequests windowSecs : UInt64) (latest : Millis) :
    ArithmeticSafe fixed counter log maxRequests windowSecs latest ↔
      0 < windowSecs.toNat ∧ maxRequests.toNat < 2 ^ 63 ∧
        latest.reading + windowSecs.toNat * 1000 < 2 ^ 63 := by
  constructor
  · rintro ⟨fixedWindow, -, new, slidingWindowLog⟩
    have start : UInt64.toNat 0 * 1000 ≤ latest.reading := by simp
    have exact := fixedWindow 0 none 0 start fun _ member => nomatch member
    rcases FixedWindowLimiter.exact_of_checkedStep exact with ⟨window, limit⟩
    have positive : 0 < windowSecs.toNat := toNat_pos_iff.mpr window
    have fits := SlidingWindowLogLimiter.fits_of_checkedNew new
    have windowMs := SlidingWindowLogLimiter.new_windowMs maxRequests fits
    have span := SlidingWindowLogLimiter.fits_of_computes
      (SlidingWindowLogLimiter.new_windowMs_pos maxRequests positive fits) limit
      slidingWindowLog
    refine ⟨positive, limit, ?_⟩
    omega
  · rintro ⟨positive, limit, span⟩
    have window := toNat_pos_iff.mp positive
    have fits : windowSecs.toNat * 1000 < 2 ^ 63 := by omega
    have windowMs := SlidingWindowLogLimiter.new_windowMs maxRequests fits
    exact {
      fixedWindow := FixedWindowLimiter.computes fixed window limit span
      slidingWindowCounter := SlidingWindowCounterLimiter.computes counter window limit
      new := SlidingWindowLogLimiter.checkedNew_eq maxRequests fits
      slidingWindowLog := SlidingWindowLogLimiter.computes log (by omega) limit
        (by omega) }

/-- A window of no seconds divides by zero, and the product of one of 2^64 / 1000 seconds
wraps to 384 ms. -/
theorem arithmetic_unsafe :
    let latest : Millis := ⟨1700000000000, by decide⟩
    ¬ArithmeticSafe Json.fixedWindow Json.slidingWindowCounter Json.slidingWindowLog 1 0
        latest ∧
      ¬ArithmeticSafe Json.fixedWindow Json.slidingWindowCounter Json.slidingWindowLog 1
        18446744073709552 latest ∧
      (SlidingWindowLogLimiter.new 1 18446744073709552).windowMs = 384 := by
  intro latest
  have divides : ∀ state,
      (FixedWindowLimiter.mk 1 0).checkedStep 1700000000 state 1 = none := fun _ => rfl
  have wraps : (SlidingWindowLogLimiter.checkedNew 1 18446744073709552).isNone = true := by
    decide +kernel
  have reading : UInt64.toNat 1700000000 * 1000 ≤ latest.reading := by decide +kernel
  refine ⟨fun safe => ?_, fun safe => ?_, by decide +kernel⟩
  · have exact := safe.fixedWindow 1700000000 none 1 reading fun _ member => nomatch member
    cases (divides _).symm.trans exact
  · rw [safe.new] at wraps
    cases wraps

end RateLimiting
