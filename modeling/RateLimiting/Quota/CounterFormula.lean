import RateLimiting.Quota.ExactCounter

/-! # The weighted formula at the time of arrival

The formula weighs the previous window by how much of the current one is still
to come. A call arrives at some time; the limiter knows the second of it. -/

namespace RateLimiting

open SlidingWindowCounterLimiter

/-- A call and the time of its arrival in milliseconds. The clock shows the
second in which it arrives. -/
structure TimedCall (limiter : SlidingWindowCounterLimiter) (K : Type) [Field K]
    [LinearOrder K] where
  time : K
  arrival : Arrival limiter.loop
  started : (UInt64.toNat arrival.now : K) * 1000 ≤ time
  notOver : time < ((UInt64.toNat arrival.now : K) + 1) * 1000

namespace TimedCall

variable {limiter : SlidingWindowCounterLimiter} {K : Type} [Field K] [LinearOrder K]

def elapsedMs (call : TimedCall limiter K) : K :=
  call.time - ((limiter.windowId call.arrival.now).toNat * limiter.windowSecs.toNat *
    1000 : Nat)

def sinceSecond (call : TimedCall limiter K) : K :=
  call.time - (UInt64.toNat call.arrival.now : K) * 1000

def elapsedSecs (call : TimedCall limiter K) : Nat :=
  UInt64.toNat call.arrival.now % limiter.windowSecs.toNat

/-- The documented weight of what was admitted in the two windows. -/
def weighted (call : TimedCall limiter K) (admitted : (UInt64 → Bool) → Nat) : K :=
  let window := (limiter.windowId call.arrival.now).toNat
  admitted (limiter.previous window) *
      (1 - call.elapsedMs / (limiter.windowSecs.toNat * 1000)) +
    admitted (limiter.windows.within window)

def weightedAtSecond (call : TimedCall limiter K) (admitted : (UInt64 → Bool) → Nat) : K :=
  let window := (limiter.windowId call.arrival.now).toNat
  admitted (limiter.previous window) *
      (1 - call.elapsedSecs / limiter.windowSecs.toNat) +
    admitted (limiter.windows.within window)

def lost (call : TimedCall limiter K) (admitted : (UInt64 → Bool) → Nat) : K :=
  let window := (limiter.windowId call.arrival.now).toNat
  admitted (limiter.previous window) *
    (call.sinceSecond / (limiter.windowSecs.toNat * 1000))

theorem elapsedMs_eq (call : TimedCall limiter K) :
    call.elapsedMs = (call.elapsedSecs : K) * 1000 + call.sinceSecond := by
  have parts := Nat.div_add_mod (UInt64.toNat call.arrival.now) limiter.windowSecs.toNat
  have whole : (limiter.windowSecs.toNat : K) * (limiter.windowId call.arrival.now).toNat +
      call.elapsedSecs = UInt64.toNat call.arrival.now := by
    rw [windowId, UInt64.toNat_div, elapsedSecs, ← Nat.cast_mul, ← Nat.cast_add, parts]
  rw [elapsedMs, sinceSecond, ← whole]
  push_cast
  ring

theorem sinceSecond_nonneg [IsStrictOrderedRing K] (call : TimedCall limiter K) :
    0 ≤ call.sinceSecond :=
  sub_nonneg.mpr call.started

theorem reading_le [IsStrictOrderedRing K] {first second : TimedCall limiter K}
    (ordered : first.time ≤ second.time) :
    UInt64.toNat first.arrival.now ≤ UInt64.toNat second.arrival.now := by
  have inside := first.started.trans_lt (ordered.trans_lt second.notOver)
  have scaled : UInt64.toNat first.arrival.now * 1000 <
      (UInt64.toNat second.arrival.now + 1) * 1000 := by
    exact_mod_cast inside
  omega

variable [IsStrictOrderedRing K]

theorem weighted_eq (positive : 0 < limiter.windowSecs.toNat)
    (call : TimedCall limiter K) (admitted : (UInt64 → Bool) → Nat) :
    call.weighted admitted = call.weightedAtSecond admitted - call.lost admitted := by
  have windowPositive : (0 : K) < limiter.windowSecs.toNat := Nat.cast_pos.mpr positive
  rw [weighted, weightedAtSecond, lost, call.elapsedMs_eq]
  field_simp
  ring

theorem lost_nonneg (call : TimedCall limiter K) (admitted : (UInt64 → Bool) → Nat) :
    0 ≤ call.lost admitted := by
  have since := call.sinceSecond_nonneg
  unfold lost
  positivity

end TimedCall

section Formula

variable {K : Type} [Field K] [LinearOrder K] [IsStrictOrderedRing K]

theorem weighted_le_iff {window elapsed : Nat} (positive : 0 < window)
    (inside : elapsed ≤ window) (prev curr cost quota : Nat) :
    (prev : K) * (1 - elapsed / window) + curr + cost ≤ quota ↔
      prev * (window - elapsed) + (curr + cost) * window ≤ quota * window := by
  have windowPositive : (0 : K) < window := Nat.cast_pos.mpr positive
  have cleared : ((prev : K) * (1 - elapsed / window) + curr + cost) * window =
      ((prev * (window - elapsed) + (curr + cost) * window : Nat) : K) := by
    push_cast [inside]
    field_simp
    ring
  rw [← mul_le_mul_iff_left₀ windowPositive, cleared]
  exact_mod_cast Iff.rfl

theorem same_test_iff {load allowance quota : K} (nonneg : 0 ≤ allowance) :
    (load ≤ quota ↔ load - allowance ≤ quota) ↔
      load - quota ≤ 0 ∨ allowance < load - quota := by
  constructor
  · intro same
    rcases le_or_gt load quota with within | beyond
    · exact .inl (sub_nonpos.mpr within)
    · have denied := mt same.mpr (not_le.mpr beyond)
      exact .inr (by linarith)
  · rintro (within | beyond)
    · exact iff_of_true (by linarith) (by linarith)
    · exact iff_of_false (by linarith) (by linarith)

theorem recounted_allowed_iff {limiter : SlidingWindowCounterLimiter}
    (positive : 0 < limiter.windowSecs.toNat) {history : History limiter.loop Unit}
    {calls : List (Arrival limiter.loop)} {decisions : List Decision}
    (recounts : history.Recounts calls decisions)
    (ordered : (calls.map fun call => UInt64.toNat call.now).Pairwise (· ≤ ·))
    {k : Nat} (bound : k < calls.length) (decided : k < decisions.length) :
    let window := (limiter.windowId calls[k].now).toNat
    let admitted := admittedWithin (calls.take k) (decisions.take k)
    decisions[k].allowed = true ↔
      (admitted (limiter.previous window) : K) *
          (1 - (UInt64.toNat calls[k].now % limiter.windowSecs.toNat : Nat) /
            limiter.windowSecs.toNat) + admitted (limiter.windows.within window) +
        calls[k].request.cost.toNat ≤ limiter.maxRequests.toNat := by
  intro window admitted
  have sorted := (recounts.take k).readings.symm ▸
    (ordered.sublist ((List.take_sublist k calls).map _))
  rcases counts_final (recounts.serial.take k) sorted (recounts.reading_le ordered bound)
    with ⟨prevSeen, currSeen⟩
  rw [recounts.charged_take_eq] at prevSeen currSeen
  have inside := (Nat.mod_lt (UInt64.toNat calls[k].now) positive).le
  rw [weighted_le_iff positive inside, ← weighted_le_iff (K := ℚ) positive inside,
    recounts.decision_eq_step bound decided, step_allowed, decide_eq_true_iff, weighted_eq,
    prevSeen, currSeen, elapsedFraction, UInt64.toNat_mod, UInt32.toNat_toUInt64]

/-- A call of a sequential run is decided by the formula at the time of its
arrival exactly when the part of the previous counter that the rest of its
second would take off does not matter: the call fits at the whole second, or
exceeds the quota there by more than that. -/
theorem SlidingWindowCounterLimiter.follows_formula_iff
    (limiter : SlidingWindowCounterLimiter) (positive : 0 < limiter.windowSecs.toNat)
    (json : SerdeJson SlidingWindowCounter.State) {I : Interface}
    (backend : LawfulStore I) (world : backend.machine.World) (key : String)
    (absent : backend.lookup world key = none) (calls : List (TimedCall limiter K))
    (oneKey : ∀ call ∈ calls, call.arrival.key = key)
    (ordered : (calls.map TimedCall.time).Pairwise (· ≤ ·))
    (k : Nat) (bound : k < calls.length) :
    let arrivals := calls.map TimedCall.arrival
    let decisions := (limiter.loop.runCalls json backend arrivals world).1
    let call := calls[k]
    let admitted := admittedWithin (arrivals.take k) (decisions.take k)
    let excess := call.weightedAtSecond admitted + call.arrival.request.cost.toNat -
      limiter.maxRequests.toNat
    (∃ decision, decisions[k]? = some decision ∧
      (decision.allowed = true ↔
        call.weighted admitted + call.arrival.request.cost.toNat ≤
          limiter.maxRequests.toNat)) ↔
      excess ≤ 0 ∨ call.lost admitted < excess := by
  intro arrivals decisions call admitted excess
  rcases CheckLoop.runCalls_recounts json backend absent arrivals (by simpa [arrivals]
    using oneKey) with ⟨history, recounts, _⟩
  have readings : (arrivals.map fun call => UInt64.toNat call.now).Pairwise (· ≤ ·) := by
    rw [List.map_map, List.pairwise_map]
    exact (List.pairwise_map.mp ordered).imp TimedCall.reading_le
  have arrived : k < arrivals.length := by simpa [arrivals] using bound
  have decided : k < decisions.length := recounts.decisions_length ▸ arrived
  have isCall : arrivals[k] = call.arrival := by simp [arrivals, call]
  have allowed := recounted_allowed_iff (K := K) positive recounts readings arrived decided
  rw [isCall] at allowed
  simp only [List.getElem?_eq_getElem decided, Option.some.injEq, exists_eq_left']
  rw [call.weighted_eq positive, sub_add_eq_add_sub]
  exact (iff_congr allowed Iff.rfl).trans (same_test_iff (call.lost_nonneg admitted))

end Formula

/-- One of a quota of two a second is spent at the start of a second. Half of it still
weighs in the middle of the next one, which is too much for a cost of two. -/
theorem SlidingWindowCounterLimiter.follows_formula_iff_denied :
    let calls : List (TimedCall ⟨2, 1⟩ ℚ) :=
      [⟨0, ⟨(0 : UInt64), ⟨"alice", "/", 1⟩⟩, by decide +kernel, by decide +kernel⟩,
        ⟨1500, ⟨(1 : UInt64), ⟨"alice", "/", 2⟩⟩, by decide +kernel, by decide +kernel⟩]
    let arrivals := calls.map TimedCall.arrival
    let decisions := (CheckLoop.runCalls _ Json.slidingWindowCounter LocalStore.lawful
      arrivals LocalStore.new).1
    let call := calls[1]
    let admitted := admittedWithin (arrivals.take 1) (decisions.take 1)
    decisions.map Decision.allowed = [true, false] ∧
      ∃ decision, decisions[1]? = some decision ∧
        (decision.allowed = true ↔
          call.weighted admitted + call.arrival.request.cost.toNat ≤ 2) := by
  intro calls arrivals decisions call admitted
  have follows := SlidingWindowCounterLimiter.follows_formula_iff ⟨2, 1⟩ (by decide)
    Json.slidingWindowCounter LocalStore.lawful LocalStore.new
    "sliding_window_counter/alice//" rfl calls (by decide +kernel) (by decide +kernel) 1
    (by decide)
  exact ⟨by decide +kernel, follows.mpr (.inr (by decide +kernel))⟩

/-- A quota of two a second is spent at the start of one second, and one more is
asked for in the middle of the next. -/
def halfSecond : List (TimedCall ⟨2, 1⟩ ℚ) :=
  [⟨0, ⟨(0 : UInt64), ⟨"alice", "/", 2⟩⟩, by decide +kernel, by decide +kernel⟩,
    ⟨1500, ⟨(1 : UInt64), ⟨"alice", "/", 1⟩⟩, by decide +kernel, by decide +kernel⟩]

/-- Half of the quota spent in the second before is over, so the formula allows a
cost of one. At the whole second all of it still weighs. -/
theorem SlidingWindowCounterLimiter.half_second_denied :
    let arrivals := halfSecond.map TimedCall.arrival
    let decisions := (CheckLoop.runCalls _ Json.slidingWindowCounter LocalStore.lawful
      arrivals LocalStore.new).1
    let call := halfSecond[1]
    let admitted := admittedWithin (arrivals.take 1) (decisions.take 1)
    decisions.map Decision.allowed = [true, false] ∧
      call.weighted admitted + call.arrival.request.cost.toNat ≤ 2 ∧
      ¬ ∃ decision, decisions[1]? = some decision ∧
        (decision.allowed = true ↔
          call.weighted admitted + call.arrival.request.cost.toNat ≤ 2) := by
  intro arrivals decisions call admitted
  have allowed : decisions.map Decision.allowed = [true, false] := by decide +kernel
  have fits : call.weighted admitted + call.arrival.request.cost.toNat ≤ 2 := by
    decide +kernel
  refine ⟨allowed, fits, ?_⟩
  rintro ⟨decision, second, follows⟩
  have denied : (decisions.map Decision.allowed)[1]? = some decision.allowed := by
    rw [List.getElem?_map, second, Option.map_some]
  rw [allowed, follows.mpr fits] at denied
  exact absurd denied (by decide)

end RateLimiting
