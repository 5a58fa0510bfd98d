import RateLimiting.Quota.SequentialRuns
import RateLimiting.Quota.SlidingWindowLog
import RateLimiting.Store.Json

/-! # The sliding window log is exact

In a sequential run the pruned log holds all that was admitted in the window of
the next call. The number of calls that remain is computed as an unsigned
integer and cast to a signed one. -/

namespace RateLimiting

namespace SlidingWindowLogLimiter

open SlidingWindowLog

variable {self : SlidingWindowLogLimiter} {ι : Type}

theorem retainsFor_of_sorted (windowNonneg : 0 ≤ self.windowMs.toInt)
    {history : History self.loop ι}
    (sorted : (history.map fun commit => self.loop.reading commit.now).Pairwise
      (· ≤ ·)) :
    history.Pairwise self.RetainsFor := by
  rw [List.pairwise_map] at sorted
  apply sorted.imp
  intro earlier later ordered state _ t _ live
  exact Int64.lt_of_le_of_lt (cutoff_mono windowNonneg ordered) live

theorem charged_within_eq (windowNonneg : 0 ≤ self.windowMs.toInt)
    {history : History self.loop ι} (serial : history.Serial) {now : Millis}
    (past : ∀ commit ∈ history, Millis.reading commit.now ≤ Millis.reading now) :
    history.charged (self.within now.val.toInt) =
      (self.retained now (history.final.getD (self.loop.fresh now))).length := by
  rw [retained_final, ← charged_since serial (self.cutoff now)]
  · apply History.charged_congr
    intro commit member
    have before := past commit member
    rw [within, decide_eq_decide, Int64.lt_iff_toInt_lt, toInt_cutoff windowNonneg,
      ← Millis.coe_reading commit.now, ← now.coe_reading]
    omega
  · intro commit member state _ t _ live
    exact Int64.lt_of_le_of_lt (cutoff_mono windowNonneg (past commit member)) live

theorem step_remaining_iff {now : Millis} {state : State} (cost : UInt32)
    (within : (self.retained now state).length ≤ self.maxRequests.toNat) :
    let used := (self.retained now state).length +
      if (self.retained now state).length + cost.toNat ≤ self.maxRequests.toNat
      then cost.toNat else 0
    (self.step now state cost).2.remaining.toInt =
        (self.maxRequests.toNat : Int) - used ↔
      self.maxRequests.toNat - used < 2 ^ 63 := by
  intro used
  have usedWithin : used ≤ self.maxRequests.toNat := by
    simp only [used]
    split <;> omega
  have size := self.maxRequests.toNat_lt
  have value : (UInt64.ofNat (self.maxRequests.toNat - used)).toNat =
      self.maxRequests.toNat - used := by
    rw [UInt64.toNat_ofNat']
    exact Nat.mod_eq_of_lt (by omega)
  have left : (self.step now state cost).2.remaining =
      (UInt64.ofNat (self.maxRequests.toNat - used)).toInt64 := by
    rw [step_remaining, step_allowed]
    simp only [used, decide_eq_true_eq]
  have kept := @toInt_toInt64_iff (UInt64.ofNat (self.maxRequests.toNat - used))
  rw [value, Int.ofNat_sub usedWithin] at kept
  rw [left]
  exact kept

end SlidingWindowLogLimiter

open SlidingWindowLogLimiter

/-- Call `k` is allowed exactly when its cost and what was admitted in its window
fit in the quota, and returns what then remains, as long as that is below
`2 ^ 63`. -/
theorem SlidingWindowLogLimiter.exact_iff (maxRequests windowSecs : UInt64)
    (windowFits : windowSecs.toNat * 1000 < 2 ^ 63)
    (json : SerdeJson SlidingWindowLog.State) {I : Interface}
    (backend : LawfulStore I) (world : backend.machine.World) (key : String)
    (absent : backend.lookup world key = none)
    (calls : List (Arrival (new maxRequests windowSecs).loop))
    (oneKey : ∀ call ∈ calls, call.key = key)
    (ordered : (calls.map fun call => Millis.reading call.now).Pairwise (· ≤ ·))
    (k : Nat) (bound : k < calls.length) :
    let limiter := new maxRequests windowSecs
    let decisions := (limiter.loop.runCalls json backend calls world).1
    let cost := calls[k].request.cost.toNat
    let total := admittedWithin (calls.take k) (decisions.take k)
      (limiter.within (Subtype.val calls[k].now).toInt)
    let used := total + if total + cost ≤ maxRequests.toNat then cost else 0
    (∃ decision, decisions[k]? = some decision ∧
        (decision.allowed = true ↔ total + cost ≤ maxRequests.toNat) ∧
        decision.remaining.toInt = (maxRequests.toNat : Int) - used) ↔
      maxRequests.toNat - used < 2 ^ 63 := by
  intro limiter decisions cost total used
  have windowNonneg : 0 ≤ limiter.windowMs.toInt := by
    rw [new_windowMs maxRequests windowFits]
    omega
  rcases CheckLoop.runCalls_recounts json backend absent calls oneKey with
    ⟨history, recounts, _⟩
  have past := recounts.reading_le ordered bound
  have serial := recounts.serial.take k
  have sorted := (recounts.take k).readings.symm ▸
    (ordered.sublist ((List.take_sublist k calls).map _))
  let state := (History.final (history.take k)).getD (limiter.loop.fresh calls[k].now)
  have isTotal : (limiter.retained calls[k].now state).length = total := by
    rw [← charged_within_eq windowNonneg serial past]
    exact recounts.charged_take_eq k _
  have totalWithin : total ≤ maxRequests.toNat := by
    rw [← isTotal, ← charged_within_eq windowNonneg serial past]
    exact charged_within_le windowNonneg serial
      (retainsFor_of_sorted windowNonneg sorted) _
  have decided : k < decisions.length := recounts.decisions_length ▸ bound
  have isDecision : decisions[k]? = some (limiter.step calls[k].now state
      calls[k].request.cost).2 := by
    rw [List.getElem?_eq_getElem decided, recounts.decision_eq_step bound decided]
  have allowed : (limiter.step calls[k].now state calls[k].request.cost).2.allowed =
      true ↔ total + cost ≤ maxRequests.toNat := by
    rw [step_allowed, isTotal]
    exact decide_eq_true_iff
  have remaining := step_remaining_iff calls[k].request.cost (isTotal ▸ totalWithin)
  rw [isTotal] at remaining
  simp only [isDecision, Option.some.injEq, exists_eq_left', allowed, true_and]
  exact remaining

theorem SlidingWindowLogLimiter.exact_iff_expired :
    let limiter := new 2 1
    let calls : List (Arrival limiter.loop) :=
      [⟨(⟨0, by decide⟩ : Millis), ⟨"alice", "/", 1⟩⟩,
        ⟨(⟨500, by decide⟩ : Millis), ⟨"alice", "/", 1⟩⟩,
        ⟨(⟨1000, by decide⟩ : Millis), ⟨"alice", "/", 1⟩⟩]
    let decisions := (limiter.loop.runCalls Json.slidingWindowLog LocalStore.lawful
      calls LocalStore.new).1
    let total := admittedWithin (calls.take 2) (decisions.take 2) (limiter.within 1000)
    let used := total + if total + 1 ≤ 2 then 1 else 0
    (∃ decision, decisions[2]? = some decision ∧
        (decision.allowed = true ↔ total + 1 ≤ 2) ∧
        decision.remaining.toInt = 2 - (used : Int)) ↔ 2 - used < 2 ^ 63 := by
  intro limiter calls
  exact SlidingWindowLogLimiter.exact_iff 2 1 (by decide) Json.slidingWindowLog
    LocalStore.lawful LocalStore.new "sliding_window_log/alice//" rfl calls
    (by decide +kernel) (by decide +kernel) 2 (by decide)

/-- A quota that the signed result cannot hold. -/
theorem SlidingWindowLogLimiter.remaining_wraps :
    let limiter := new 9223372036854775809 1
    let calls : List (Arrival limiter.loop) :=
      [⟨(⟨0, by decide⟩ : Millis), ⟨"alice", "/", 1⟩⟩]
    let decisions := (limiter.loop.runCalls Json.slidingWindowLog LocalStore.lawful
      calls LocalStore.new).1
    decisions.map Decision.allowed = [true] ∧
      decisions.map (fun decision => decision.remaining.toInt) = [-2 ^ 63] ∧
      ¬ ∃ decision, decisions[0]? = some decision ∧
        decision.remaining.toInt = (limiter.maxRequests.toNat : Int) - 1 := by
  intro limiter calls decisions
  have remaining : decisions.map (fun decision => decision.remaining.toInt) =
      [-2 ^ 63] := by
    decide +kernel
  refine ⟨by decide +kernel, remaining, ?_⟩
  rintro ⟨decision, first, kept⟩
  have same : (decisions.map fun decision => decision.remaining.toInt)[0]? =
      some decision.remaining.toInt := by
    rw [List.getElem?_map, first, Option.map_some]
  rw [remaining, kept] at same
  revert same
  decide

end RateLimiting
