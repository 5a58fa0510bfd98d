import RateLimiting.Quota.FixedWindow
import RateLimiting.Quota.SequentialRuns

/-! # The fixed window is exact

In a sequential run the stored count is what the current window has admitted. An
interval as long as a window meets at most two windows, so it can admit twice
the quota and no more. -/

namespace RateLimiting

namespace FixedWindowLimiter

variable {self : FixedWindowLimiter}

theorem windows_steady (quotaFits : self.maxRequests.toNat < 2 ^ 63) :
    self.windows.Steady where
  windowId_mono _ _ ordered := toNat_div_mono ordered _
  fresh_window _ := le_rfl
  fits_of_le now state cost counted := by
    have countWithin : (self.count now state).toNat ≤ self.maxRequests.toNat := by
      rw [← windows_current]
      exact counted
    have costFits := cost.toNat_lt
    exact decide_eq_true (by omega)

theorem step_exact {now : UInt64} {state : FixedWindow.State} (cost : UInt32)
    {total : Nat} (counted : (self.count now state).toNat = total)
    (within : total ≤ self.maxRequests.toNat)
    (quotaFits : self.maxRequests.toNat < 2 ^ 63) :
    ((self.step now state cost).2.allowed = true ↔
        total + cost.toNat ≤ self.maxRequests.toNat) ∧
      (self.step now state cost).2.remaining.toInt = (self.maxRequests.toNat : Int) -
        ((total +
          if (self.step now state cost).2.allowed then cost.toNat else 0 : Nat) :
            Int) := by
  have costFits := cost.toNat_lt
  have sum : (self.count now state + cost.toUInt64).toNat = total + cost.toNat := by
    rw [toNat_add_of_lt (by rw [UInt32.toNat_toUInt64]; omega), counted,
      UInt32.toNat_toUInt64]
  have allowed : (self.step now state cost).2.allowed = true ↔
      total + cost.toNat ≤ self.maxRequests.toNat := by
    rw [step_allowed, decide_eq_true_iff, UInt64.le_iff_toNat_le, sum]
  refine ⟨allowed, ?_⟩
  have after : (self.step now state cost).1.count.toNat =
      total + if (self.step now state cost).2.allowed then cost.toNat else 0 := by
    rw [step_state]
    split
    · exact sum
    · exact counted
  have afterWithin : (self.step now state cost).1.count.toNat ≤
      self.maxRequests.toNat := by
    rw [after]
    split
    · next isAllowed => exact allowed.mp isAllowed
    · exact within
  rw [step_remaining, toInt_toInt64_of_lt (by rw [toNat_saturatingSub]; omega),
    toNat_saturatingSub, Int.ofNat_sub afterWithin, after]

def lastSeconds (limiter : FixedWindowLimiter) (time : ℚ) (now : UInt64) : Bool :=
  time - limiter.windowSecs.toNat < now.toNat ∧ (now.toNat : ℚ) ≤ time

theorem two_windows {time : ℚ} {now : UInt64}
    (inside : self.lastSeconds time now = true) :
    self.windows.within (⌊time⌋₊ / self.windowSecs.toNat) now = true ∨
      self.windows.within (⌊time⌋₊ / self.windowSecs.toNat - 1) now = true := by
  simp only [lastSeconds, decide_eq_true_eq] at inside
  rcases inside with ⟨after, upTo⟩
  have nonneg : 0 ≤ time := le_trans (Nat.cast_nonneg _) upTo
  have upper : now.toNat ≤ ⌊time⌋₊ := Nat.le_floor upTo
  have lower : ⌊time⌋₊ < now.toNat + self.windowSecs.toNat := by
    rw [Nat.floor_lt nonneg]
    push_cast
    linarith
  have positive : 0 < self.windowSecs.toNat := by omega
  have first := Nat.div_le_div_right (c := self.windowSecs.toNat) upper
  have second := Nat.div_le_div_right (c := self.windowSecs.toNat) lower.le
  rw [Nat.add_div_right _ positive] at second
  simp only [WindowCounter.within, windowId, UInt64.toNat_div, beq_iff_eq]
  rcases Nat.eq_or_lt_of_le first with same | before
  · exact .inl same
  · exact .inr (Nat.eq_sub_of_add_eq (Nat.le_antisymm before second))

section Recounted

variable (quotaFits : self.maxRequests.toNat < 2 ^ 63) {history : History self.loop Unit}
  {calls : List (Arrival self.loop)} {decisions : List Decision}
  (recounts : history.Recounts calls decisions)
  (ordered : (calls.map fun call => UInt64.toNat call.now).Pairwise (· ≤ ·))

include quotaFits recounts ordered

theorem recounted_timely : ∀ commit ∈ history, self.windows.Timely commit :=
  WindowCounter.timely_of_sorted self.windows_lawful (windows_steady quotaFits)
    recounts.serial (recounts.readings.symm ▸ ordered)

theorem recounted_exact {k : Nat} (bound : k < calls.length) :
    let window := self.windows.within (self.windowId calls[k].now).toNat
    ∃ decision, decisions[k]? = some decision ∧
      (decision.allowed = true ↔
        admittedWithin (calls.take k) (decisions.take k) window +
          calls[k].request.cost.toNat ≤ self.maxRequests.toNat) ∧
      decision.remaining.toInt = (self.maxRequests.toNat : Int) -
        admittedWithin (calls.take (k + 1)) (decisions.take (k + 1)) window := by
  intro window
  have lawful := self.windows_lawful
  have timely := recounted_timely quotaFits recounts ordered
  have decided : k < decisions.length := recounts.decisions_length ▸ bound
  have counted := WindowCounter.counted_of_serial lawful (recounts.serial.take k)
    fun commit member => timely commit (List.mem_of_mem_take member)
  let state := (History.final (history.take k)).getD (self.loop.fresh calls[k].now)
  have total : (self.count calls[k].now state).toNat =
      admittedWithin (calls.take k) (decisions.take k) window := by
    rw [← recounts.charged_take_eq k window, ← windows_current]
    exact (counted.charged_final lawful (WindowCounter.stored_le_of_sorted lawful
      (windows_steady quotaFits) (recounts.serial.take k)
        (recounts.reading_le ordered bound))).symm
  have totalWithin : admittedWithin (calls.take k) (decisions.take k) window ≤
      self.maxRequests.toNat := by
    rw [← recounts.charged_take_eq k window]
    exact counted.quota _
  have ownWindow : window calls[k].now = true := beq_self_eq_true _
  refine ⟨decisions[k], List.getElem?_eq_getElem decided, ?_⟩
  rw [admittedWithin_take_succ bound decided, if_pos ownWindow,
    recounts.decision_eq_step bound decided]
  exact step_exact calls[k].request.cost total totalWithin quotaFits

theorem recounted_burst (time : ℚ) :
    admittedWithin calls decisions (self.lastSeconds time) ≤
      2 * self.maxRequests.toNat := by
  have counted := WindowCounter.counted_of_serial self.windows_lawful recounts.serial
    (recounted_timely quotaFits recounts ordered)
  rw [← recounts.charged_eq]
  have first := counted.quota (⌊time⌋₊ / self.windowSecs.toNat)
  have second := counted.quota (⌊time⌋₊ / self.windowSecs.toNat - 1)
  have covered := History.charged_le_add history fun now => @two_windows self time now
  change history.charged (self.lastSeconds time) ≤ 2 * self.windows.quota
  omega

end Recounted

end FixedWindowLimiter

open FixedWindowLimiter

/-- Call `k` is allowed exactly when its cost fits in what its window has left,
and returns what then remains; no `window_secs` seconds admit more than twice
the quota. -/
theorem FixedWindowLimiter.exact_with_burst (limiter : FixedWindowLimiter)
    (quotaFits : limiter.maxRequests.toNat < 2 ^ 63)
    (json : SerdeJson FixedWindow.State) {I : Interface} (backend : LawfulStore I)
    (world : backend.machine.World) (key : String)
    (absent : backend.lookup world key = none)
    (calls : List (Arrival limiter.loop)) (oneKey : ∀ call ∈ calls, call.key = key)
    (ordered : (calls.map fun call => UInt64.toNat call.now).Pairwise (· ≤ ·)) :
    let decisions := (limiter.loop.runCalls json backend calls world).1
    (∀ k (_ : k < calls.length),
      let window := limiter.windows.within (limiter.windowId calls[k].now).toNat
      ∃ decision, decisions[k]? = some decision ∧
        (decision.allowed = true ↔
          admittedWithin (calls.take k) (decisions.take k) window +
            calls[k].request.cost.toNat ≤ limiter.maxRequests.toNat) ∧
        decision.remaining.toInt = (limiter.maxRequests.toNat : Int) -
          admittedWithin (calls.take (k + 1)) (decisions.take (k + 1)) window) ∧
    ∀ time : ℚ, admittedWithin calls decisions (limiter.lastSeconds time) ≤
      2 * limiter.maxRequests.toNat := by
  intro decisions
  rcases CheckLoop.runCalls_recounts json backend absent calls oneKey with
    ⟨history, recounts, _⟩
  exact ⟨fun k bound => recounted_exact quotaFits recounts ordered bound,
    recounted_burst quotaFits recounts ordered⟩

theorem FixedWindowLimiter.exact_with_burst_twice :
    let limiter : FixedWindowLimiter := ⟨2, 10⟩
    let calls : List (Arrival limiter.loop) :=
      [⟨(9 : UInt64), ⟨"alice", "/", 2⟩⟩, ⟨(10 : UInt64), ⟨"alice", "/", 2⟩⟩,
        ⟨(10 : UInt64), ⟨"alice", "/", 1⟩⟩]
    let decisions :=
      (limiter.loop.runCalls Json.fixedWindow LocalStore.lawful calls LocalStore.new).1
    (∀ k (bound : k < 3),
      let call := calls.get ⟨k, bound⟩
      let window := limiter.windows.within (limiter.windowId call.now).toNat
      ∃ decision, decisions[k]? = some decision ∧
        (decision.allowed = true ↔
          admittedWithin (calls.take k) (decisions.take k) window +
            call.request.cost.toNat ≤ limiter.maxRequests.toNat) ∧
        decision.remaining.toInt = (limiter.maxRequests.toNat : Int) -
          admittedWithin (calls.take (k + 1)) (decisions.take (k + 1)) window) ∧
    ∀ time : ℚ, admittedWithin calls decisions (limiter.lastSeconds time) ≤
      2 * limiter.maxRequests.toNat := by
  intro limiter calls
  exact limiter.exact_with_burst (by decide) Json.fixedWindow LocalStore.lawful
    LocalStore.new "fixed_window/alice//" rfl calls (by decide +kernel)
    (by decide +kernel)

end RateLimiting
