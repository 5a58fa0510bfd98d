import Mathlib.Tactic.SplitIfs
import RateLimiting.Quota.Replicas

/-! # What late checks cost

A check that commits with a reading of an earlier window puts the stored window back.
The limiters that count per window then count an old window again, but no further
than the quota: each such setback lets at most one more quota through. -/

namespace RateLimiting

namespace WindowCounter

variable {loop : CheckLoop} (counter : WindowCounter loop)

/-- The steps of a limiter from any stored window: a charge is counted in the window of
its check, on top of what the state counts there, and never above the quota. -/
structure Renews : Prop where
  step_window : ∀ now state cost,
    counter.storedWindow (loop.step now state cost).1 = counter.windowId now
  step_count : ∀ now state cost, counter.storedCount state ≤ counter.quota →
    counter.current now state +
        (if (loop.step now state cost).2.allowed then cost.toNat else 0) ≤
      counter.storedCount (loop.step now state cost).1
  step_quota : ∀ now state cost, counter.storedCount state ≤ counter.quota →
    counter.storedCount (loop.step now state cost).1 ≤ counter.quota
  fresh_count : ∀ now, counter.storedCount (loop.fresh now) = 0

variable {ι : Type}

/-- A check that puts the stored window back. -/
def SetsBack (commit : Commit loop ι) : Prop :=
  counter.windowId commit.now <
    counter.storedWindow (commit.before.getD (loop.fresh commit.now))

instance (commit : Commit loop ι) : Decidable (counter.SetsBack commit) :=
  inferInstanceAs (Decidable (_ < _))

def setbacks (history : History loop ι) : Nat :=
  history.countP fun commit => counter.SetsBack commit

/-- What a window may have been charged since the last setback. -/
def slack (state : loop.State) (window : Nat) : Nat :=
  if counter.storedWindow state < window then 0
  else if counter.storedWindow state = window then counter.storedCount state
  else counter.quota

structure Bounded (history : History loop ι) : Prop where
  started : history.final = none → history = []
  count : ∀ state, history.final = some state → counter.storedCount state ≤ counter.quota
  charged : ∀ state, history.final = some state → ∀ window,
    history.charged (counter.within window) ≤
      counter.quota * counter.setbacks history + counter.slack state window

variable {counter}

theorem slack_le {state : loop.State} (count : counter.storedCount state ≤ counter.quota)
    (window : Nat) : counter.slack state window ≤ counter.quota := by
  unfold slack
  split
  · exact Nat.zero_le _
  · split
    · exact count
    · exact le_refl _

theorem Bounded.before_count (renews : counter.Renews) {history : History loop ι}
    (bounded : counter.Bounded history) (now : loop.Time) :
    counter.storedCount (history.final.getD (loop.fresh now)) ≤ counter.quota := by
  cases final : history.final with
  | none =>
      rw [Option.getD_none, renews.fresh_count]
      exact Nat.zero_le _
  | some state => exact bounded.count state final

theorem Bounded.before_charged {history : History loop ι}
    (bounded : counter.Bounded history) (now : loop.Time) (window : Nat) :
    history.charged (counter.within window) ≤ counter.quota * counter.setbacks history +
      counter.slack (history.final.getD (loop.fresh now)) window := by
  cases final : history.final with
  | none =>
      rw [bounded.started final, History.charged_nil]
      exact Nat.zero_le _
  | some state => exact bounded.charged state final window

/-- What one check adds to a window is covered by what it changes in the state, or by
the quota that its setback gives away. -/
theorem charge_add_slack_le (renews : counter.Renews) (now : loop.Time)
    {state : loop.State} (cost : UInt32)
    (count : counter.storedCount state ≤ counter.quota) (window : Nat) :
    counter.slack state window +
        (if counter.within window now then
          if (loop.step now state cost).2.allowed then cost.toNat else 0 else 0) ≤
      counter.slack (loop.step now state cost).1 window +
        if counter.windowId now < counter.storedWindow state then counter.quota else 0 := by
  have counted := renews.step_count now state cost count
  have before := slack_le count window
  unfold current at counted
  unfold slack within at *
  rw [renews.step_window]
  generalize (if (loop.step now state cost).2.allowed then cost.toNat else 0) = charge
    at counted ⊢
  simp only [beq_iff_eq]
  split_ifs at counted ⊢ <;> omega

theorem setbacks_snoc (history : History loop ι) (commit : Commit loop ι) :
    counter.setbacks (history ++ [commit]) =
      counter.setbacks history + if counter.SetsBack commit then 1 else 0 := by
  rw [setbacks, setbacks, List.countP_append, List.countP_singleton]
  simp only [decide_eq_true_eq]

theorem Bounded.snoc (renews : counter.Renews) {history : History loop ι}
    (bounded : counter.Bounded history) {commit : Commit loop ι}
    (read : commit.before = history.final) (wrote : commit.after = commit.outcome.1) :
    counter.Bounded (history ++ [commit]) := by
  have count := bounded.before_count renews commit.now
  have charged := bounded.before_charged commit.now
  rw [← read] at count charged
  constructor
  · intro final
    simp at final
  · intro state final
    have isAfter : commit.after = state := by simpa using final
    rw [← isAfter, wrote]
    exact renews.step_quota _ _ _ count
  · intro state final window
    have isAfter : commit.after = state := by simpa using final
    have covered := charge_add_slack_le renews commit.now commit.cost count window
    have quota : counter.quota * (if counter.SetsBack commit then 1 else 0) =
        if counter.SetsBack commit then counter.quota else 0 := by
      rw [mul_ite, mul_one, mul_zero]
    rw [← isAfter, wrote, History.charged_snoc, setbacks_snoc, mul_add, quota]
    calc history.charged (counter.within window) +
            (if counter.within window commit.now then commit.charge else 0)
        ≤ counter.quota * counter.setbacks history +
            (counter.slack (commit.before.getD (loop.fresh commit.now)) window +
              if counter.within window commit.now then commit.charge else 0) := by
          rw [← add_assoc]
          exact Nat.add_le_add_right (charged window) _
      _ ≤ counter.quota * counter.setbacks history +
            (counter.slack commit.outcome.1 window +
              if counter.SetsBack commit then counter.quota else 0) :=
          Nat.add_le_add_left covered _
      _ = _ := by
          rw [add_assoc]
          exact congrArg _ (add_comm _ _)

theorem bounded_of_serial (renews : counter.Renews) {history : History loop ι}
    (serial : history.Serial) : counter.Bounded history := by
  induction serial with
  | nil => exact ⟨fun _ => rfl, by simp, by simp⟩
  | snoc _ read wrote induction => exact induction.snoc renews read wrote

/-- However late its checks are, a window is charged at most one quota more than there
are setbacks. -/
theorem charged_le_of_setbacks (renews : counter.Renews) {history : History loop ι}
    (serial : history.Serial) (window : Nat) :
    history.charged (counter.within window) ≤
      counter.quota * (counter.setbacks history + 1) := by
  have bounded := bounded_of_serial renews serial
  rw [mul_add, mul_one]
  cases final : history.final with
  | none =>
      rw [bounded.started final, History.charged_nil]
      exact Nat.zero_le _
  | some state =>
      apply (bounded.charged state final window).trans
      exact Nat.add_le_add_left (slack_le (bounded.count state final) window) _

end WindowCounter

/-! ## The two limiters -/

namespace FixedWindowLimiter

variable {self : FixedWindowLimiter}

theorem count_le (now : UInt64) {state : FixedWindow.State}
    (count : state.count.toNat ≤ self.maxRequests.toNat) :
    (self.count now state).toNat ≤ self.maxRequests.toNat := by
  unfold FixedWindowLimiter.count
  split
  · exact count
  · exact Nat.zero_le _

theorem step_count_toNat (room : self.maxRequests.toNat + 2 ^ 32 ≤ 2 ^ 64) (now : UInt64)
    {state : FixedWindow.State} (count : state.count.toNat ≤ self.maxRequests.toNat)
    (cost : UInt32) :
    (self.step now state cost).1.count.toNat = (self.count now state).toNat +
      if (self.step now state cost).2.allowed then cost.toNat else 0 := by
  have within := count_le now count
  have bound := cost.toNat_lt
  have sum : (self.count now state + cost.toUInt64).toNat =
      (self.count now state).toNat + cost.toNat :=
    toNat_add_of_lt (by rw [UInt32.toNat_toUInt64]; omega)
  rw [step_state]
  cases (self.step now state cost).2.allowed <;> simp [sum]

theorem windows_renew (room : self.maxRequests.toNat + 2 ^ 32 ≤ 2 ^ 64) :
    self.windows.Renews where
  step_window := self.windows_lawful.step_window
  fresh_count := self.windows_lawful.fresh_count
  step_count now state cost count := by
    rw [windows_current]
    exact (step_count_toNat room now count cost).ge
  step_quota now state cost count := by
    have counted := step_count_toNat room now count cost
    have within := count_le now count
    change (self.step now state cost).1.count.toNat ≤ _
    cases allowed : (self.step now state cost).2.allowed with
    | true =>
        rw [step_state, allowed, if_pos rfl, ← UInt64.le_iff_toNat_le]
        simpa [step_allowed] using allowed
    | false =>
        rw [counted, allowed]
        exact within

end FixedWindowLimiter

namespace SlidingWindowCounterLimiter

variable (self : SlidingWindowCounterLimiter)

theorem current_le_counts (now : UInt64) (state : SlidingWindowCounter.State) :
    self.windows.current now state ≤ (self.counts now state).2.toNat := by
  unfold WindowCounter.current
  split
  · next same =>
      have counted : (self.counts now state).2.toNat = self.windows.current now state :=
        self.counts_snd same.le
      rw [WindowCounter.current, if_pos same] at counted
      exact counted.ge
  · exact Nat.zero_le _

theorem counts_le {now : UInt64} {state : SlidingWindowCounter.State}
    (count : state.currCount.toNat ≤ self.maxRequests.toNat) :
    (self.counts now state).2.toNat ≤ self.maxRequests.toNat := by
  simp only [SlidingWindowCounterLimiter.counts]
  split
  · exact count
  · split <;> exact Nat.zero_le _

theorem windows_renew : self.windows.Renews where
  step_window := self.windows_lawful.step_window
  fresh_count := self.windows_lawful.fresh_count
  step_count now state cost _ := by
    change _ ≤ (self.step now state cost).1.currCount.toNat
    rw [step_currCount]
    exact Nat.add_le_add_right (self.current_le_counts now state) _
  step_quota now state cost count := by
    change (self.step now state cost).1.currCount.toNat ≤ _
    rw [step_currCount]
    cases allowed : (self.step now state cost).2.allowed with
    | true => exact self.counts_add_le_of_allowed allowed
    | false => exact self.counts_le count

end SlidingWindowCounterLimiter

/-! ## Runs -/

open LocalTrace

/-- In every run, over the in-process store and over etcd, a window admits at most one
quota more than there are checks on the key that put the stored window back. -/
def WindowCounter.DegradesBySetbacks {loop : CheckLoop} (counter : WindowCounter loop) :
    Prop :=
  (∀ (json : SerdeJson loop.State) {ι : Type} [DecidableEq ι] [Fintype ι]
      (request : ι → CheckRequest) (start : loop.Time)
      (actions : List (Action (localMachine loop) ι)) (key : String) (window : Nat),
    let config := (localSystem loop json request start).run actions
    (writes config.trace).length < 2 ^ 63 →
      admittedCost request config key (counter.within window) ≤
        counter.quota * (counter.setbacks ((history json request config.trace).on key) + 1)) ∧
  ∀ {ι : Type} [DecidableEq ι] [Fintype ι] (run : EtcdRun loop ι) (key : String)
    (prior : run.Prior key) (window : Nat),
  prior.past.charged (counter.within window) +
      run.admittedCost key (counter.within window) ≤
    counter.quota * (counter.setbacks prior.history + 1)

theorem WindowCounter.degradesBySetbacks {loop : CheckLoop} {counter : WindowCounter loop}
    (renews : counter.Renews) : counter.DegradesBySetbacks := by
  constructor
  · intro json ι _ _ request start actions key window config bounded
    have invariant := systemInvariant_run start actions bounded
    rw [invariant.admittedCost_eq_charged]
    exact charged_le_of_setbacks renews (invariant.serial key) window
  · intro ι _ _ run key prior window
    exact (prior.admittedCost_le _).trans
      (charged_le_of_setbacks renews prior.serial_history window)

/-- Late checks and skewed clocks cost the limiters that count per window one quota for
each check that puts the stored window back, and no more. -/
theorem window_counters_degrade_by_setbacks (fixed : FixedWindowLimiter)
    (room : fixed.maxRequests.toNat + 2 ^ 32 ≤ 2 ^ 64)
    (sliding : SlidingWindowCounterLimiter) :
    fixed.windows.DegradesBySetbacks ∧ sliding.windows.DegradesBySetbacks :=
  ⟨WindowCounter.degradesBySetbacks (FixedWindowLimiter.windows_renew room),
    WindowCounter.degradesBySetbacks sliding.windows_renew⟩

theorem window_counters_degrade_by_one_setback :
    let fixed : FixedWindowLimiter := ⟨1, 1⟩
    let request : Fin 3 → CheckRequest := fun _ => ⟨"alice", "/", 1⟩
    let actions : List (Action (localMachine fixed.loop) (Fin 3)) :=
      [.step 0 (), .step 0 (), .step 0 (), .step 1 (), .evolve (1 : UInt64),
        .step 2 (), .step 2 (), .step 2 (), .step 1 (), .step 1 ()]
    let config := (localSystem fixed.loop Json.fixedWindow request 0).run actions
    let setbacks := fixed.windows.setbacks
      ((history Json.fixedWindow request config.trace).on "fixed_window/alice//")
    admittedCost request config "fixed_window/alice//" (fixed.windows.within 0) ≤
        fixed.windows.quota * (setbacks + 1) ∧
      setbacks = 1 ∧
      admittedCost request config "fixed_window/alice//" (fixed.windows.within 0) = 2 := by
  intro fixed request actions config setbacks
  exact ⟨(window_counters_degrade_by_setbacks fixed (by decide) ⟨1, 1⟩).1.1
    Json.fixedWindow request 0 actions _ 0 (by decide +kernel), by decide +kernel,
    by decide +kernel⟩

end RateLimiting
