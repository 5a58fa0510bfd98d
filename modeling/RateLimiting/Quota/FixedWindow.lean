import RateLimiting.Algorithms.FixedWindow
import RateLimiting.Quota.WindowCounter

/-! # The quota of the fixed window counter

A check that read its clock in one window can commit after a check of a later
window. It then finds a state of another window, starts again from zero and puts
the old window back. -/

namespace RateLimiting

namespace FixedWindowLimiter

variable (self : FixedWindowLimiter)

/-- The stored counter; `count + cost` wraps at `2 ^ 64`. -/
@[reducible] def windows : WindowCounter self.loop where
  windowId now := (self.windowId now).toNat
  storedWindow state := state.windowId.toNat
  storedCount state := state.count.toNat
  quota := self.maxRequests.toNat
  fits now state cost := (self.count now state).toNat + cost.toNat < 2 ^ 64

theorem windows_current (now : UInt64) (state : FixedWindow.State) :
    self.windows.current now state = (self.count now state).toNat := by
  unfold WindowCounter.current count
  by_cases same : state.windowId = self.windowId now <;>
    simp [same, UInt64.toNat_inj]

theorem windows_lawful : self.windows.Lawful where
  fresh_count _ := rfl
  step_window now state cost := by
    change (self.step now state cost).1.windowId.toNat = _
    rw [step_state]
  step_count now state cost _ fits := by
    have sum : (self.count now state + cost.toUInt64).toNat =
        (self.count now state).toNat + cost.toNat :=
      toNat_add_of_lt (by simpa using fits)
    change (self.step now state cost).1.count.toNat = _
    rw [windows_current, step_state]
    cases (self.step now state cost).2.allowed <;> simp [sum]
  step_quota now state cost _ fits allowed := by
    have sum : (self.count now state + cost.toUInt64).toNat =
        (self.count now state).toNat + cost.toNat :=
      toNat_add_of_lt (by simpa using fits)
    have within : self.count now state + cost.toUInt64 ≤ self.maxRequests := by
      simpa [step_allowed] using allowed
    rw [windows_current, ← sum]
    exact UInt64.le_iff_toNat_le.mp within

end FixedWindowLimiter

open LocalTrace

/-- As long as no check on the key commits with a reading before the stored
window, and no count wraps, no window admits more than `max_requests`. -/
theorem FixedWindowLimiter.admits_at_most_quota (limiter : FixedWindowLimiter)
    (json : SerdeJson FixedWindow.State) {ι : Type} [DecidableEq ι] [Fintype ι]
    (request : ι → CheckRequest) (start : UInt64)
    (actions : List (Action (localMachine limiter.loop) ι))
    (bounded : (writes ((localSystem limiter.loop json request start).run
      actions).trace).length < 2 ^ 63)
    (key : String)
    (timely : ∀ commit ∈ (history json request ((localSystem limiter.loop json
      request start).run actions).trace).on key, limiter.windows.Timely commit)
    (window : Nat) :
    admittedCost request ((localSystem limiter.loop json request start).run actions)
      key (limiter.windows.within window) ≤ limiter.maxRequests.toNat := by
  have invariant := systemInvariant_run start actions bounded
  exact WindowCounter.admittedCost_le_quota limiter.windows_lawful invariant
    timely window

theorem FixedWindowLimiter.admits_at_most_quota_boundary :
    let limiter : FixedWindowLimiter := ⟨1, 1⟩
    let request : Fin 3 → CheckRequest := fun _ => ⟨"alice", "/", 1⟩
    let actions : List (Action (localMachine limiter.loop) (Fin 3)) :=
      [.step 0 (), .step 0 (), .step 0 (), .evolve (1 : UInt64), .step 1 (),
        .step 2 (), .step 1 (), .step 1 (), .step 2 (), .step 2 ()]
    admittedCost request
        ((localSystem limiter.loop Json.fixedWindow request 0).run actions)
        "fixed_window/alice//" (limiter.windows.within 1) ≤
      limiter.maxRequests.toNat := by
  intro limiter request actions
  exact limiter.admits_at_most_quota Json.fixedWindow request 0 actions
    (by decide +kernel) _ (by decide +kernel) 1

/-- The second call reads its clock in window zero and the third in window one.
The third commits first; the second then starts window zero again, for which the
first has used the quota. -/
theorem FixedWindowLimiter.late_commit_restarts_window :
    let limiter : FixedWindowLimiter := ⟨1, 1⟩
    let request : Fin 3 → CheckRequest := fun _ => ⟨"alice", "/", 1⟩
    let actions : List (Action (localMachine limiter.loop) (Fin 3)) :=
      [.step 0 (), .step 0 (), .step 0 (), .step 1 (), .evolve (1 : UInt64),
        .step 2 (), .step 2 (), .step 2 (), .step 1 (), .step 1 ()]
    let config := (localSystem limiter.loop Json.fixedWindow request 0).run actions
    nonDecreasing (0 : UInt64) actions ∧ (writes config.trace).length = 3 ∧
      ¬ admittedCost request config "fixed_window/alice//"
        (limiter.windows.within 0) ≤ limiter.maxRequests.toNat := by
  decide +kernel

end RateLimiting
