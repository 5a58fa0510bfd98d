import RateLimiting.Algorithms.SlidingWindowCounter
import RateLimiting.Quota.WindowCounter

/-! # The quota of the sliding window counter

A check that read its clock in an earlier window counts against the current
counter and puts its own window in the state. The next check of the current
window takes that counter for the previous one. -/

namespace RateLimiting

namespace SlidingWindowCounterLimiter

variable (self : SlidingWindowCounterLimiter)

/-- The stored current counter. An admission leaves it at most `max_requests`,
so it never wraps. -/
@[reducible] def windows : WindowCounter self.loop where
  windowId now := (self.windowId now).toNat
  storedWindow state := state.currWindowId.toNat
  storedCount state := state.currCount.toNat
  quota := self.maxRequests.toNat
  fits _ _ _ := true

theorem counts_snd {now : UInt64} {state : SlidingWindowCounter.State}
    (ordered : state.currWindowId.toNat ≤ (self.windowId now).toNat) :
    (self.counts now state).2.toNat = self.windows.current now state := by
  have difference := toNat_saturatingSub (self.windowId now) state.currWindowId
  unfold counts WindowCounter.current
  by_cases same : state.currWindowId.toNat = (self.windowId now).toNat
  · have zero : saturatingSub (self.windowId now) state.currWindowId = 0 := by
      rw [← UInt64.toNat_inj, difference, same, Nat.sub_self]
      rfl
    simp [zero, same]
  · have positive : saturatingSub (self.windowId now) state.currWindowId ≠ 0 := by
      rw [Ne, ← UInt64.toNat_inj, difference, UInt64.toNat_zero]
      omega
    by_cases one : saturatingSub (self.windowId now) state.currWindowId = 1 <;>
      simp [one, positive, same]

theorem windows_lawful : self.windows.Lawful where
  fresh_count _ := rfl
  step_window now state cost := by
    change (self.step now state cost).1.currWindowId.toNat = _
    rw [step_state]
  step_count now state cost ordered _ := by
    change (self.step now state cost).1.currCount.toNat = _
    rw [step_currCount, self.counts_snd ordered]
  step_quota now state cost ordered _ allowed := by
    rw [← self.counts_snd ordered]
    exact self.counts_add_le_of_allowed allowed

end SlidingWindowCounterLimiter

open LocalTrace

/-- As long as no check on the key commits with a reading before the stored
window, no window admits more than `max_requests`. -/
theorem SlidingWindowCounterLimiter.window_admits_at_most_quota
    (limiter : SlidingWindowCounterLimiter)
    (json : SerdeJson SlidingWindowCounter.State) {ι : Type} [DecidableEq ι]
    [Fintype ι] (request : ι → CheckRequest) (start : UInt64)
    (actions : List (Action (localMachine limiter.loop) ι))
    (bounded : (writes ((localSystem limiter.loop json request start).run
      actions).trace).length < 2 ^ 63)
    (key : String)
    (timely : ∀ commit ∈ (history json request ((localSystem limiter.loop json
      request start).run actions).trace).on key, limiter.windows.Timely commit)
    (window : Nat) :
    admittedCost request ((localSystem limiter.loop json request start).run actions)
      key (limiter.windows.within window) ≤ limiter.maxRequests.toNat := by
  have invariant := systemInvariant_run start actions bounded
  exact WindowCounter.admittedCost_le_quota limiter.windows_lawful invariant
    timely window

theorem SlidingWindowCounterLimiter.window_admits_at_most_quota_boundary :
    let limiter : SlidingWindowCounterLimiter := ⟨2, 1⟩
    let request : Fin 3 → CheckRequest := fun _ => ⟨"alice", "/", 1⟩
    let actions : List (Action (localMachine limiter.loop) (Fin 3)) :=
      [.step 0 (), .step 0 (), .step 1 (), .step 1 (), .step 0 (), .step 1 (),
        .step 1 (), .step 1 (), .step 1 (), .evolve (2 : UInt64), .step 2 (),
        .step 2 (), .step 2 ()]
    admittedCost request
        ((localSystem limiter.loop Json.slidingWindowCounter request 0).run actions)
        "sliding_window_counter/alice//" (limiter.windows.within 0) ≤
      limiter.maxRequests.toNat := by
  intro limiter request actions
  exact limiter.window_admits_at_most_quota Json.slidingWindowCounter request 0 actions
    (by decide +kernel) _ (by decide +kernel) 0

/-- The first call reads its clock in window zero and the others in window one.
The second spends the quota, the first is denied and puts window zero back, and
the third finds the spent quota in the previous window, half of which is over. -/
theorem SlidingWindowCounterLimiter.late_commit_discards_counter :
    let limiter : SlidingWindowCounterLimiter := ⟨2, 2⟩
    let request : Fin 3 → CheckRequest := fun call =>
      ⟨"alice", "/", if call = 1 then 2 else 1⟩
    let actions : List (Action (localMachine limiter.loop) (Fin 3)) :=
      [.step 0 (), .evolve (3 : UInt64), .step 1 (), .step 1 (), .step 1 (),
        .step 0 (), .step 0 (), .step 2 (), .step 2 (), .step 2 ()]
    let config :=
      (localSystem limiter.loop Json.slidingWindowCounter request 0).run actions
    nonDecreasing (0 : UInt64) actions ∧ (writes config.trace).length = 3 ∧
      ¬ admittedCost request config "sliding_window_counter/alice//"
        (limiter.windows.within 1) ≤ limiter.maxRequests.toNat := by
  decide +kernel

end RateLimiting
