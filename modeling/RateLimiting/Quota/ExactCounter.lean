import Mathlib.Tactic.Positivity
import RateLimiting.CounterOverTime
import RateLimiting.Quota.SequentialRuns
import RateLimiting.Quota.SlidingWindowCounter
import RateLimiting.Store.Json

/-! # The two counters are exact

In a sequential run the stored counters are what the current window and the one
before it have admitted. -/

namespace RateLimiting

namespace SlidingWindowCounterLimiter

open SlidingWindowCounter

variable (self : SlidingWindowCounterLimiter) {ι : Type}

/-- The readings in the window before one. The first window has none before it. -/
def previous (window : Nat) (now : UInt64) : Bool :=
  (self.windowId now).toNat + 1 == window

theorem previous_zero (now : UInt64) : self.previous 0 now = false :=
  beq_false_of_ne (Nat.succ_ne_zero _)

theorem previous_succ (window : Nat) :
    self.previous (window + 1) = self.windows.within window := by
  funext now
  simp [previous, WindowCounter.within]

variable {self}

theorem after_eq {commit : Commit self.loop ι} (wrote : commit.after = commit.outcome.1) :
    let state := commit.before.getD (self.loop.fresh commit.now)
    commit.after.currWindowId = self.windowId commit.now ∧
      commit.after.prevCount = (self.counts commit.now state).1 ∧
      commit.after.currCount.toNat =
        (self.counts commit.now state).2.toNat + commit.charge := by
  intro state
  have step : commit.after = (self.step commit.now state commit.cost).1 := wrote
  refine ⟨?_, ?_, ?_⟩
  · rw [step, step_state]
  · rw [step, step_state]
  · rw [step, step_currCount]
    rfl

theorem charged_shift {history : History self.loop ι} {window later : Nat}
    (ordered : window ≤ later)
    (past : ∀ commit ∈ history, (self.windowId commit.now).toNat ≤ window)
    {counts : UInt64 × UInt64}
    (prevCounted : counts.1.toNat = history.charged (self.previous window))
    (currCounted : counts.2.toNat = history.charged (self.windows.within window)) :
    (shift (later - window) counts).1.toNat = history.charged (self.previous later) ∧
      (shift (later - window) counts).2.toNat =
        history.charged (self.windows.within later) := by
  have current : window < later → history.charged (self.windows.within later) = 0 := by
    intro isLater
    apply History.charged_eq_zero
    intro commit member
    exact beq_false_of_ne ((past commit member).trans_lt isLater).ne
  rcases distance : later - window with _ | _ | distance
  · have same : later = window := by omega
    rw [same]
    exact ⟨prevCounted, currCounted⟩
  · have next : later = window + 1 := by omega
    refine ⟨?_, (current (by omega)).symm⟩
    rw [next, previous_succ]
    exact currCounted
  · have gone : history.charged (self.previous later) = 0 := by
      apply History.charged_eq_zero
      intro commit member
      have upTo := past commit member
      exact beq_false_of_ne (by omega)
    exact ⟨gone.symm, (current (by omega)).symm⟩

theorem counts_final {history : History self.loop ι} (serial : history.Serial)
    (sorted : (history.map fun commit => self.loop.reading commit.now).Pairwise (· ≤ ·))
    {now : UInt64}
    (past : ∀ commit ∈ history, UInt64.toNat commit.now ≤ now.toNat) :
    let counts := self.counts now (history.final.getD (self.loop.fresh now))
    counts.1.toNat = history.charged (self.previous (self.windowId now).toNat) ∧
      counts.2.toNat = history.charged (self.windows.within (self.windowId now).toNat) := by
  induction serial generalizing now with
  | nil =>
      change (self.counts now ⟨0, 0, self.windowId now⟩).1.toNat = 0 ∧
        (self.counts now ⟨0, 0, self.windowId now⟩).2.toNat = 0
      rw [counts_fresh]
      exact ⟨rfl, rfl⟩
  | @snoc history commit serial read wrote induction =>
      rcases sorted_snoc sorted with ⟨sorted, upToCommit⟩
      have upToNow : UInt64.toNat commit.now ≤ now.toNat := past commit (by simp)
      rcases induction sorted upToCommit with ⟨prevSeen, currSeen⟩
      rcases after_eq wrote with ⟨window, prevWrote, currWrote⟩
      rw [← read, ← prevWrote] at prevSeen
      rw [← read] at currSeen
      rw [currSeen] at currWrote
      have prevCounted : commit.after.prevCount.toNat = History.charged
          (history ++ [commit]) (self.previous (self.windowId commit.now).toNat) := by
        have outside : self.previous (self.windowId commit.now).toNat commit.now = false :=
          beq_false_of_ne (Nat.succ_ne_self _)
        rw [History.charged_snoc, outside, if_neg (by decide), prevSeen, Nat.add_zero]
      have currCounted : commit.after.currCount.toNat = History.charged
          (history ++ [commit]) (self.windows.within (self.windowId commit.now).toNat) := by
        have inside : self.windows.within (self.windowId commit.now).toNat commit.now =
            true :=
          beq_self_eq_true _
        rw [History.charged_snoc, inside, if_pos rfl, currWrote]
      rw [History.final_snoc, Option.getD_some, counts_eq_shift, window]
      have forward : (self.windowId commit.now).toNat ≤ (self.windowId now).toNat :=
        toNat_div_mono upToNow _
      apply charged_shift forward _ prevCounted currCounted
      intro other member
      rcases List.mem_append.mp member with earlier | isLast
      · exact toNat_div_mono (upToCommit other earlier) _
      · rw [List.mem_singleton.mp isLast]

theorem final_counted {history : History self.loop ι} (serial : history.Serial)
    (sorted : (history.map fun commit => self.loop.reading commit.now).Pairwise (· ≤ ·))
    {state : State} (isFinal : history.final = some state) :
    state.prevCount.toNat = history.charged (self.previous state.currWindowId.toNat) ∧
      state.currCount.toNat =
        history.charged (self.windows.within state.currWindowId.toNat) := by
  cases serial with
  | nil => exact nomatch isFinal
  | @snoc history commit serial read wrote =>
      have isAfter : commit.after = state := by simpa using isFinal
      have window : commit.after.currWindowId = self.windowId commit.now :=
        (after_eq wrote).1
      have past : ∀ other ∈ history ++ [commit],
          UInt64.toNat other.now ≤ UInt64.toNat commit.now := by
        intro other member
        rcases List.mem_append.mp member with earlier | isLast
        · exact (sorted_snoc sorted).2 other earlier
        · rw [List.mem_singleton.mp isLast]
      have seen := counts_final (.snoc serial read wrote) sorted past
      rw [History.final_snoc, Option.getD_some, counts_eq_shift, window, Nat.sub_self,
        ← window, isAfter] at seen
      exact seen

theorem windows_steady : self.windows.Steady where
  windowId_mono _ _ ordered := toNat_div_mono ordered _
  fresh_window _ := le_rfl
  fits_of_le _ _ _ _ := rfl

/-! ## Bursts -/

/-- The readings in the `window_secs` seconds that end at a time. -/
def lastSeconds (self : SlidingWindowCounterLimiter) (time : Nat) (now : UInt64) : Bool :=
  time < now.toNat + self.windowSecs.toNat ∧ now.toNat ≤ time

theorem previous_or_within (positive : 0 < self.windowSecs.toNat) {time : Nat}
    {now : UInt64} (inside : self.lastSeconds time now = true) :
    self.previous (time / self.windowSecs.toNat) now = true ∨
      self.windows.within (time / self.windowSecs.toNat) now = true := by
  simp only [lastSeconds, decide_eq_true_eq] at inside
  rcases inside with ⟨recent, upTo⟩
  have first := Nat.div_le_div_right (c := self.windowSecs.toNat) upTo
  have second := Nat.div_le_div_right (c := self.windowSecs.toNat) recent.le
  rw [Nat.add_div_right _ positive] at second
  simp only [previous, WindowCounter.within, windowId, UInt64.toNat_div, beq_iff_eq]
  omega

theorem burst_within {prev curr cost : Nat}
    {now : UInt64} {time : Nat} (upTo : now.toNat ≤ time)
    (same : (self.windowId now).toNat = time / self.windowSecs.toNat)
    (fits : (prev : ℚ) * (1 - self.elapsedFraction now) + curr + cost ≤
      self.maxRequests.toNat) :
    ((prev + curr + cost : Nat) : ℚ) ≤ self.maxRequests.toNat +
      prev * (time % self.windowSecs.toNat : Nat) / self.windowSecs.toNat := by
  have parts := Nat.div_add_mod now.toNat self.windowSecs.toNat
  have timeParts := Nat.div_add_mod time self.windowSecs.toNat
  rw [windowId, UInt64.toNat_div] at same
  rw [same] at parts
  have earlier : self.elapsedFraction now ≤
      ((time % self.windowSecs.toNat : Nat) : ℚ) / self.windowSecs.toNat := by
    unfold elapsedFraction
    apply div_le_div_of_nonneg_right _ (Nat.cast_nonneg _)
    rw [UInt64.toNat_mod]
    exact_mod_cast (by omega : now.toNat % self.windowSecs.toNat ≤
      time % self.windowSecs.toNat)
  have prevNonneg : (0 : ℚ) ≤ prev := Nat.cast_nonneg prev
  have weighs := mul_le_mul_of_nonneg_left earlier prevNonneg
  rw [mul_div_assoc]
  push_cast
  linarith

theorem burst_of_allowed (positive : 0 < self.windowSecs.toNat)
    {history : History self.loop ι} (serial : history.Serial)
    (sorted : (history.map fun commit => self.loop.reading commit.now).Pairwise (· ≤ ·))
    {now : UInt64} (past : ∀ commit ∈ history, UInt64.toNat commit.now ≤ now.toNat)
    {cost : UInt32}
    (allowed : (self.step now (history.final.getD (self.loop.fresh now)) cost).2.allowed =
      true)
    {time : Nat} (inside : self.lastSeconds time now = true) :
    ((history.charged (self.lastSeconds time) + cost.toNat : Nat) : ℚ) ≤
      self.maxRequests.toNat + history.charged
          (self.previous (time / self.windowSecs.toNat)) *
        (time % self.windowSecs.toNat : Nat) / self.windowSecs.toNat := by
  rcases counts_final serial sorted past with ⟨prevSeen, currSeen⟩
  have upTo : now.toNat ≤ time := (of_decide_eq_true inside).2
  rcases previous_or_within positive inside with isPrevious | isWithin
  · -- the interval has been charged in the window of `now` only
    have window : (self.windowId now).toNat + 1 = time / self.windowSecs.toNat :=
      beq_iff_eq.mp isPrevious
    have fits := self.counts_add_le_of_allowed allowed
    have charged : history.charged (self.lastSeconds time) ≤
        history.charged (self.windows.within (self.windowId now).toNat) := by
      apply History.charged_le_of_mem
      intro commit member recent
      have notAfter : (self.windowId commit.now).toNat ≤ (self.windowId now).toNat :=
        toNat_div_mono (past commit member) _
      rcases previous_or_within positive recent with before | after
      · have same : (self.windowId commit.now).toNat + 1 = time / self.windowSecs.toNat :=
          beq_iff_eq.mp before
        exact beq_iff_eq.mpr (Nat.succ_injective (same.trans window.symm))
      · have later : (self.windowId commit.now).toNat = time / self.windowSecs.toNat :=
          beq_iff_eq.mp after
        omega
    rw [← currSeen] at charged
    have within : ((history.charged (self.lastSeconds time) + cost.toNat : Nat) : ℚ) ≤
        self.maxRequests.toNat := by
      exact_mod_cast (Nat.add_le_add_right charged _).trans fits
    exact within.trans (le_add_of_nonneg_right (by positivity))
  · have window : (self.windowId now).toNat = time / self.windowSecs.toNat :=
      beq_iff_eq.mp isWithin
    have fits := allowed
    rw [step_allowed, decide_eq_true_iff, weighted_eq, prevSeen, currSeen, window,
      UInt32.toNat_toUInt64] at fits
    have charged := History.charged_le_add history fun reading =>
      @previous_or_within self positive time reading
    have bound := burst_within upTo window fits
    have sum : ((history.charged (self.lastSeconds time) + cost.toNat : Nat) : ℚ) ≤
        (history.charged (self.previous (time / self.windowSecs.toNat)) +
          history.charged (self.windows.within (time / self.windowSecs.toNat)) +
            cost.toNat : Nat) := by
      exact_mod_cast Nat.add_le_add_right charged _
    exact sum.trans bound

theorem charged_lastSeconds_le (positive : 0 < self.windowSecs.toNat)
    {history : History self.loop ι} (serial : history.Serial)
    (sorted : (history.map fun commit => self.loop.reading commit.now).Pairwise (· ≤ ·))
    (time : Nat) :
    (history.charged (self.lastSeconds time) : ℚ) ≤ self.maxRequests.toNat +
      history.charged (self.previous (time / self.windowSecs.toNat)) *
        (time % self.windowSecs.toNat : Nat) / self.windowSecs.toNat := by
  induction serial with
  | nil => simp
  | @snoc history commit serial read wrote induction =>
      rcases sorted_snoc sorted with ⟨sorted, past⟩
      have more := History.charged_le_snoc history commit
        (self.previous (time / self.windowSecs.toNat))
      have share := mul_le_mul_of_nonneg_right (Nat.cast_le.mpr more)
        (by positivity : (0 : ℚ) ≤ (time % self.windowSecs.toNat : Nat) /
          self.windowSecs.toNat)
      have bound : (History.charged (history ++ [commit]) (self.lastSeconds time) : ℚ) ≤
          self.maxRequests.toNat + history.charged
              (self.previous (time / self.windowSecs.toNat)) *
            (time % self.windowSecs.toNat : Nat) / self.windowSecs.toNat := by
        rcases History.charged_snoc_cases history commit (self.lastSeconds time) with
          same | ⟨inside, allowed, counted⟩
        · rw [same]
          exact induction sorted
        · rw [Commit.allowed, Commit.decision, Commit.outcome, read] at allowed
          rw [counted]
          exact burst_of_allowed positive serial sorted past allowed inside
      rw [mul_div_assoc] at bound ⊢
      exact bound.trans (add_le_add_right share _)

theorem charged_previous_le {history : History self.loop ι} (serial : history.Serial)
    (sorted : (history.map fun commit => self.loop.reading commit.now).Pairwise (· ≤ ·))
    (window : Nat) : history.charged (self.previous window) ≤ self.maxRequests.toNat := by
  have counted := WindowCounter.counted_of_serial self.windows_lawful serial
    (WindowCounter.timely_of_sorted self.windows_lawful windows_steady serial sorted)
  cases window with
  | zero =>
      rw [History.charged_eq_zero fun commit _ => self.previous_zero commit.now]
      exact Nat.zero_le _
  | succ window =>
      rw [previous_succ]
      exact counted.quota window

theorem burst_lt_twice (positive : 0 < self.windowSecs.toNat) {total prev time : Nat}
    (quotaPositive : 0 < self.maxRequests.toNat) (within : prev ≤ self.maxRequests.toNat)
    (bound : (total : ℚ) ≤ self.maxRequests.toNat +
      prev * (time % self.windowSecs.toNat : Nat) / self.windowSecs.toNat) :
    total < 2 * self.maxRequests.toNat := by
  have quota : (0 : ℚ) < self.maxRequests.toNat := by exact_mod_cast quotaPositive
  have window : (0 : ℚ) < self.windowSecs.toNat := by exact_mod_cast positive
  have passed : ((time % self.windowSecs.toNat : Nat) : ℚ) < self.windowSecs.toNat := by
    exact_mod_cast Nat.mod_lt time positive
  have prevWithin : (prev : ℚ) ≤ self.maxRequests.toNat := by exact_mod_cast within
  have share : (prev : ℚ) * (time % self.windowSecs.toNat : Nat) / self.windowSecs.toNat <
      self.maxRequests.toNat := by
    rw [div_lt_iff₀ window]
    calc (prev : ℚ) * (time % self.windowSecs.toNat : Nat)
        ≤ self.maxRequests.toNat * (time % self.windowSecs.toNat : Nat) :=
          mul_le_mul_of_nonneg_right prevWithin (Nat.cast_nonneg _)
      _ < self.maxRequests.toNat * self.windowSecs.toNat :=
          mul_lt_mul_of_pos_left passed quota
  have twice : (total : ℚ) < 2 * self.maxRequests.toNat := by linarith
  exact_mod_cast twice

end SlidingWindowCounterLimiter

open SlidingWindowCounterLimiter

/-- After a run on an absent key the stored counters are what their windows have
admitted, and no `window_secs` seconds admit more than the quota and the share
of the window before that has passed, which is less than twice the quota. -/
theorem SlidingWindowCounterLimiter.counters_exact_with_burst
    (limiter : SlidingWindowCounterLimiter) (positive : 0 < limiter.windowSecs.toNat)
    (json : SerdeJson SlidingWindowCounter.State) {I : Interface}
    (backend : LawfulStore I) (world : backend.machine.World) (key : String)
    (absent : backend.lookup world key = none)
    (calls : List (Arrival limiter.loop)) (oneKey : ∀ call ∈ calls, call.key = key)
    (ordered : (calls.map fun call => UInt64.toNat call.now).Pairwise (· ≤ ·)) :
    let run := limiter.loop.runCalls json backend calls world
    let admitted := admittedWithin calls run.1
    (calls ≠ [] → ∃ state : SlidingWindowCounter.State,
      backend.contents run.2 key = some (json.toVec state) ∧
      state.prevCount.toNat = admitted (limiter.previous state.currWindowId.toNat) ∧
      state.currCount.toNat =
        admitted (limiter.windows.within state.currWindowId.toNat)) ∧
    ∀ time : Nat,
      (admitted (limiter.lastSeconds time) : ℚ) ≤ limiter.maxRequests.toNat +
        admitted (limiter.previous (time / limiter.windowSecs.toNat)) *
          (time % limiter.windowSecs.toNat : Nat) / limiter.windowSecs.toNat ∧
      (0 < limiter.maxRequests.toNat →
        admitted (limiter.lastSeconds time) < 2 * limiter.maxRequests.toNat) := by
  intro run admitted
  rcases CheckLoop.runCalls_recounts json backend absent calls oneKey with
    ⟨history, recounts, stored⟩
  have serial := recounts.serial
  have sorted := recounts.readings.symm ▸ ordered
  have isAdmitted : ∀ within, admitted within = history.charged within := fun within =>
    (recounts.charged_eq within).symm
  simp only [isAdmitted]
  constructor
  · intro nonempty
    cases final : history.final with
    | none =>
        have empty : history = [] := by simpa [History.final] using final
        have length := recounts.length_eq
        rw [empty] at length
        exact absurd (List.length_eq_zero_iff.mp length.symm) nonempty
    | some state =>
        rw [final] at stored
        exact ⟨state, stored, final_counted serial sorted final⟩
  · intro time
    have bound := charged_lastSeconds_le positive serial sorted time
    exact ⟨bound, fun quotaPositive => burst_lt_twice positive quotaPositive
      (charged_previous_le serial sorted _) bound⟩

/-- The quota is spent at the end of one window, and one more in the middle of the
next. -/
theorem SlidingWindowCounterLimiter.counters_exact_with_burst_middle :
    let limiter : SlidingWindowCounterLimiter := ⟨2, 10⟩
    let calls : List (Arrival limiter.loop) :=
      [⟨(9 : UInt64), ⟨"alice", "/", 2⟩⟩, ⟨(15 : UInt64), ⟨"alice", "/", 1⟩⟩]
    let run :=
      limiter.loop.runCalls Json.slidingWindowCounter LocalStore.lawful calls LocalStore.new
    let admitted := admittedWithin calls run.1
    (calls ≠ [] → ∃ state : SlidingWindowCounter.State,
      LocalStore.lawful.contents run.2 "sliding_window_counter/alice//" =
        some (Json.slidingWindowCounter.toVec state) ∧
      state.prevCount.toNat = admitted (limiter.previous state.currWindowId.toNat) ∧
      state.currCount.toNat =
        admitted (limiter.windows.within state.currWindowId.toNat)) ∧
    ∀ time : Nat,
      (admitted (limiter.lastSeconds time) : ℚ) ≤ limiter.maxRequests.toNat +
        admitted (limiter.previous (time / limiter.windowSecs.toNat)) *
          (time % limiter.windowSecs.toNat : Nat) / limiter.windowSecs.toNat ∧
      (0 < limiter.maxRequests.toNat →
        admitted (limiter.lastSeconds time) < 2 * limiter.maxRequests.toNat) := by
  intro limiter calls
  exact limiter.counters_exact_with_burst (by decide) Json.slidingWindowCounter
    LocalStore.lawful LocalStore.new "sliding_window_counter/alice//" rfl calls
    (by decide +kernel) (by decide +kernel)

end RateLimiting
