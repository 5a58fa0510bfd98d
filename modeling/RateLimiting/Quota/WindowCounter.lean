import RateLimiting.Quota.Admission

/-! # Counting per window

The two counting limiters keep the number of a window and what they admitted in
it. As long as no check moves the stored window back, that count is exact and no
window is charged more than the quota. -/

namespace RateLimiting

/-- The stored state of a limiter as a window and a count. `fits` says that the
arithmetic of a step does not wrap. -/
structure WindowCounter (loop : CheckLoop) where
  windowId : loop.Time → Nat
  storedWindow : loop.State → Nat
  storedCount : loop.State → Nat
  quota : Nat
  fits : loop.Time → loop.State → UInt32 → Bool

namespace WindowCounter

variable {loop : CheckLoop} (counter : WindowCounter loop)

def current (now : loop.Time) (state : loop.State) : Nat :=
  if counter.storedWindow state = counter.windowId now
  then counter.storedCount state else 0

structure Lawful : Prop where
  fresh_count : ∀ now, counter.storedCount (loop.fresh now) = 0
  step_window : ∀ now state cost,
    counter.storedWindow (loop.step now state cost).1 = counter.windowId now
  step_count : ∀ now state cost,
    counter.storedWindow state ≤ counter.windowId now →
    counter.fits now state cost = true →
      counter.storedCount (loop.step now state cost).1 = counter.current now state +
        if (loop.step now state cost).2.allowed then cost.toNat else 0
  step_quota : ∀ now state cost,
    counter.storedWindow state ≤ counter.windowId now →
    counter.fits now state cost = true →
    (loop.step now state cost).2.allowed = true →
      counter.current now state + cost.toNat ≤ counter.quota

/-- A check that does not move the stored window back and does not wrap. -/
def Timely {ι : Type} (commit : Commit loop ι) : Prop :=
  let state := commit.before.getD (loop.fresh commit.now)
  counter.storedWindow state ≤ counter.windowId commit.now ∧
    counter.fits commit.now state commit.cost = true

instance {ι : Type} (commit : Commit loop ι) : Decidable (counter.Timely commit) :=
  inferInstanceAs (Decidable (_ ∧ _))

def within (window : Nat) (now : loop.Time) : Bool :=
  counter.windowId now == window

/-- The state after a history counts the charges of its window, later windows
have none, and no window has more than the quota. -/
structure Counted {ι : Type} (history : History loop ι) : Prop where
  started : history.final = none → history = []
  current : ∀ state, history.final = some state →
    history.charged (counter.within (counter.storedWindow state)) =
      counter.storedCount state
  later : ∀ state, history.final = some state →
    ∀ window, counter.storedWindow state < window →
      history.charged (counter.within window) = 0
  quota : ∀ window, history.charged (counter.within window) ≤ counter.quota

variable {counter} {ι : Type}

theorem Counted.charged_final (lawful : counter.Lawful)
    {history : History loop ι} (counted : counter.Counted history) {now : loop.Time}
    (ordered : counter.storedWindow (history.final.getD (loop.fresh now)) ≤
      counter.windowId now) :
    history.charged (counter.within (counter.windowId now)) =
      counter.current now (history.final.getD (loop.fresh now)) := by
  unfold WindowCounter.current
  cases final : history.final with
  | none =>
      simp [counted.started final, lawful.fresh_count]
  | some state =>
      rw [final, Option.getD_some] at ordered
      by_cases same : counter.storedWindow state = counter.windowId now
      · simpa [same] using counted.current state final
      · rw [Option.getD_some, if_neg same]
        exact counted.later state final _ (lt_of_le_of_ne ordered same)

theorem Counted.charged_windowId (lawful : counter.Lawful)
    {history : History loop ι} (counted : counter.Counted history)
    {commit : Commit loop ι} (read : commit.before = history.final)
    (timely : counter.Timely commit) :
    history.charged (counter.within (counter.windowId commit.now)) =
      counter.current commit.now (commit.before.getD (loop.fresh commit.now)) := by
  rcases timely with ⟨ordered, _⟩
  rw [read] at ordered ⊢
  exact counted.charged_final lawful ordered

theorem Counted.snoc (lawful : counter.Lawful) {history : History loop ι}
    (counted : counter.Counted history) {commit : Commit loop ι}
    (read : commit.before = history.final)
    (wrote : commit.after = commit.outcome.1) (timely : counter.Timely commit) :
    counter.Counted (history ++ [commit]) := by
  have seen := counted.charged_windowId lawful read timely
  rcases timely with ⟨ordered, fits⟩
  have window : counter.storedWindow commit.after = counter.windowId commit.now := by
    rw [wrote]
    exact lawful.step_window _ _ _
  have count := lawful.step_count _ _ _ ordered fits
  have quota := lawful.step_quota _ _ _ ordered fits
  constructor
  · intro final
    simp at final
  · intro state final
    have isAfter : commit.after = state := by simpa using final
    subst isAfter
    rw [window, History.charged_snoc, seen, wrote,
      if_pos (show counter.within _ commit.now = true from beq_self_eq_true _)]
    exact count.symm
  · intro state final
    have isAfter : commit.after = state := by simpa using final
    subst isAfter
    intro later isLater
    rw [window] at isLater
    have other : counter.within later commit.now = false :=
      beq_false_of_ne (ne_of_lt isLater)
    have before : history.charged (counter.within later) = 0 := by
      cases final : history.final with
      | none => simp [counted.started final]
      | some state =>
          rw [read, final, Option.getD_some] at ordered
          exact counted.later state final later (lt_of_le_of_lt ordered isLater)
    simp [other, before]
  · intro other
    rcases History.charged_snoc_cases history commit (counter.within other) with
      same | ⟨inside, allowed, charged⟩
    · rw [same]
      exact counted.quota other
    · have isWindow : counter.windowId commit.now = other := beq_iff_eq.mp inside
      subst isWindow
      rw [charged, seen]
      exact quota allowed

theorem counted_of_serial (lawful : counter.Lawful) {history : History loop ι}
    (serial : history.Serial) (timely : ∀ commit ∈ history, counter.Timely commit) :
    counter.Counted history := by
  induction serial with
  | nil => exact ⟨fun _ => rfl, by simp, by simp, by simp⟩
  | snoc _ read wrote induction =>
      exact (induction fun commit member => timely commit (by simp [member])).snoc
        lawful read wrote (timely _ (by simp))

variable (counter) in
structure Steady : Prop where
  windowId_mono : ∀ earlier later, loop.reading earlier ≤ loop.reading later →
    counter.windowId earlier ≤ counter.windowId later
  fresh_window : ∀ now, counter.storedWindow (loop.fresh now) ≤ counter.windowId now
  fits_of_le : ∀ now state cost, counter.current now state ≤ counter.quota →
    counter.fits now state cost = true

theorem Counted.current_le (lawful : counter.Lawful) {history : History loop ι}
    (counted : counter.Counted history) (now : loop.Time) :
    counter.current now (history.final.getD (loop.fresh now)) ≤ counter.quota := by
  unfold WindowCounter.current
  split
  · cases final : history.final with
    | none =>
        rw [Option.getD_none, lawful.fresh_count]
        exact Nat.zero_le _
    | some state =>
        rw [Option.getD_some, ← counted.current state final]
        exact counted.quota _
  · exact Nat.zero_le _

theorem stored_le_of_sorted (lawful : counter.Lawful) (steady : counter.Steady)
    {history : History loop ι} (serial : history.Serial) {now : loop.Time}
    (past : ∀ commit ∈ history, loop.reading commit.now ≤ loop.reading now) :
    counter.storedWindow (history.final.getD (loop.fresh now)) ≤
      counter.windowId now := by
  cases serial with
  | nil => exact steady.fresh_window now
  | @snoc history commit _ _ wrote =>
      rw [History.final_snoc, Option.getD_some, wrote, Commit.outcome,
        lawful.step_window]
      exact steady.windowId_mono _ _ (past commit (by simp))

theorem timely_of_sorted (lawful : counter.Lawful) (steady : counter.Steady)
    {history : History loop ι} (serial : history.Serial)
    (sorted : (history.map fun commit => loop.reading commit.now).Pairwise (· ≤ ·)) :
    ∀ commit ∈ history, counter.Timely commit := by
  induction serial with
  | nil => simp
  | @snoc history commit serial read _ induction =>
      rcases sorted_snoc sorted with ⟨earlier, upToLast⟩
      have timely := induction earlier
      have counted := counted_of_serial lawful serial timely
      intro other member
      rcases List.mem_append.mp member with member | member
      · exact timely other member
      rcases List.mem_singleton.mp member with rfl
      rw [Timely, read]
      exact ⟨stored_le_of_sorted lawful steady serial upToLast,
        steady.fits_of_le _ _ _ (counted.current_le lawful _)⟩

/-- A run whose checks on a key are timely admits at most the quota in any
window. -/
theorem admittedCost_le_quota [DecidableEq ι] [Fintype ι] (lawful : counter.Lawful)
    {json : SerdeJson loop.State} {request : ι → CheckRequest}
    {config : Config (localMachine loop) ι Decision}
    (invariant : SystemInvariant json request config) {key : String}
    (timely : ∀ commit ∈ (LocalTrace.history json request config.trace).on key,
      counter.Timely commit) (window : Nat) :
    admittedCost request config key (counter.within window) ≤ counter.quota := by
  rw [invariant.admittedCost_eq_charged]
  exact (counted_of_serial lawful (invariant.serial key) timely).quota window

end WindowCounter

end RateLimiting
