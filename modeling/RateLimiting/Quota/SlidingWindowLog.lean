import Mathlib.Data.Option.Basic
import RateLimiting.Algorithms.SlidingWindowLog
import RateLimiting.Quota.Admission

/-! # The quota of the sliding window log

A check drops the timestamps that are outside its own window. One that read its
clock earlier and commits later may still need them. -/

namespace RateLimiting

namespace SlidingWindowLogLimiter

open SlidingWindowLog

variable (self : SlidingWindowLogLimiter) {ι : Type}

theorem new_windowMs (maxRequests : UInt64) {windowSecs : UInt64}
    (fits : windowSecs.toNat * 1000 < 2 ^ 63) :
    (new maxRequests windowSecs).windowMs.toInt = windowSecs.toNat * 1000 := by
  have product : (windowSecs * 1000).toNat = windowSecs.toNat * 1000 := by
    rw [UInt64.toNat_mul]
    exact Nat.mod_eq_of_lt (by simpa using fits.trans (by decide))
  change (windowSecs * 1000).toInt64.toInt = _
  rw [toInt_toInt64_of_lt (by rw [product]; exact fits), product]
  simp

theorem new_windowMs_pos (maxRequests : UInt64) {windowSecs : UInt64}
    (positive : 0 < windowSecs.toNat) (fits : windowSecs.toNat * 1000 < 2 ^ 63) :
    0 < (new maxRequests windowSecs).windowMs.toInt := by
  rw [new_windowMs maxRequests fits]
  omega

def within (time : Int) (now : Millis) : Bool :=
  time - self.windowMs.toInt < now.val.toInt ∧ now.val.toInt ≤ time

/-- The earlier check dropped no timestamp that is in the window of the later
one. -/
def RetainsFor (earlier later : Commit self.loop ι) : Prop :=
  ∀ state ∈ earlier.before, ∀ t ∈ state.timestampsMs,
    self.cutoff later.now < t → self.cutoff earlier.now < t

instance : DecidableRel (self.RetainsFor (ι := ι)) := fun _ _ =>
  @Option.decidableForallMem _ _ (fun _ => List.decidableBAll _ _) _

def since (cutoff : Int64) (history : History self.loop ι) : List Int64 :=
  ((history.final.map State.timestampsMs).getD []).filter fun t => cutoff < t

variable {self}

theorem retained_final (history : History self.loop ι) (now : Millis) :
    self.retained now (history.final.getD (self.loop.fresh now)) =
      self.since (self.cutoff now) history := by
  rw [since, retained]
  cases history.final <;> rfl

theorem retained_eq_since {history : History self.loop ι}
    {commit : Commit self.loop ι} (read : commit.before = history.final) :
    self.retained commit.now (commit.before.getD (self.loop.fresh commit.now)) =
      self.since (self.cutoff commit.now) history := by
  rw [read, retained_final]

theorem charged_since {history : History self.loop ι} (serial : history.Serial)
    (cutoff : Int64)
    (retains : ∀ commit ∈ history, ∀ state ∈ commit.before,
      ∀ t ∈ state.timestampsMs, cutoff < t → self.cutoff commit.now < t) :
    history.charged (fun now => cutoff < now.val) =
      (self.since cutoff history).length := by
  induction serial with
  | nil => rfl
  | @snoc history commit _ read wrote induction =>
      have before := induction fun other member =>
        retains other (by simp [member])
      have kept : (self.retained commit.now
          (commit.before.getD (self.loop.fresh commit.now))).filter
            (fun t => cutoff < t) = self.since cutoff history := by
        rw [retained_eq_since read]
        unfold since
        rw [List.filter_filter]
        apply List.filter_congr
        intro t member
        cases final : history.final with
        | none => simp [final] at member
        | some state =>
            have live := retains commit (by simp) state (by simp [read, final]) t
              (by simpa [final] using member)
            simpa using live
      have after : commit.after.timestampsMs = self.retained commit.now
          (commit.before.getD (self.loop.fresh commit.now)) ++
            List.replicate commit.charge commit.now.val := by
        rw [wrote]
        change (self.step _ _ _).1.timestampsMs = _
        rw [step_state]
        unfold Commit.charge Commit.allowed Commit.decision Commit.outcome
        split <;> simp_all
      have left : self.since cutoff (history ++ [commit]) =
          self.since cutoff history ++ (List.replicate commit.charge
            commit.now.val).filter fun t => cutoff < t := by
        rw [since, History.final_snoc, Option.map_some, Option.getD_some, after,
          List.filter_append, kept]
      rw [History.charged_snoc, before, left, List.length_append,
        List.filter_replicate]
      by_cases counted : cutoff < commit.now.val <;> simp [counted]

theorem charged_within_le (windowNonneg : 0 ≤ self.windowMs.toInt)
    {history : History self.loop ι} (serial : history.Serial)
    (retains : history.Pairwise self.RetainsFor) (time : Int) :
    history.charged (self.within time) ≤ self.maxRequests.toNat := by
  induction serial with
  | nil => exact Nat.zero_le _
  | @snoc history commit serial read wrote induction =>
      rcases List.pairwise_append.mp retains with ⟨earlier, _, last⟩
      rcases History.charged_snoc_cases history commit (self.within time) with
        same | ⟨counted, allowed, charged⟩
      · rw [same]
        exact induction earlier
      · have quota : (self.retained commit.now (commit.before.getD
            (self.loop.fresh commit.now))).length + commit.cost.toNat ≤
              self.maxRequests.toNat := by
          have decided := self.step_allowed commit.now
            (commit.before.getD (self.loop.fresh commit.now)) commit.cost
          exact of_decide_eq_true (decided.symm.trans allowed)
        have wider : history.charged (self.within time) ≤
            history.charged fun now => self.cutoff commit.now < now.val := by
          apply History.charged_mono
          intro now inside
          simp only [within, decide_eq_true_eq] at inside counted ⊢
          rw [Int64.lt_iff_toInt_lt, toInt_cutoff windowNonneg]
          omega
        have held := charged_since serial (self.cutoff commit.now)
          fun other member => last other member commit (by simp)
        rw [retained_eq_since read, ← held] at quota
        rw [charged]
        omega

end SlidingWindowLogLimiter

open LocalTrace

/-- As long as no check on the key drops a timestamp that a check committing
after it still counts, no window admits more than `max_requests`. -/
theorem SlidingWindowLogLimiter.log_admits_at_most_quota
    (maxRequests windowSecs : UInt64)
    (windowFits : windowSecs.toNat * 1000 < 2 ^ 63)
    (json : SerdeJson SlidingWindowLog.State) {ι : Type} [DecidableEq ι]
    [Fintype ι] (request : ι → CheckRequest) (start : Millis)
    (actions : List (Action (localMachine (new maxRequests windowSecs).loop) ι))
    (bounded : (writes ((localSystem (new maxRequests windowSecs).loop json request
      start).run actions).trace).length < 2 ^ 63)
    (key : String)
    (retains : ((history json request ((localSystem
      (new maxRequests windowSecs).loop json request start).run
        actions).trace).on key).Pairwise (new maxRequests windowSecs).RetainsFor)
    (time : Int) :
    admittedCost request ((localSystem (new maxRequests windowSecs).loop json request
      start).run actions) key ((new maxRequests windowSecs).within time) ≤
        maxRequests.toNat := by
  have invariant := systemInvariant_run start actions bounded
  have windowNonneg : 0 ≤ (new maxRequests windowSecs).windowMs.toInt := by
    rw [new_windowMs maxRequests windowFits]
    omega
  rw [invariant.admittedCost_eq_charged]
  exact charged_within_le windowNonneg (invariant.serial key) retains time

/-- A check that reads its clock first and commits last, with nothing dropped in
between, and one that drops the others. -/
theorem SlidingWindowLogLimiter.log_admits_at_most_quota_boundary :
    let request : Fin 3 → CheckRequest := fun _ => ⟨"alice", "/", 1⟩
    let actions : List (Action (localMachine (new 2 1).loop) (Fin 3)) :=
      [.step 0 (), .evolve (⟨999, by decide⟩ : Millis), .step 1 (), .step 1 (),
        .step 1 (), .step 0 (), .step 0 (), .evolve (⟨2000, by decide⟩ : Millis),
        .step 2 (), .step 2 (), .step 2 ()]
    admittedCost request ((localSystem (new 2 1).loop Json.slidingWindowLog request
      (⟨0, by decide⟩ : Millis)).run actions) "sliding_window_log/alice//"
        ((new 2 1).within 999) ≤ (2 : UInt64).toNat := by
  intro request actions
  exact SlidingWindowLogLimiter.log_admits_at_most_quota 2 1 (by decide)
    Json.slidingWindowLog request _ actions (by decide +kernel) _
    (by decide +kernel) 999

/-- The second call reads its clock while the first call's two timestamps are in
its window. The third drops them, and the second commits after it. -/
theorem SlidingWindowLogLimiter.late_commit_misses_dropped :
    let request : Fin 3 → CheckRequest := fun call =>
      ⟨"alice", "/", if call = 0 then 2 else 1⟩
    let actions : List (Action (localMachine (new 2 1).loop) (Fin 3)) :=
      [.step 0 (), .step 0 (), .step 0 (), .step 1 (),
        .evolve (⟨1000, by decide⟩ : Millis), .step 2 (), .step 2 (), .step 2 (),
        .step 1 (), .step 1 ()]
    let start : Millis := ⟨0, by decide⟩
    let config :=
      (localSystem (new 2 1).loop Json.slidingWindowLog request start).run actions
    nonDecreasing start actions ∧ (writes config.trace).length = 3 ∧
      ¬ admittedCost request config "sliding_window_log/alice//"
        ((new 2 1).within 0) ≤ (2 : UInt64).toNat := by
  decide +kernel

end RateLimiting
