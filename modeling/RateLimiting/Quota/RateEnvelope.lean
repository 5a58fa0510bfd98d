import Mathlib.Algebra.Order.Group.MinMax
import RateLimiting.Algorithms.LeakyBucket
import RateLimiting.Algorithms.TokenBucket
import RateLimiting.Foundation.Bucket
import RateLimiting.Quota.Admission

/-! # The rate envelope of the two buckets

The tokens of one bucket and the free depth of the other are the level of an
ideal bucket, as long as every check commits at a time not before the stored
one. A check that commits with an earlier time puts that time in the state, and
the interval up to the stored time is credited again. -/

namespace RateLimiting

/-- The stored state of a limiter as a level and the time it was brought up to
date, in milliseconds. The rate is per second. -/
structure BucketView (loop : CheckLoop) where
  capacity : ℚ
  rate : ℚ
  level : loop.State → ℚ
  stamp : loop.State → Int

namespace BucketView

variable {loop : CheckLoop} (view : BucketView loop)

def refilled (now : loop.Time) (state : loop.State) : ℚ :=
  min (view.level state +
      ((max ((loop.reading now : Int) - view.stamp state) 0 : Int) : ℚ) / 1000 *
        view.rate)
    view.capacity

structure Lawful : Prop where
  fresh_level : ∀ now, view.level (loop.fresh now) = view.capacity
  fresh_stamp : ∀ now, view.stamp (loop.fresh now) = loop.reading now
  step_allowed : ∀ now state cost, 0 ≤ view.stamp state →
    ((loop.step now state cost).2.allowed = true ↔
      (cost.toNat : ℚ) ≤ view.refilled now state)
  step_level : ∀ now state cost, 0 ≤ view.stamp state →
    view.level (loop.step now state cost).1 = view.refilled now state -
      ((if (loop.step now state cost).2.allowed then cost.toNat else 0 : Nat) : ℚ)
  step_stamp : ∀ now state cost,
    view.stamp (loop.step now state cost).1 = loop.reading now

/-- A check that does not move the stored time back. -/
def InOrder {ι : Type} (commit : Commit loop ι) : Prop :=
  view.stamp (commit.before.getD (loop.fresh commit.now)) ≤ loop.reading commit.now

instance {ι : Type} (commit : Commit loop ι) : Decidable (view.InOrder commit) :=
  inferInstanceAs (Decidable (_ ≤ _))

def within (loop : CheckLoop) (first last : ℚ) (now : loop.Time) : Bool :=
  first ≤ loop.reading now ∧ (loop.reading now : ℚ) ≤ last

variable {ι : Type}

def grants : History loop ι → List (Grant ℚ)
  | history => (history.map fun commit =>
      ⟨loop.reading commit.now, commit.charge⟩).reverse

@[simp] theorem grants_snoc (history : History loop ι) (commit : Commit loop ι) :
    grants (history ++ [commit]) =
      ⟨loop.reading commit.now, commit.charge⟩ :: grants history := by
  simp [grants]

theorem mem_grants {history : History loop ι} {grant : Grant ℚ} :
    grant ∈ grants history ↔ ∃ commit ∈ history,
      (⟨loop.reading commit.now, commit.charge⟩ : Grant ℚ) = grant := by
  simp [grants]

theorem total_grants_within (history : History loop ι) (first last : ℚ) :
    Bucket.total ((grants history).filter fun grant =>
        first ≤ grant.time ∧ grant.time ≤ last) =
      history.charged (within loop first last) := by
  induction history using List.reverseRecOn with
  | nil => rfl
  | append_singleton history commit induction =>
      rw [History.charged_snoc, grants_snoc, Nat.cast_add, ← induction]
      by_cases counted : first ≤ (loop.reading commit.now : ℚ) ∧
          (loop.reading commit.now : ℚ) ≤ last
      · simp [within, counted, add_comm]
      · simp [within, counted]

/-- The state after a history is the level of an ideal bucket after its grants. -/
structure Metered (history : History loop ι) : Prop where
  stamp_nonneg : ∀ state ∈ history.final, 0 ≤ view.stamp state
  latest : ∀ state ∈ history.final, ∀ commit ∈ history,
    (loop.reading commit.now : Int) ≤ view.stamp state
  started : history.final = none → history = []
  refilled : ∀ now, (∀ state ∈ history.final, view.stamp state ≤ loop.reading now) →
    view.refilled now (history.final.getD (loop.fresh now)) =
      Bucket.available view.capacity (view.rate / 1000) (grants history)
        (loop.reading now)
  sorted : Bucket.Sorted (grants history)
  conforming : Bucket.Conforming view.capacity (view.rate / 1000) (grants history)

variable {view}

theorem Metered.nil (lawful : view.Lawful) : view.Metered ([] : History loop ι) where
  stamp_nonneg := by simp
  latest := by simp
  started _ := rfl
  refilled now _ := by
    simp [BucketView.refilled, lawful.fresh_level, lawful.fresh_stamp, grants,
      Bucket.available]
  sorted := List.Pairwise.nil
  conforming := trivial

section Snoc

variable (lawful : view.Lawful) (capacityNonneg : 0 ≤ view.capacity)
  (rateNonneg : 0 ≤ view.rate) {history : History loop ι}
  (metered : view.Metered history) {commit : Commit loop ι}
  (read : commit.before = history.final) (inOrder : view.InOrder commit)

include metered read inOrder in
theorem Metered.reading_le : ∀ earlier ∈ history,
    loop.reading earlier.now ≤ loop.reading commit.now := by
  intro earlier member
  cases final : history.final with
  | none => simp [metered.started final] at member
  | some state =>
      have ordered : view.stamp state ≤ loop.reading commit.now := by
        simpa [InOrder, read, final] using inOrder
      exact_mod_cast (metered.latest state final earlier member).trans ordered

include lawful metered read in
theorem Metered.before_stamp_nonneg :
    0 ≤ view.stamp (commit.before.getD (loop.fresh commit.now)) := by
  rw [read]
  cases final : history.final with
  | none => simp [lawful.fresh_stamp]
  | some state => exact metered.stamp_nonneg state final

include metered read inOrder in
theorem Metered.before_refilled :
    view.refilled commit.now (commit.before.getD (loop.fresh commit.now)) =
      Bucket.available view.capacity (view.rate / 1000) (grants history)
        (loop.reading commit.now) := by
  rw [read]
  apply metered.refilled commit.now
  intro state final
  simpa [InOrder, read, Option.mem_def.mp final] using inOrder

include lawful capacityNonneg rateNonneg metered read inOrder in
theorem Metered.charge_le : (commit.charge : ℚ) ≤
    Bucket.available view.capacity (view.rate / 1000) (grants history)
      (loop.reading commit.now) := by
  have nonneg := metered.before_stamp_nonneg lawful read
  cases allowed : commit.allowed with
  | true =>
      rw [← metered.before_refilled read inOrder, Commit.charge, if_pos allowed]
      exact (lawful.step_allowed _ _ _ nonneg).mp allowed
  | false =>
      rw [Commit.charge, if_neg (by simp [allowed]), Nat.cast_zero]
      apply Bucket.available_nonneg capacityNonneg
        (div_nonneg rateNonneg (by norm_num)) metered.conforming
      intro grant member
      rcases mem_grants.mp member with ⟨earlier, isEarlier, rfl⟩
      exact Nat.cast_le.mpr (metered.reading_le read inOrder earlier isEarlier)

include lawful capacityNonneg rateNonneg metered read inOrder in
theorem Metered.snoc (wrote : commit.after = commit.outcome.1) :
    view.Metered (history ++ [commit]) := by
  have earlier := metered.reading_le read inOrder
  have nonneg := metered.before_stamp_nonneg lawful read
  have stamp : view.stamp commit.after = loop.reading commit.now := by
    rw [wrote]
    exact lawful.step_stamp _ _ _
  have level : view.level commit.after =
      Bucket.available view.capacity (view.rate / 1000) (grants history)
        (loop.reading commit.now) - commit.charge := by
    rw [wrote, ← metered.before_refilled read inOrder]
    exact lawful.step_level _ _ _ nonneg
  constructor
  · intro state final
    have isAfter : commit.after = state := by simpa using final
    subst isAfter
    simp [stamp]
  · intro state final
    have isAfter : commit.after = state := by simpa using final
    subst isAfter
    intro other member
    rw [stamp]
    rcases List.mem_append.mp member with member | member
    · exact_mod_cast earlier other member
    · rw [List.mem_singleton.mp member]
  · intro final
    simp at final
  · intro now ordered
    have later : (loop.reading commit.now : Int) ≤ loop.reading now := by
      simpa [stamp] using ordered
    have elapsed : max ((loop.reading now : Int) - loop.reading commit.now) 0 =
        (loop.reading now : Int) - loop.reading commit.now :=
      max_eq_left (sub_nonneg.mpr later)
    rw [History.final_snoc, Option.getD_some, BucketView.refilled, level, stamp,
      elapsed, grants_snoc, Bucket.available]
    congr 2
    push_cast
    ring
  · rw [grants_snoc]
    refine List.pairwise_cons.mpr ⟨?_, metered.sorted⟩
    intro grant member
    rcases mem_grants.mp member with ⟨other, isEarlier, rfl⟩
    exact Nat.cast_le.mpr (earlier other isEarlier)
  · rw [grants_snoc]
    exact ⟨Nat.cast_nonneg _, metered.charge_le lawful capacityNonneg rateNonneg
      read inOrder, metered.conforming⟩

end Snoc

theorem metered_of_serial (lawful : view.Lawful) (capacityNonneg : 0 ≤ view.capacity)
    (rateNonneg : 0 ≤ view.rate) {history : History loop ι}
    (serial : history.Serial) (inOrder : ∀ commit ∈ history, view.InOrder commit) :
    view.Metered history := by
  induction serial with
  | nil => exact .nil lawful
  | snoc _ read wrote induction =>
      exact (induction fun commit member => inOrder commit (by simp [member])).snoc
        lawful capacityNonneg rateNonneg read (inOrder _ (by simp)) wrote

variable (view)

/-- In every run whose checks on a key are in order, what is admitted between
two times is at most the capacity and what is refilled between them. -/
def Envelope : Prop :=
  ∀ (json : SerdeJson loop.State) {ι : Type} [DecidableEq ι] [Fintype ι]
    (request : ι → CheckRequest) (start : loop.Time)
    (actions : List (Action (localMachine loop) ι)) (key : String),
  let config := (localSystem loop json request start).run actions
  (LocalTrace.writes config.trace).length < 2 ^ 63 →
  (∀ commit ∈ (LocalTrace.history json request config.trace).on key,
    view.InOrder commit) →
  ∀ first last : ℚ, first ≤ last →
    (admittedCost request config key (within loop first last) : ℚ) ≤
      view.capacity + view.rate * (last - first) / 1000

variable {view}

theorem envelope (lawful : view.Lawful) (capacityNonneg : 0 ≤ view.capacity)
    (rateNonneg : 0 ≤ view.rate) : view.Envelope := by
  intro json ι _ _ request start actions key config bounded inOrder first last ordered
  have invariant := systemInvariant_run start actions bounded
  have metered := metered_of_serial lawful capacityNonneg rateNonneg
    (invariant.serial key) inOrder
  have bound := Bucket.total_between_le capacityNonneg
    (div_nonneg rateNonneg (by norm_num)) metered.conforming metered.sorted ordered
  rw [invariant.admittedCost_eq_charged, ← total_grants_within]
  calc _ ≤ view.capacity + (last - first) * (view.rate / 1000) := bound
    _ = view.capacity + view.rate * (last - first) / 1000 := by ring

end BucketView

namespace TokenBucketLimiter

variable (self : TokenBucketLimiter)

@[reducible] def bucket : BucketView self.loop where
  capacity := self.capacity
  rate := self.refillRate
  level state := state.tokens
  stamp state := state.lastRefillMs.toInt

theorem bucket_refilled (now : Millis) {state : TokenBucket.State}
    (nonneg : 0 ≤ state.lastRefillMs.toInt) :
    self.bucket.refilled now state = self.tokens now state := by
  rw [tokens, elapsedSecs_eq now nonneg, BucketView.refilled]

theorem bucket_lawful : self.bucket.Lawful where
  fresh_level _ := rfl
  fresh_stamp now := now.coe_reading.symm
  step_allowed now state cost nonneg := by
    rw [self.bucket_refilled now nonneg]
    change (self.step now state cost).2.allowed = true ↔ _
    rw [step_allowed, decide_eq_true_eq]
  step_level now state cost nonneg := by
    rw [self.bucket_refilled now nonneg]
    change (self.step now state cost).1.tokens = _
    rw [step_state]
    cases (self.step now state cost).2.allowed <;> simp
  step_stamp now state cost := by
    change (self.step now state cost).1.lastRefillMs.toInt = _
    rw [step_state]
    exact now.coe_reading.symm

end TokenBucketLimiter

namespace LeakyBucketLimiter

variable (self : LeakyBucketLimiter)

@[reducible] def bucket : BucketView self.loop where
  capacity := self.cap
  rate := self.leakRate
  level state := self.cap - state.queue
  stamp state := state.lastLeakMs.toInt

theorem bucket_refilled (now : Millis) {state : LeakyBucket.State}
    (nonneg : 0 ≤ state.lastLeakMs.toInt) :
    self.bucket.refilled now state = self.cap - self.queue now state := by
  rw [queue, elapsedSecs_eq now nonneg, BucketView.refilled, ← min_sub_sub_left,
    sub_zero]
  congr 1
  ring

theorem bucket_lawful : self.bucket.Lawful where
  fresh_level _ := by simp
  fresh_stamp now := now.coe_reading.symm
  step_allowed now state cost nonneg := by
    rw [self.bucket_refilled now nonneg]
    change (self.step now state cost).2.allowed = true ↔ _
    rw [step_allowed, decide_eq_true_eq]
    constructor <;> intro <;> linarith
  step_level now state cost nonneg := by
    rw [self.bucket_refilled now nonneg]
    change self.cap - (self.step now state cost).1.queue = _
    rw [step_state]
    cases (self.step now state cost).2.allowed <;> simp [sub_sub]
  step_stamp now state cost := by
    change (self.step now state cost).1.lastLeakMs.toInt = _
    rw [step_state]
    exact now.coe_reading.symm

end LeakyBucketLimiter

/-- Both buckets stay within their envelope, as long as no check on the key
commits with a time before the stored one. -/
theorem buckets_within_envelope (token : TokenBucketLimiter)
    (leaky : LeakyBucketLimiter) :
    (0 ≤ token.capacity → 0 < token.refillRate → token.bucket.Envelope) ∧
      (0 < leaky.leakRate → leaky.bucket.Envelope) := by
  constructor
  · intro capacityNonneg ratePositive
    exact BucketView.envelope token.bucket_lawful capacityNonneg ratePositive.le
  · intro ratePositive
    exact BucketView.envelope leaky.bucket_lawful (Nat.cast_nonneg _)
      ratePositive.le

/-- Two checks collide and a third comes a second later. -/
theorem buckets_within_envelope_collision :
    let request : Fin 3 → CheckRequest := fun _ => ⟨"alice", "/", 1⟩
    let start : Millis := ⟨0, by decide⟩
    let token : TokenBucketLimiter := ⟨1, 1⟩
    let tokenActions : List (Action (localMachine token.loop) (Fin 3)) :=
      [.step 0 (), .step 1 (), .step 0 (), .step 1 (), .step 0 (), .step 1 (),
        .step 1 (), .step 1 (), .step 1 (), .evolve (⟨1000, by decide⟩ : Millis),
        .step 2 (), .step 2 (), .step 2 ()]
    let leaky : LeakyBucketLimiter := ⟨1, 1⟩
    let leakyActions : List (Action (localMachine leaky.loop) (Fin 3)) :=
      [.step 0 (), .step 1 (), .step 0 (), .step 1 (), .step 0 (), .step 1 (),
        .step 1 (), .step 1 (), .step 1 (), .evolve (⟨1000, by decide⟩ : Millis),
        .step 2 (), .step 2 (), .step 2 ()]
    (admittedCost request
        ((localSystem token.loop Json.tokenBucket request start).run tokenActions)
        "token_bucket/alice//" (BucketView.within token.loop 0 1000) : ℚ) ≤
      token.bucket.capacity + token.bucket.rate * (1000 - 0) / 1000 ∧
    (admittedCost request
        ((localSystem leaky.loop Json.leakyBucket request start).run leakyActions)
        "leaky_bucket/alice//" (BucketView.within leaky.loop 0 1000) : ℚ) ≤
      leaky.bucket.capacity + leaky.bucket.rate * (1000 - 0) / 1000 := by
  intro request start token tokenActions leaky leakyActions
  constructor
  · exact (buckets_within_envelope token leaky).1 (by decide) (by decide)
      Json.tokenBucket request start tokenActions _ (by decide +kernel)
      (by decide +kernel) 0 1000 (by decide)
  · exact (buckets_within_envelope token leaky).2 (by decide) Json.leakyBucket
      request start leakyActions _ (by decide +kernel) (by decide +kernel) 0 1000
      (by decide)

/-- The second call reads its clock at zero and commits after the third has been
admitted at one second. The stored time goes back to zero, and the fourth is
admitted from the same second. -/
theorem late_commit_refills_twice :
    let request : Fin 4 → CheckRequest := fun _ => ⟨"alice", "/", 1⟩
    let start : Millis := ⟨0, by decide⟩
    let token : TokenBucketLimiter := ⟨1, 1⟩
    let tokenActions : List (Action (localMachine token.loop) (Fin 4)) :=
      [.step 0 (), .step 0 (), .step 0 (), .step 1 (),
        .evolve (⟨1000, by decide⟩ : Millis), .step 2 (), .step 2 (), .step 2 (),
        .step 1 (), .step 1 (), .step 3 (), .step 3 (), .step 3 ()]
    let tokenConfig :=
      (localSystem token.loop Json.tokenBucket request start).run tokenActions
    let leaky : LeakyBucketLimiter := ⟨1, 1⟩
    let leakyActions : List (Action (localMachine leaky.loop) (Fin 4)) :=
      [.step 0 (), .step 0 (), .step 0 (), .step 1 (),
        .evolve (⟨1000, by decide⟩ : Millis), .step 2 (), .step 2 (), .step 2 (),
        .step 1 (), .step 1 (), .step 3 (), .step 3 (), .step 3 ()]
    let leakyConfig :=
      (localSystem leaky.loop Json.leakyBucket request start).run leakyActions
    (LocalTrace.nonDecreasing start tokenActions ∧
      (LocalTrace.writes tokenConfig.trace).length = 4 ∧
      ¬ (admittedCost request tokenConfig "token_bucket/alice//"
          (BucketView.within token.loop 0 1000) : ℚ) ≤
        token.capacity + token.refillRate * (1000 - 0) / 1000) ∧
    (LocalTrace.nonDecreasing start leakyActions ∧
      (LocalTrace.writes leakyConfig.trace).length = 4 ∧
      ¬ (admittedCost request leakyConfig "leaky_bucket/alice//"
          (BucketView.within leaky.loop 0 1000) : ℚ) ≤
        leaky.cap + leaky.leakRate * (1000 - 0) / 1000) := by
  decide +kernel

end RateLimiting
