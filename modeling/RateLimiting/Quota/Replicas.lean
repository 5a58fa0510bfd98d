import RateLimiting.Concurrency.EtcdSerial
import RateLimiting.Quota.FixedWindow
import RateLimiting.Quota.RateEnvelope
import RateLimiting.Quota.SlidingWindowCounter
import RateLimiting.Quota.SlidingWindowLog
import RateLimiting.Store.Lawful

/-! # What replicas admit together

Replicas of one limiter share an etcd and nothing else. What they admit together,
and what they charge without hearing of it, keeps to the quota of one limiter,
whichever RPCs fail. -/

namespace RateLimiting

open CheckTrace EtcdTrace

structure EtcdRun (loop : CheckLoop) (ι : Type) [DecidableEq ι] where
  json : SerdeJson loop.State
  store : EtcdStore
  request : ι → CheckRequest
  start : loop.Time
  server : Etcd
  numbered : server.Numbered
  actions : List (Action (etcdMachine loop) ι)
  within : WithinRevisions server
    ((etcdSystem loop json store request start server).run actions).trace

namespace EtcdRun

variable {loop : CheckLoop} {ι : Type} [DecidableEq ι] (run : EtcdRun loop ι)

def state : Config (etcdMachine loop) ι Decision :=
  (etcdSystem loop run.json run.store run.request run.start run.server).run run.actions

theorem serializes :
    EtcdSerializes run.json run.store run.request run.server run.state :=
  etcdSerializes_run run.start run.numbered run.actions run.within

def applied : History loop ι :=
  history run.json run.request run.state.trace

def acknowledged : History loop ι :=
  EtcdTrace.acknowledged run.json run.request run.state.trace

/-- A history that explains what the server holds under a key to begin with, such as
that of an earlier run. An absent key has the empty one. -/
structure Prior (key : String) where
  past : History loop ι
  serial : past.Serial
  final : past.final = heldState run.json run.server (run.store.fullKey key)

variable {run} {key : String}

def Prior.absent (isAbsent : run.server.kvs (run.store.fullKey key) = none) :
    run.Prior key where
  past := []
  serial := .nil
  final := by simp [heldState, isAbsent]

def Prior.history (prior : run.Prior key) : History loop ι :=
  prior.past ++ run.applied.on (run.store.fullKey key)

theorem Prior.serial_history (prior : run.Prior key) : prior.history.Serial :=
  run.serializes.serial _ prior.past prior.serial prior.final

/-! ## What the calls returned -/

variable (run) in
/-- The total cost of the calls on a key that returned an admission and whose last
clock reading, that of the pass that committed, is in some range. -/
def admittedCost [Fintype ι] (key : String) (within : loop.Time → Bool) : Nat :=
  ∑ call, if (run.request call).key loop = key ∧
      (run.state.result call).any Decision.allowed ∧
      (captured call run.state.trace).any within
    then (run.request call).cost.toNat else 0

variable (run) in
theorem nodup_acknowledged : (run.acknowledged.map Commit.call).Nodup := by
  rw [List.nodup_iff_count_le_one]
  intro call
  have answered := congrArg List.length (run.serializes.answered call).decisions
  rw [List.length_map] at answered
  have single := answered.trans_le Option.length_toList_le
  rw [List.count, List.countP_map, List.countP_eq_length_filter]
  exact single

theorem returned_of_acknowledged {commit : Commit loop ι} (member : commit ∈ run.acknowledged) :
    run.state.result commit.call = some commit.decision := by
  have heard : commit.decision ∈ (ordinary run.state commit.call).toList := by
    rw [← (run.serializes.answered commit.call).decisions]
    exact List.mem_map_of_mem (List.mem_filter.mpr ⟨member, decide_eq_true rfl⟩)
  exact (Option.filter_eq_some_iff.mp (Option.mem_toList.mp heard)).1

theorem denied_of_unacknowledged {call : ι}
    (absent : call ∉ run.acknowledged.map Commit.call) :
    (run.state.result call).any Decision.allowed = false := by
  have answered := (run.serializes.answered call).decisions
  rw [List.filter_eq_nil_iff.mpr] at answered
  · cases isResult : run.state.result call with
    | none => rfl
    | some decision =>
        have isFallback : decision = loop.fallback := by
          simpa [ordinary, isResult, Option.filter] using answered
        rw [isFallback, Option.any_some, loop.fallback_denied]
  · intro commit member same
    rw [← of_decide_eq_true same] at absent
    exact absent (List.mem_map_of_mem member)

theorem admittedCost_eq_charged [Fintype ι] (key : String) (within : loop.Time → Bool) :
    run.admittedCost key within =
      (run.acknowledged.on (run.store.fullKey key)).charged within := by
  let cost := fun call => if (run.request call).key loop = key ∧
      (run.state.result call).any Decision.allowed ∧
      (captured call run.state.trace).any within
    then (run.request call).cost.toNat else 0
  have acknowledged : ∀ commit ∈ run.acknowledged, cost commit.call =
      if commit.key = run.store.fullKey key ∧ within commit.now then commit.charge
      else 0 := by
    intro commit member
    have applied := (acknowledged_sublist run.state.trace).subset member
    rcases run.serializes.worked commit applied with ⟨isKey, isCost⟩
    have reading := (run.serializes.answered commit.call).reading commit member rfl
    have sameKey : commit.key = run.store.fullKey key ↔
        (run.request commit.call).key loop = key := by
      rw [isKey, run.store.fullKey_injective.eq_iff]
    simp only [cost, sameKey, returned_of_acknowledged member, reading, Option.any_some,
      Commit.charge, Commit.allowed, ← isCost]
    by_cases allowed : commit.decision.allowed = true <;> simp [allowed]
  have unacknowledged : ∀ call, call ∉ run.acknowledged.map Commit.call →
      cost call = 0 := by
    intro call absent
    simp [cost, denied_of_unacknowledged absent]
  calc ∑ call, cost call
      = ∑ call ∈ (run.acknowledged.map Commit.call).toFinset, cost call := by
        refine (Finset.sum_subset (Finset.subset_univ _) ?_).symm
        intro call _ absent
        exact unacknowledged call (by simpa using absent)
    _ = ((run.acknowledged.map Commit.call).map cost).sum :=
        List.sum_toFinset cost run.nodup_acknowledged
    _ = (run.acknowledged.map fun commit =>
          if commit.key = run.store.fullKey key ∧ within commit.now then commit.charge
          else 0).sum := by
        rw [List.map_map]
        exact congrArg List.sum (List.map_congr_left acknowledged)
    _ = (run.acknowledged.on (run.store.fullKey key)).charged within :=
        (History.charged_on _ _ within).symm

theorem Prior.admittedCost_le [Fintype ι] (prior : run.Prior key)
    (within : loop.Time → Bool) :
    prior.past.charged within + run.admittedCost key within ≤
      prior.history.charged within := by
  have heard : (run.acknowledged.on (run.store.fullKey key)).Sublist
      (run.applied.on (run.store.fullKey key)) :=
    (acknowledged_sublist run.state.trace).filter _
  have charged := (heard.map fun commit =>
    if within commit.now then commit.charge else 0).sum_le_sum fun _ _ => Nat.zero_le _
  rw [admittedCost_eq_charged, Prior.history, History.charged, History.charged,
    History.charged, List.map_append, List.sum_append]
  exact Nat.add_le_add_left charged _

end EtcdRun

/-! ## The quotas -/

/-- In every run of replicas whose checks on a key are timely, what is charged in a
window, and so what the calls admit in it, is at most the quota. -/
def WindowCounter.HoldsOverEtcd {loop : CheckLoop} (counter : WindowCounter loop) : Prop :=
  ∀ {ι : Type} [DecidableEq ι] [Fintype ι] (run : EtcdRun loop ι) (key : String)
    (prior : run.Prior key),
  (∀ commit ∈ prior.history, counter.Timely commit) → ∀ window,
    prior.past.charged (counter.within window) +
        run.admittedCost key (counter.within window) ≤
      prior.history.charged (counter.within window) ∧
    prior.history.charged (counter.within window) ≤ counter.quota

theorem WindowCounter.holdsOverEtcd {loop : CheckLoop} {counter : WindowCounter loop}
    (lawful : counter.Lawful) : counter.HoldsOverEtcd := by
  intro ι _ _ run key prior timely window
  have counted := counted_of_serial lawful prior.serial_history timely
  exact ⟨prior.admittedCost_le _, counted.quota window⟩

/-- Replicas that count per window keep to the quota of one window together, what
they charge and do not hear of included. -/
theorem window_counters_hold_over_etcd (fixed : FixedWindowLimiter)
    (sliding : SlidingWindowCounterLimiter) :
    fixed.windows.HoldsOverEtcd ∧ sliding.windows.HoldsOverEtcd :=
  ⟨WindowCounter.holdsOverEtcd fixed.windows_lawful,
    WindowCounter.holdsOverEtcd sliding.windows_lawful⟩

/-- The first call is charged without hearing of it and starts over; the read of the
second one fails. -/
theorem window_counters_hold_over_etcd_failures :
    let fixed : FixedWindowLimiter := ⟨2, 1⟩
    let fixedRun : EtcdRun fixed.loop (Fin 2) := {
      json := Json.fixedWindow
      store := ⟨"/rate-limiter"⟩
      request := fun _ => ⟨"alice", "/", 1⟩
      start := (0 : UInt64)
      server := ⟨fun _ => none, 1⟩
      numbered := .empty (by decide)
      actions := [.step 0 .ok, .step 0 .ok, .step 0 .unacknowledged, .step 0 .ok,
        .step 1 .ok, .step 1 .failed, .step 1 .ok, .step 1 .ok,
        .step 0 .ok, .step 0 .ok, .step 0 .ok, .step 1 .ok, .step 1 .ok, .step 1 .ok]
      within := by decide +kernel }
    let fixedPrior : fixedRun.Prior "fixed_window/alice//" := .absent rfl
    let sliding : SlidingWindowCounterLimiter := ⟨2, 1⟩
    let slidingRun : EtcdRun sliding.loop (Fin 2) := {
      json := Json.slidingWindowCounter
      store := ⟨"/rate-limiter"⟩
      request := fun _ => ⟨"alice", "/", 1⟩
      start := (0 : UInt64)
      server := ⟨fun _ => none, 1⟩
      numbered := .empty (by decide)
      actions := [.step 0 .ok, .step 0 .ok, .step 0 .unacknowledged, .step 0 .ok,
        .step 0 .ok, .step 0 .ok, .step 0 .ok, .evolve (1 : UInt64),
        .step 1 .ok, .step 1 .ok, .step 1 .ok]
      within := by decide +kernel }
    let slidingPrior : slidingRun.Prior "sliding_window_counter/alice//" := .absent rfl
    (fixedPrior.past.charged (fixed.windows.within 0) +
          fixedRun.admittedCost "fixed_window/alice//" (fixed.windows.within 0) ≤
        fixedPrior.history.charged (fixed.windows.within 0) ∧
      fixedPrior.history.charged (fixed.windows.within 0) ≤ fixed.windows.quota) ∧
    (slidingPrior.past.charged (sliding.windows.within 0) +
          slidingRun.admittedCost "sliding_window_counter/alice//"
            (sliding.windows.within 0) ≤
        slidingPrior.history.charged (sliding.windows.within 0) ∧
      slidingPrior.history.charged (sliding.windows.within 0) ≤ sliding.windows.quota) := by
  intro fixed fixedRun fixedPrior sliding slidingRun slidingPrior
  have quotas := window_counters_hold_over_etcd fixed sliding
  exact ⟨quotas.1 fixedRun _ fixedPrior (by decide +kernel) 0,
    quotas.2 slidingRun _ slidingPrior (by decide +kernel) 0⟩

/-- Replicas that keep a log admit at most `max_requests` in every window, as long as
no check drops a timestamp that one applied after it still counts. -/
theorem SlidingWindowLogLimiter.log_holds_over_etcd (maxRequests windowSecs : UInt64)
    (windowFits : windowSecs.toNat * 1000 < 2 ^ 63) {ι : Type} [DecidableEq ι]
    [Fintype ι] (run : EtcdRun (new maxRequests windowSecs).loop ι) {key : String}
    (prior : run.Prior key)
    (retains : prior.history.Pairwise (new maxRequests windowSecs).RetainsFor)
    (time : Int) :
    prior.past.charged ((new maxRequests windowSecs).within time) +
        run.admittedCost key ((new maxRequests windowSecs).within time) ≤
      prior.history.charged ((new maxRequests windowSecs).within time) ∧
    prior.history.charged ((new maxRequests windowSecs).within time) ≤
      maxRequests.toNat := by
  have windowNonneg : 0 ≤ (new maxRequests windowSecs).windowMs.toInt := by
    rw [new_windowMs maxRequests windowFits]
    omega
  exact ⟨prior.admittedCost_le _,
    charged_within_le windowNonneg prior.serial_history retains time⟩

/-- A call is charged twice, the first time without hearing of it, and the other one is
denied. -/
theorem SlidingWindowLogLimiter.log_holds_over_etcd_lost_answer :
    let run : EtcdRun (new 2 1).loop (Fin 2) := {
      json := Json.slidingWindowLog
      store := ⟨"/rate-limiter"⟩
      request := fun _ => ⟨"alice", "/", 1⟩
      start := (⟨0, by decide⟩ : Millis)
      server := ⟨fun _ => none, 1⟩
      numbered := .empty (by decide)
      actions := [.step 0 .ok, .step 0 .ok, .step 0 .unacknowledged, .step 0 .ok,
        .evolve (⟨999, by decide⟩ : Millis), .step 0 .ok, .step 0 .ok, .step 0 .ok,
        .step 1 .ok, .step 1 .ok, .step 1 .ok]
      within := by decide +kernel }
    let prior : run.Prior "sliding_window_log/alice//" := .absent rfl
    prior.past.charged ((new 2 1).within 999) +
        run.admittedCost "sliding_window_log/alice//" ((new 2 1).within 999) ≤
      prior.history.charged ((new 2 1).within 999) ∧
    prior.history.charged ((new 2 1).within 999) ≤ (2 : UInt64).toNat := by
  intro run prior
  exact log_holds_over_etcd 2 1 (by decide) run prior (by decide +kernel) 999

/-- In every run of replicas whose checks on a key are in order, what is charged
between two times is at most the capacity and what is refilled between them. -/
def BucketView.HoldsOverEtcd {loop : CheckLoop} (view : BucketView loop) : Prop :=
  ∀ {ι : Type} [DecidableEq ι] [Fintype ι] (run : EtcdRun loop ι) (key : String)
    (prior : run.Prior key),
  (∀ commit ∈ prior.history, view.InOrder commit) →
  ∀ first last : ℚ, first ≤ last →
    prior.past.charged (BucketView.within loop first last) +
        run.admittedCost key (BucketView.within loop first last) ≤
      prior.history.charged (BucketView.within loop first last) ∧
    (prior.history.charged (BucketView.within loop first last) : ℚ) ≤
      view.capacity + view.rate * (last - first) / 1000

theorem BucketView.holdsOverEtcd {loop : CheckLoop} {view : BucketView loop}
    (lawful : view.Lawful) (capacityNonneg : 0 ≤ view.capacity)
    (rateNonneg : 0 ≤ view.rate) : view.HoldsOverEtcd := by
  intro ι _ _ run key prior inOrder first last ordered
  have metered := metered_of_serial lawful capacityNonneg rateNonneg
    prior.serial_history inOrder
  have bound := Bucket.total_between_le capacityNonneg
    (div_nonneg rateNonneg (by norm_num)) metered.conforming metered.sorted ordered
  refine ⟨prior.admittedCost_le _, ?_⟩
  rw [← total_grants_within]
  calc _ ≤ view.capacity + (last - first) * (view.rate / 1000) := bound
    _ = view.capacity + view.rate * (last - first) / 1000 := by ring

/-- Both buckets keep to their envelope over etcd. -/
theorem buckets_hold_over_etcd (token : TokenBucketLimiter) (leaky : LeakyBucketLimiter) :
    (0 ≤ token.capacity → 0 ≤ token.refillRate → token.bucket.HoldsOverEtcd) ∧
      (0 ≤ leaky.leakRate → leaky.bucket.HoldsOverEtcd) := by
  constructor
  · intro capacityNonneg rateNonneg
    exact BucketView.holdsOverEtcd token.bucket_lawful capacityNonneg rateNonneg
  · intro rateNonneg
    exact BucketView.holdsOverEtcd leaky.bucket_lawful (Nat.cast_nonneg _) rateNonneg

theorem buckets_hold_over_etcd_lost_answer :
    let token : TokenBucketLimiter := ⟨1, 1⟩
    let tokenRun : EtcdRun token.loop (Fin 1) := {
      json := Json.tokenBucket
      store := ⟨"/rate-limiter"⟩
      request := fun _ => ⟨"alice", "/", 1⟩
      start := (⟨0, by decide⟩ : Millis)
      server := ⟨fun _ => none, 1⟩
      numbered := .empty (by decide)
      actions := [.step 0 .ok, .step 0 .ok, .step 0 .unacknowledged, .step 0 .ok,
        .evolve (⟨500, by decide⟩ : Millis), .step 0 .ok, .step 0 .ok, .step 0 .ok]
      within := by decide +kernel }
    let tokenPrior : tokenRun.Prior "token_bucket/alice//" := .absent rfl
    let leaky : LeakyBucketLimiter := ⟨1, 1⟩
    let leakyRun : EtcdRun leaky.loop (Fin 1) := {
      json := Json.leakyBucket
      store := ⟨"/rate-limiter"⟩
      request := fun _ => ⟨"alice", "/", 1⟩
      start := (⟨0, by decide⟩ : Millis)
      server := ⟨fun _ => none, 1⟩
      numbered := .empty (by decide)
      actions := [.step 0 .ok, .step 0 .ok, .step 0 .unacknowledged, .step 0 .ok,
        .evolve (⟨500, by decide⟩ : Millis), .step 0 .ok, .step 0 .ok, .step 0 .ok]
      within := by decide +kernel }
    let leakyPrior : leakyRun.Prior "leaky_bucket/alice//" := .absent rfl
    (tokenPrior.past.charged (BucketView.within token.loop 0 1000) +
          tokenRun.admittedCost "token_bucket/alice//"
            (BucketView.within token.loop 0 1000) ≤
        tokenPrior.history.charged (BucketView.within token.loop 0 1000) ∧
      (tokenPrior.history.charged (BucketView.within token.loop 0 1000) : ℚ) ≤
        token.bucket.capacity + token.bucket.rate * (1000 - 0) / 1000) ∧
    (leakyPrior.past.charged (BucketView.within leaky.loop 0 1000) +
          leakyRun.admittedCost "leaky_bucket/alice//"
            (BucketView.within leaky.loop 0 1000) ≤
        leakyPrior.history.charged (BucketView.within leaky.loop 0 1000) ∧
      (leakyPrior.history.charged (BucketView.within leaky.loop 0 1000) : ℚ) ≤
        leaky.bucket.capacity + leaky.bucket.rate * (1000 - 0) / 1000) := by
  intro token tokenRun tokenPrior leaky leakyRun leakyPrior
  constructor
  · exact (buckets_hold_over_etcd token leaky).1 (by decide) (by decide) tokenRun _
      tokenPrior (by decide +kernel) 0 1000 (by decide)
  · exact (buckets_hold_over_etcd token leaky).2 (by decide) leakyRun _ leakyPrior
      (by decide +kernel) 0 1000 (by decide)

end RateLimiting
