import RateLimiting.Concurrency.EtcdSystem
import RateLimiting.Concurrency.LocalSystem
import RateLimiting.Config
import RateLimiting.Foundation.Contract
import RateLimiting.Store.Json

/-! # What is stored is in range

The step of each limiter takes a state in range to one in range at every clock
reading, so it does not matter in which order the checks commit. -/

namespace RateLimiting

/-! ## Checks over a store that keeps good bytes -/

def Contract.withClock {I : Interface} (Time : Type) (contract : Contract I) :
    Contract (checkInterface Time I) where
  permits
    | .now => True
    | .store op => contract.permits op
  promises
    | .now, _ => True
    | .store op, reply => contract.promises op reply

theorem Program.Honors.onStore {I : Interface} {α : Type} {contract : Contract I}
    {result : α → Prop} {program : Program I α} (honors : program.Honors contract result)
    (Time : Type) :
    (program.onStore Time).Honors (contract.withClock Time) result := by
  induction honors with
  | pure isResult => exact .pure isResult
  | request permitted _ induction => exact .request permitted induction

theorem checkMachine_upholds {I : Interface} {m : Machine I} {contract : Contract I}
    {invariant : m.World → Prop} (upholds : m.Upholds contract invariant) (Time : Type) :
    (checkMachine Time m).Upholds (contract.withClock Time)
      fun world => invariant world.store where
  evolve _ _ holds := holds
  reply op choice world permitted holds := by
    cases op with
    | now => trivial
    | store op => exact upholds.reply op choice _ permitted holds
  keep op choice world permitted holds := by
    cases op with
    | now => exact holds
    | store op => exact upholds.keep op choice _ permitted holds

/-- A store that is only asked to write good bytes returns good bytes. -/
structure StateStore.Guards {I : Interface} (store : StateStore I)
    (contract : Contract I) (good : Bytes → Prop) : Prop where
  get : ∀ key, (store.get key).Honors contract fun entry =>
    ∀ found ∈ entry, good found.1
  cas : ∀ key expected value, good value →
    (store.cas key expected value).Honors contract fun _ => True

/-- The states in a range that the steps of a loop do not leave. -/
structure CheckLoop.Confines (loop : CheckLoop) (inRange : loop.State → Prop) : Prop where
  fresh : ∀ now, inRange (loop.fresh now)
  step : ∀ now state cost, inRange state → inRange (loop.step now state cost).1

def SerdeJson.Encodes {State : Type} (json : SerdeJson State) (inRange : State → Prop)
    (bytes : Bytes) : Prop :=
  ∃ state, inRange state ∧ bytes = json.toVec state

section Checks

variable {loop : CheckLoop} {inRange : loop.State → Prop}
  (confines : loop.Confines inRange) {json : SerdeJson loop.State} {I : Interface}
  {store : StateStore I} {contract : Contract I}
  (guards : store.Guards contract (json.Encodes inRange))
include confines guards

theorem CheckLoop.attempt_honors (key : String) (cost : UInt32) :
    (loop.attempt json store key cost).Honors (contract.withClock loop.Time)
      fun _ => True := by
  apply (Program.Honors.perform trivial).bind
  intro now _
  apply ((guards.get key).onStore loop.Time).bind
  intro entry encoded
  have found : inRange (loop.load json now entry).1 := by
    rw [load_state]
    cases entry with
    | none => exact confines.fresh now
    | some found =>
        rcases encoded found rfl with ⟨state, within, bytes⟩
        rw [Option.bind_some, bytes, json.fromSlice_toVec]
        exact within
  have good := confines.step now _ cost found
  apply ((guards.cas key _ _ ⟨_, good, rfl⟩).onStore loop.Time).bind
  intro result _
  exact .pure trivial

theorem CheckLoop.retry_honors (key : String) (cost : UInt32) (attempts : Nat) :
    (loop.retry json store key cost attempts).Honors (contract.withClock loop.Time)
      fun _ => True := by
  induction attempts with
  | zero => exact .pure trivial
  | succ attempts induction =>
      apply (attempt_honors confines guards key cost).bind
      intro result _
      cases result with
      | none => exact induction
      | some decision => exact .pure trivial

theorem CheckLoop.check_honors (clientId resource : String) (cost : UInt32) :
    (loop.check json store clientId resource cost).Honors (contract.withClock loop.Time)
      fun _ => True :=
  retry_honors confines guards _ cost 5

end Checks

/-! ## The two stores -/

theorem mem_update {K V : Type} [DecidableEq K] {map : K → Option V} {key other : K}
    {value found : V} (member : found ∈ Function.update map key (some value) other) :
    found = value ∨ found ∈ map other := by
  by_cases same : other = key
  · subst same
    rw [Function.update_self, Option.mem_some_iff] at member
    exact .inl member.symm
  · rw [Function.update_of_ne same] at member
    exact .inr member

namespace LocalStore

variable {good : Bytes → Prop}

def contract (good : Bytes → Prop) : Contract interface where
  permits
    | .insert _ entry => good entry.1
    | .cas _ _ value => good value
    | _ => True
  promises
    | .get _, entry => ∀ found ∈ entry, good found.1
    | _, _ => True

def Holds (good : Bytes → Prop) (store : LocalStore) : Prop :=
  ∀ key, ∀ found ∈ store.state key, good found.1

theorem Holds.insert {store : LocalStore} (holds : store.Holds good) (key : String)
    {entry : Bytes × Int64} (isGood : good entry.1) :
    (store.insert key entry).Holds good := by
  intro other found member
  rcases mem_update member with rfl | before
  · exact isGood
  · exact holds other found before

theorem Holds.cas {store : LocalStore} (holds : store.Holds good) (key : String)
    (expected : Option Int64) {value : Bytes} (isGood : good value) :
    (store.cas key expected value).2.Holds good := by
  cases accepted : store.accepts key expected with
  | false =>
      rw [cas_of_not_accepts _ _ _ _ accepted]
      exact holds
  | true =>
      rw [cas_of_accepts _ _ _ _ accepted]
      intro other found member
      rcases mem_update member with rfl | before
      · exact isGood
      · exact holds other found before

theorem machine_upholds : machine.Upholds (contract good) (Holds good) where
  evolve change := nomatch change
  reply op choice store _ holds := by
    cases op with
    | get key => exact holds key
    | _ => trivial
  keep op choice store permitted holds := by
    cases op with
    | get key => exact holds
    | nextVersion => exact holds
    | insert key entry => exact holds.insert key permitted
    | cas key expected value => exact holds.cas key expected permitted

theorem guards : stateStore.Guards (contract good) good where
  get _ := .request trivial fun _ promised => .pure promised
  cas _ _ _ isGood := .request isGood fun _ _ => .pure trivial

end LocalStore

namespace EtcdStore

variable (store : EtcdStore) {good : Bytes → Prop}

def contract (good : Bytes → Prop) : Contract Etcd.interface where
  permits
    | .get fullKey => ∃ key, fullKey = store.fullKey key
    | .put _ value => good value
    | .txn txn => good txn.value
  promises
    | .get _, response => ∀ found ∈ entry response, good found.1
    | _, _ => True

def Holds (good : Bytes → Prop) (server : Etcd) : Prop :=
  ∀ key, ∀ kv ∈ server.kvs (store.fullKey key), good kv.value

variable {store}

theorem Holds.put {server : Etcd} (holds : store.Holds good server) (fullKey : String)
    {value : Bytes} (isGood : good value) :
    store.Holds good (server.put fullKey value) := by
  intro key kv member
  rcases mem_update member with rfl | before
  · exact isGood
  · exact holds key kv before

theorem Holds.txn {server : Etcd} (holds : store.Holds good server) {txn : Txn}
    (isGood : good txn.value) : store.Holds good (server.txn txn).2 := by
  unfold Etcd.txn
  split
  · exact holds.put txn.key isGood
  · exact holds

theorem Holds.entry {server : Etcd} (holds : store.Holds good server) (key : String)
    (choice : RpcOutcome) :
    ∀ found ∈ EtcdStore.entry (Etcd.perform (.get (store.fullKey key)) choice server).1,
      good found.1 := by
  intro found member
  cases choice with
  | ok =>
      cases stored : server.kvs (store.fullKey key) with
      | none => simp [Etcd.perform, stored, EtcdStore.entry] at member
      | some kv =>
          simp [Etcd.perform, stored, EtcdStore.entry] at member
          rw [← member]
          exact holds key kv stored
  | failed => simp [Etcd.perform, EtcdStore.entry] at member
  | unacknowledged => simp [Etcd.perform, EtcdStore.entry] at member

theorem machine_upholds :
    Etcd.machine.Upholds (store.contract good) (store.Holds good) where
  evolve change := nomatch change
  reply op choice server permitted holds := by
    cases op with
    | get fullKey =>
        rcases permitted with ⟨key, rfl⟩
        exact holds.entry key choice
    | _ => trivial
  keep op choice server permitted holds := by
    cases op with
    | get fullKey => cases choice <;> exact holds
    | put fullKey value =>
        cases choice with
        | ok => exact holds.put fullKey permitted
        | failed => exact holds
        | unacknowledged => exact holds.put fullKey permitted
    | txn txn =>
        cases choice with
        | ok => exact holds.txn permitted
        | failed => exact holds
        | unacknowledged => exact holds.txn permitted

theorem guards : store.stateStore.Guards (store.contract good) good where
  get key := .request ⟨key, rfl⟩ fun _ promised => .pure promised
  cas key expected value isGood := by
    have conflict : (EtcdStore.conflict (store.fullKey key)).Honors
        (store.contract good) fun _ => True :=
      .request ⟨key, rfl⟩ fun _ _ => .pure trivial
    apply Program.Honors.request isGood
    intro response _
    cases response with
    | none => exact conflict
    | some answer =>
        change (if answer.succeeded then _ else _ : Program _ _).Honors _ _
        split
        · exact .pure trivial
        · exact conflict

end EtcdStore

section Runs

variable {loop : CheckLoop} {inRange : loop.State → Prop}
  (confines : loop.Confines inRange) {json : SerdeJson loop.State} {ι : Type}
  [DecidableEq ι] (request : ι → CheckRequest) (start : loop.Time)
include confines

theorem CheckLoop.Confines.local_run (actions : List (Action (localMachine loop) ι)) :
    LocalStore.Holds (json.Encodes inRange)
      ((localSystem loop json request start).run actions).world.store := by
  have started : (localSystem loop json request start).Honored
      ((LocalStore.contract (json.Encodes inRange)).withClock loop.Time)
      (fun world : CheckWorld loop.Time LocalStore =>
        world.store.Holds (json.Encodes inRange)) fun _ => True :=
    ⟨fun _ _ member => (nomatch member), fun _ =>
      CheckLoop.check_honors confines LocalStore.guards _ _ _⟩
  exact (started.run (checkMachine_upholds LocalStore.machine_upholds _) actions).world

theorem CheckLoop.Confines.etcd_run {store : EtcdStore} {server : Etcd}
    (clean : ∀ key, server.kvs (store.fullKey key) = none)
    (actions : List (Action (etcdMachine loop) ι)) :
    store.Holds (json.Encodes inRange)
      ((etcdSystem loop json store request start server).run actions).world.store := by
  have started : (etcdSystem loop json store request start server).Honored
      ((store.contract (json.Encodes inRange)).withClock loop.Time)
      (fun world : CheckWorld loop.Time Etcd =>
        store.Holds (json.Encodes inRange) world.store) fun _ => True := by
    refine ⟨fun key kv member => ?_, fun _ =>
      CheckLoop.check_honors confines EtcdStore.guards _ _ _⟩
    change kv ∈ server.kvs (store.fullKey key) at member
    rw [clean key] at member
    exact nomatch member
  exact (started.run (checkMachine_upholds EtcdStore.machine_upholds _) actions).world

end Runs

/-! ## The ranges -/

theorem FixedWindowLimiter.confines (limiter : FixedWindowLimiter) :
    limiter.loop.Confines fun state => state.count ≤ limiter.maxRequests where
  fresh _ := UInt64.zero_le
  step now state cost within := by
    have counted : limiter.count now state ≤ limiter.maxRequests := by
      unfold count
      split
      · exact within
      · exact UInt64.zero_le
    change (limiter.step now state cost).1.count ≤ _
    rw [step_state, step_allowed]
    split
    · next fits => exact of_decide_eq_true fits
    · exact counted

theorem SlidingWindowLogLimiter.confines (limiter : SlidingWindowLogLimiter) :
    limiter.loop.Confines fun state =>
      state.timestampsMs.length ≤ limiter.maxRequests.toNat where
  fresh _ := Nat.zero_le _
  step now state cost within := by
    change (limiter.step now state cost).1.timestampsMs.length ≤ _
    rw [step_state, step_allowed]
    split
    · next fits =>
        rw [List.length_append, List.length_replicate]
        exact of_decide_eq_true fits
    · exact (List.length_filter_le _ _).trans within

theorem SlidingWindowCounterLimiter.confines (limiter : SlidingWindowCounterLimiter) :
    limiter.loop.Confines fun state =>
      state.prevCount.toNat ≤ limiter.maxRequests.toNat ∧
        state.currCount.toNat ≤ limiter.maxRequests.toNat where
  fresh _ := ⟨Nat.zero_le _, Nat.zero_le _⟩
  step now state cost within := by
    have counted : (limiter.counts now state).1.toNat ≤ limiter.maxRequests.toNat ∧
        (limiter.counts now state).2.toNat ≤ limiter.maxRequests.toNat := by
      simp only [counts]
      split
      · exact within
      · split
        · exact ⟨within.2, Nat.zero_le _⟩
        · exact ⟨Nat.zero_le _, Nat.zero_le _⟩
    constructor
    · change (limiter.step now state cost).1.prevCount.toNat ≤ _
      rw [step_state]
      exact counted.1
    · change (limiter.step now state cost).1.currCount.toNat ≤ _
      rw [step_currCount]
      split
      · next allowed => exact limiter.counts_add_le_of_allowed allowed
      · exact counted.2

theorem TokenBucketLimiter.confines (limiter : TokenBucketLimiter)
    (capacityNonneg : 0 ≤ limiter.capacity) (rateNonneg : 0 ≤ limiter.refillRate) :
    limiter.loop.Confines fun state =>
      0 ≤ state.tokens ∧ state.tokens ≤ limiter.capacity where
  fresh _ := ⟨capacityNonneg, le_rfl⟩
  step now state cost within :=
    ⟨step_tokens_nonneg (tokens_nonneg capacityNonneg rateNonneg within.1 now) cost,
      (limiter.step_tokens_le now state cost).trans (min_le_right _ _)⟩

theorem LeakyBucketLimiter.confines (limiter : LeakyBucketLimiter)
    (rateNonneg : 0 ≤ limiter.leakRate) :
    limiter.loop.Confines fun state =>
      0 ≤ state.queue ∧ state.queue ≤ limiter.cap where
  fresh _ := ⟨le_rfl, Nat.cast_nonneg _⟩
  step now state cost within := by
    have drained : limiter.queue now state ≤ limiter.cap := by
      apply max_le _ (Nat.cast_nonneg _)
      exact (sub_le_self _ (mul_nonneg (elapsedSecs_nonneg ..) rateNonneg)).trans
        within.2
    exact ⟨(limiter.queue_nonneg now state).trans
        (limiter.queue_le_step_queue now state cost), step_queue_le_cap drained cost⟩

/-- The range of the states of a configuration. -/
def RateLimiterConfig.InRange : (config : RateLimiterConfig) →
    config.limiter.State → Prop
  | ⟨.fixedWindow, maxRequests, _, _, _, _, _⟩, state =>
      FixedWindow.State.count state ≤ maxRequests
  | ⟨.slidingWindowLog, maxRequests, _, _, _, _, _⟩, state =>
      (SlidingWindowLog.State.timestampsMs state).length ≤ maxRequests.toNat
  | ⟨.slidingWindowCounter, maxRequests, _, _, _, _, _⟩, state =>
      (SlidingWindowCounter.State.prevCount state).toNat ≤ maxRequests.toNat ∧
        (SlidingWindowCounter.State.currCount state).toNat ≤ maxRequests.toNat
  | ⟨.tokenBucket, _, _, capacity, _, _, _⟩, state =>
      0 ≤ TokenBucket.State.tokens state ∧ TokenBucket.State.tokens state ≤ capacity
  | ⟨.leakyBucket, _, _, _, _, _, queueCapacity⟩, state =>
      0 ≤ LeakyBucket.State.queue state ∧
        LeakyBucket.State.queue state ≤ queueCapacity.toNat

theorem RateLimiterConfig.confines (config : RateLimiterConfig)
    (capacityNonneg : 0 ≤ config.bucketCapacity) (refillNonneg : 0 ≤ config.refillRate)
    (leakNonneg : 0 ≤ config.leakRate) : config.limiter.Confines config.InRange := by
  rcases config with ⟨algorithm, maxRequests, windowSecs, capacity, refill, leak, queue⟩
  cases algorithm with
  | fixedWindow => exact FixedWindowLimiter.confines ⟨maxRequests, windowSecs⟩
  | slidingWindowLog =>
      exact SlidingWindowLogLimiter.confines (.new maxRequests windowSecs)
  | slidingWindowCounter =>
      exact SlidingWindowCounterLimiter.confines ⟨maxRequests, windowSecs⟩
  | tokenBucket =>
      exact TokenBucketLimiter.confines ⟨capacity, refill⟩ capacityNonneg refillNonneg
  | leakyBucket => exact LeakyBucketLimiter.confines ⟨leak, queue⟩ leakNonneg

/-- Whatever the schedule and the clock do, over either store every stored value
is that of a state in range. -/
theorem RateLimiterConfig.stored_in_range (config : RateLimiterConfig)
    (capacityNonneg : 0 ≤ config.bucketCapacity) (refillNonneg : 0 ≤ config.refillRate)
    (leakNonneg : 0 ≤ config.leakRate) (json : SerdeJson config.limiter.State)
    {ι : Type} [DecidableEq ι] (request : ι → CheckRequest)
    (start : config.limiter.Time) :
    (∀ (actions : List (Action (localMachine config.limiter) ι)) (key : String),
      ∀ found ∈ ((localSystem config.limiter json request start).run
          actions).world.store.state key,
        json.Encodes config.InRange found.1) ∧
    ∀ (store : EtcdStore) (server : Etcd),
      (∀ key, server.kvs (store.fullKey key) = none) →
      ∀ (actions : List (Action (etcdMachine config.limiter) ι)) (key : String),
      ∀ kv ∈ ((etcdSystem config.limiter json store request start server).run
          actions).world.store.kvs (store.fullKey key),
        json.Encodes config.InRange kv.value := by
  have confines := config.confines capacityNonneg refillNonneg leakNonneg
  exact ⟨fun actions => confines.local_run request start actions,
    fun store server clean actions =>
      confines.etcd_run request start clean actions⟩

/-- Two checks at second one, the second of which commits after the clock has gone
back. -/
theorem RateLimiterConfig.stored_in_range_backward :
    let config : RateLimiterConfig := ⟨.tokenBucket, 1, 1, 2, 1, 1, 1⟩
    let actions : List (Action (localMachine config.limiter) (Fin 2)) :=
      [.step 0 (), .step 0 (), .step 0 (), .evolve (⟨0, by decide⟩ : Millis), .step 1 (),
        .step 1 (), .step 1 ()]
    ∀ found ∈ ((localSystem config.limiter Json.tokenBucket
        (fun _ => ⟨"alice", "/", 1⟩) (⟨1000, by decide⟩ : Millis)).run
          actions).world.store.state "token_bucket/alice//",
      Json.tokenBucket.Encodes config.InRange found.1 := by
  intro config actions
  exact (config.stored_in_range (by decide) (by decide) (by decide) Json.tokenBucket
    (fun _ => ⟨"alice", "/", 1⟩) (⟨1000, by decide⟩ : Millis)).1 actions _

end RateLimiting
