import RateLimiting.Concurrency.EtcdSystem
import RateLimiting.Config
import RateLimiting.Store.Json

/-! # Charging at most once over etcd

A transaction that is applied and then reports an error looks to the client like
a lost comparison: the check starts over and charges again. Apart from that, an
acknowledged charge is the last operation of a check that returns it. -/

namespace RateLimiting

open CheckTrace

namespace EtcdTrace

variable {loop : CheckLoop} (json : SerdeJson loop.State) (store : EtcdStore)
  {ι : Type} [DecidableEq ι] (request : ι → CheckRequest)

theorem charges_cons_of_not {event : Event (etcdMachine loop) ι} {call : ι}
    {older : EtcdTrace loop ι}
    (other : ¬ (event.thread = call ∧ isCharge json store request older event = true)) :
    charges json store request call (event :: older) =
      charges json store request call older :=
  if_neg other

end EtcdTrace

section Result

variable {loop : CheckLoop} {json : SerdeJson loop.State} {store : EtcdStore}
  {ι : Type} {request : ι → CheckRequest}

theorem result_retry {config : Config (etcdMachine loop) ι Decision} {call : ι}
    {attempts : Nat} (program : config.threads call = loop.retry json store.stateStore
      ((request call).key loop) (request call).cost attempts) :
    (config.result call).any Decision.allowed = false := by
  unfold Config.result
  rw [program]
  cases attempts with
  | zero => simp [CheckLoop.retry, loop.fallback_denied]
  | succ attempts =>
      rw [CheckLoop.retry_etcd]
      rfl

theorem result_request {config : Config (etcdMachine loop) ι Decision} {call : ι}
    {op : (checkInterface loop.Time Etcd.interface).Op}
    {next : (checkInterface loop.Time Etcd.interface).Reply op →
      Program (checkInterface loop.Time Etcd.interface) Decision}
    (program : config.threads call = .request op next) :
    (config.result call).any Decision.allowed = false := by
  unfold Config.result
  rw [program]
  rfl

end Result

section Invariant

open EtcdTrace

variable {loop : CheckLoop} (json : SerdeJson loop.State) (store : EtcdStore)
  {ι : Type} [DecidableEq ι] (request : ι → CheckRequest)

/-- The acknowledged charges of a call are its admission. -/
def ChargesAcknowledged (config : Config (etcdMachine loop) ι Decision) (call : ι) :
    Prop :=
  ((charges json store request call config.trace).countP
      fun event => event.choice = .ok) =
    if (config.result call).any Decision.allowed then 1 else 0

structure EtcdInvariant (config : Config (etcdMachine loop) ι Decision)
    (call : ι) : Prop where
  phase : CallPhase json store request config call
  acknowledged : ChargesAcknowledged json store request config call

variable {json store request}

theorem EtcdInvariant.initial (start : loop.Time) (server : Etcd) (call : ι) :
    EtcdInvariant json store request (etcdSystem loop json store request start server)
      call where
  phase := .ready 5 rfl
  acknowledged := by
    have program : (etcdSystem loop json store request start server).threads call =
        loop.retry json store.stateStore ((request call).key loop)
          (request call).cost 5 := rfl
    rw [ChargesAcknowledged, result_retry program]
    rfl

theorem ChargesAcknowledged.frame {config after : Config (etcdMachine loop) ι Decision}
    {call : ι} (acknowledged : ChargesAcknowledged json store request config call)
    {event : Event (etcdMachine loop) ι} (other : call ≠ event.thread)
    (trace : after.trace = event :: config.trace)
    (program : after.threads call = config.threads call) :
    ChargesAcknowledged json store request after call := by
  rw [ChargesAcknowledged, Config.result, program, trace,
    charges_cons_of_not json store request fun own => other own.1.symm]
  exact acknowledged

theorem ChargesAcknowledged.uncharged
    {config after : Config (etcdMachine loop) ι Decision}
    {event : Event (etcdMachine loop) ι}
    (acknowledged : ChargesAcknowledged json store request config event.thread)
    (before : (config.result event.thread).any Decision.allowed = false)
    (trace : after.trace = event :: config.trace)
    (unacknowledged : isCharge json store request config.trace event = true →
      event.choice ≠ .ok)
    (result : (after.result event.thread).any Decision.allowed = false) :
    ChargesAcknowledged json store request after event.thread := by
  rw [ChargesAcknowledged, before] at acknowledged
  rw [ChargesAcknowledged, result, trace]
  cases charge : isCharge json store request config.trace event with
  | false =>
      rw [charges_cons_of_not json store request (by simp [charge])]
      exact acknowledged
  | true =>
      rw [charges, if_pos ⟨rfl, charge⟩, List.countP_cons_of_neg]
      · exact acknowledged
      · simpa using unacknowledged charge

theorem perform_txn_succeeded (txn : Txn) (choice : RpcOutcome) (server : Etcd) :
    (Etcd.perform (.txn txn) choice server).1.any TxnResponse.succeeded = true ↔
      choice = .ok ∧ server.compare txn.condition = true := by
  cases choice <;> cases holds : server.compare txn.condition <;>
    simp [Etcd.perform, Etcd.txn, holds]

theorem ChargesAcknowledged.txn {config after : Config (etcdMachine loop) ι Decision}
    {call : ι} (acknowledged : ChargesAcknowledged json store request config call)
    (before : (config.result call).any Decision.allowed = false) {now : loop.Time}
    {entry : Option (Bytes × Int64)}
    (known : HasRead store request call config.trace now entry) (choice : RpcOutcome)
    (attempts : Nat) :
    let txn := loop.etcdTxn json store ((request call).key loop) (request call).cost now
      entry
    after.trace = ⟨call, .store (.txn txn), choice, config.world⟩ :: config.trace →
      after.threads call = loop.etcdAnswered json store ((request call).key loop)
        (request call).cost attempts now entry
        (Etcd.perform (.txn txn) choice config.world.store).1 →
        ChargesAcknowledged json store request after call := by
  intro txn trace continued
  let event : Event (etcdMachine loop) ι :=
    ⟨call, .store (.txn txn), choice, config.world⟩
  change after.trace = event :: config.trace at trace
  have outcome : outcome? json request call config.trace =
      some (loop.outcomeOf json (request call).cost now entry) := by
    simp [outcome?, known.reading, known.read]
  by_cases succeeded : (Etcd.perform (.txn txn) choice config.world.store).1.any
      TxnResponse.succeeded = true
  · rcases (perform_txn_succeeded txn choice _).mp succeeded with ⟨rfl, holds⟩
    rw [CheckLoop.etcdAnswered, if_pos succeeded] at continued
    have charged : isCharge json store request config.trace event =
        (loop.outcomeOf json (request call).cost now entry).2.allowed := by
      have key : txn.key = store.fullKey ((request call).key loop) := rfl
      have value : txn.value =
          json.toVec (loop.outcomeOf json (request call).cost now entry).1 := rfl
      simp [isCharge, event, holds, outcome, key, value]
    have result : after.result call =
        some (loop.outcomeOf json (request call).cost now entry).2 := by
      rw [Config.result, continued]
    rw [ChargesAcknowledged, before] at acknowledged
    rw [ChargesAcknowledged, result, trace, charges, charged]
    cases allowed : (loop.outcomeOf json (request call).cost now entry).2.allowed <;>
      simpa [allowed, event] using acknowledged
  · rw [CheckLoop.etcdAnswered, if_neg succeeded] at continued
    refine acknowledged.uncharged before trace ?_ (result_request continued)
    intro charge isOk
    have applied : config.world.store.compare txn.condition = true := by
      simp only [isCharge, event, decide_eq_true_eq] at charge
      exact charge.2.1
    exact succeeded ((perform_txn_succeeded txn choice _).mpr ⟨isOk, applied⟩)

theorem EtcdInvariant.own {config : Config (etcdMachine loop) ι Decision} {call : ι}
    (invariant : EtcdInvariant json store request config call)
    {op : (checkInterface loop.Time Etcd.interface).Op}
    {next : (checkInterface loop.Time Etcd.interface).Reply op →
      Program (checkInterface loop.Time Etcd.interface) Decision}
    (asks : config.threads call = .request op next) (choice : RpcOutcome) :
    ChargesAcknowledged json store request (config.advance (.step call choice)) call := by
  have phase := invariant.phase
  rw [CallPhase, asks] at phase
  have before := result_request asks
  have advanced := Config.advance_of_request asks choice
  have trace : (config.advance (.step call choice)).trace =
      ⟨call, op, choice, config.world⟩ :: config.trace := by
    rw [advanced]
  have continued : (config.advance (.step call choice)).threads call =
      next ((etcdMachine loop).perform op choice config.world).1 := by
    rw [advanced]
    exact Function.update_self ..
  have acknowledged := invariant.acknowledged
  cases phase.move with
  | clock attempts =>
      exact acknowledged.uncharged before trace (by simp [isCharge])
        (result_request continued)
  | read attempts now reading =>
      exact acknowledged.uncharged before trace (by simp [isCharge])
        (result_request continued)
  | txn attempts now entry known =>
      exact acknowledged.txn before known choice attempts trace continued
  | reread attempts =>
      exact acknowledged.uncharged before trace (by simp [isCharge])
        (result_retry continued)

theorem EtcdInvariant.advance {config : Config (etcdMachine loop) ι Decision} {call : ι}
    (invariant : EtcdInvariant json store request config call)
    (action : Action (etcdMachine loop) ι) :
    EtcdInvariant json store request (config.advance action) call := by
  refine ⟨invariant.phase.advance action, ?_⟩
  cases action with
  | evolve clock => exact invariant.acknowledged
  | step thread choice =>
      cases asks : config.threads thread with
      | pure decision =>
          rw [Config.advance_of_pure asks]
          exact invariant.acknowledged
      | request op next =>
          by_cases same : call = thread
          · subst same
            exact invariant.own asks choice
          · rw [Config.advance_of_request asks]
            exact invariant.acknowledged.frame same rfl (Function.update_of_ne same _ _)

theorem etcdInvariant_run (start : loop.Time) (server : Etcd)
    (actions : List (Action (etcdMachine loop) ι)) (call : ι) :
    EtcdInvariant json store request
      ((etcdSystem loop json store request start server).run actions) call :=
  Config.invariant_run (EtcdInvariant json store request · call)
    (fun _ action invariant => invariant.advance action) _
    (.initial start server call) actions

end Invariant

/-- In any state of any run, a call has been charged at most once, and exactly
when it has returned an admission, if and only if no transaction that charged it
failed to be acknowledged. -/
theorem RateLimiterConfig.charged_once_iff_acknowledged (config : RateLimiterConfig)
    (json : SerdeJson config.limiter.State) (store : EtcdStore) {ι : Type}
    [DecidableEq ι] (request : ι → CheckRequest) (start : config.limiter.Time)
    (server : Etcd) (actions : List (Action (etcdMachine config.limiter) ι))
    (call : ι) :
    let state := (etcdSystem config.limiter json store request start server).run actions
    let charges := EtcdTrace.charges json store request call state.trace
    (charges.length ≤ 1 ∧
        (charges.length = 1 ↔ (state.result call).any Decision.allowed = true)) ↔
      ∀ event ∈ charges, event.choice = .ok := by
  intro state charges
  have acknowledged : charges.countP (fun event => event.choice = .ok) =
      if (state.result call).any Decision.allowed then 1 else 0 :=
    (etcdInvariant_run start server actions call).acknowledged
  have all : (∀ event ∈ charges, event.choice = .ok) ↔
      charges.countP (fun event => event.choice = .ok) = charges.length := by
    simp [List.countP_eq_length]
  rw [all, acknowledged]
  cases (state.result call).any Decision.allowed with
  | true => simp; omega
  | false => simp; omega

/-- The transaction is applied and its answer lost; the second pass charges
again. -/
theorem lost_answer_charges_twice :
    let limiter : FixedWindowLimiter := ⟨10, 1⟩
    let request : Fin 1 → CheckRequest := fun _ => ⟨"alice", "/", 1⟩
    let store : EtcdStore := ⟨"/rate-limiter"⟩
    let server : Etcd := ⟨fun _ => none, 1⟩
    let actions : List (Action (etcdMachine limiter.loop) (Fin 1)) :=
      [.step 0 .ok, .step 0 .ok, .step 0 .unacknowledged, .step 0 .ok,
        .step 0 .ok, .step 0 .ok, .step 0 .ok]
    let state := (etcdSystem limiter.loop Json.fixedWindow store request 0 server).run
      actions
    let charges := EtcdTrace.charges Json.fixedWindow store request 0 state.trace
    ¬ (charges.length ≤ 1 ∧
        (charges.length = 1 ↔ (state.result 0).any Decision.allowed = true)) ∧
      ((state.world.store.kvs "/rate-limiter/fixed_window/alice//").bind
        fun kv => Json.fixedWindow.fromSlice kv.value) = some ⟨2, 0⟩ := by
  decide +kernel

end RateLimiting
