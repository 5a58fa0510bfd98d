import RateLimiting.Concurrency.AtMostOnce
import RateLimiting.Concurrency.LocalSystem
import RateLimiting.Config
import RateLimiting.Foundation.Panics

/-! # Every check returns

A check makes at most five passes, and a pass takes a few operations. Nothing that
other checks do, and no RPC that fails, makes it take more: a check that is scheduled
often enough returns. -/

namespace RateLimiting

open CheckTrace

theorem Program.Within.onStore {Time : Type} {I : Interface} {α : Type}
    {weight : (checkInterface Time I).Op → Nat} {program : Program I α} {budget : Nat}
    (within : program.Within (fun op => weight (.store op)) budget) :
    (program.onStore Time).Within weight budget := by
  induction within with
  | pure budget value => exact .pure budget value
  | request affordable _ induction => exact .request affordable induction

namespace CheckLoop

variable (loop : CheckLoop) (json : SerdeJson loop.State) {I : Interface}
  {store : StateStore I} {weight : (checkInterface loop.Time I).Op → Nat}
  (getBudget casBudget : Nat)

section

variable
  (gets : ∀ key, (store.get key).Within (fun op => weight (.store op)) getBudget)
  (swaps : ∀ key expected value,
    (store.cas key expected value).Within (fun op => weight (.store op)) casBudget)

include gets swaps

theorem attempt_within (key : String) (cost : UInt32) :
    (loop.attempt json store key cost).Within weight
      (weight .now + (getBudget + (casBudget + 0))) := by
  apply Program.Within.bind (Program.Within.perform (I := checkInterface loop.Time I) .now)
  intro now
  apply Program.Within.bind (gets key).onStore
  intro entry
  apply Program.Within.bind (swaps key _ _).onStore
  intro result
  exact .pure _ _

theorem retry_within (key : String) (cost : UInt32) (attempts : Nat) :
    (loop.retry json store key cost attempts).Within weight
      (attempts * (weight .now + (getBudget + (casBudget + 0)))) := by
  induction attempts with
  | zero => exact .pure _ _
  | succ attempts induction =>
      rw [Nat.succ_mul, Nat.add_comm]
      apply (loop.attempt_within json getBudget casBudget gets swaps key cost).bind
      intro outcome
      cases outcome with
      | none => exact induction
      | some decision => exact .pure _ _

end

theorem check_within_local (clientId resource : String) (cost : UInt32) :
    (loop.check json LocalStore.stateStore clientId resource cost).Within
      (fun _ => 1) 15 :=
  loop.retry_within json 1 1 (fun key => .perform (I := LocalStore.interface) (.get key))
    (fun key expected value => .perform (I := LocalStore.interface)
      (.cas key expected value)) _ cost 5

section

variable (store : EtcdStore) {weight : Etcd.interface.Op → Nat} {txnCost getCost : Nat}
  (txns : ∀ request, weight (.txn request) ≤ txnCost)
  (reads : ∀ key, weight (.get key) ≤ getCost)

include reads

theorem get_within_etcd (key : String) : (store.get key).Within weight getCost :=
  .request (reads _) fun _ => .pure _ _

include txns

theorem cas_within_etcd (key : String) (expected : Option Int64) (value : Bytes) :
    (store.cas key expected value).Within weight (txnCost + getCost) := by
  have conflict : (EtcdStore.conflict (store.fullKey key)).Within weight getCost :=
    .request (reads _) fun _ => .pure _ _
  have swap : (Program.perform (I := Etcd.interface) (.txn ⟨EtcdStore.condition
      (store.fullKey key) expected, store.fullKey key, value⟩)).Within weight txnCost :=
    (Program.Within.perform _).mono (txns _)
  apply swap.bind
  intro response
  cases response with
  | none => exact conflict
  | some answer =>
      cases succeeded : answer.succeeded with
      | true => simpa [succeeded] using Program.Within.pure _ _
      | false => simpa [succeeded] using conflict

end

theorem check_within_etcd (store : EtcdStore) (clientId resource : String)
    (cost : UInt32) :
    (loop.check json store.stateStore clientId resource cost).Within (fun _ => 1) 20 :=
  loop.retry_within json 1 (1 + 1) (get_within_etcd store fun _ => le_refl _)
    (cas_within_etcd store (fun _ => le_refl _) fun _ => le_refl _) _ cost 5

def txnWeight : (checkInterface loop.Time Etcd.interface).Op → Nat
  | .store (.txn _) => 1
  | _ => 0

theorem check_within_txns (store : EtcdStore) (clientId resource : String)
    (cost : UInt32) :
    (loop.check json store.stateStore clientId resource cost).Within loop.txnWeight 5 :=
  loop.retry_within json 0 (1 + 0) (get_within_etcd store fun _ => le_refl _)
    (cas_within_etcd store (fun _ => le_refl _) fun _ => le_refl _) _ cost 5

end CheckLoop

theorem EtcdTrace.length_charges_le {loop : CheckLoop} {json : SerdeJson loop.State}
    {store : EtcdStore} {ι : Type} [DecidableEq ι] {request : ι → CheckRequest} (call : ι)
    (trace : EtcdTrace loop ι) :
    (charges json store request call trace).length ≤
      Config.spent loop.txnWeight call trace := by
  induction trace with
  | nil => exact Nat.zero_le _
  | cons event older induction =>
      rw [charges]
      split
      · next charge =>
          rcases event with ⟨thread, op, choice, before⟩
          have own : thread = call := charge.1
          cases op with
          | now => simp [isCharge] at charge
          | store op =>
              cases op with
              | get key => simp [isCharge] at charge
              | put key value => simp [isCharge] at charge
              | txn txn =>
                  rw [Config.spent, if_pos own, List.length_cons, Nat.add_comm]
                  exact Nat.add_le_add_left induction 1
      · apply induction.trans
        rw [Config.spent]
        split
        · exact Nat.le_add_left _ _
        · exact le_refl _

/-! ## Runs -/

section Returns

variable {config : RateLimiterConfig} {I : Interface} {m : Machine I} {ι : Type}
  [DecidableEq ι] {call : ι}
  {checks : Config (checkMachine config.limiter.Time m) ι Decision}

theorem RateLimiterConfig.decides (divides : config.dividesByZero = false) {budget : Nat}
    (within : (checks.threads call).Within (fun _ => 1) budget)
    {actions : List (Action (checkMachine config.limiter.Time m) ι)}
    (enough : budget ≤ Config.turns call actions) :
    ∃ decision, ((checks.panicking config.panics).run actions).result call =
      some (some decision) := by
  rcases Config.returns_of_turns checks within enough with ⟨decision, returned⟩
  refine ⟨decision, ?_⟩
  rw [Config.run_panicking (config.panics_eq_false divides), Config.result_panicking,
    Config.result, returned]
  rfl

theorem RateLimiterConfig.panics_at_once (divides : config.dividesByZero = true)
    {next : config.limiter.Time → Program (checkInterface config.limiter.Time I) Decision}
    (reads : checks.threads call = .request .now next)
    {actions : List (Action (checkMachine config.limiter.Time m) ι)}
    (turn : 1 ≤ Config.turns call actions) :
    ((checks.panicking config.panics).run actions).result call = some none :=
  Config.result_of_panic reads (fun _ => divides) turn

end Returns

/-- A check that does not divide by zero returns once it has been scheduled for fifteen
operations, over etcd for twenty, whatever the other checks do and whichever RPCs fail,
and one that does panics; no check charges more than five times. -/
theorem RateLimiterConfig.checks_return (config : RateLimiterConfig)
    (json : SerdeJson config.limiter.State) {ι : Type} [DecidableEq ι]
    (request : ι → CheckRequest) (start : config.limiter.Time) (call : ι) :
    (∀ actions,
      let state := ((localSystem config.limiter json request start).panicking
        config.panics).run actions
      (config.dividesByZero = false → 15 ≤ Config.turns call actions →
          ∃ decision, state.result call = some (some decision)) ∧
        (config.dividesByZero = true → 1 ≤ Config.turns call actions →
          state.result call = some none)) ∧
    ∀ (store : EtcdStore) (server : Etcd) (actions : List (Action _ ι)),
      let state := ((etcdSystem config.limiter json store request start server).panicking
        config.panics).run actions
      (config.dividesByZero = false → 20 ≤ Config.turns call actions →
          ∃ decision, state.result call = some (some decision)) ∧
        (config.dividesByZero = true → 1 ≤ Config.turns call actions →
          state.result call = some none) ∧
        (EtcdTrace.charges json store request call state.trace).length ≤ 5 := by
  constructor
  · intro actions state
    have within := config.limiter.check_within_local json (request call).clientId
      (request call).resource (request call).cost
    have reads := config.limiter.retry_succ json LocalStore.stateStore
      ((request call).key config.limiter) (request call).cost 4
    exact ⟨fun divides enough => RateLimiterConfig.decides divides within enough,
      fun divides turn => RateLimiterConfig.panics_at_once divides reads turn⟩
  · intro store server actions state
    have within := config.limiter.check_within_etcd json store (request call).clientId
      (request call).resource (request call).cost
    have reads := config.limiter.retry_succ json store.stateStore
      ((request call).key config.limiter) (request call).cost 4
    refine ⟨fun divides enough => RateLimiterConfig.decides divides within enough,
      fun divides turn => RateLimiterConfig.panics_at_once divides reads turn, ?_⟩
    have writes := config.limiter.check_within_txns json store (request call).clientId
      (request call).resource (request call).cost
    apply (EtcdTrace.length_charges_le call state.trace).trans
    exact Config.spent_run_le
      ((etcdSystem config.limiter json store request start server).panicking config.panics)
      rfl (writes.panicking config.panics) actions

/-- The answers to all five transactions are lost: the check charges five times and
gives up. Over windows of no seconds it panics. -/
theorem RateLimiterConfig.checks_return_after_lost_answers :
    let config : RateLimiterConfig := ⟨.fixedWindow, 10, 1, 0, 1, 1, 0⟩
    let windowless : RateLimiterConfig := ⟨.fixedWindow, 10, 0, 0, 1, 1, 0⟩
    let request : Fin 1 → CheckRequest := fun _ => ⟨"alice", "/", 1⟩
    let store : EtcdStore := ⟨"/rate-limiter"⟩
    let server : Etcd := ⟨fun _ => none, 1⟩
    let actions : List (Action (etcdMachine config.limiter) (Fin 1)) :=
      (List.replicate 5 [.step 0 .ok, .step 0 .ok, .step 0 .unacknowledged,
        .step 0 .ok]).flatten
    let state := ((etcdSystem config.limiter Json.fixedWindow store request 0
      server).panicking config.panics).run actions
    let charges := EtcdTrace.charges Json.fixedWindow store request 0 state.trace
    let stopped := ((etcdSystem windowless.limiter Json.fixedWindow store request 0
      server).panicking windowless.panics).run actions
    ((∃ decision, state.result 0 = some (some decision)) ∧ charges.length ≤ 5 ∧
        charges.length = 5 ∧ state.result 0 = some (some config.limiter.fallback)) ∧
      stopped.result 0 = some none := by
  intro config windowless request store server actions state charges stopped
  have bounded := (config.checks_return Json.fixedWindow request 0 0).2 store server actions
  have panics := (windowless.checks_return Json.fixedWindow request 0 0).2 store server
    actions
  exact ⟨⟨bounded.1 rfl (by decide +kernel), bounded.2.2, by decide +kernel,
    by decide +kernel⟩, panics.2.1 rfl (by decide +kernel)⟩

end RateLimiting
