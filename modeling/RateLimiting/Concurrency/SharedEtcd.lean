import RateLimiting.Concurrency.AtomicLimiter
import RateLimiting.Concurrency.FailingReads
import RateLimiting.Store.Lawful

/-! # Checks over an etcd that others use too

The replicas of a limiter share an etcd with other clients, which may send any RPC that
writes none of the keys of the limiter. A task still cannot tell the limiter from an
atomic one, except that a check may be applied more often than it hears of. -/

namespace RateLimiting

/-! ## The server -/

def Etcd.Op.target? : Etcd.Op → Option String
  | .get _ => none
  | .put key _ => some key
  | .txn request => some request.key

/-- What happens between the operations of the checks. An RPC of another client may do
anything to the server. -/
inductive EtcdChange (Time : Type)
  | clock (now : Time)
  | rpc (effect : Etcd → Etcd)

/-- etcd as the checks of one limiter see it, with the RPCs of other clients as moves of
the environment. -/
@[reducible] def sharedMachine (Time : Type) : Machine (checkInterface Time Etcd.interface)
    where
  World := CheckWorld Time Etcd
  Choice := RpcOutcome
  Change := EtcdChange Time
  perform := (checkMachine Time Etcd.machine).perform
  evolve
    | .clock now, world => { world with clock := now }
    | .rpc effect, world => { world with store := effect world.store }

namespace Etcd

theorem perform_kvs_of_ne (server : Etcd) {op : Op} {key : String}
    (elsewhere : op.target? ≠ some key) (outcome : RpcOutcome) :
    (perform op outcome server).2.kvs key = server.kvs key := by
  have written : ∀ write, server.written? op outcome = some write →
      op.target? = some write.1 := by
    intro write isWrite
    cases op with
    | get _ => cases isWrite
    | put own value =>
        cases outcome <;> simp only [written?, Option.some.injEq, reduceCtorEq] at isWrite <;>
          exact congrArg some (congrArg Prod.fst isWrite)
    | txn request =>
        cases outcome <;>
          simp only [written?, Option.ite_none_right_eq_some, reduceCtorEq] at isWrite <;>
          exact congrArg some (congrArg Prod.fst (Option.some.inj isWrite.2))
  rw [perform_server]
  cases isWrite : server.written? op outcome with
  | none => rfl
  | some write =>
      have other : key ≠ write.1 := by
        rintro rfl
        exact elsewhere (written write isWrite)
      exact put_kvs_of_ne other write.2

end Etcd

/-! ## The limiter of the tasks -/

section Limiter

variable (loop : CheckLoop) (json : SerdeJson loop.State) (store : EtcdStore)

def replicaCheck (request : CheckRequest) :
    Program (checkInterface loop.Time Etcd.interface) Decision :=
  loop.check json store.stateStore request.clientId request.resource request.cost

/-- The other clients keep away from the keys of the limiter, and etcd numbers what they
write. -/
def KeepsAway (change : EtcdChange loop.Time) : Prop :=
  ∀ effect, change = .rpc effect → ∀ server : Etcd, server.Numbered →
    server.revision.toInt + 1 < 2 ^ 63 →
      server.Follows (effect server) ∧ ∀ request : CheckRequest,
        (effect server).kvs (store.fullKey (request.key loop)) =
          server.kvs (store.fullKey (request.key loop))

structure Unheard (κ : Type) (loop : CheckLoop) where
  task : κ
  request : CheckRequest
  now : loop.Time

/-- The atomic limiter, to which checks may be applied that nothing is heard of. -/
@[reducible] def unreliableLimiter (readings : loop.Time → Prop) (κ : Type) :
    Machine (callInterface CheckRequest Decision) where
  World := Table
  Choice := Option { now // readings now }
  Change := Unheard κ loop
  perform := (atomicLimiter loop json readings).perform
  evolve check table := (table.serve json ⟨check.now, check.request⟩).2

def Etcd.contents (server : Etcd) : Table :=
  fun key => (server.kvs (store.fullKey key)).map KeyValue.value

def TableOf (world : CheckWorld loop.Time Etcd) (table : Table) : Prop :=
  ∀ request : CheckRequest,
    table (request.key loop) = world.store.contents store (request.key loop)

end Limiter

section Checks

variable {loop : CheckLoop} (json : SerdeJson loop.State) (store : EtcdStore) {κ : Type}
  (readings : loop.Time → Prop)

structure ReadBefore (server : Etcd) (request : CheckRequest) (now : loop.Time)
    (entry : Option (Bytes × Int64)) : Prop where
  shown : readings now
  answer : ∃ (past : Etcd) (outcome : RpcOutcome), past.Precedes server ∧
    entry = EtcdStore.entry (Etcd.perform
      (.get (store.fullKey (request.key loop))) outcome past).1

structure ReplicaChecks (server : Etcd) (spent : Nat)
    (config : Config (sharedMachine loop.Time) (CallOf κ CheckRequest) Decision) :
    Prop where
  numbered : config.world.store.Numbered
  revision : config.world.store.revision.toInt ≤ server.revision.toInt + spent
  clock : readings config.world.clock
  phase : ∀ call, EtcdPhase json store readings
    (ReadBefore store readings config.world.store call.2.2) call.2.2 (config.threads call)

variable {json store readings}

theorem ReadBefore.follow {server after : Etcd} {request : CheckRequest} {now : loop.Time}
    {entry : Option (Bytes × Int64)}
    (before : ReadBefore store readings server request now entry)
    (follows : server.Follows after) :
    ReadBefore store readings after request now entry := by
  rcases before with ⟨shown, past, outcome, precedes, answer⟩
  exact ⟨shown, past, outcome, precedes.follow follows, answer⟩

/-- Where a step of a check leaves the object: alone, with an effect that the check does
not hear of, or with its answer. -/
def Moves (json : SerdeJson loop.State) (store : EtcdStore) (readings : loop.Time → Prop)
    (task : κ) (request : CheckRequest) (table : Table)
    (world : CheckWorld loop.Time Etcd)
    (program : Program (checkInterface loop.Time Etcd.interface) Decision) : Prop :=
  (∃ op next, program = .request op next) ∧
      (TableOf loop store world table ∨ ∃ effect : Unheard κ loop,
        (effect.task = task ∧ effect.request = request ∧ readings effect.now) ∧
          TableOf loop store world
            ((unreliableLimiter loop json readings κ).evolve effect table)) ∨
    ∃ choice, program =
        .pure ((unreliableLimiter loop json readings κ).perform request choice table).1 ∧
      TableOf loop store world
        ((unreliableLimiter loop json readings κ).perform request choice table).2

theorem TableOf.congr {world after : CheckWorld loop.Time Etcd} {table : Table}
    (tableOf : TableOf loop store world table)
    (same : ∀ request : CheckRequest, after.store.kvs (store.fullKey (request.key loop)) =
      world.store.kvs (store.fullKey (request.key loop))) : TableOf loop store after table := by
  intro request
  rw [tableOf request, Etcd.contents, Etcd.contents, same]

theorem TableOf.get {world : CheckWorld loop.Time Etcd} {table : Table}
    (tableOf : TableOf loop store world table) {key : String} (choice : RpcOutcome) :
    TableOf loop store
      ((sharedMachine loop.Time).perform (.store (.get key)) choice world).2 table :=
  tableOf.congr fun _ => by cases choice <;> rfl

theorem TableOf.put {world : CheckWorld loop.Time Etcd} {table : Table}
    (tableOf : TableOf loop store world table) {request : CheckRequest} {now : loop.Time}
    {entry : Option (Bytes × Int64)}
    (current : (world.store.kvs (store.fullKey (request.key loop))).map KeyValue.value =
      entry.map Prod.fst) :
    table.serve json ⟨now, request⟩ =
        ((loop.outcomeOf json request.cost now entry).2,
          Function.update table (request.key loop)
            (some (json.toVec (loop.outcomeOf json request.cost now entry).1))) ∧
      TableOf loop store
        ⟨world.clock, world.store.put (store.fullKey (request.key loop))
          (json.toVec (loop.outcomeOf json request.cost now entry).1)⟩
        (table.serve json ⟨now, request⟩).2 := by
  have bytes : table (request.key loop) = entry.map Prod.fst :=
    (tableOf request).trans current
  have state : table.state json ⟨now, request⟩ =
      (entry.bind fun found => json.fromSlice found.1).getD (loop.fresh now) := by
    change ((table (request.key loop)).bind json.fromSlice).getD (loop.fresh now) = _
    rw [bytes, Option.bind_map]
    rfl
  have served : table.serve json ⟨now, request⟩ =
      ((loop.outcomeOf json request.cost now entry).2,
        Function.update table (request.key loop)
          (some (json.toVec (loop.outcomeOf json request.cost now entry).1))) := by
    simp only [Table.serve, state, CheckLoop.outcomeOf]
    rfl
  refine ⟨served, fun other => ?_⟩
  rw [served, Etcd.contents, Etcd.put_kvs_value]
  by_cases same : other.key loop = request.key loop
  · simp [same]
  · have apart : store.fullKey (request.key loop) ≠ store.fullKey (other.key loop) :=
      fun equal => same (store.fullKey_injective equal).symm
    rw [if_neg apart]
    exact (Function.update_of_ne same _ _).trans (tableOf other)

theorem Moves.retry {world : CheckWorld loop.Time Etcd} {table : Table} {task : κ}
    {request : CheckRequest} (tableOf : TableOf loop store world table) (attempts : Nat) :
    Moves json store readings task request table world
      (loop.retry json store.stateStore (request.key loop) request.cost attempts) := by
  cases attempts with
  | zero => exact .inr ⟨none, rfl, tableOf⟩
  | succ attempts => exact .inl ⟨⟨_, _, loop.retry_etcd json store _ _ attempts⟩, .inl tableOf⟩

theorem Moves.txn {world : CheckWorld loop.Time Etcd} {table : Table} {task : κ}
    {request : CheckRequest} {now : loop.Time} {entry : Option (Bytes × Int64)}
    (tableOf : TableOf loop store world table) (shown : readings now)
    (current : world.store.compare (EtcdStore.condition
        (store.fullKey (request.key loop)) (entry.map Prod.snd)) = true →
      (world.store.kvs (store.fullKey (request.key loop))).map KeyValue.value =
        entry.map Prod.fst)
    (attempts : Nat) (choice : RpcOutcome) :
    let txn := loop.etcdTxn json store (request.key loop) request.cost now entry
    let performed := Etcd.perform (.txn txn) choice world.store
    Moves json store readings task request table { world with store := performed.2 }
      (loop.etcdAnswered json store (request.key loop) request.cost attempts now entry
        performed.1) := by
  intro txn performed
  cases holds : world.store.compare txn.condition with
  | false =>
      have fails : performed.1.any TxnResponse.succeeded = false ∧
          performed.2 = world.store := by
        cases choice <;> simp [performed, Etcd.perform, Etcd.txn, holds]
      rw [CheckLoop.etcdAnswered, fails.1, fails.2]
      exact .inl ⟨⟨_, _, rfl⟩, .inl tableOf⟩
  | true =>
      rcases tableOf.put (current holds) with ⟨served, applied⟩
      cases choice with
      | ok =>
          have succeeds : performed = (some ⟨true, some (world.store.put txn.key
              txn.value).revision⟩, world.store.put txn.key txn.value) := by
            simp [performed, Etcd.perform, Etcd.txn, holds]
          rw [succeeds]
          refine .inr ⟨some ⟨now, shown⟩, ?_, applied⟩
          exact congrArg Program.pure (congrArg Prod.fst served).symm
      | failed => exact .inl ⟨⟨_, _, rfl⟩, .inl tableOf⟩
      | unacknowledged =>
          have lost : performed = (none, world.store.put txn.key txn.value) := by
            simp [performed, Etcd.perform, Etcd.txn, holds]
          rw [lost]
          exact .inl ⟨⟨_, _, rfl⟩, .inr ⟨⟨task, request, now⟩, ⟨rfl, rfl, shown⟩, applied⟩⟩

section Step

variable [DecidableEq κ] {server : Etcd} {spent : Nat}
  {config : Config (sharedMachine loop.Time) (CallOf κ CheckRequest) Decision}

theorem ReplicaChecks.step (checks : ReplicaChecks json store readings server spent config)
    (fits : server.revision.toInt + spent + 1 < 2 ^ 63) {call : CallOf κ CheckRequest}
    {op : (checkInterface loop.Time Etcd.interface).Op}
    {next : (checkInterface loop.Time Etcd.interface).Reply op →
      Program (checkInterface loop.Time Etcd.interface) Decision}
    (asks : config.threads call = .request op next) (choice : RpcOutcome) :
    ReplicaChecks json store readings server (spent + 1)
      (config.advance (.step call choice)) := by
  have phase := checks.phase call
  rw [asks] at phase
  have room : config.world.store.revision.toInt + 1 < 2 ^ 63 := by
    have revision := checks.revision
    omega
  have follows : config.world.store.Follows
      ((sharedMachine loop.Time).perform op choice config.world).2.store := by
    cases op with
    | now => exact checks.numbered.follows_self
    | store op => exact checks.numbered.follows room op choice
  have past : config.world.store.Precedes
      ((sharedMachine loop.Time).perform op choice config.world).2.store :=
    (Etcd.Precedes.refl checks.numbered).follow follows
  rw [Config.advance_of_request asks]
  refine ⟨follows.numbered, ?_, ?_, ?_⟩
  · have revision := checks.revision
    push_cast
    exact follows.revision.trans (by omega)
  · cases op <;> exact checks.clock
  · intro other
    by_cases same : other = call
    · subst same
      simp only [Function.update_self]
      exact phase.move.phase choice config.world (fun _ => checks.clock)
        fun now shown _ => ⟨shown, config.world.store, choice, past, rfl⟩
    · simp only [Function.update_of_ne same]
      exact (checks.phase other).mono (fun _ shown => shown)
        fun _ _ before => before.follow follows

theorem ReplicaChecks.evolve (checks : ReplicaChecks json store readings server spent config)
    (fits : server.revision.toInt + spent + 1 < 2 ^ 63) {change : EtcdChange loop.Time}
    (shown : ∀ now, change = .clock now → readings now) (away : KeepsAway loop store change) :
    ReplicaChecks json store readings server (spent + 1)
      (config.advance (.evolve change)) := by
  have revision := checks.revision
  cases change with
  | clock now =>
      refine ⟨checks.numbered, ?_, shown now rfl, checks.phase⟩
      push_cast
      exact revision.trans (by omega)
  | rpc effect =>
      have follows := (away effect rfl config.world.store checks.numbered (by omega)).1
      refine ⟨follows.numbered, ?_, checks.clock,
        fun call => (checks.phase call).mono (fun _ shown => shown)
          fun _ _ before => before.follow follows⟩
      have growth := follows.revision
      push_cast
      exact growth.trans (by omega)

end Step

end Checks

/-! ## The limiter is atomic -/

section Linearizable

variable (loop : CheckLoop) (json : SerdeJson loop.State) (store : EtcdStore) (κ : Type)
  [DecidableEq κ] (readings : loop.Time → Prop)

def sharedLinearization {start : loop.Time} (shown : readings start) {server : Etcd}
    (numbered : server.Numbered) {room : Nat}
    (fits : server.revision.toInt + room < 2 ^ 63) :
    Linearization (sharedMachine loop.Time) (replicaCheck loop json store)
      (unreliableLimiter loop json readings κ) κ room ⟨start, server⟩
      (server.contents store) where
  Represents := TableOf loop store
  Holds := ReplicaChecks json store readings server
  Permitted change := (∀ now, change = .clock now → readings now) ∧
    KeepsAway loop store change
  EffectOf task request effect :=
    effect.task = task ∧ effect.request = request ∧ readings effect.now
  starts request := ⟨_, _, loop.retry_etcd json store _ _ 4⟩
  represents _ := rfl
  initial := {
    numbered := numbered
    revision := by simp
    clock := shown
    phase := fun call => .ready 5 rfl }
  evolve spent config change table checks permitted within tableOf := by
    refine ⟨checks.evolve (by omega) permitted.1 permitted.2, ?_⟩
    cases change with
    | clock now => exact tableOf
    | rpc effect =>
        have revision := checks.revision
        exact tableOf.congr
          (permitted.2 effect rfl config.world.store checks.numbered (by omega)).2
  perform spent config call op next choice table checks asks within tableOf := by
    intro after
    have advanced : after = _ := Config.advance_of_request asks choice
    have continued : after.threads call =
        next ((sharedMachine loop.Time).perform op choice config.world).1 := by
      rw [advanced]
      exact Function.update_self ..
    have world : after.world =
        ((sharedMachine loop.Time).perform op choice config.world).2 := by
      rw [advanced]
    have room : server.revision.toInt + spent + 1 < 2 ^ 63 := by omega
    change ReplicaChecks json store readings server (spent + 1) after ∧
      Moves json store readings call.1 call.2.2 table after.world (after.threads call)
    have phase := checks.phase call
    rw [asks] at phase
    rw [continued, world]
    refine ⟨checks.step room asks choice, ?_⟩
    cases phase.move with
    | clock attempts => exact .inl ⟨⟨_, _, rfl⟩, .inl tableOf⟩
    | read attempts now shown =>
        exact .inl ⟨⟨_, _, rfl⟩, .inl (tableOf.get choice)⟩
    | txn attempts now entry known =>
        rcases known with ⟨shown, past, outcome, precedes, rfl⟩
        exact Moves.txn tableOf shown
          (precedes.value_of_compare checks.numbered _ outcome) attempts choice
    | reread attempts =>
        exact .retry (tableOf.get choice) attempts

end Linearizable

end RateLimiting
