import RateLimiting.Concurrency.CheckTrace
import RateLimiting.Store.Etcd

/-! # Concurrent checks over etcd

Any number of checks run against one etcd, on any server state, with any RPC
failing. An RPC that reports an error may have been applied. The trace of a run
determines the transactions that put a charge in the store. -/

namespace RateLimiting

open CheckTrace

@[reducible] def etcdMachine (loop : CheckLoop) :
    Machine (checkInterface loop.Time Etcd.interface) :=
  checkMachine loop.Time Etcd.machine

/-! ## The passes of a check -/

namespace CheckLoop

variable (loop : CheckLoop) (json : SerdeJson loop.State) (store : EtcdStore)
  (key : String) (cost : UInt32)

/-- The rest of a check whose transaction did not succeed. -/
def etcdConflicted (attempts : Nat) :
    Program (checkInterface loop.Time Etcd.interface) Decision :=
  .request (.store (.get (store.fullKey key))) fun _ =>
    loop.retry json store.stateStore key cost attempts

def etcdTxn (now : loop.Time) (entry : Option (Bytes × Int64)) : Txn :=
  ⟨EtcdStore.condition (store.fullKey key) (entry.map Prod.snd), store.fullKey key,
    json.toVec (loop.outcomeOf json cost now entry).1⟩

def etcdAnswered (attempts : Nat) (now : loop.Time) (entry : Option (Bytes × Int64))
    (response : Option TxnResponse) :
    Program (checkInterface loop.Time Etcd.interface) Decision :=
  if response.any TxnResponse.succeeded then .pure (loop.outcomeOf json cost now entry).2
  else loop.etcdConflicted json store key cost attempts

def etcdLoaded (attempts : Nat) (now : loop.Time) (entry : Option (Bytes × Int64)) :
    Program (checkInterface loop.Time Etcd.interface) Decision :=
  .request (.store (.txn (loop.etcdTxn json store key cost now entry)))
    (loop.etcdAnswered json store key cost attempts now entry)

def etcdClocked (attempts : Nat) (now : loop.Time) :
    Program (checkInterface loop.Time Etcd.interface) Decision :=
  .request (.store (.get (store.fullKey key))) fun response =>
    loop.etcdLoaded json store key cost attempts now (EtcdStore.entry response)

theorem retry_etcd (attempts : Nat) :
    loop.retry json store.stateStore key cost (attempts + 1) =
      .request .now fun now => loop.etcdClocked json store key cost attempts now := by
  rw [retry_succ]
  congr 1
  funext now
  simp only [EtcdStore.stateStore, EtcdStore.get, EtcdStore.cas, EtcdStore.conflict,
    Program.perform, Program.request_bind, Program.pure_bind, Program.pure_eq,
    Program.onStore, etcdClocked]
  congr 1
  funext response
  unfold etcdLoaded etcdTxn
  congr 1
  funext answer
  unfold etcdAnswered
  cases answer with
  | none => rfl
  | some answer =>
      cases succeeded : answer.succeeded <;>
        simp [succeeded, Program.onStore, etcdConflicted, EtcdStore.stateStore]

end CheckLoop

section Phase

variable {loop : CheckLoop} (json : SerdeJson loop.State) (store : EtcdStore)

/-- Where a check is in its passes, with what is known of its clock reading and of what
it has read. -/
inductive EtcdPhase (clocked : loop.Time → Prop)
    (loaded : loop.Time → Option (Bytes × Int64) → Prop) (request : CheckRequest)
    (program : Program (checkInterface loop.Time Etcd.interface) Decision) : Prop
  | ready (attempts : Nat) (isProgram : program =
      loop.retry json store.stateStore (request.key loop) request.cost attempts)
  | clocked (attempts : Nat) (now : loop.Time) (known : clocked now) (isProgram : program =
      loop.etcdClocked json store (request.key loop) request.cost attempts now)
  | loaded (attempts : Nat) (now : loop.Time) (entry : Option (Bytes × Int64))
      (known : loaded now entry) (isProgram : program =
        loop.etcdLoaded json store (request.key loop) request.cost attempts now entry)
  | conflicted (attempts : Nat) (isProgram : program =
      loop.etcdConflicted json store (request.key loop) request.cost attempts)
  | returned (decision : Decision) (isProgram : program = .pure decision)

/-- The next operation of a check, with what follows its answer. -/
inductive EtcdMove (clocked : loop.Time → Prop)
    (loaded : loop.Time → Option (Bytes × Int64) → Prop) (request : CheckRequest) :
    (op : (checkInterface loop.Time Etcd.interface).Op) →
    ((checkInterface loop.Time Etcd.interface).Reply op →
      Program (checkInterface loop.Time Etcd.interface) Decision) → Prop
  | clock (attempts : Nat) : EtcdMove clocked loaded request .now fun now =>
      loop.etcdClocked json store (request.key loop) request.cost attempts now
  | read (attempts : Nat) (now : loop.Time) (known : clocked now) :
      EtcdMove clocked loaded request (.store (.get (store.fullKey (request.key loop))))
        fun response => loop.etcdLoaded json store (request.key loop) request.cost attempts
          now (EtcdStore.entry response)
  | txn (attempts : Nat) (now : loop.Time) (entry : Option (Bytes × Int64))
      (known : loaded now entry) :
      EtcdMove clocked loaded request
        (.store (.txn (loop.etcdTxn json store (request.key loop) request.cost now entry)))
        (loop.etcdAnswered json store (request.key loop) request.cost attempts now entry)
  | reread (attempts : Nat) :
      EtcdMove clocked loaded request (.store (.get (store.fullKey (request.key loop))))
        fun _ => loop.retry json store.stateStore (request.key loop) request.cost attempts

variable {json store} {clocked clockedAfter : loop.Time → Prop}
  {loaded loadedAfter : loop.Time → Option (Bytes × Int64) → Prop} {request : CheckRequest}

theorem EtcdPhase.mono
    {program : Program (checkInterface loop.Time Etcd.interface) Decision}
    (phase : EtcdPhase json store clocked loaded request program)
    (clock : ∀ now, clocked now → clockedAfter now)
    (load : ∀ now entry, loaded now entry → loadedAfter now entry) :
    EtcdPhase json store clockedAfter loadedAfter request program := by
  cases phase with
  | ready attempts isProgram => exact .ready attempts isProgram
  | clocked attempts now known isProgram =>
      exact .clocked attempts now (clock now known) isProgram
  | loaded attempts now entry known isProgram =>
      exact .loaded attempts now entry (load now entry known) isProgram
  | conflicted attempts isProgram => exact .conflicted attempts isProgram
  | returned decision isProgram => exact .returned decision isProgram

variable {op : (checkInterface loop.Time Etcd.interface).Op}
  {next : (checkInterface loop.Time Etcd.interface).Reply op →
    Program (checkInterface loop.Time Etcd.interface) Decision}

theorem EtcdPhase.move
    (phase : EtcdPhase json store clocked loaded request (.request op next)) :
    EtcdMove json store clocked loaded request op next := by
  cases phase with
  | ready attempts isProgram =>
      cases attempts with
      | zero => cases isProgram
      | succ attempts =>
          rw [CheckLoop.retry_etcd] at isProgram
          cases isProgram
          exact .clock attempts
  | clocked attempts now known isProgram =>
      cases isProgram
      exact .read attempts now known
  | loaded attempts now entry known isProgram =>
      cases isProgram
      exact .txn attempts now entry known
  | conflicted attempts isProgram =>
      cases isProgram
      exact .reread attempts
  | returned decision isProgram => cases isProgram

/-- One operation of a check, and what is known after it. -/
theorem EtcdMove.phase (move : EtcdMove json store clocked loaded request op next)
    (choice : RpcOutcome) (world : CheckWorld loop.Time Etcd)
    (clock : op = .now → clockedAfter world.clock)
    (read : ∀ now, clocked now → op = .store (.get (store.fullKey (request.key loop))) →
      loadedAfter now (EtcdStore.entry (Etcd.perform
        (.get (store.fullKey (request.key loop))) choice world.store).1)) :
    EtcdPhase json store clockedAfter loadedAfter request
      (next ((etcdMachine loop).perform op choice world).1) := by
  cases move with
  | clock attempts => exact .clocked attempts _ (clock rfl) rfl
  | read attempts now known => exact .loaded attempts now _ (read now known rfl) rfl
  | txn attempts now entry known =>
      rw [CheckLoop.etcdAnswered]
      split
      · exact .returned _ rfl
      · exact .conflicted attempts rfl
  | reread attempts => exact .ready attempts rfl

end Phase

/-! ## Runs -/

variable (loop : CheckLoop) (json : SerdeJson loop.State) (store : EtcdStore)
  {ι : Type}

def etcdSystem (request : ι → CheckRequest) (start : loop.Time) (server : Etcd) :
    Config (etcdMachine loop) ι Decision where
  world := { clock := start, store := server }
  threads call :=
    loop.check json store.stateStore (request call).clientId
      (request call).resource (request call).cost
  trace := []

abbrev EtcdTrace (ι : Type) := List (Event (etcdMachine loop) ι)

namespace EtcdTrace

variable {loop} [DecidableEq ι]

/-- What the last read of a call returned. -/
def lastRead (call : ι) : EtcdTrace loop ι → Option (Option (Bytes × Int64)) :=
  Config.latest (fun event =>
    match event.op with
    | .store (.get fullKey) => some (EtcdStore.entry
        (Etcd.perform (.get fullKey) event.choice event.before.store).1)
    | _ => none) call

theorem lastRead_cons_of_ne {event : Event (etcdMachine loop) ι} {call : ι}
    (other : call ≠ event.thread) (older : EtcdTrace loop ι) :
    lastRead call (event :: older) = lastRead call older :=
  Config.latest_cons_of_ne _ other older

variable (store : EtcdStore) (request : ι → CheckRequest)

/-- The step that a pass took on its clock reading and what it read. -/
def outcome? (call : ι) (trace : EtcdTrace loop ι) :
    Option (loop.State × Decision) := do
  let now ← captured call trace
  let entry ← lastRead call trace
  pure (loop.outcomeOf json (request call).cost now entry)

/-- Whether an operation, after the operations `older`, applied the cost of its
call to the stored state: a transaction that took effect and put the state of a
step that allowed the call under its key. -/
def isCharge (older : EtcdTrace loop ι) (event : Event (etcdMachine loop) ι) : Bool :=
  match event.op with
  | .store (.txn txn) =>
      event.choice ≠ .failed ∧ event.before.store.compare txn.condition ∧
        txn.key = store.fullKey ((request event.thread).key loop) ∧
        (outcome? json request event.thread older).any fun outcome =>
          txn.value = json.toVec outcome.1 ∧ outcome.2.allowed
  | _ => false

def charges (call : ι) : EtcdTrace loop ι → EtcdTrace loop ι
  | [] => []
  | event :: older =>
      if event.thread = call ∧ isCharge json store request older event then
        event :: charges call older
      else charges call older

structure HasRead (call : ι) (trace : EtcdTrace loop ι) (now : loop.Time)
    (entry : Option (Bytes × Int64)) : Prop where
  reading : captured call trace = some now
  read : lastRead call trace = some entry
  answer : ∃ event ∈ trace, entry = EtcdStore.entry (Etcd.perform
    (.get (store.fullKey ((request call).key loop))) event.choice event.before.store).1

end EtcdTrace

open EtcdTrace

variable {loop} [DecidableEq ι] (request : ι → CheckRequest)

abbrev CallPhase (config : Config (etcdMachine loop) ι Decision) (call : ι) : Prop :=
  EtcdPhase json store (captured call config.trace = some ·)
    (HasRead store request call config.trace) (request call) (config.threads call)

variable {json store request} {config : Config (etcdMachine loop) ι Decision} {call : ι}

theorem CallPhase.advance (phase : CallPhase json store request config call)
    (action : Action (etcdMachine loop) ι) :
    CallPhase json store request (config.advance action) call := by
  cases action with
  | evolve clock => exact phase
  | step thread choice =>
      cases asks : config.threads thread with
      | pure decision =>
          rw [Config.advance_of_pure asks]
          exact phase
      | request op next =>
          unfold CallPhase
          rw [Config.advance_of_request asks]
          by_cases same : call = thread
          · subst same
            rw [CallPhase, asks] at phase
            simp only [Function.update_self]
            apply phase.move.phase choice config.world
            · rintro rfl
              exact if_pos rfl
            · rintro now reading rfl
              exact ⟨reading, if_pos rfl, _, List.mem_cons_self, rfl⟩
          · simp only [Function.update_of_ne same]
            apply phase.mono
            · intro now reading
              exact (captured_cons_of_ne same _).trans reading
            · intro now entry known
              rcases known.answer with ⟨event, member, answer⟩
              exact ⟨(captured_cons_of_ne same _).trans known.reading,
                (lastRead_cons_of_ne same _).trans known.read, event,
                List.mem_cons_of_mem _ member, answer⟩

end RateLimiting
