import RateLimiting.Concurrency.AtMostOnce
import RateLimiting.Store.Revisions

/-! # Failing reads

A read that reports an error looks like an absent key, and the check goes on with
a fresh state. Its transaction then asks for an absent key, so on a key that
exists nothing comes of it: every write continues from the write before it. -/

namespace RateLimiting

open CheckTrace

namespace EtcdTrace

variable {loop : CheckLoop} {ι : Type}

def write? (event : Event (etcdMachine loop) ι) : Option (String × Bytes) :=
  match event.op with
  | .now => none
  | .store op => event.before.store.written? op event.choice

def writes (trace : EtcdTrace loop ι) : List (String × Bytes) :=
  trace.filterMap write?

/-- What the last write of a key left, or the server held to begin with. -/
def stored (server : Etcd) (key : String) : EtcdTrace loop ι → Option Bytes
  | [] => (server.kvs key).map KeyValue.value
  | event :: older =>
      match write? event with
      | some (written, value) =>
          if written = key then some value else stored server key older
      | none => stored server key older

theorem stored_cons_of_quiet {event : Event (etcdMachine loop) ι}
    (quiet : write? event = none) (server : Etcd) (key : String)
    (older : EtcdTrace loop ι) :
    stored server key (event :: older) = stored server key older := by
  simp [stored, quiet]

theorem stored_cons_of_write {event : Event (etcdMachine loop) ι} {written : String}
    {value : Bytes} (write : write? event = some (written, value)) (server : Etcd)
    (key : String) (older : EtcdTrace loop ι) :
    stored server key (event :: older) =
      if written = key then some value else stored server key older := by
  simp [stored, write]

theorem writes_cons_of_quiet {event : Event (etcdMachine loop) ι}
    (quiet : write? event = none) (older : EtcdTrace loop ι) :
    writes (event :: older) = writes older :=
  List.filterMap_cons_none quiet

theorem writes_cons_of_write {event : Event (etcdMachine loop) ι}
    {write : String × Bytes} (isWrite : write? event = some write)
    (older : EtcdTrace loop ι) : writes (event :: older) = write :: writes older :=
  List.filterMap_cons_some isWrite

theorem perform_write (event : Event (etcdMachine loop) ι) :
    ((etcdMachine loop).perform event.op event.choice event.before).2.store =
      (write? event).elim event.before.store fun write =>
        event.before.store.put write.1 write.2 := by
  rcases event with ⟨thread, op, choice, before⟩
  cases op with
  | now => rfl
  | store op => exact before.store.perform_server op choice

end EtcdTrace

/-! ## The history of the server -/

open EtcdTrace

section History

variable {loop : CheckLoop} {ι α : Type}

/-- Whatever programs are run, the server is where its writes have put it, and
every state it was in precedes the present one. -/
structure EtcdHistory (server : Etcd) (config : Config (etcdMachine loop) ι α) :
    Prop where
  numbered : config.world.store.Numbered
  revision : config.world.store.revision.toInt =
    server.revision.toInt + (writes config.trace).length
  stored : ∀ key, (config.world.store.kvs key).map KeyValue.value =
    stored server key config.trace
  past : ∀ event ∈ config.trace, event.before.store.Precedes config.world.store

/-- The server has not run out of revisions. -/
def WithinRevisions (server : Etcd) (trace : EtcdTrace loop ι) : Prop :=
  server.revision.toInt + (writes trace).length < 2 ^ 63

instance (server : Etcd) (trace : EtcdTrace loop ι) :
    Decidable (WithinRevisions server trace) :=
  inferInstanceAs (Decidable (_ < _))

theorem WithinRevisions.inherited {server : Etcd} {older trace : EtcdTrace loop ι}
    (suffix : older <:+ trace) (within : WithinRevisions server trace) :
    WithinRevisions server older := by
  have shorter := (suffix.filterMap write?).length_le
  unfold WithinRevisions writes at *
  omega

theorem EtcdHistory.quiet {server : Etcd} {config after : Config (etcdMachine loop) ι α}
    (history : EtcdHistory server config) {event : Event (etcdMachine loop) ι}
    (before : event.before = config.world) (trace : after.trace = event :: config.trace)
    (quiet : write? event = none) (store : after.world.store = config.world.store) :
    EtcdHistory server after := by
  constructor
  · exact store ▸ history.numbered
  · rw [store, trace, writes_cons_of_quiet quiet]
    exact history.revision
  · intro key
    rw [store, trace, stored_cons_of_quiet quiet]
    exact history.stored key
  · intro earlier member
    rw [store]
    rcases List.mem_cons.mp (trace ▸ member) with rfl | member
    · rw [before]
      exact .refl history.numbered
    · exact history.past earlier member

theorem EtcdHistory.write {server : Etcd} {config after : Config (etcdMachine loop) ι α}
    (history : EtcdHistory server config) {event : Event (etcdMachine loop) ι}
    (before : event.before = config.world) (trace : after.trace = event :: config.trace)
    {key : String} {value : Bytes} (isWrite : write? event = some (key, value))
    (store : after.world.store = config.world.store.put key value)
    (within : WithinRevisions server after.trace) : EtcdHistory server after := by
  rw [WithinRevisions, trace, writes_cons_of_write isWrite, List.length_cons] at within
  have numbered := history.numbered
  have fits : config.world.store.revision.toInt + 1 < 2 ^ 63 := by
    rw [history.revision]
    omega
  constructor
  · exact store ▸ numbered.put fits key value
  · rw [store, trace, writes_cons_of_write isWrite, List.length_cons,
      Etcd.toInt_put_revision numbered fits, history.revision]
    omega
  · intro other
    rw [store, trace, stored_cons_of_write isWrite, Etcd.put_kvs_value,
      history.stored other]
  · intro earlier member
    rw [store]
    rcases List.mem_cons.mp (trace ▸ member) with rfl | member
    · rw [before]
      exact (Etcd.Precedes.refl numbered).follow (numbered.follows_put fits key value)
    · exact (history.past earlier member).follow (numbered.follows_put fits key value)

theorem EtcdHistory.perform {server : Etcd} {config after : Config (etcdMachine loop) ι α}
    (history : EtcdHistory server config) {event : Event (etcdMachine loop) ι}
    (before : event.before = config.world) (trace : after.trace = event :: config.trace)
    (store : after.world.store =
      ((etcdMachine loop).perform event.op event.choice event.before).2.store)
    (within : WithinRevisions server after.trace) : EtcdHistory server after := by
  rw [perform_write, before] at store
  cases isWrite : write? event with
  | none =>
      rw [isWrite] at store
      exact history.quiet before trace isWrite store
  | some write =>
      rw [isWrite] at store
      exact history.write before trace isWrite store within

theorem EtcdHistory.advance [DecidableEq ι] {server : Etcd} {config : Config (etcdMachine loop) ι α}
    (history : EtcdHistory server config) (action : Action (etcdMachine loop) ι)
    (within : WithinRevisions server (config.advance action).trace) :
    EtcdHistory server (config.advance action) := by
  cases action with
  | evolve clock =>
      exact ⟨history.numbered, history.revision, history.stored, history.past⟩
  | step thread choice =>
      cases program : config.threads thread with
      | pure value =>
          rw [Config.advance_of_pure program]
          exact history
      | request op next =>
          rw [Config.advance_of_request program] at within ⊢
          exact history.perform rfl rfl rfl within

end History

/-! ## The writes of checks -/

section Invariant

variable {loop : CheckLoop} (json : SerdeJson loop.State) (store : EtcdStore)
  {ι : Type} [DecidableEq ι] (request : ι → CheckRequest)

/-- A write, after the operations `older`, by a pass that worked on what the
write before it had left under the key. -/
structure FollowsLatest (server : Etcd) (older : EtcdTrace loop ι)
    (event : Event (etcdMachine loop) ι) (write : String × Bytes) (now : loop.Time)
    (entry : Option (Bytes × Int64)) : Prop where
  key : write.1 = store.fullKey ((request event.thread).key loop)
  reading : captured event.thread older = some now
  read : lastRead event.thread older = some entry
  value : write.2 =
    json.toVec (loop.outcomeOf json (request event.thread).cost now entry).1
  latest : entry.map Prod.fst = stored server write.1 older

structure WritesFollow (server : Etcd) (config : Config (etcdMachine loop) ι Decision) :
    Prop where
  history : EtcdHistory server config
  phase : ∀ call, CallPhase json store request config call
  follows : ∀ event older, event :: older <:+ config.trace →
    ∀ write, write? event = some write →
      ∃ now entry, FollowsLatest json store request server older event write now entry

variable {json store request}

theorem FollowsLatest.fresh {server : Etcd} {older : EtcdTrace loop ι}
    {event : Event (etcdMachine loop) ι} {write : String × Bytes} {now : loop.Time}
    {entry : Option (Bytes × Int64)}
    (follows : FollowsLatest json store request server older event write now entry)
    (unparsed : (entry.bind fun found => json.fromSlice found.1) = none) :
    stored server write.1 older = none ∨
      ∃ bytes, stored server write.1 older = some bytes ∧ json.fromSlice bytes = none := by
  rw [← follows.latest]
  cases entry with
  | none => exact .inl rfl
  | some found => exact .inr ⟨found.1, rfl, unparsed⟩

theorem WritesFollow.initial (start : loop.Time) {server : Etcd}
    (numbered : server.Numbered) :
    WritesFollow json store request server
      (etcdSystem loop json store request start server) where
  history := {
    numbered := numbered
    revision := by simp [etcdSystem, writes]
    stored := fun key => rfl
    past := fun event member => absurd member List.not_mem_nil }
  phase call := .ready 5 rfl
  follows event older suffix :=
    absurd (List.suffix_nil.mp suffix) (List.cons_ne_nil _ _)

theorem WritesFollow.txn {server : Etcd} {config : Config (etcdMachine loop) ι Decision}
    (invariant : WritesFollow json store request server config) {call : ι}
    {now : loop.Time} {entry : Option (Bytes × Int64)}
    (known : HasRead store request call config.trace now entry) {choice : RpcOutcome}
    {write : String × Bytes} :
    let event : Event (etcdMachine loop) ι := ⟨call, .store (.txn (loop.etcdTxn json store
      ((request call).key loop) (request call).cost now entry)), choice, config.world⟩
    write? event = some write →
      FollowsLatest json store request server config.trace event write now entry := by
  intro event isWrite
  have applied : (if config.world.store.compare (EtcdStore.condition
        (store.fullKey ((request call).key loop)) (entry.map Prod.snd))
      then some (store.fullKey ((request call).key loop),
        json.toVec (loop.outcomeOf json (request call).cost now entry).1)
      else none) = some write := by
    cases choice with
    | ok => exact isWrite
    | failed => cases isWrite
    | unacknowledged => exact isWrite
  rcases Option.ite_none_right_eq_some.mp applied with ⟨holds, isValue⟩
  cases isValue
  refine ⟨rfl, known.reading, known.read, rfl, ?_⟩
  rcases known.answer with ⟨reader, member, rfl⟩
  rw [← (invariant.history.past reader member).value_of_compare
    invariant.history.numbered _ _ holds]
  exact invariant.history.stored _

theorem WritesFollow.own {server : Etcd} {config : Config (etcdMachine loop) ι Decision}
    (invariant : WritesFollow json store request server config) {call : ι}
    {op : (checkInterface loop.Time Etcd.interface).Op}
    {next : (checkInterface loop.Time Etcd.interface).Reply op →
      Program (checkInterface loop.Time Etcd.interface) Decision}
    (asks : config.threads call = .request op next) (choice : RpcOutcome) :
    ∀ write, @write? loop ι ⟨call, op, choice, config.world⟩ = some write →
      ∃ now entry, FollowsLatest json store request server config.trace
        ⟨call, op, choice, config.world⟩ write now entry := by
  intro write isWrite
  have phase := invariant.phase call
  rw [CallPhase, asks] at phase
  cases phase.move with
  | clock attempts => cases isWrite
  | read attempts now reading => cases isWrite
  | txn attempts now entry known => exact ⟨now, entry, invariant.txn known isWrite⟩
  | reread attempts => cases isWrite

theorem WritesFollow.advance {server : Etcd}
    {config : Config (etcdMachine loop) ι Decision}
    (invariant : WritesFollow json store request server config)
    (action : Action (etcdMachine loop) ι)
    (within : WithinRevisions server (config.advance action).trace) :
    WritesFollow json store request server (config.advance action) := by
  refine ⟨invariant.history.advance action within,
    fun call => (invariant.phase call).advance action, ?_⟩
  cases action with
  | evolve clock => exact invariant.follows
  | step thread choice =>
      cases program : config.threads thread with
      | pure decision =>
          rw [Config.advance_of_pure program]
          exact invariant.follows
      | request op next =>
          intro event older suffix write isWrite
          rw [Config.advance_of_request program] at suffix
          rcases List.suffix_cons_iff.mp suffix with last | earlier
          · cases last
            exact invariant.own program choice write isWrite
          · exact invariant.follows event older earlier write isWrite

theorem writesFollow_run (start : loop.Time) {server : Etcd} (numbered : server.Numbered)
    (actions : List (Action (etcdMachine loop) ι))
    (within : WithinRevisions server
      ((etcdSystem loop json store request start server).run actions).trace) :
    WritesFollow json store request server
      ((etcdSystem loop json store request start server).run actions) :=
  Config.invariant_run_within (WritesFollow json store request server)
    (WithinRevisions server) WithinRevisions.inherited
    (fun _ action invariant within => invariant.advance action within) _
    (WritesFollow.initial start numbered) actions within

end Invariant

/-- Whichever reads and transactions fail, every applied write was computed from
what the write before it had left under the key; it starts from a fresh state only
if the key was absent or its bytes do not parse. -/
theorem RateLimiterConfig.writes_follow_latest (config : RateLimiterConfig)
    (json : SerdeJson config.limiter.State) (store : EtcdStore) {ι : Type}
    [DecidableEq ι] (request : ι → CheckRequest) (start : config.limiter.Time)
    (server : Etcd) (numbered : server.Numbered)
    (actions : List (Action (etcdMachine config.limiter) ι)) :
    let state := (etcdSystem config.limiter json store request start server).run actions
    WithinRevisions server state.trace →
      ∀ event older, event :: older <:+ state.trace →
        ∀ write, write? event = some write →
          ∃ now entry,
            FollowsLatest json store request server older event write now entry ∧
            ((entry.bind fun found => json.fromSlice found.1) = none →
              stored server write.1 older = none ∨
                ∃ bytes, stored server write.1 older = some bytes ∧
                  json.fromSlice bytes = none) := by
  intro state within event older suffix write isWrite
  have invariant : WritesFollow json store request server state :=
    writesFollow_run start numbered actions within
  rcases invariant.follows event older suffix write isWrite with ⟨now, entry, follows⟩
  exact ⟨now, entry, follows, follows.fresh⟩

/-- The read of the second call fails on a key that exists: its first transaction
does nothing and its second pass charges on top of the first call. -/
theorem failed_read_writes_nothing :
    let config : RateLimiterConfig := ⟨.fixedWindow, 10, 1, 0, 1, 1, 0⟩
    let request : Fin 2 → CheckRequest := fun _ => ⟨"alice", "/", 1⟩
    let store : EtcdStore := ⟨"/rate-limiter"⟩
    let server : Etcd := ⟨fun _ => none, 1⟩
    let actions : List (Action (etcdMachine config.limiter) (Fin 2)) :=
      [.step 0 .ok, .step 0 .ok, .step 0 .ok,
        .step 1 .ok, .step 1 .failed, .step 1 .ok, .step 1 .ok,
        .step 1 .ok, .step 1 .ok, .step 1 .ok]
    let state := (etcdSystem config.limiter Json.fixedWindow store request 0 server).run
      actions
    ((state.world.store.kvs "/rate-limiter/fixed_window/alice//").bind
        fun kv => Json.fixedWindow.fromSlice kv.value) = some ⟨2, 0⟩ ∧
      ∀ event older, event :: older <:+ state.trace →
        ∀ write, write? event = some write →
          ∃ now entry,
            FollowsLatest Json.fixedWindow store request server older event write now
              entry ∧
            ((entry.bind fun found => Json.fixedWindow.fromSlice found.1) = none →
              stored server write.1 older = none ∨
                ∃ bytes, stored server write.1 older = some bytes ∧
                  Json.fixedWindow.fromSlice bytes = none) := by
  intro config request store server actions state
  have numbered : server.Numbered := .empty (by decide)
  have within : WithinRevisions server state.trace := by decide +kernel
  exact ⟨by decide +kernel, config.writes_follow_latest Json.fixedWindow store request 0
    server numbered actions within⟩

end RateLimiting
