import RateLimiting.Concurrency.FailingReads
import RateLimiting.History

/-! # Checks over etcd are serializable

Whichever RPCs fail, a transaction that takes effect is a step of the limiter on
what the one before it left under the key. If its answer is lost, it is a step
that no call returns; the others are what the calls return. -/

namespace RateLimiting

open CheckTrace

namespace EtcdTrace

variable {loop : CheckLoop} (json : SerdeJson loop.State) {ι : Type} [DecidableEq ι]
  (request : ι → CheckRequest)

/-- The check that an operation applied, after the operations `older`, under its
key in etcd. -/
def commit? (older : EtcdTrace loop ι) (event : Event (etcdMachine loop) ι) :
    Option (Commit loop ι) := do
  let (key, value) ← write? event
  let now ← captured event.thread older
  let after ← json.fromSlice value
  pure {
    call := event.thread
    key := key
    now := now
    cost := (request event.thread).cost
    before := (event.before.store.kvs key).bind fun kv => json.fromSlice kv.value
    after := after }

def applied : EtcdTrace loop ι → List (Commit loop ι × RpcOutcome)
  | [] => []
  | event :: older => applied older ++
      ((commit? json request older event).map fun commit => (commit, event.choice)).toList

def history (trace : EtcdTrace loop ι) : History loop ι :=
  (applied json request trace).map Prod.fst

/-- The applied checks that a call heard of. -/
def acknowledged (trace : EtcdTrace loop ι) : History loop ι :=
  ((applied json request trace).filter fun check => check.2 = .ok).map Prod.fst

variable {json request} {event : Event (etcdMachine loop) ι} {older : EtcdTrace loop ι}

theorem history_cons_of_quiet (quiet : commit? json request older event = none) :
    history json request (event :: older) = history json request older := by
  simp [history, applied, quiet]

theorem acknowledged_cons_of_quiet
    (quiet : commit? json request older event = none ∨ event.choice ≠ .ok) :
    acknowledged json request (event :: older) = acknowledged json request older := by
  rcases quiet with quiet | unanswered
  · simp [acknowledged, applied, quiet]
  · cases completed : commit? json request older event <;>
      simp [acknowledged, applied, completed, unanswered]

variable {commit : Commit loop ι}

theorem history_cons_of_commit (completes : commit? json request older event = some commit) :
    history json request (event :: older) = history json request older ++ [commit] := by
  simp [history, applied, completes]

theorem acknowledged_cons_of_commit
    (completes : commit? json request older event = some commit)
    (answered : event.choice = .ok) :
    acknowledged json request (event :: older) =
      acknowledged json request older ++ [commit] := by
  simp [acknowledged, applied, completes, answered]

theorem commit?_call (completes : commit? json request older event = some commit) :
    commit.call = event.thread := by
  rw [commit?] at completes
  simp only [Option.bind_eq_bind, Option.bind_eq_some_iff, Option.pure_def,
    Option.some.injEq] at completes
  rcases completes with ⟨_, _, _, _, _, _, rfl⟩
  rfl

theorem acknowledged_sublist (trace : EtcdTrace loop ι) :
    (acknowledged json request trace).Sublist (history json request trace) :=
  List.filter_sublist.map Prod.fst

end EtcdTrace

open EtcdTrace

section Invariant

variable {loop : CheckLoop} (json : SerdeJson loop.State) (store : EtcdStore)
  {ι : Type} [DecidableEq ι] (request : ι → CheckRequest)

def heldState (server : Etcd) (key : String) : Option loop.State :=
  (server.kvs key).bind fun kv => json.fromSlice kv.value

/-- What a call has returned, unless it has given up. -/
def ordinary (config : Config (etcdMachine loop) ι Decision) (call : ι) :
    Option Decision :=
  (config.result call).filter fun decision => decision ≠ loop.fallback

structure Answered (config : Config (etcdMachine loop) ι Decision) (call : ι) :
    Prop where
  decisions : ((acknowledged json request config.trace).filter
    fun commit => commit.call = call).map Commit.decision = (ordinary config call).toList
  reading : ∀ commit ∈ acknowledged json request config.trace, commit.call = call →
    captured call config.trace = some commit.now

/-- What it means for a run over etcd that what it applied took effect one check at
a time. -/
structure AppliesSerially (server : Etcd)
    (config : Config (etcdMachine loop) ι Decision) : Prop where
  /-- The history lists the writes in order; each left the new state of its check. -/
  complete : writes config.trace = ((history json request config.trace).map
    fun commit => (commit.key, json.toVec commit.after)).reverse
  /-- Each check worked with the arguments of its call. -/
  worked : ∀ commit ∈ history json request config.trace,
    commit.key = store.fullKey ((request commit.call).key loop) ∧
      commit.cost = (request commit.call).cost
  /-- On each key the checks go on from whatever history the server starts with. -/
  serial : ∀ key (prior : History loop ι), prior.Serial →
    prior.final = heldState json server key →
      (prior ++ (history json request config.trace).on key).Serial
  stored : ∀ key, (config.world.store.kvs key).map KeyValue.value =
    (((history json request config.trace).on key).final.map json.toVec).or
      ((server.kvs key).map KeyValue.value)

/-- And that the calls returned the decisions of those they heard of. -/
structure EtcdSerializes (server : Etcd)
    (config : Config (etcdMachine loop) ι Decision) : Prop extends
    AppliesSerially json store request server config where
  answered : ∀ call, Answered json request config call

variable {json store request}

/-! ## One operation -/

section Operation

variable {server : Etcd} {config after : Config (etcdMachine loop) ι Decision}
  {event : Event (etcdMachine loop) ι}

theorem FollowsLatest.commit? (invariant : WritesFollow json store request server config)
    (before : event.before = config.world) {write : String × Bytes} {now : loop.Time}
    {entry : Option (Bytes × Int64)} (isWrite : write? event = some write)
    (follows : FollowsLatest json store request server config.trace event write now entry) :
    EtcdTrace.commit? json request config.trace event = some {
      call := event.thread
      key := write.1
      now := now
      cost := (request event.thread).cost
      before := heldState json config.world.store write.1
      after := (loop.outcomeOf json (request event.thread).cost now entry).1 } ∧
    (entry.bind fun found => json.fromSlice found.1) =
      heldState json config.world.store write.1 := by
  constructor
  · simp [EtcdTrace.commit?, isWrite, follows.reading, follows.value, before, heldState]
  · have latest := follows.latest.trans (invariant.history.stored write.1).symm
    have decoded := congrArg (fun bytes => bytes.bind json.fromSlice) latest
    simpa [heldState, Option.bind_map, Function.comp_def] using decoded

theorem AppliesSerially.quiet
    (applies : AppliesSerially json store request server config)
    (trace : after.trace = event :: config.trace)
    (same : after.world.store = config.world.store) (quiet : write? event = none) :
    AppliesSerially json store request server after := by
  have sameHistory : history json request after.trace =
      history json request config.trace := by
    rw [trace]
    apply history_cons_of_quiet
    simp [EtcdTrace.commit?, quiet]
  constructor
  · rw [sameHistory, trace, writes_cons_of_quiet quiet]
    exact applies.complete
  · rw [sameHistory]
    exact applies.worked
  · rw [sameHistory]
    exact applies.serial
  · rw [sameHistory, same]
    exact applies.stored

theorem AppliesSerially.heldState
    (applies : AppliesSerially json store request server config) (key : String) :
    heldState json config.world.store key =
      (((history json request config.trace).on key).final).or
        (heldState json server key) := by
  have decoded := congrArg (fun bytes => bytes.bind json.fromSlice) (applies.stored key)
  simp only [Option.bind_map, Function.comp_def] at decoded
  unfold RateLimiting.heldState
  rw [decoded]
  cases ((history json request config.trace).on key).final <;> simp [Option.bind_map]

theorem AppliesSerially.write
    (applies : AppliesSerially json store request server config)
    (trace : after.trace = event :: config.trace)
    {commit : Commit loop ι}
    (completes : EtcdTrace.commit? json request config.trace event = some commit)
    (isWrite : write? event = some (commit.key, json.toVec commit.after))
    (put : after.world.store =
      config.world.store.put commit.key (json.toVec commit.after))
    (key : commit.key = store.fullKey ((request commit.call).key loop))
    (cost : commit.cost = (request commit.call).cost)
    (read : commit.before = RateLimiting.heldState json config.world.store commit.key)
    (stepped : commit.after = commit.outcome.1) :
    AppliesSerially json store request server after := by
  have longer : history json request after.trace =
      history json request config.trace ++ [commit] := by
    rw [trace]
    exact history_cons_of_commit completes
  constructor
  · rw [longer, trace, writes_cons_of_write isWrite, applies.complete]
    simp
  · intro other member
    rw [longer, List.mem_append, List.mem_singleton] at member
    rcases member with member | rfl
    · exact applies.worked other member
    · exact ⟨key, cost⟩
  · intro written prior isSerial final
    have before := applies.serial written prior isSerial final
    rw [longer, History.on_append, History.on_singleton]
    by_cases same : commit.key = written
    · subst same
      rw [if_pos rfl, ← List.append_assoc]
      refine .snoc before ?_ stepped
      rw [read, applies.heldState, History.final_append, final]
    · rw [if_neg same, List.append_nil]
      exact before
  · intro written
    rw [put, Etcd.put_kvs_value, applies.stored, longer, History.on_append,
      History.on_singleton]
    by_cases same : commit.key = written
    · simp [same]
    · simp [same]

theorem AppliesSerially.perform
    (applies : AppliesSerially json store request server config)
    (invariant : WritesFollow json store request server config)
    (before : event.before = config.world)
    (trace : after.trace = event :: config.trace)
    (performed : after.world.store =
      ((etcdMachine loop).perform event.op event.choice event.before).2.store)
    (follows : ∀ write, write? event = some write → ∃ now entry,
      FollowsLatest json store request server config.trace event write now entry) :
    AppliesSerially json store request server after := by
  rw [perform_write, before] at performed
  cases isWrite : write? event with
  | none =>
      rw [isWrite] at performed
      exact applies.quiet trace performed isWrite
  | some write =>
      rw [isWrite] at performed
      rcases follows write isWrite with ⟨now, entry, follows⟩
      rcases follows.commit? invariant before isWrite with ⟨completes, read⟩
      refine applies.write trace completes ?_ ?_ follows.key rfl rfl ?_
      · rw [isWrite, ← follows.value]
      · rw [performed, ← follows.value]
        rfl
      · simp only [Commit.outcome, ← read, CheckLoop.outcomeOf]

/-! ## The answers -/

theorem Answered.frame {call : ι} (answered : Answered json request config call)
    (other : call ≠ event.thread) (trace : after.trace = event :: config.trace)
    (program : after.threads call = config.threads call) :
    Answered json request after call := by
  have sameResult : ordinary after call = ordinary config call := by
    rw [ordinary, Config.result, program]
    rfl
  have sameReading : captured call after.trace = captured call config.trace := by
    rw [trace, captured_cons_of_ne other]
  cases completes : EtcdTrace.commit? json request config.trace event with
  | none =>
      have same := acknowledged_cons_of_quiet (.inl completes)
      rw [← trace] at same
      exact ⟨by rw [same, sameResult]; exact answered.decisions,
        by rw [same, sameReading]; exact answered.reading⟩
  | some commit =>
      have elsewhere : commit.call ≠ call :=
        fun same => other (same.symm.trans (commit?_call completes))
      by_cases ok : event.choice = .ok
      · have longer := acknowledged_cons_of_commit completes ok
        rw [← trace] at longer
        constructor
        · rw [longer, sameResult, List.filter_append, List.filter_singleton]
          simpa [elsewhere] using answered.decisions
        · rw [longer, sameReading]
          intro earlier member isCall
          rcases List.mem_append.mp member with member | member
          · exact answered.reading earlier member isCall
          · rw [List.mem_singleton.mp member] at isCall
            exact absurd isCall elsewhere
      · have same : acknowledged json request (event :: config.trace) =
            acknowledged json request config.trace :=
          acknowledged_cons_of_quiet (.inr ok)
        rw [← trace] at same
        exact ⟨by rw [same, sameResult]; exact answered.decisions,
          by rw [same, sameReading]; exact answered.reading⟩

theorem Answered.unanswered {call : ι} (answered : Answered json request config call)
    (running : ordinary config call = none) :
    ∀ commit ∈ acknowledged json request config.trace, commit.call ≠ call := by
  have none := answered.decisions
  rw [running, Option.toList_none, List.map_eq_nil_iff, List.filter_eq_nil_iff] at none
  intro commit member same
  exact none commit member (decide_eq_true same)

theorem Answered.quiet (answered : Answered json request config event.thread)
    (trace : after.trace = event :: config.trace)
    (quiet : EtcdTrace.commit? json request config.trace event = none ∨
      event.choice ≠ .ok)
    (before : ordinary config event.thread = none)
    (running : ordinary after event.thread = none) :
    Answered json request after event.thread := by
  have same := acknowledged_cons_of_quiet quiet
  rw [← trace] at same
  constructor
  · rw [same, running, ← before]
    exact answered.decisions
  · rw [same]
    intro commit member isCall
    exact absurd isCall (answered.unanswered before commit member)

theorem Answered.commit (answered : Answered json request config event.thread)
    (trace : after.trace = event :: config.trace) {commit : Commit loop ι}
    (completes : EtcdTrace.commit? json request config.trace event = some commit)
    (ok : event.choice = .ok) (before : ordinary config event.thread = none)
    (reading : captured event.thread after.trace = some commit.now)
    (returned : ordinary after event.thread = some commit.decision) :
    Answered json request after event.thread := by
  have longer := acknowledged_cons_of_commit completes ok
  rw [← trace] at longer
  have isCall := commit?_call completes
  have earlier := answered.unanswered before
  constructor
  · rw [longer, returned, List.filter_append, List.map_append,
      List.filter_eq_nil_iff.mpr (by simpa using earlier), List.filter_singleton]
    simp [isCall]
  · rw [longer, reading]
    intro other member same
    rcases List.mem_append.mp member with member | member
    · exact absurd same (earlier other member)
    · rw [List.mem_singleton.mp member]

end Operation

/-! ## The calls -/

section Calls

variable {config : Config (etcdMachine loop) ι Decision} {call : ι}

omit [DecidableEq ι] in
theorem ordinary_of_request {op : (checkInterface loop.Time Etcd.interface).Op}
    {next : (checkInterface loop.Time Etcd.interface).Reply op →
      Program (checkInterface loop.Time Etcd.interface) Decision}
    (program : config.threads call = .request op next) : ordinary config call = none := by
  rw [ordinary, Config.result, program]
  rfl

omit [DecidableEq ι] in
theorem ordinary_of_retry {attempts : Nat} (program : config.threads call =
      loop.retry json store.stateStore ((request call).key loop) (request call).cost
        attempts) : ordinary config call = none := by
  cases attempts with
  | zero =>
      rw [ordinary, Config.result, program]
      simp [CheckLoop.retry, Option.filter]
  | succ attempts =>
      rw [CheckLoop.retry_etcd] at program
      exact ordinary_of_request program

theorem commit?_of_quiet {event : Event (etcdMachine loop) ι} (quiet : write? event = none)
    (older : EtcdTrace loop ι) : EtcdTrace.commit? json request older event = none := by
  simp [EtcdTrace.commit?, quiet]

theorem Answered.txn {server : Etcd} {after : Config (etcdMachine loop) ι Decision}
    (invariant : WritesFollow json store request server config)
    (answered : Answered json request config call) (before : ordinary config call = none)
    {now : loop.Time} {entry : Option (Bytes × Int64)}
    (known : HasRead store request call config.trace now entry) (choice : RpcOutcome)
    (attempts : Nat) :
    let txn := loop.etcdTxn json store ((request call).key loop) (request call).cost now
      entry
    after.trace = ⟨call, .store (.txn txn), choice, config.world⟩ :: config.trace →
      after.threads call = loop.etcdAnswered json store ((request call).key loop)
        (request call).cost attempts now entry
        (Etcd.perform (.txn txn) choice config.world.store).1 →
        Answered json request after call := by
  intro txn trace continued
  let event : Event (etcdMachine loop) ι :=
    ⟨call, .store (.txn txn), choice, config.world⟩
  change after.trace = event :: config.trace at trace
  by_cases succeeded : (Etcd.perform (.txn txn) choice config.world.store).1.any
      TxnResponse.succeeded = true
  · rcases (perform_txn_succeeded txn choice _).mp succeeded with ⟨rfl, holds⟩
    have isWrite : write? event = some (txn.key, txn.value) := if_pos holds
    have follows : FollowsLatest json store request server config.trace event
        (txn.key, txn.value) now entry := invariant.txn known isWrite
    rcases follows.commit? invariant rfl isWrite with ⟨completes, found⟩
    rw [CheckLoop.etcdAnswered, if_pos succeeded] at continued
    apply answered.commit trace completes rfl before
    · rw [trace]
      exact known.reading
    · rw [ordinary, Config.result, continued, Commit.decision, Commit.outcome, ← found]
      exact Option.filter_some_pos (decide_eq_true (loop.step_ordinary _ _ _))
  · rw [CheckLoop.etcdAnswered, if_neg succeeded] at continued
    apply answered.quiet trace ?_ before (ordinary_of_request continued)
    by_cases ok : choice = .ok
    · subst ok
      have fails : ¬ config.world.store.compare txn.condition = true := fun holds =>
        succeeded ((perform_txn_succeeded txn .ok _).mpr ⟨rfl, holds⟩)
      have unwritten : write? event = none := if_neg fails
      exact .inl (commit?_of_quiet unwritten _)
    · exact .inr ok

theorem Answered.own {server : Etcd}
    (invariant : WritesFollow json store request server config)
    (answered : Answered json request config call)
    {op : (checkInterface loop.Time Etcd.interface).Op}
    {next : (checkInterface loop.Time Etcd.interface).Reply op →
      Program (checkInterface loop.Time Etcd.interface) Decision}
    (asks : config.threads call = .request op next) (choice : RpcOutcome) :
    Answered json request (config.advance (.step call choice)) call := by
  have phase := invariant.phase call
  rw [CallPhase, asks] at phase
  have trace : (config.advance (.step call choice)).trace =
      ⟨call, op, choice, config.world⟩ :: config.trace := by
    rw [Config.advance_of_request asks]
  have continued : (config.advance (.step call choice)).threads call =
      next ((etcdMachine loop).perform op choice config.world).1 := by
    rw [Config.advance_of_request asks]
    exact Function.update_self ..
  have before := ordinary_of_request asks
  cases phase.move with
  | clock attempts =>
      exact answered.quiet trace (.inl (commit?_of_quiet rfl _)) before
        (ordinary_of_request continued)
  | read attempts now reading =>
      exact answered.quiet trace (.inl (commit?_of_quiet rfl _)) before
        (ordinary_of_request continued)
  | txn attempts now entry known =>
      exact answered.txn invariant before known choice attempts trace continued
  | reread attempts =>
      exact answered.quiet trace (.inl (commit?_of_quiet rfl _)) before
        (ordinary_of_retry continued)

end Calls

/-! ## Runs -/

theorem EtcdSerializes.initial (start : loop.Time) (server : Etcd) :
    EtcdSerializes json store request server
      (etcdSystem loop json store request start server) where
  complete := rfl
  worked commit member := by simp [history, applied, etcdSystem] at member
  serial key prior serial _ := by
    simpa [history, applied, etcdSystem] using serial
  stored key := by simp [history, applied, etcdSystem]
  answered call := {
    decisions := by
      have nothing : ordinary (etcdSystem loop json store request start server) call =
          none := @ordinary_of_retry loop json store ι request _ call 5 rfl
      rw [nothing]
      rfl
    reading := fun commit member => by simp [acknowledged, applied, etcdSystem] at member }

theorem EtcdSerializes.advance {server : Etcd}
    {config : Config (etcdMachine loop) ι Decision}
    (serializes : EtcdSerializes json store request server config)
    (invariant : WritesFollow json store request server config)
    (action : Action (etcdMachine loop) ι) :
    EtcdSerializes json store request server (config.advance action) := by
  cases action with
  | evolve clock =>
      exact ⟨⟨serializes.complete, serializes.worked, serializes.serial,
        serializes.stored⟩, fun call => ⟨(serializes.answered call).decisions,
          (serializes.answered call).reading⟩⟩
  | step thread choice =>
      cases program : config.threads thread with
      | pure decision =>
          rw [Config.advance_of_pure program]
          exact serializes
      | request op next =>
          have own := Answered.own invariant (serializes.answered thread) program choice
          have trace : (config.advance (.step thread choice)).trace =
              ⟨thread, op, choice, config.world⟩ :: config.trace := by
            rw [Config.advance_of_request program]
          refine ⟨?_, fun call => ?_⟩
          · apply serializes.toAppliesSerially.perform invariant rfl trace
            · rw [Config.advance_of_request program]
            · exact invariant.own program choice
          · by_cases same : call = thread
            · exact same ▸ own
            · apply (serializes.answered call).frame same trace
              rw [Config.advance_of_request program]
              exact Function.update_of_ne same _ _

theorem etcdSerializes_run (start : loop.Time) {server : Etcd} (numbered : server.Numbered)
    (actions : List (Action (etcdMachine loop) ι))
    (within : WithinRevisions server
      ((etcdSystem loop json store request start server).run actions).trace) :
    EtcdSerializes json store request server
      ((etcdSystem loop json store request start server).run actions) := by
  have both := Config.invariant_run_within
    (fun config => WritesFollow json store request server config ∧
      EtcdSerializes json store request server config)
    (WithinRevisions server) WithinRevisions.inherited
    (fun config action invariant within => ⟨invariant.1.advance action within,
      invariant.2.advance invariant.1 action⟩) _
    ⟨WritesFollow.initial start numbered, EtcdSerializes.initial start server⟩ actions within
  exact both.2

end Invariant

/-- Every run over etcd serializes, whichever algorithm is configured, whatever the
server holds, however the clocks of the replicas move and whichever RPCs fail. -/
theorem RateLimiterConfig.etcd_checks_serializable (config : RateLimiterConfig)
    (json : SerdeJson config.limiter.State) (store : EtcdStore) {ι : Type}
    [DecidableEq ι] (request : ι → CheckRequest) (start : config.limiter.Time)
    (server : Etcd) (numbered : server.Numbered)
    (actions : List (Action (etcdMachine config.limiter) ι))
    (within : WithinRevisions server
      ((etcdSystem config.limiter json store request start server).run actions).trace) :
    EtcdSerializes json store request server
      ((etcdSystem config.limiter json store request start server).run actions) :=
  etcdSerializes_run start numbered actions within

/-- The first transaction of one call is applied and its answer lost, and a read of
the other one fails. -/
theorem RateLimiterConfig.etcd_checks_serializable_failures :
    let config : RateLimiterConfig := ⟨.fixedWindow, 10, 1, 0, 1, 1, 0⟩
    let request : Fin 2 → CheckRequest := fun _ => ⟨"alice", "/", 1⟩
    let store : EtcdStore := ⟨"/rate-limiter"⟩
    let server : Etcd := ⟨fun _ => none, 1⟩
    let actions : List (Action (etcdMachine config.limiter) (Fin 2)) :=
      [.step 0 .ok, .step 0 .ok, .step 0 .unacknowledged, .step 0 .ok,
        .step 1 .ok, .step 1 .failed, .step 1 .ok, .step 1 .ok,
        .step 0 .ok, .step 0 .ok, .step 0 .ok, .step 1 .ok, .step 1 .ok, .step 1 .ok]
    EtcdSerializes Json.fixedWindow store request server
      ((etcdSystem config.limiter Json.fixedWindow store request 0 server).run actions) := by
  intro config request store server actions
  exact config.etcd_checks_serializable Json.fixedWindow store request 0 server
    (.empty (by decide)) actions (by decide +kernel)

end RateLimiting
