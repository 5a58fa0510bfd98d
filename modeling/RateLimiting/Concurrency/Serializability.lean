import Mathlib.Data.List.Infix
import RateLimiting.Concurrency.LocalSystem
import RateLimiting.Foundation.MachineNumber
import RateLimiting.Store.Json

/-! # Checks are serializable

Every call of a run is in one of four phases. The invariant ties the version a
call has read to the write that produced it; since no two writes share a
version, a compare-and-swap that succeeds finds exactly the state it was
computed from, and the writes on a key form a serial history. -/

namespace RateLimiting

namespace LocalTrace

variable {loop : CheckLoop} (json : SerdeJson loop.State) {ι : Type}

/-- Some write of the run put these bytes under this key and got this version. -/
def Wrote (trace : LocalTrace loop ι) (key : String) (bytes : Bytes)
    (version : Int64) : Prop :=
  ∃ index thread, (writes trace)[index]? = some (thread, key, bytes) ∧
    version = Int64.ofNat (index + 1)

theorem writes_cons (event : Event (localMachine loop) ι)
    (older : LocalTrace loop ι) :
    writes (event :: older) = writes older ++ (write? event).toList := by
  cases written : write? event <;> simp [writes, written]

theorem Wrote.cons {trace : LocalTrace loop ι} {key : String} {bytes : Bytes}
    {version : Int64} (wrote : Wrote trace key bytes version)
    (event : Event (localMachine loop) ι) :
    Wrote (event :: trace) key bytes version := by
  rcases wrote with ⟨index, thread, at_index, version_eq⟩
  refine ⟨index, thread, ?_, version_eq⟩
  rw [writes_cons, List.getElem?_append_left]
  · exact at_index
  · exact (List.getElem?_eq_some_iff.mp at_index).1

/-- Fewer than `2 ^ 63` writes have pairwise different versions. -/
theorem Wrote.bytes_unique {trace : LocalTrace loop ι}
    (bounded : (writes trace).length < 2 ^ 63) {key : String}
    {left right : Bytes} {version : Int64}
    (leftWrote : Wrote trace key left version)
    (rightWrote : Wrote trace key right version) : left = right := by
  rcases leftWrote with ⟨leftIndex, leftThread, atLeft, leftVersion⟩
  rcases rightWrote with ⟨rightIndex, rightThread, atRight, rightVersion⟩
  have leftBound := (List.getElem?_eq_some_iff.mp atLeft).1
  have rightBound := (List.getElem?_eq_some_iff.mp atRight).1
  have sameIndex : leftIndex + 1 = rightIndex + 1 :=
    int64_ofNat_injective (by omega) (by omega)
      (leftVersion.symm.trans rightVersion)
  have sameEntry : (leftThread, key, left) = (rightThread, key, right) := by
    rw [Nat.add_right_cancel sameIndex, atRight] at atLeft
    exact (Option.some.inj atLeft).symm
  simp_all

variable [DecidableEq ι] (request : ι → CheckRequest)

theorem history_cons_of_quiet {event : Event (localMachine loop) ι}
    (quiet : write? event = none) (older : LocalTrace loop ι) :
    history json request (event :: older) = history json request older := by
  simp [history, commit?, quiet]

end LocalTrace

/-! ## The invariant -/

section Invariant

open CheckTrace LocalTrace

variable {loop : CheckLoop} (json : SerdeJson loop.State) {ι : Type}
  [DecidableEq ι] (request : ι → CheckRequest)

/-- What is known of a call: what it has read, and whether it has taken effect. -/
def knownOf (call : ι) (trace : LocalTrace loop ι) : PassFacts loop where
  ready _ := call ∉ (history json request trace).map Commit.call
  clocked _ now := captured call trace = some now ∧
    call ∉ (history json request trace).map Commit.call
  loaded _ now entry := captured call trace = some now ∧
    (∀ bytes version, entry = some (bytes, version) →
      Wrote trace ((request call).key loop) bytes version) ∧
    call ∉ (history json request trace).map Commit.call
  returned _ := call ∈ (history json request trace).map Commit.call

abbrev InPhase (config : Config (localMachine loop) ι Decision) (call : ι) : Prop :=
  LocalPhase json (knownOf json request call config.trace) (request call)
    (config.threads call)

structure Recorded (config : Config (localMachine loop) ι Decision)
    (commit : Commit loop ι) : Prop where
  key : commit.key = (request commit.call).key loop
  cost : commit.cost = (request commit.call).cost
  reading : captured commit.call config.trace = some commit.now
  returned : config.threads commit.call = .pure commit.decision

structure SystemInvariant (config : Config (localMachine loop) ι Decision) : Prop where
  counter : config.world.store.counter =
    Int64.ofNat ((writes config.trace).length + 1)
  stored : ∀ key bytes version,
    config.world.store.state key = some (bytes, version) →
      Wrote config.trace key bytes version
  latest : ∀ key, (config.world.store.state key).map Prod.fst =
    (History.final ((history json request config.trace).on key)).map json.toVec
  complete : writes config.trace =
    (history json request config.trace).map fun commit =>
      (commit.call, commit.key, json.toVec commit.after)
  serial : ∀ key, History.Serial ((history json request config.trace).on key)
  distinct : ((history json request config.trace).map Commit.call).Nodup
  recorded : ∀ commit ∈ history json request config.trace,
    Recorded request config commit
  phase : ∀ call, InPhase json request config call

variable {json request}

theorem InPhase.frame {config after : Config (localMachine loop) ι Decision}
    {call : ι} (inPhase : InPhase json request config call)
    (program : after.threads call = config.threads call)
    (reading : captured call after.trace = captured call config.trace)
    (member : call ∈ (history json request after.trace).map Commit.call ↔
      call ∈ (history json request config.trace).map Commit.call)
    (wrote : ∀ key bytes version, Wrote config.trace key bytes version →
      Wrote after.trace key bytes version) :
    InPhase json request after call := by
  rw [InPhase, program]
  apply inPhase.mono
  · exact fun _ uncommitted => mt member.mp uncommitted
  · exact fun _ now known => ⟨reading.trans known.1, mt member.mp known.2⟩
  · exact fun _ now entry known => ⟨reading.trans known.1,
      fun bytes version equal => wrote _ _ _ (known.2.1 bytes version equal),
      mt member.mp known.2.2⟩
  · exact fun _ committed => member.mpr committed

theorem Recorded.frame {config after : Config (localMachine loop) ι Decision}
    {commit : Commit loop ι} (recorded : Recorded request config commit)
    (reading : captured commit.call after.trace = captured commit.call config.trace)
    (program : after.threads commit.call = config.threads commit.call) :
    Recorded request after commit where
  key := recorded.key
  cost := recorded.cost
  reading := reading.trans recorded.reading
  returned := program.trans recorded.returned

theorem SystemInvariant.initial (start : loop.Time) :
    SystemInvariant json request (localSystem loop json request start) where
  counter := rfl
  stored key bytes version found := by simp [localSystem] at found
  latest key := by simp [localSystem, history]
  complete := rfl
  serial key := by simpa [localSystem, history] using History.Serial.nil
  distinct := by simp [localSystem, history]
  recorded commit member := by simp [localSystem, history] at member
  phase call := .ready 5 (by simp [knownOf, localSystem, history]) rfl

theorem SystemInvariant.quiet {config after : Config (localMachine loop) ι Decision}
    (invariant : SystemInvariant json request config)
    (event : Event (localMachine loop) ι)
    (trace : after.trace = event :: config.trace)
    (store : after.world.store = config.world.store)
    (program : ∀ call, call ≠ event.thread →
      after.threads call = config.threads call)
    (quiet : write? event = none)
    (uncommitted : event.thread ∉
      (history json request config.trace).map Commit.call)
    (phase : InPhase json request after event.thread) :
    SystemInvariant json request after := by
  have sameHistory : history json request after.trace =
      history json request config.trace := by
    rw [trace, history_cons_of_quiet json request quiet]
  have sameWrites : writes after.trace = writes config.trace := by
    rw [trace, writes_cons, quiet]
    simp
  have wrote : ∀ key bytes version, Wrote config.trace key bytes version →
      Wrote after.trace key bytes version := by
    intro key bytes version known
    unfold Wrote
    rw [sameWrites]
    exact known
  constructor
  · rw [store, sameWrites]
    exact invariant.counter
  · intro key bytes version found
    rw [store] at found
    exact wrote _ _ _ (invariant.stored key bytes version found)
  · intro key
    rw [store, sameHistory]
    exact invariant.latest key
  · rw [sameWrites, sameHistory]
    exact invariant.complete
  · intro key
    rw [sameHistory]
    exact invariant.serial key
  · rw [sameHistory]
    exact invariant.distinct
  · intro commit member
    rw [sameHistory] at member
    have other : commit.call ≠ event.thread := by
      rintro same
      exact uncommitted (same ▸ List.mem_map_of_mem member)
    exact (invariant.recorded commit member).frame
      (by rw [trace, captured_cons_of_ne other]) (program _ other)
  · intro call
    by_cases same : call = event.thread
    · rw [same]
      exact phase
    · exact (invariant.phase call).frame (program call same)
        (by rw [trace, captured_cons_of_ne same]) (by rw [sameHistory]) wrote

theorem SystemInvariant.found_eq {config : Config (localMachine loop) ι Decision}
    (invariant : SystemInvariant json request config)
    (bounded : (writes config.trace).length < 2 ^ 63)
    {key : String} {entry : Option (Bytes × Int64)}
    (read : ∀ bytes version, entry = some (bytes, version) →
      Wrote config.trace key bytes version)
    (accepted : config.world.store.accepts key (entry.map Prod.snd) = true) :
    (config.world.store.state key).map Prod.fst = entry.map Prod.fst := by
  rw [LocalStore.accepts_iff] at accepted
  cases entry with
  | none =>
      cases stored : config.world.store.state key with
      | none => rfl
      | some pair => simp [stored] at accepted
  | some entry =>
      cases stored : config.world.store.state key with
      | none => simp [stored] at accepted
      | some pair =>
          have sameVersion : entry.2 = pair.2 := by simpa [stored] using accepted
          have sameBytes : entry.1 = pair.1 :=
            Wrote.bytes_unique bounded (read entry.1 entry.2 rfl)
              (sameVersion ▸ invariant.stored key pair.1 pair.2 stored)
          simp [sameBytes]

variable (json request)

def completed (call : ι) (now : loop.Time) (entry : Option (Bytes × Int64)) :
    Commit loop ι where
  call := call
  key := (request call).key loop
  now := now
  cost := (request call).cost
  before := entry.bind fun found => json.fromSlice found.1
  after := (loop.outcomeOf json (request call).cost now entry).1

def completion (world : CheckWorld loop.Time LocalStore) (call : ι)
    (now : loop.Time) (entry : Option (Bytes × Int64)) :
    Event (localMachine loop) ι where
  thread := call
  op := .store (.cas ((request call).key loop) (entry.map Prod.snd)
    (json.toVec (completed json request call now entry).after))
  choice := ()
  before := world

variable {json request}

theorem SystemInvariant.completed_before
    {config : Config (localMachine loop) ι Decision}
    (invariant : SystemInvariant json request config)
    (bounded : (writes config.trace).length < 2 ^ 63)
    {call : ι} (now : loop.Time) {entry : Option (Bytes × Int64)}
    (read : ∀ bytes version, entry = some (bytes, version) →
      Wrote config.trace ((request call).key loop) bytes version)
    (accepted : config.world.store.accepts ((request call).key loop)
      (entry.map Prod.snd) = true) :
    (completed json request call now entry).before =
      History.final ((history json request config.trace).on
        ((request call).key loop)) := by
  have sameBytes := (invariant.found_eq bounded read accepted).symm.trans
    (invariant.latest ((request call).key loop))
  have decoded := congrArg (fun bytes => bytes.bind json.fromSlice) sameBytes
  simpa [completed, Option.bind_map, Function.comp_def] using decoded

theorem SystemInvariant.commit?_completion
    {config : Config (localMachine loop) ι Decision}
    (invariant : SystemInvariant json request config)
    (bounded : (writes config.trace).length < 2 ^ 63)
    {call : ι} {now : loop.Time} {entry : Option (Bytes × Int64)}
    (reading : captured call config.trace = some now)
    (read : ∀ bytes version, entry = some (bytes, version) →
      Wrote config.trace ((request call).key loop) bytes version)
    (accepted : config.world.store.accepts ((request call).key loop)
      (entry.map Prod.snd) = true) :
    commit? json request config.trace
      (completion json request config.world call now entry) =
        some (completed json request call now entry) := by
  have sameBytes := invariant.found_eq bounded read accepted
  have sameState :
      ((config.world.store.state ((request call).key loop)).bind fun found =>
        json.fromSlice found.1) =
      entry.bind fun found => json.fromSlice found.1 := by
    have mapped := congrArg (fun bytes => bytes.bind json.fromSlice) sameBytes
    simpa [Option.bind_map, Function.comp_def] using mapped
  simp [commit?, write?, completion, accepted, reading, found, sameState,
    completed]

variable (json request)

structure Completes (config : Config (localMachine loop) ι Decision)
    (event : Event (localMachine loop) ι)
    (after : Config (localMachine loop) ι Decision) (commit : Commit loop ι) : Prop where
  trace : after.trace = event :: config.trace
  thread : event.thread = commit.call
  write : write? event = some (commit.call, commit.key, json.toVec commit.after)
  commits : commit? json request config.trace event = some commit
  state : after.world.store.state = Function.update config.world.store.state commit.key
    (some (json.toVec commit.after, config.world.store.counter))
  counter : after.world.store.counter = config.world.store.counter + 1
  program : ∀ other, other ≠ commit.call → after.threads other = config.threads other

variable {json request}

namespace Completes

variable {config after : Config (localMachine loop) ι Decision}
  {event : Event (localMachine loop) ι} {commit : Commit loop ι}
  (completes : Completes json request config event after commit)

include completes

theorem history_snoc : history json request after.trace =
    history json request config.trace ++ [commit] := by
  rw [completes.trace, history, completes.commits]
  rfl

theorem writes_snoc : writes after.trace = writes config.trace ++
    [(commit.call, commit.key, json.toVec commit.after)] := by
  rw [completes.trace, writes_cons, completes.write]
  rfl

theorem captured_other {other : ι} (different : other ≠ commit.call) :
    captured other after.trace = captured other config.trace := by
  rw [completes.trace, captured_cons_of_ne]
  rw [completes.thread]
  exact different

theorem wrote {key : String} {bytes : Bytes} {version : Int64}
    (known : Wrote config.trace key bytes version) :
    Wrote after.trace key bytes version := by
  rw [completes.trace]
  exact known.cons event

variable (invariant : SystemInvariant json request config)

include invariant

theorem stored (key : String) (bytes : Bytes) (version : Int64)
    (found : after.world.store.state key = some (bytes, version)) :
    Wrote after.trace key bytes version := by
  rw [completes.state] at found
  by_cases same : key = commit.key
  · subst same
    rw [Function.update_self, Option.some.injEq, Prod.mk.injEq] at found
    rw [← found.1, ← found.2]
    refine ⟨(writes config.trace).length, commit.call, ?_, invariant.counter⟩
    simp [completes.writes_snoc]
  · rw [Function.update_of_ne same] at found
    exact completes.wrote (invariant.stored key bytes version found)

theorem latest (key : String) : (after.world.store.state key).map Prod.fst =
    (History.final ((history json request after.trace).on key)).map json.toVec := by
  rw [completes.state, completes.history_snoc, History.on_append, History.on_singleton]
  by_cases same : key = commit.key
  · subst same
    simp
  · rw [Function.update_of_ne same, invariant.latest key]
    simp [Ne.symm same]

theorem serial
    (read : commit.before =
      History.final ((history json request config.trace).on commit.key))
    (stepped : commit.after = commit.outcome.1) (key : String) :
    History.Serial ((history json request after.trace).on key) := by
  rw [completes.history_snoc, History.on_append, History.on_singleton]
  by_cases same : commit.key = key
  · subst same
    rw [if_pos rfl]
    exact .snoc (invariant.serial _) read stepped
  · rw [if_neg same, List.append_nil]
    exact invariant.serial key

variable (uncommitted : commit.call ∉ (history json request config.trace).map Commit.call)

include uncommitted

theorem distinct : ((history json request after.trace).map Commit.call).Nodup := by
  rw [completes.history_snoc, List.map_append, List.nodup_append]
  refine ⟨invariant.distinct, by simp, ?_⟩
  intro earlier member last isLast
  rw [List.mem_singleton.mp isLast]
  rintro rfl
  exact uncommitted member

variable (recorded : Recorded request after commit)

include recorded

theorem recorded_all : ∀ other ∈ history json request after.trace,
    Recorded request after other := by
  intro other member
  rw [completes.history_snoc, List.mem_append, List.mem_singleton] at member
  rcases member with member | rfl
  · have different : other.call ≠ commit.call := by
      intro same
      exact uncommitted (same ▸ List.mem_map_of_mem member)
    exact (invariant.recorded other member).frame (completes.captured_other different)
      (completes.program _ different)
  · exact recorded

omit uncommitted in
theorem phase (call : ι) : InPhase json request after call := by
  by_cases same : call = commit.call
  · subst same
    refine .returned _ ?_ recorded.returned
    rw [knownOf, completes.history_snoc]
    simp
  · apply (invariant.phase call).frame (completes.program call same)
      (completes.captured_other same) _ fun _ _ _ => completes.wrote
    rw [completes.history_snoc]
    simp [same]

end Completes

theorem SystemInvariant.commit {config after : Config (localMachine loop) ι Decision}
    (invariant : SystemInvariant json request config)
    (event : Event (localMachine loop) ι) {commit : Commit loop ι}
    (completes : Completes json request config event after commit)
    (read : commit.before =
      History.final ((history json request config.trace).on commit.key))
    (stepped : commit.after = commit.outcome.1)
    (uncommitted : commit.call ∉ (history json request config.trace).map Commit.call)
    (recorded : Recorded request after commit) :
    SystemInvariant json request after where
  counter := by
    rw [completes.counter, invariant.counter, completes.writes_snoc]
    simp
  stored := completes.stored invariant
  latest := completes.latest invariant
  complete := by
    rw [completes.writes_snoc, completes.history_snoc, invariant.complete]
    simp
  serial := completes.serial invariant read stepped
  distinct := completes.distinct invariant uncommitted
  recorded := completes.recorded_all invariant uncommitted recorded
  phase := completes.phase invariant recorded

theorem SystemInvariant.swap {config : Config (localMachine loop) ι Decision}
    (invariant : SystemInvariant json request config)
    (bounded : (writes config.trace).length < 2 ^ 63)
    {call : ι} {attempts : Nat} {now : loop.Time} {entry : Option (Bytes × Int64)}
    (program : config.threads call = loop.loaded json ((request call).key loop)
      (request call).cost attempts now entry)
    (known : (knownOf json request call config.trace).loaded attempts now entry) :
    SystemInvariant json request (config.advance (.step call ())) := by
  rcases known with ⟨reading, read, uncommitted⟩
  rw [Config.advance_of_request program]
  have other : ∀ other, other ≠ call → ∀ next, Function.update config.threads call
      next other = config.threads other :=
    fun other different next => Function.update_of_ne different _ _
  cases accepted : config.world.store.accepts ((request call).key loop)
    (entry.map Prod.snd) with
  | true =>
      refine invariant.commit (completion json request config.world call now entry) ?_
        (invariant.completed_before bounded now read accepted) rfl uncommitted ?_
      · exact {
          trace := rfl
          thread := rfl
          write := by simp [write?, completion, completed, accepted]
          commits := invariant.commit?_completion bounded reading read accepted
          state := by simp [LocalStore.cas_of_accepts _ _ _ _ accepted, completed]
          counter := by simp [LocalStore.cas_of_accepts _ _ _ _ accepted]
          program := fun call different => other call different _ }
      · exact {
          key := rfl
          cost := rfl
          reading := reading
          returned := by
            simp [LocalStore.cas_of_accepts _ _ _ _ accepted, CheckLoop.swapped,
              Commit.decision, Commit.outcome, completed, CheckLoop.outcomeOf] }
  | false =>
      have unwritten : write? (completion json request config.world call now entry) =
          none := by
        simp [write?, completion, accepted]
      refine invariant.quiet (completion json request config.world call now entry) rfl
        ?_ (fun call different => other call different _) unwritten uncommitted ?_
      · simp [LocalStore.cas_of_not_accepts _ _ _ _ accepted]
      · apply LocalPhase.ready attempts
        · have unchanged : call ∉ (history json request
              (completion json request config.world call now entry :: config.trace)).map
                Commit.call := by
            rw [history_cons_of_quiet json request unwritten]
            exact uncommitted
          exact unchanged
        · simp [LocalStore.cas_of_not_accepts _ _ _ _ accepted, CheckLoop.swapped,
            completion]

theorem SystemInvariant.advance {config : Config (localMachine loop) ι Decision}
    (invariant : SystemInvariant json request config)
    (action : Action (localMachine loop) ι)
    (bounded : (writes config.trace).length < 2 ^ 63) :
    SystemInvariant json request (config.advance action) := by
  cases action with
  | evolve clock =>
      exact {
        counter := invariant.counter
        stored := invariant.stored
        latest := invariant.latest
        complete := invariant.complete
        serial := invariant.serial
        distinct := invariant.distinct
        recorded := fun commit member => (invariant.recorded commit member).frame rfl rfl
        phase := fun call => (invariant.phase call).frame rfl rfl Iff.rfl
          fun _ _ _ known => known }
  | step call choice =>
      cases asks : config.threads call with
      | pure decision =>
          rw [Config.advance_of_pure asks]
          exact invariant
      | request op next =>
          have phase := invariant.phase call
          rw [InPhase, asks] at phase
          cases phase.move with
          | clock attempts uncommitted =>
              rw [Config.advance_of_request asks]
              refine invariant.quiet ⟨call, .now, choice, config.world⟩ rfl rfl
                (fun other different => Function.update_of_ne different _ _) rfl
                uncommitted ?_
              refine .clocked attempts config.world.clock ⟨if_pos rfl, ?_⟩
                (Function.update_self ..)
              rw [history_cons_of_quiet json request rfl]
              exact uncommitted
          | read attempts now known =>
              rw [Config.advance_of_request asks]
              refine invariant.quiet ⟨call, .store (.get _), choice, config.world⟩ rfl
                rfl (fun other different => Function.update_of_ne different _ _) rfl
                known.2 ?_
              refine .loaded attempts now _ ⟨known.1, ?_, ?_⟩ (Function.update_self ..)
              · intro bytes version found
                exact (invariant.stored _ bytes version found).cons _
              · rw [history_cons_of_quiet json request rfl]
                exact known.2
          | swap attempts now entry known => exact invariant.swap bounded asks known

omit [DecidableEq ι] in
theorem writes_length_le {older trace : LocalTrace loop ι} (suffix : older <:+ trace) :
    (writes older).length ≤ (writes trace).length :=
  ((List.reverse_prefix.mpr suffix).filterMap write?).length_le

theorem systemInvariant_run (start : loop.Time)
    (actions : List (Action (localMachine loop) ι))
    (bounded : (writes ((localSystem loop json request start).run
      actions).trace).length < 2 ^ 63) :
    SystemInvariant json request
      ((localSystem loop json request start).run actions) := by
  apply Config.invariant_run_within (SystemInvariant json request)
    (fun trace => (writes trace).length < 2 ^ 63) _ _ _ (.initial start) actions bounded
  · intro older trace suffix within
    exact (writes_length_le suffix).trans_lt within
  · intro config action invariant within
    have before := writes_length_le (config.trace_suffix_advance action)
    exact invariant.advance action (before.trans_lt within)

theorem SystemInvariant.result_cases
    {config : Config (localMachine loop) ι Decision}
    (invariant : SystemInvariant json request config) {call : ι}
    {decision : Decision} (returned : config.result call = some decision) :
    (call ∈ (history json request config.trace).map Commit.call ∧
        decision ≠ loop.fallback) ∨
      (call ∉ (history json request config.trace).map Commit.call ∧
        decision = loop.fallback) := by
  unfold Config.result at returned
  cases invariant.phase call with
  | ready attempts uncommitted program =>
      cases attempts with
      | zero =>
          rw [program, CheckLoop.retry] at returned
          exact .inr ⟨uncommitted, (Option.some.inj returned).symm⟩
      | succ attempts =>
          rw [program, CheckLoop.retry_local] at returned
          cases returned
  | clocked attempts now known program => rw [program] at returned; cases returned
  | loaded attempts now entry known program => rw [program] at returned; cases returned
  | returned _ member =>
      rcases List.mem_map.mp member with ⟨commit, isMember, sameCall⟩
      have finished := (invariant.recorded commit isMember).returned
      rw [sameCall] at finished
      rw [finished] at returned
      have isDecision : commit.decision = decision := Option.some.inj returned
      exact .inl ⟨member, isDecision ▸ loop.step_ordinary _ _ _⟩

variable (json request)

/-- What it means for a run that its checks took effect one at a time. -/
structure Serializes (config : Config (localMachine loop) ι Decision) : Prop where
  /-- The history lists the successful compare-and-swaps in order; each left the
  new state of its check. -/
  complete : writes config.trace =
    (history json request config.trace).map fun commit =>
      (commit.call, commit.key, json.toVec commit.after)
  once : ((history json request config.trace).map Commit.call).Nodup
  /-- On each key every check computed from what the one before it left. -/
  serial : ∀ key, History.Serial ((history json request config.trace).on key)
  /-- Each check worked with the arguments and the last clock reading of its
  call, and the call returned the decision of its sequential step. -/
  returned : ∀ commit ∈ history json request config.trace,
    commit.key = (request commit.call).key loop ∧
    commit.cost = (request commit.call).cost ∧
    captured commit.call config.trace = some commit.now ∧
    config.result commit.call = some commit.decision
  ordinary : ∀ call decision, config.result call = some decision →
    (decision ≠ loop.fallback ↔
      call ∈ (history json request config.trace).map Commit.call)
  stored : ∀ key, (config.world.store.state key).map Prod.fst =
    (History.replay loop (((history json request config.trace).on key).map
      fun commit => (commit.now, commit.cost))).map json.toVec

variable {json request}

theorem SystemInvariant.serializes
    {config : Config (localMachine loop) ι Decision}
    (invariant : SystemInvariant json request config) :
    Serializes json request config where
  complete := invariant.complete
  once := invariant.distinct
  serial := invariant.serial
  returned commit member := by
    have known := invariant.recorded commit member
    exact ⟨known.key, known.cost, known.reading,
      by rw [Config.result, known.returned]⟩
  ordinary call decision isResult := by
    rcases invariant.result_cases isResult with
      ⟨member, ordinary⟩ | ⟨uncommitted, fallback⟩
    · exact iff_of_true ordinary member
    · exact iff_of_false (fun ordinary => ordinary fallback) uncommitted
  stored key := by
    rw [invariant.latest key, (invariant.serial key).final_eq_replay]

end Invariant

/-- Every run of fewer than `2 ^ 63` writes serializes, whichever of the five
algorithms is configured and however the clock moves. -/
theorem RateLimiterConfig.checks_serializable (config : RateLimiterConfig)
    (json : SerdeJson config.limiter.State) {ι : Type} [DecidableEq ι]
    (request : ι → CheckRequest) (start : config.limiter.Time)
    (actions : List (Action (localMachine config.limiter) ι))
    (bounded : (LocalTrace.writes ((localSystem config.limiter json request
      start).run actions).trace).length < 2 ^ 63) :
    Serializes json request
      ((localSystem config.limiter json request start).run actions) :=
  (systemInvariant_run start actions bounded).serializes

/-- Two checks read the same absent key; the second loses its first
compare-and-swap and commits on its second pass. -/
theorem RateLimiterConfig.checks_serializable_collision :
    Serializes Json.fixedWindow (fun _ => ⟨"alice", "/", 1⟩)
      ((localSystem (FixedWindowLimiter.loop ⟨10, 1⟩) Json.fixedWindow
        (ι := Fin 2) (fun _ => ⟨"alice", "/", 1⟩) (0 : UInt64)).run
        ([0, 0, 1, 1, 0, 1, 1, 1, 1].map fun call => .step call ())) :=
  RateLimiterConfig.checks_serializable ⟨.fixedWindow, 10, 1, 0, 0, 0, 0⟩
    Json.fixedWindow (fun _ => ⟨"alice", "/", 1⟩) (0 : UInt64) _
    (by decide +kernel)

end RateLimiting
