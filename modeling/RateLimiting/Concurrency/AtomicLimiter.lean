import RateLimiting.Concurrency.Serializability
import RateLimiting.Foundation.Objects
import RateLimiting.Sequential

/-! # The limiter as an atomic object

The tasks of a server share a limiter, each check of which takes many steps. A task
cannot tell it from one that answers a check in a single step: a step of the atomic
table at a reading of the clock, or the denial that a check gives up with. -/

namespace RateLimiting

open CheckTrace LocalTrace

def LocalStore.contents (store : LocalStore) : Table :=
  fun key => (store.state key).map Prod.fst

variable (loop : CheckLoop) (json : SerdeJson loop.State)

def limiterCheck (request : CheckRequest) :
    Program (checkInterface loop.Time LocalStore.interface) Decision :=
  loop.check json LocalStore.stateStore request.clientId request.resource request.cost

/-- The environment picks the reading, or makes the check give up. -/
@[reducible] def atomicLimiter (readings : loop.Time → Prop) :
    Machine (callInterface CheckRequest Decision) where
  World := Table
  Choice := Option { now // readings now }
  Change := Empty
  perform
    | request, some now, table => table.serve json ⟨now.val, request⟩
    | _, none, table => (loop.fallback, table)
  evolve change := nomatch change

section

variable {loop} {json} {κ : Type} [DecidableEq κ] {readings : loop.Time → Prop}

omit [DecidableEq κ] in
theorem length_writes_le (trace : LocalTrace loop κ) :
    (writes trace).length ≤ trace.length :=
  (List.length_filterMap_le _ _).trans_eq List.length_reverse

structure CallsInProgress (readings : loop.Time → Prop) (json : SerdeJson loop.State)
    (config : Config (localMachine loop) (CallOf κ CheckRequest) Decision) : Prop where
  invariant : SystemInvariant json (fun call => call.2.2) config
  shown : ReadingsAllowed readings config

theorem CallsInProgress.advance
    {config : Config (localMachine loop) (CallOf κ CheckRequest) Decision}
    (progress : CallsInProgress readings json config)
    (bounded : config.trace.length < 2 ^ 63)
    (call : CallOf κ CheckRequest) (choice : Unit) :
    CallsInProgress readings json (config.advance (.step call choice)) := by
  have shorter := (length_writes_le config.trace).trans_lt bounded
  exact ⟨progress.invariant.advance _ shorter,
    progress.shown.advance _ fun clock isEvolve => by cases isEvolve⟩

theorem CallsInProgress.swap
    {config : Config (localMachine loop) (CallOf κ CheckRequest) Decision}
    (progress : CallsInProgress readings json config)
    (bounded : config.trace.length < 2 ^ 63)
    {call : CallOf κ CheckRequest} {attempts : Nat} {now : loop.Time}
    {entry : Option (Bytes × Int64)}
    (program : config.threads call = loop.loaded json (call.2.2.key loop) call.2.2.cost
      attempts now entry)
    (known : (knownOf json (fun call => call.2.2) call config.trace).loaded attempts now
      entry) :
    let after := config.advance (.step call ())
    (∃ op next, after.threads call = .request op next) ∧
        after.world.store.contents = config.world.store.contents ∨
      ∃ choice, after.threads call = .pure ((atomicLimiter loop json readings).perform
          call.2.2 choice config.world.store.contents).1 ∧
        after.world.store.contents = ((atomicLimiter loop json readings).perform call.2.2
          choice config.world.store.contents).2 := by
  rcases known with ⟨reading, read, -⟩
  have shorter := (length_writes_le config.trace).trans_lt bounded
  intro after
  have advanced : after = _ := Config.advance_of_request program ()
  cases accepted : config.world.store.accepts (call.2.2.key loop)
    (entry.map Prod.snd) with
  | true =>
      have found := progress.invariant.found_eq shorter read accepted
      have state : Table.state json config.world.store.contents ⟨now, call.2.2⟩ =
          (entry.bind fun found => json.fromSlice found.1).getD (loop.fresh now) := by
        have bytes : config.world.store.contents (call.2.2.key loop) =
            entry.map Prod.fst := found
        change ((config.world.store.contents (call.2.2.key loop)).bind json.fromSlice).getD
          (loop.fresh now) = _
        rw [bytes, Option.bind_map]
        rfl
      refine .inr ⟨some ⟨now, progress.shown.taken call now reading⟩, ?_, ?_⟩
      · rw [advanced]
        simp [LocalStore.cas_of_accepts _ _ _ _ accepted, CheckLoop.swapped, Table.serve,
          state, CheckLoop.outcomeOf]
      · rw [advanced]
        simp only [Table.serve, state, LocalStore.cas_of_accepts _ _ _ _ accepted]
        funext key
        by_cases same : key = call.2.2.key loop
        · subst same
          simp [LocalStore.contents, Arrival.key, CheckLoop.outcomeOf]
        · simp [LocalStore.contents, Arrival.key, same]
  | false =>
      have store : after.world.store = config.world.store := by
        rw [advanced]
        simp [LocalStore.cas_of_not_accepts _ _ _ _ accepted]
      have continued : after.threads call = loop.retry json LocalStore.stateStore
          (call.2.2.key loop) call.2.2.cost attempts := by
        rw [advanced]
        simp [LocalStore.cas_of_not_accepts _ _ _ _ accepted, CheckLoop.swapped]
      cases attempts with
      | zero => exact .inr ⟨none, continued, by rw [store]⟩
      | succ attempts =>
          rw [CheckLoop.retry_local] at continued
          exact .inl ⟨⟨_, _, continued⟩, congrArg LocalStore.contents store⟩

variable (loop json readings κ)

def localLinearization {start : loop.Time} (shown : readings start) :
    Linearization (localMachine loop) (limiterCheck loop json)
      (atomicLimiter loop json readings) κ (2 ^ 63) ⟨start, LocalStore.new⟩
      (fun _ => none) where
  Represents world table := table = world.store.contents
  Holds spent config := CallsInProgress readings json config ∧ config.trace.length ≤ spent
  Permitted := readings
  EffectOf _ _ effect := nomatch effect
  starts request := ⟨_, _, loop.retry_local json _ _ 4⟩
  represents := rfl
  initial := ⟨⟨SystemInvariant.initial start, shown, fun call now known => by cases known⟩,
    le_refl _⟩
  evolve spent config clock table holds shown bounded represents :=
    have shorter := (length_writes_le config.trace).trans_lt (holds.2.trans_lt bounded)
    ⟨⟨⟨holds.1.invariant.advance (.evolve clock) shorter, shown, holds.1.shown.taken⟩,
      holds.2.trans (Nat.le_succ _)⟩, represents⟩
  perform spent config call op next choice table holds asks bounded represents := by
    subst represents
    have progress := holds.1
    have short := holds.2.trans_lt bounded
    refine ⟨⟨progress.advance short call choice,
      (config.length_trace_advance_le _).trans (Nat.succ_le_succ holds.2)⟩, ?_⟩
    have phase := progress.invariant.phase call
    rw [InPhase, asks] at phase
    have advanced := Config.advance_of_request asks choice
    have continued : (config.advance (.step call choice)).threads call =
        next ((localMachine loop).perform op choice config.world).1 := by
      rw [advanced]
      exact Function.update_self ..
    cases phase.move with
    | clock attempts known =>
        exact .inl ⟨⟨_, _, continued⟩, .inl
          (congrArg (fun after => after.world.store.contents) advanced).symm⟩
    | read attempts now known =>
        exact .inl ⟨⟨_, _, continued⟩, .inl
          (congrArg (fun after => after.world.store.contents) advanced).symm⟩
    | swap attempts now entry known =>
        rcases progress.swap short asks known with ⟨goesOn, same⟩ | ⟨choice, swapped⟩
        · exact .inl ⟨goesOn, .inl same.symm⟩
        · exact .inr ⟨choice, swapped.1, swapped.2.symm⟩

end

/-! ## Tasks -/

@[reducible] def taskInterface (J : Interface) : Interface :=
  (callInterface CheckRequest Decision).sum J

section

variable {κ β : Type} {J : Interface} {n : Machine J}
  (tasks : κ → Program (taskInterface J) β)

def taskSystem (start : loop.Time) (world : n.World) :
    Config ((localMachine loop).sum n) κ β where
  world := (⟨start, LocalStore.new⟩, world)
  threads task := (tasks task).implement (limiterCheck loop json)
  trace := []

def atomicTaskSystem (readings : loop.Time → Prop) (world : n.World) :
    Config ((atomicLimiter loop json readings).sum n) κ β where
  world := (fun _ => none, world)
  threads := tasks
  trace := []

variable {loop}

/-- The readings of the clock in a run. -/
def shownBy (start : loop.Time) (actions : List (Action ((localMachine loop).sum n) κ))
    (now : loop.Time) : Prop :=
  now = start ∨ .evolve (.inl now) ∈ actions

end

/-- Whatever its tasks do between their checks, a server cannot tell the limiter from
the atomic one: every run has the results and the effects of a run in which each check
is one step, at a reading that the clock has shown and at the moment of one of the steps
that its task took. -/
theorem RateLimiterConfig.tasks_see_atomic_limiter (config : RateLimiterConfig)
    (json : SerdeJson config.limiter.State) {κ β : Type} [DecidableEq κ] {J : Interface}
    {n : Machine J} (tasks : κ → Program (taskInterface J) β) (start : config.limiter.Time)
    (world : n.World) (actions : List (Action ((localMachine config.limiter).sum n) κ))
    (bounded : actions.length < 2 ^ 63) :
    ∃ atomicActions : List
        (Action ((atomicLimiter config.limiter json (shownBy start actions)).sum n) κ),
      let concrete := (taskSystem config.limiter json tasks start world).run actions
      let atomic := (atomicTaskSystem config.limiter json tasks (shownBy start actions)
        world).run atomicActions
      (∀ task, concrete.result task = atomic.result task) ∧
        atomic.world = (concrete.world.1.store.contents, concrete.world.2) ∧
        (atomicActions.filterMap Action.right).Sublist (actions.filterMap Action.right) := by
  have shown : shownBy start actions start := .inl rfl
  rcases (localLinearization config.limiter json κ (shownBy start actions) shown).refines
    none tasks world actions (fun now member => .inr member) bounded.le with
    ⟨atomicActions, results, table, others, -, moments⟩
  exact ⟨atomicActions, results, Prod.ext table others.symm, moments⟩

theorem RateLimiterConfig.tasks_see_atomic_limiter_collision :
    let config : RateLimiterConfig := ⟨.fixedWindow, 1, 1, 0, 1, 1, 0⟩
    let logging : Interface := ⟨Bool, fun _ => Unit⟩
    let log : Machine logging := ⟨List Bool, Unit, Empty,
      fun allowed _ entries => ((), entries ++ [allowed]), fun change => nomatch change⟩
    let task : Program (taskInterface logging) Bool :=
      .request (.inl ⟨"alice", "/", 1⟩) fun decision =>
        .request (.inr decision.allowed) fun _ => .pure decision.allowed
    let actions : List (Action ((localMachine config.limiter).sum log) (Fin 2)) :=
      [0, 0, 1, 1, 0, 1, 1, 1, 1, 1, 0].map fun task => .step task ((), ())
    ((taskSystem config.limiter Json.fixedWindow (fun _ => task) (0 : UInt64) []).run
      actions).world.2 = [false, true] ∧
    ∃ atomicActions : List (Action ((atomicLimiter config.limiter Json.fixedWindow
        (shownBy (0 : UInt64) actions)).sum log) (Fin 2)),
      let concrete := (taskSystem config.limiter Json.fixedWindow (fun _ => task)
        (0 : UInt64) []).run actions
      let atomic := (atomicTaskSystem config.limiter Json.fixedWindow (fun _ => task)
        (shownBy (0 : UInt64) actions) []).run atomicActions
      (∀ task, concrete.result task = atomic.result task) ∧
        atomic.world = (concrete.world.1.store.contents, concrete.world.2) ∧
        (atomicActions.filterMap Action.right).Sublist (actions.filterMap Action.right) := by
  intro config logging log task actions
  have short : actions.length < 2 ^ 63 := by decide +kernel
  exact ⟨by decide +kernel, config.tasks_see_atomic_limiter Json.fixedWindow (fun _ => task)
    (0 : UInt64) (n := log) [] actions short⟩

end RateLimiting
