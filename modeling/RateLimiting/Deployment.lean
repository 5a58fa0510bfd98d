import RateLimiting.Concurrency.SharedEtcd
import RateLimiting.ServingProgress

/-! # The deployment

The replicas of the server share one etcd, of which RPCs may fail and which other clients
use. The checks of all tasks of all replicas still have one order. A check may stand in it
more than once, because an answer of etcd got lost; the task hears of the last time. -/

namespace RateLimiting

open ByteStream FlatBuffers HttpServer TcpServer

/-! ## The order of the checks -/

inductive AppliedCheck (κ : Type) (loop : CheckLoop)
  | served (check : Served κ loop)
  | unheard (check : Unheard κ loop)

namespace AppliedCheck

variable {κ : Type} {loop : CheckLoop} (json : SerdeJson loop.State)

def reading : AppliedCheck κ loop → Option loop.Time
  | .served check => check.reading
  | .unheard check => some check.now

def apply (table : Table) : AppliedCheck κ loop → Table
  | .served check => (check.answer json table).2
  | .unheard check => (table.serve json ⟨check.now, check.request⟩).2

def table (start : Table) : List (AppliedCheck κ loop) → Table
  | [] => start
  | last :: earlier => last.apply json (table start earlier)

def answersTo [DecidableEq κ] (start : Table) (task : κ) :
    List (AppliedCheck κ loop) → List (CheckRequest × Decision)
  | [] => []
  | .served check :: earlier =>
      if check.task = task then
        answersTo start task earlier ++
          [(check.request, (check.answer json (table json start earlier)).1)]
      else answersTo start task earlier
  | .unheard _ :: earlier => answersTo start task earlier

end AppliedCheck

/-- The task makes this request after so many answers. -/
def ServerTask.Awaits (rust : Library) (answered : Nat) (request : CheckRequest) :
    ServerTask → Prop
  | .connection stream => ∃ frames : List (Frame rust),
      (frameCode rust).LongestPrefix stream.bytes frames ∧
        (frames.map Frame.request)[answered]? = some request
  | .http asked => answered = 0 ∧ request = asked

section Awaits

variable {rust : Library} {hmacSha256 : (key message : Bytes) → Bytes} {name : String}
  {hmacSecret : Option String} {κ : Type} {self : κ} {task : ServerTask} {failed : Prop}
  {answers : List (CheckRequest × Decision)} {sent : Bytes}

theorem ServerTask.At.awaits {request : CheckRequest} {next : Decision → ServerProgram κ}
    (reached : task.At rust hmacSha256 name hmacSecret self failed answers sent
      (.request (.inl request) next)) : task.Awaits rust answers.length request := by
  cases task with
  | http asked =>
      rcases reached with ⟨-, reached⟩
      cases reached with
      | asking isProgram areAnswers =>
          cases isProgram
          exact ⟨by rw [areAnswers]; rfl, rfl⟩
      | signing secret decision isProgram => cases isProgram
      | answered decision ts isProgram => cases isProgram
  | connection stream =>
      rcases reached with ⟨frames, longest, reached⟩
      rcases reached.asking with ⟨after, remaining, -, -, -, split, -⟩
      refine ⟨frames, longest, ?_⟩
      rw [split]
      simp

end Awaits

/-! ## Runs of the atomic limiter -/

section Ordered

variable {rust : Library} {hmacSha256 : (key message : Bytes) → Bytes} {name : String}
  {hmacSecret : Option String} {loop : CheckLoop} {json : SerdeJson loop.State}
  {readings : loop.Time → Prop} {κ : Type} [DecidableEq κ] {tasks : κ → ServerTask}

abbrev UnreliableServer (json : SerdeJson loop.State) (readings : loop.Time → Prop)
    (κ : Type) [DecidableEq κ] :=
  Config ((unreliableLimiter loop json readings κ).sum (network κ)) κ TaskResult

variable (rust json readings tasks) in
/-- An order of all checks gives the table and the answers. What no task hears of was
applied for a request that the task was making. -/
structure Ordered (start : Table) (order : List (AppliedCheck κ loop)) (table : Table)
    (answers : κ → List (CheckRequest × Decision)) : Prop where
  shown : ∀ check ∈ order, ∀ now, check.reading = some now → readings now
  table : table = AppliedCheck.table json start order
  answers : ∀ self, answers self = AppliedCheck.answersTo json start self order
  awaited : ∀ later check earlier, order = later ++ .unheard check :: earlier →
    (tasks check.task).Awaits rust
      (AppliedCheck.answersTo json start check.task earlier).length check.request

namespace Ordered

variable {start table : Table} {order : List (AppliedCheck κ loop)}
  {answers : κ → List (CheckRequest × Decision)}

theorem initial (start : Table) :
    Ordered rust json readings tasks start [] start fun _ => [] where
  shown := nofun
  table := rfl
  answers _ := rfl
  awaited later check earlier split := by simp at split

theorem awaited_cons (ordered : Ordered rust json readings tasks start order table answers)
    {last : AppliedCheck κ loop} (own : ∀ check, last = .unheard check →
      (tasks check.task).Awaits rust (answers check.task).length check.request)
    {later earlier : List (AppliedCheck κ loop)} {check : Unheard κ loop}
    (split : last :: order = later ++ .unheard check :: earlier) :
    (tasks check.task).Awaits rust
      (AppliedCheck.answersTo json start check.task earlier).length check.request := by
  cases later with
  | nil =>
      rw [List.nil_append, List.cons.injEq] at split
      rcases split with ⟨isLast, rfl⟩
      rw [← ordered.answers]
      exact own check isLast
  | cons first later =>
      rw [List.cons_append, List.cons.injEq] at split
      exact ordered.awaited later check earlier split.2

theorem serve (ordered : Ordered rust json readings tasks start order table answers)
    (check : Served κ loop) (shown : ∀ now, check.reading = some now → readings now) :
    Ordered rust json readings tasks start (.served check :: order)
      (check.answer json table).2 (Function.update answers check.task (answers check.task ++
        [(check.request, (check.answer json table).1)])) where
  shown other member now isReading := by
    rcases List.mem_cons.mp member with rfl | member
    · exact shown now isReading
    · exact ordered.shown other member now isReading
  table := by
    rw [ordered.table]
    rfl
  answers self := by
    by_cases own : check.task = self
    · subst own
      rw [Function.update_self, ordered.answers, ordered.table]
      exact (if_pos rfl).symm
    · rw [Function.update_of_ne (Ne.symm own), ordered.answers]
      exact (if_neg own).symm
  awaited later other earlier split := by
    apply ordered.awaited_cons ?_ split
    rintro lost ⟨⟩

theorem lose (ordered : Ordered rust json readings tasks start order table answers)
    (check : Unheard κ loop) (shown : readings check.now)
    (awaits : (tasks check.task).Awaits rust (answers check.task).length check.request) :
    Ordered rust json readings tasks start (.unheard check :: order)
      (table.serve json ⟨check.now, check.request⟩).2 answers where
  shown other member now isReading := by
    rcases List.mem_cons.mp member with rfl | member
    · exact Option.some.inj isReading ▸ shown
    · exact ordered.shown other member now isReading
  table := by
    rw [ordered.table]
    rfl
  answers := ordered.answers
  awaited later other earlier split := by
    apply ordered.awaited_cons ?_ split
    rintro lost ⟨⟩
    exact awaits

end Ordered

/-! ## Steps of the atomic limiter -/

structure UnreliableInvariant (rust : Library)
    (hmacSha256 : (key message : Bytes) → Bytes) (name : String)
    (hmacSecret : Option String) (tasks : κ → ServerTask) (start : Table)
    (config : UnreliableServer json readings κ) : Prop where
  reached : TasksReached rust hmacSha256 name hmacSecret tasks config
  ordered : ∃ order, Ordered rust json readings tasks start order config.world.1
    fun self => answersIn self config.trace

namespace UnreliableInvariant

variable {start : Table} {config : UnreliableServer json readings κ}

theorem step
    (invariant : UnreliableInvariant rust hmacSha256 name hmacSecret tasks start config)
    (self : κ) (choice : Option { now // readings now } × Circumstances) :
    UnreliableInvariant rust hmacSha256 name hmacSecret tasks start
      (config.advance (.step self choice)) := by
  refine ⟨invariant.reached.step self choice, ?_⟩
  rcases invariant.ordered with ⟨order, ordered⟩
  cases asks : config.threads self with
  | pure value =>
      rw [Config.advance_of_pure asks]
      exact ⟨order, ordered⟩
  | request op next =>
      rw [Config.advance_of_request asks]
      cases op with
      | inr op => exact ⟨order, ordered⟩
      | inl request =>
          let check : Served κ loop := ⟨self, request, choice.1.map Subtype.val⟩
          let event : Event ((unreliableLimiter loop json readings κ).sum (network κ)) κ :=
            ⟨self, .inl request, choice, config.world⟩
          have shown : ∀ now, check.reading = some now → readings now := by
            intro now isReading
            rcases Option.map_eq_some_iff.mp isReading with ⟨shown, _, rfl⟩
            exact shown.property
          have performed : (unreliableLimiter loop json readings κ).perform request
              choice.1 config.world.1 = check.answer json config.world.1 :=
            perform_eq_answer self request choice.1 config.world.1
          have answers : (fun task => answersIn task (event :: config.trace)) =
              Function.update (fun task => answersIn task config.trace) check.task
                (answersIn check.task config.trace ++
                  [(check.request, (check.answer json config.world.1).1)]) := by
            funext task
            by_cases own : task = self
            · subst own
              rw [Function.update_self, ← performed]
              exact answersIn_own event config.trace rfl
            · rw [Function.update_of_ne own]
              exact answersIn_other event config.trace own
          refine ⟨.served check :: order, ?_⟩
          have served := ordered.serve check shown
          rw [← answers, ← performed] at served
          exact served

theorem effect
    (invariant : UnreliableInvariant rust hmacSha256 name hmacSecret tasks start config)
    {client : κ} {request : CheckRequest} {rest : Decision → ServerProgram κ}
    (asks : config.threads client = .request (.inl request) rest) {check : Unheard κ loop}
    (isEffect : check.task = client ∧ check.request = request ∧ readings check.now) :
    UnreliableInvariant rust hmacSha256 name hmacSecret tasks start
      (config.advance (.evolve (.inl check))) := by
  refine ⟨invariant.reached, ?_⟩
  rcases invariant.ordered with ⟨order, ordered⟩
  have reached := invariant.reached client
  rw [asks, ← isEffect.1, ← isEffect.2.1] at reached
  exact ⟨_, ordered.lose check isEffect.2.2 reached.awaits⟩

end UnreliableInvariant

end Ordered

/-! ## The replicas -/

def deploymentSystem (loop : CheckLoop) (json : SerdeJson loop.State) (store : EtcdStore)
    (rust : Library) (hmacSha256 : (key message : Bytes) → Bytes)
    (hmacSecret : Option String) {κ : Type} [DecidableEq κ] (tasks : κ → ServerTask)
    (start : loop.Time) (server : Etcd) :
    Config ((sharedMachine loop.Time).sum (network κ)) κ TaskResult where
  world := (⟨start, server⟩, fun _ => [])
  threads self := ((tasks self).program rust hmacSha256 loop.name hmacSecret self).implement
    (replicaCheck loop json store)
  trace := []

/-- The readings of the clocks of the replicas in a run. -/
def clocksShow {loop : CheckLoop} {κ : Type} [DecidableEq κ] (start : loop.Time)
    (actions : List (Action ((sharedMachine loop.Time).sum (network κ)) κ))
    (now : loop.Time) : Prop :=
  now = start ∨ .evolve (.inl (.clock now)) ∈ actions

/-- How a deployment serves its tasks in a run: from what etcd held before, an order of
checks leads to what it holds after, and to what the peers of the tasks see. -/
structure ServesInOrder {loop : CheckLoop} (json : SerdeJson loop.State) (store : EtcdStore)
    (rust : Library) (hmacSha256 : (key message : Bytes) → Bytes)
    (hmacSecret : Option String) {κ : Type} [DecidableEq κ] (tasks : κ → ServerTask)
    (start : loop.Time) (before after : Etcd)
    (actions : List (Action ((sharedMachine loop.Time).sum (network κ)) κ))
    (sent : κ → Bytes) (result : κ → Option TaskResult)
    (order : List (AppliedCheck κ loop)) : Prop where
  shown : ∀ check ∈ order, ∀ now, check.reading = some now → clocksShow start actions now
  stored : ∀ request : CheckRequest, after.contents store (request.key loop) =
    AppliedCheck.table json (before.contents store) order (request.key loop)
  /-- What a check did before it was heard of is something that its task asked for. -/
  awaited : ∀ later check earlier, order = later ++ .unheard check :: earlier →
    (tasks check.task).Awaits rust (AppliedCheck.answersTo json (before.contents store)
      check.task earlier).length check.request
  shows : ∀ self, (tasks self).Shows rust hmacSha256 loop.name hmacSecret
    (WriteFails self actions)
    (AppliedCheck.answersTo json (before.contents store) self order)
    (sent self) (result self)

/-- The tasks that are let run often enough, and whose writes succeed, get all their
answers in the order and pass them on. -/
def AnswersAll {loop : CheckLoop} (json : SerdeJson loop.State) (store : EtcdStore)
    (rust : Library) (hmacSha256 : (key message : Bytes) → Bytes)
    (hmacSecret : Option String) {κ : Type} [DecidableEq κ] (tasks : κ → ServerTask)
    (before : Etcd) (actions : List (Action ((sharedMachine loop.Time).sum (network κ)) κ))
    (sent : κ → Bytes) (result : κ → Option TaskResult)
    (order : List (AppliedCheck κ loop)) : Prop :=
  ∀ self, (tasks self).Enough rust 20 (Config.turns self actions) →
    ¬ WriteFails self actions →
      (tasks self).Done rust hmacSha256 loop.name hmacSecret
        (AppliedCheck.answersTo json (before.contents store) self order)
        (sent self) (result self)

section Runs

variable {loop : CheckLoop} {json : SerdeJson loop.State} {store : EtcdStore}
  {rust : Library} {hmacSha256 : (key message : Bytes) → Bytes} {hmacSecret : Option String}
  {κ : Type} [DecidableEq κ] {tasks : κ → ServerTask} {start : loop.Time}

theorem ServesInOrder.mono {before after : Etcd}
    {fewer actions : List (Action ((sharedMachine loop.Time).sum (network κ)) κ)}
    {sent : κ → Bytes} {result other : κ → Option TaskResult}
    {order : List (AppliedCheck κ loop)}
    (serves : ServesInOrder json store rust hmacSha256 hmacSecret tasks start before after
      fewer sent result order) (omits : fewer.Sublist actions)
    (returns : ∀ self returned, other self = some returned → result self = some returned) :
    ServesInOrder json store rust hmacSha256 hmacSecret tasks start before after actions
      sent other order where
  shown check member now isReading :=
    (serves.shown check member now isReading).imp_right fun member => omits.mem member
  stored := serves.stored
  awaited := serves.awaited
  shows self := (serves.shows self).mono
    (fun ⟨choice, member, failing⟩ => ⟨choice, omits.mem member, failing⟩) (returns self)

/-- The deployment, none of whose tasks panics. -/
theorem CheckLoop.deployed_in_order (server : Etcd) (numbered : server.Numbered)
    (actions : List (Action ((sharedMachine loop.Time).sum (network κ)) κ))
    (apart : ∀ change, .evolve (.inl change) ∈ actions → KeepsAway loop store change)
    (bounded : server.revision.toInt + actions.length < 2 ^ 63) :
    let state := (deploymentSystem loop json store rust hmacSha256 hmacSecret tasks start
      server).run actions
    ∃ order, ServesInOrder json store rust hmacSha256 hmacSecret tasks start server
        state.world.1.store actions state.world.2 state.result order ∧
      AnswersAll json store rust hmacSha256 hmacSecret tasks server actions state.world.2
        state.result order := by
  intro state
  have shown : clocksShow start actions start := .inl rfl
  rcases (sharedLinearization loop json store κ (clocksShow start actions) shown
    numbered bounded).refines none
    (fun self => (tasks self).program rust hmacSha256 loop.name hmacSecret self)
    (n := network κ) (fun _ => []) actions (fun change member =>
      ⟨fun now isClock => .inr (isClock ▸ member), apart change member⟩) le_rfl with
    ⟨atomicActions, results, table, sent, attributed, moments⟩
  have invariant := Attributed.invariant_run
    (UnreliableInvariant rust hmacSha256 loop.name hmacSecret tasks (server.contents store))
    (fun _ self choice invariant => invariant.step self choice)
    (fun _ change => nomatch change)
    (fun _ _ _ _ _ invariant asks isEffect => invariant.effect asks isEffect) _
    ⟨TasksReached.initial (server.contents store), [], .initial (server.contents store)⟩
    attributed
  rcases invariant with ⟨reached, order, ordered⟩
  have shows : ∀ self, (tasks self).Shows rust hmacSha256 loop.name hmacSecret
      (WriteFails self actions)
      (AppliedCheck.answersTo json (server.contents store) self order)
      (state.world.2 self) (state.result self) := by
    intro self
    have shows := ((reached self).mono (Failing.writeFails moments rfl)).shows
      fun returned => Config.result_eq_some
    rw [ordered.answers, ← sent, ← results] at shows
    exact shows
  refine ⟨order, ⟨ordered.shown, fun request => ?_, ordered.awaited, shows⟩,
    fun self enough unfailing => ?_⟩
  · rw [← ordered.table]
    exact (table request).symm
  · have calls : ∀ request,
        (replicaCheck loop json store request).Within (fun _ => 1) 20 :=
      fun request => loop.check_within_etcd json store request.clientId
        request.resource request.cost
    exact (shows self).done (enough.stops calls _ rfl) unfailing

end Runs

/-- In every run of a deployment, whose tasks panic where a check of theirs divides by
zero, whichever RPCs fail and whatever other clients do to keys of their own, the checks
of all replicas have one order on top of what etcd held. The peer of a task sees what the
checks of the task get in it. A task that is let run often enough gets it all, if no check
panics. -/
theorem RateLimiterConfig.deployment_serves_in_order (config : RateLimiterConfig)
    (json : SerdeJson config.limiter.State) (store : EtcdStore) (rust : Library)
    (hmacSha256 : (key message : Bytes) → Bytes) (hmacSecret : Option String) {κ : Type}
    [DecidableEq κ] (tasks : κ → ServerTask) (start : config.limiter.Time) (server : Etcd)
    (numbered : server.Numbered)
    (actions : List (Action ((sharedMachine config.limiter.Time).sum (network κ)) κ))
    (apart : ∀ change, .evolve (.inl change) ∈ actions →
      KeepsAway config.limiter store change)
    (bounded : server.revision.toInt + actions.length < 2 ^ 63) :
    let state := ((deploymentSystem config.limiter json store rust hmacSha256 hmacSecret
      tasks start server).panicking
        (panicsLeft (networkInterface κ) config.panics)).run actions
    let result := fun self => (state.result self).join
    ∃ order, ServesInOrder json store rust hmacSha256 hmacSecret tasks start server
        state.world.1.store actions state.world.2 result order ∧
      (config.dividesByZero = false →
        AnswersAll json store rust hmacSha256 hmacSecret tasks server actions state.world.2
          result order) := by
  intro state result
  let system := deploymentSystem config.limiter json store rust hmacSha256 hmacSecret tasks
    start server
  cases divides : config.dividesByZero with
  | false =>
      have same : state = (system.run actions).panicking
          (panicsLeft (networkInterface κ) config.panics) :=
        Config.run_panicking (panicsLeft_eq_false (config.panics_eq_false divides)) _ actions
      have results : result = (system.run actions).result := by
        funext self
        simp only [result, same]
        exact Config.join_result_panicking _ self
      rw [results, same]
      rcases CheckLoop.deployed_in_order server numbered actions apart bounded with
        ⟨order, serves, answers⟩
      exact ⟨order, serves, fun _ => answers⟩
  | true =>
      -- The tasks that panic are not scheduled again.
      rcases system.exists_run_of_panicking actions with ⟨fewer, omits, panicked⟩
      have few := omits.length_le
      rcases CheckLoop.deployed_in_order server numbered fewer
        (fun change member => apart change (omits.mem member)) (by omega) with
        ⟨order, serves, -⟩
      rw [panicked.world]
      exact ⟨order, serves.mono omits fun self returned => panicked.result,
        fun never => Bool.noConfusion never⟩

/-- The first transaction of a connection takes the quota of one and its answer gets
lost, so the request is denied, and so is that of another replica. In between another
client writes a key of its own. -/
theorem RateLimiterConfig.deployment_serves_in_order_lost_answer :
    let config : RateLimiterConfig := ⟨.fixedWindow, 1, 60, 0, 1, 1, 0⟩
    let store : EtcdStore := ⟨"rate-limiting"⟩
    let server : Etcd := ⟨fun _ => none, 1⟩
    let message := framed
      (RateLimitClient.buildRequest Libraries.sample.python ⟨"alice", "/", 1⟩)
    let stream := Inbound.ofPieces [message] .closed
    let tasks : Fin 2 → ServerTask
      | 0 => .connection stream
      | 1 => .http ⟨"alice", "/", 1⟩
    let fine : Circumstances := ⟨none, 7⟩
    let actions : List (Action ((sharedMachine config.limiter.Time).sum
        (network (Fin 2))) (Fin 2)) :=
      [.step 0 (.ok, fine), .step 0 (.ok, fine),
        .evolve (.inl (.rpc fun server => server.put "other-service/key" [1])),
        .step 0 (.unacknowledged, fine)] ++
        List.replicate 19 (.step 0 (.ok, fine)) ++ List.replicate 21 (.step 1 (.ok, fine))
    let system := (deploymentSystem config.limiter Json.fixedWindow store
      Libraries.sample.rust (fun key message => key ++ message) (some "key") tasks
      (0 : UInt64) server).panicking (panicsLeft (networkInterface (Fin 2)) config.panics)
    let state := system.run actions
    let result := fun self => (state.result self).join
    (state.world.2 0 = framed (encodeResponse Libraries.sample.rust ⟨false, 1, 0, 60000,
          "fixed-window limit 1/1 exceeded, resets in 60000ms"⟩) ∧
        (result 1).map (fun
          | .http response => response.status
          | .connection _ => 0) = some 429) ∧
      ∃ order, ServesInOrder Json.fixedWindow store Libraries.sample.rust
          (fun key message => key ++ message) (some "key") tasks (0 : UInt64) server
          state.world.1.store actions state.world.2 result order ∧
        ∀ self, (tasks self).Done Libraries.sample.rust (fun key message => key ++ message)
          config.limiter.name (some "key")
          (AppliedCheck.answersTo Json.fixedWindow (server.contents store) self order)
          (state.world.2 self) (result self) := by
  intro config store server message stream tasks fine actions system state result
  have apart : ∀ change, .evolve (.inl change) ∈ actions →
      KeepsAway config.limiter store change := by
    intro change member effect isRpc
    subst isRpc
    have isPut : effect = fun server => server.put "other-service/key" [1] := by
      simpa only [actions, List.mem_append, List.mem_cons, List.not_mem_nil,
        List.mem_replicate, reduceCtorEq, Action.evolve.injEq, Sum.inl.injEq,
        EtcdChange.rpc.injEq, and_false, or_false, false_or] using member
    rw [isPut]
    intro current numbered fits
    refine ⟨numbered.follows_put fits _ _, fun request => ?_⟩
    apply Etcd.put_kvs_of_ne
    intro same
    have letters := congrArg (fun key => key.toList.head?) same
    simp [EtcdStore.fullKey, store, toString] at letters
  have bounded : server.revision.toInt + actions.length < 2 ^ 63 := by decide +kernel
  rcases config.deployment_serves_in_order Json.fixedWindow store Libraries.sample.rust
    (fun key message => key ++ message) (some "key") tasks (0 : UInt64) server
    (.empty (by decide)) actions apart bounded with ⟨order, serves, answers⟩
  have enough : ∀ self, (tasks self).Enough Libraries.sample.rust 20
      (Config.turns self actions) := by
    refine Fin.forall_fin_two.mpr ⟨?_, ?_⟩
    · apply @ServerTask.enough_of_requests Libraries.sample [⟨"alice", "/", 1⟩]
      · decide +kernel
      · exact Inbound.bytes_ofPieces ..
      · decide +kernel
    · have turns : Config.turns 1 actions = 21 := by decide +kernel
      rw [turns]
      exact le_refl 21
  have unfailing : ∀ self, ¬ WriteFails self actions := by
    rintro self ⟨choice, member, failing⟩
    have isFine : choice.2 = fine := by
      simp only [actions, List.mem_append, List.mem_cons, List.not_mem_nil,
        List.mem_replicate, reduceCtorEq, Action.step.injEq, or_false, false_or] at member
      grind
    rw [isFine] at failing
    cases failing
  exact ⟨by decide +kernel, order, serves, fun self =>
    answers rfl self (enough self) (unfailing self)⟩

end RateLimiting
