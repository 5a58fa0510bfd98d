import RateLimiting.Concurrency.Termination
import RateLimiting.Serving

/-! # The server gets its work done

A task of the server that is let run often enough stops, whatever the other tasks do. A
connection has then answered every frame, unless a write failed, and a request has its
response. -/

namespace RateLimiting

open ByteStream FlatBuffers HttpServer TcpServer

theorem Program.Within.onLeft {I J : Interface} {α : Type} {weight : (I.sum J).Op → Nat}
    {program : Program I α} {budget : Nat}
    (within : program.Within (fun op => weight (.inl op)) budget) :
    (program.onLeft J).Within weight budget := by
  induction within with
  | pure budget value => exact .pure budget value
  | request affordable _ induction => exact .request affordable induction

namespace Program

variable {J : Interface} {Request Response α : Type} {I : Interface}
  {implementation : Request → Program I Response} {callBudget : Nat}

theorem Within.call
    (calls : ∀ request, (implementation request).Within (fun _ => 1) callBudget)
    {request : Request} {budget : Nat}
    {next : Response → Program ((callInterface Request Response).sum J) α}
    (rest : ∀ response,
      ((next response).implement implementation).Within (fun _ => 1) budget) :
    (Program.implement implementation (.request (.inl request) next)).Within
      (fun _ => 1) (callBudget + budget) := by
  rw [implement_call]
  exact (calls request).onLeft.bind rest

theorem Within.other {op : J.Op} {budget : Nat}
    {next : J.Reply op → Program ((callInterface Request Response).sum J) α}
    (rest : ∀ reply, ((next reply).implement implementation).Within (fun _ => 1) budget) :
    (Program.implement implementation (.request (.inr op) next)).Within
      (fun _ => 1) (1 + budget) := by
  rw [implement_other]
  refine .request (Nat.le_add_right _ _) fun reply => ?_
  rw [Nat.add_sub_cancel_left]
  exact rest reply

end Program

section Budgets

variable {rust : Library} {κ : Type} {self : κ} {I : Interface}
  {implementation : CheckRequest → Program I Decision} {callBudget : Nat}
  (calls : ∀ request, (implementation request).Within (fun _ => 1) callBudget)

theorem writeAll_within {bytes : Bytes} {next : ServerProgram κ} {budget : Nat}
    (rest : (next.implement implementation).Within (fun _ => 1) budget) :
    ((writeAll self bytes next).implement implementation).Within (fun _ => 1)
      (1 + budget) := by
  apply Program.Within.other
  intro written
  cases written with
  | true => exact rest
  | false => exact .pure _ _

include calls

theorem serveConnection_within {stream : Inbound} {frames : List (Frame rust)}
    (longest : (frameCode rust).LongestPrefix stream.bytes frames) :
    ((serveConnection rust self stream).implement implementation).Within (fun _ => 1)
      ((callBudget + 2) * frames.length) := by
  induction frames generalizing stream with
  | nil =>
      have without := FrameCode.LongestPrefix.nil_iff.mp longest
      cases read : readRequest rust stream with
      | error outcome =>
          rw [(serveConnection_of_stop self read).1]
          exact .pure _ _
      | ok result =>
          rcases readRequest_eq_ok read with ⟨frame, _, split⟩
          exact absurd ⟨result.2.bytes, split.symm⟩ (without frame)
  | cons frame frames induction =>
      have starts := longest.1
      rw [FrameCode.wires_cons] at starts
      rcases (List.prefix_append _ _).trans starts with ⟨last, split⟩
      rcases readRequest_of_frame frame split.symm with ⟨after, isLast, read⟩
      have remaining : (frameCode rust).LongestPrefix after.bytes frames := by
        rw [isLast]
        apply FrameCode.LongestPrefix.cons_iff.mp
        rw [split]
        exact longest
      have budget : (callBudget + 2) * (frames.length + 1) =
          callBudget + (1 + (1 + (callBudget + 2) * frames.length)) := by
        rw [Nat.mul_succ]
        omega
      rw [(serveConnection_of_frame self read).1, List.length_cons, budget]
      apply Program.Within.call calls
      intro decision
      apply writeAll_within
      apply writeAll_within
      exact induction remaining

theorem serveHttp_within (hmacSha256 : (key message : Bytes) → Bytes) (name : String)
    (hmacSecret : Option String) (request : CheckRequest) :
    (Program.implement implementation
      (serveHttp hmacSha256 name hmacSecret request : ServerProgram κ)).Within (fun _ => 1)
      (callBudget + 1) := by
  apply Program.Within.call calls
  intro decision
  cases hmacSecret with
  | none => exact .pure _ _
  | some secret =>
      change Program.Within (fun _ => 1) (1 + 0) _
      apply Program.Within.other
      intro ts
      exact .pure _ _

end Budgets

/-- How many operations a task of the server takes, whose checks take so many. -/
def ServerTask.Enough (rust : Library) (callBudget moves : Nat) : ServerTask → Prop
  | .connection stream => ∀ frames, (frameCode rust).LongestPrefix stream.bytes frames →
      (callBudget + 2) * frames.length ≤ moves
  | .http _ => callBudget + 1 ≤ moves

theorem ServerTask.enough_of_requests (libraries : Libraries) {requests : List CheckRequest}
    (fits : ∀ request ∈ requests,
      (RateLimitClient.buildRequest libraries.python request).length ≤ maxMsgBytes)
    {stream : Inbound} (arriving : stream.bytes = requests.flatMap fun request =>
      framed (RateLimitClient.buildRequest libraries.python request))
    {callBudget moves : Nat} (enough : (callBudget + 2) * requests.length ≤ moves) :
    (ServerTask.connection stream).Enough libraries.rust callBudget moves := by
  intro frames longest
  rcases exists_frames libraries fits with ⟨known, areRequests, wires⟩
  rw [arriving, ← wires] at longest
  have same := longest.unique ((frameCode libraries.rust).longestPrefix_wires known)
  rw [same]
  rw [← areRequests, List.length_map] at enough
  exact enough

/-- A task that got all its answers and passed them on. -/
def ServerTask.Done (rust : Library) (hmacSha256 : (key message : Bytes) → Bytes)
    (name : String) (hmacSecret : Option String)
    (answers : List (CheckRequest × Decision)) (sent : Bytes)
    (result : Option TaskResult) : ServerTask → Prop
  | .connection stream => ∃ frames : List (Frame rust),
      (frameCode rust).LongestPrefix stream.bytes frames ∧
        answers.map Prod.fst = frames.map Frame.request ∧ sent = responses rust answers ∧
        result = some (.connection (ending rust stream))
  | .http request => ∃ decision ts, answers = [(request, decision)] ∧
      result = some (.http (checkHandler hmacSha256 name hmacSecret request decision ts))

section Tasks

variable {rust : Library} {hmacSha256 : (key message : Bytes) → Bytes} {name : String}
  {hmacSecret : Option String} {task : ServerTask}

theorem ServerTask.Shows.done {failed : Prop} {answers : List (CheckRequest × Decision)}
    {sent : Bytes} {result : Option TaskResult}
    (shows : task.Shows rust hmacSha256 name hmacSecret failed answers sent result)
    (stopped : ∃ returned, result = some returned) (unfailing : ¬ failed) :
    task.Done rust hmacSha256 name hmacSecret answers sent result := by
  rcases stopped with ⟨returned, isReturned⟩
  cases task with
  | connection stream =>
      rcases shows with ⟨frames, longest, -, -, -, results⟩
      rcases results returned isReturned with broken | complete
      · exact absurd broken.1 unfailing
      · rcases complete with ⟨asked, sent, rfl⟩
        exact ⟨frames, longest, asked, sent, isReturned⟩
  | http request =>
      rcases shows with ⟨-, silent | answered⟩
      · exact absurd (silent.2.symm.trans isReturned) (by simp)
      · rcases answered with ⟨decision, areAnswers, results⟩
        rcases results returned isReturned with ⟨ts, rfl⟩
        exact ⟨decision, ts, areAnswers, isReturned⟩

theorem ServerTask.Enough.stops {κ : Type} [DecidableEq κ] {I : Interface} {m : Machine I}
    {implementation : CheckRequest → Program I Decision} {callBudget : Nat}
    (calls : ∀ request, (implementation request).Within (fun _ => 1) callBudget) {self : κ}
    (config : Config (m.sum (network κ)) κ TaskResult)
    (isProgram : config.threads self =
      (task.program rust hmacSha256 name hmacSecret self).implement implementation)
    {actions : List (Action (m.sum (network κ)) κ)}
    (enough : task.Enough rust callBudget (Config.turns self actions)) :
    ∃ returned, (config.run actions).result self = some returned := by
  have returns : ∀ {budget}, budget ≤ Config.turns self actions →
      (config.threads self).Within (fun _ => 1) budget →
      ∃ returned, (config.run actions).result self = some returned := by
    intro budget affordable within
    rcases Config.returns_of_turns config within affordable with ⟨returned, isReturned⟩
    exact ⟨returned, Config.result_eq_some.mpr isReturned⟩
  rw [isProgram] at returns
  cases task with
  | connection stream =>
      rcases (frameCode rust).exists_longestPrefix stream.bytes with ⟨frames, longest⟩
      exact returns (enough frames longest) (serveConnection_within calls longest)
  | http request => exact returns enough (serveHttp_within calls _ _ _ _)

end Tasks

/-- The server, whose tasks panic where a check of theirs does. -/
abbrev panickingServer (config : RateLimiterConfig) (json : SerdeJson config.limiter.State)
    (rust : Library) (hmacSha256 : (key message : Bytes) → Bytes)
    (hmacSecret : Option String) {κ : Type} [DecidableEq κ] (tasks : κ → ServerTask)
    (start : config.limiter.Time) :
    Config ((localMachine config.limiter).sum (network κ)) κ (Option TaskResult) :=
  (serverSystem config.limiter json rust hmacSha256 hmacSecret tasks start).panicking
    (panicsLeft (networkInterface κ) config.panics)

/-- In every run of the server, whatever the other tasks do, a task that is let run often
enough and whose writes succeed has got a decision in the one order of checks on every
request that reaches it, and has sent every response, if checks do not divide by zero. -/
theorem RateLimiterConfig.server_answers_every_request (config : RateLimiterConfig)
    (divides : config.dividesByZero = false) (json : SerdeJson config.limiter.State)
    (rust : Library) (hmacSha256 : (key message : Bytes) → Bytes)
    (hmacSecret : Option String) {κ : Type} [DecidableEq κ] (tasks : κ → ServerTask)
    (start : config.limiter.Time)
    (actions : List (Action ((localMachine config.limiter).sum (network κ)) κ))
    (bounded : actions.length < 2 ^ 63) :
    let state := (panickingServer config json rust hmacSha256 hmacSecret tasks start).run
      actions
    ∃ served : List (Served κ config.limiter),
      (∀ check ∈ served, ∀ now, check.reading = some now → shownBy start actions now) ∧
        state.world.1.store.contents = Served.table json served ∧
        ∀ self, (tasks self).Enough rust 15 (Config.turns self actions) →
          ¬ WriteFails self actions →
          (tasks self).Done rust hmacSha256 config.limiter.name hmacSecret
            (Served.answersTo json self served) (state.world.2 self)
            (state.result self).join := by
  intro state
  have same : state = ((serverSystem config.limiter json rust hmacSha256 hmacSecret tasks
      start).run actions).panicking (panicsLeft (networkInterface κ) config.panics) :=
    Config.run_panicking (panicsLeft_eq_false (config.panics_eq_false divides)) _ actions
  rcases config.limiter.serves_in_order json rust hmacSha256 hmacSecret tasks start actions
    bounded with ⟨served, shown, table, shows⟩
  rw [same]
  refine ⟨served, shown, table, fun self enough unfailing => ?_⟩
  have calls : ∀ request, (limiterCheck config.limiter json request).Within (fun _ => 1) 15 :=
    fun request => config.limiter.check_within_local json request.clientId request.resource
      request.cost
  rw [Config.join_result_panicking]
  exact (shows self).done (enough.stops calls _ rfl) unfailing

theorem RateLimiterConfig.server_answers_every_request_in_turns :
    let config : RateLimiterConfig := ⟨.fixedWindow, 1, 60, 0, 1, 1, 0⟩
    let message := framed
      (RateLimitClient.buildRequest Libraries.sample.python ⟨"alice", "/", 1⟩)
    let stream := Inbound.ofPieces [message] .closed
    let tasks : Fin 2 → ServerTask
      | 0 => .connection stream
      | 1 => .http ⟨"alice", "/", 1⟩
    let actions : List (Action ((localMachine config.limiter).sum (network (Fin 2)))
        (Fin 2)) :=
      (List.replicate 17 [.step 0 ((), ⟨none, 7⟩), .step 1 ((), ⟨none, 7⟩)]).flatten
    let system := panickingServer config Json.fixedWindow Libraries.sample.rust
      (fun key message => key ++ message) (some "key") tasks (0 : UInt64)
    let state := system.run actions
    (state.world.2 0 =
          framed (encodeResponse Libraries.sample.rust
            ⟨true, 1, 0, 0, "ok — 1/1 used"⟩) ∧
        (state.result 1).join.isSome) ∧
      ∃ served : List (Served (Fin 2) config.limiter), ∀ self,
        (tasks self).Done Libraries.sample.rust (fun key message => key ++ message)
          config.limiter.name (some "key") (Served.answersTo Json.fixedWindow self served)
          (state.world.2 self) (state.result self).join := by
  intro config message stream tasks actions system state
  have short : actions.length < 2 ^ 63 := by decide +kernel
  rcases config.server_answers_every_request rfl Json.fixedWindow Libraries.sample.rust
    (fun key message => key ++ message) (some "key") tasks (0 : UInt64) actions short with
    ⟨served, -, -, done⟩
  have turns : ∀ self, Config.turns self actions = 17 := by decide +kernel
  have enough : ∀ self, (tasks self).Enough Libraries.sample.rust 15 17
    | 0 => by
        apply @ServerTask.enough_of_requests Libraries.sample [⟨"alice", "/", 1⟩]
        · decide +kernel
        · exact Inbound.bytes_ofPieces ..
        · decide
    | 1 => by
        change 15 + 1 ≤ 17
        decide
  have unfailing : ∀ self, ¬ WriteFails self actions := by
    rintro self ⟨choice, member, failing⟩
    rcases List.mem_flatten.mp member with ⟨turn, isTurn, member⟩
    rw [List.eq_of_mem_replicate isTurn] at member
    simp only [List.mem_cons, List.not_mem_nil, or_false, Action.step.injEq] at member
    rcases member with ⟨-, rfl⟩ | ⟨-, rfl⟩ <;> exact absurd failing (by decide)
  refine ⟨by decide +kernel, served, fun self => done self ?_ (unfailing self)⟩
  rw [turns]
  exact enough self

end RateLimiting
