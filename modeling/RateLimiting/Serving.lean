import RateLimiting.Concurrency.AtomicLimiter
import RateLimiting.Http.Server
import RateLimiting.Tcp.Session

/-! # The server

The connections of the TCP protocol and the requests of `POST /check` are tasks that
share one limiter. The checks of all tasks have one order, and what the peer of a task
sees is what the checks of that task get in it. -/

namespace RateLimiting

open ByteStream FlatBuffers HttpServer TcpServer

/-! ## Tasks -/

inductive NetworkOp (κ : Type)
  | write (task : κ) (bytes : Bytes)
  | nowMs

@[reducible] def networkInterface (κ : Type) : Interface where
  Op := NetworkOp κ
  Reply
    | .write _ _ => Bool
    | .nowMs => Int64

/-- What the environment decides: after how many bytes `write_all` fails, if it does,
and what `now_ms` returns. -/
structure Circumstances where
  failure : Option Nat
  systemMs : Int64

@[reducible] def network (κ : Type) [DecidableEq κ] : Machine (networkInterface κ) where
  World := κ → Bytes
  Choice := Circumstances
  Change := Empty
  perform
    | .write task bytes, circumstances, sent =>
        match circumstances.failure with
        | none => (true, Function.update sent task (sent task ++ bytes))
        | some written =>
            (false, Function.update sent task (sent task ++ bytes.take written))
    | .nowMs, circumstances, sent => (circumstances.systemMs, sent)
  evolve change := nomatch change

inductive ServerTask where
  | connection (stream : Inbound)
  | http (request : CheckRequest)

inductive TaskResult where
  | connection (outcome : Outcome)
  | http (response : Response)
deriving DecidableEq

abbrev ServerProgram (κ : Type) := Program (taskInterface (networkInterface κ)) TaskResult

section Programs

variable (rust : Library) {κ : Type}

/-- `write_all(…).await?`. -/
def writeAll (task : κ) (bytes : Bytes) (next : ServerProgram κ) : ServerProgram κ :=
  .request (.inr (.write task bytes)) fun
    | true => next
    | false => .pure (.connection (.err .transport))

/-- `handle_conn`. -/
def serveConnection (task : κ) (stream : Inbound) : ServerProgram κ :=
  match _ : readRequest rust stream with
  | .error outcome => .pure (.connection outcome)
  | .ok (request, stream) =>
      .request (.inl request) fun decision =>
        let respBytes := encodeResponse rust decision
        writeAll task (toLE 4 respBytes.length)
          (writeAll task respBytes (serveConnection task stream))
termination_by stream.bytes.length
decreasing_by
  rename_i read
  exact readRequest_shrinks read

variable (hmacSha256 : (key message : Bytes) → Bytes) (name : String)
  (hmacSecret : Option String)

/-- `check_handler`, which reads the clock only to sign. -/
def serveHttp (request : CheckRequest) : ServerProgram κ :=
  .request (.inl request) fun decision =>
    match hmacSecret with
    | some secret =>
        .request (.inr .nowMs) fun ts =>
          .pure (.http (checkHandler hmacSha256 name (some secret) request decision ts))
    | none => .pure (.http (checkHandler hmacSha256 name none request decision 0))

def ending (stream : Inbound) : Outcome :=
  match _ : readRequest rust stream with
  | .error outcome => outcome
  | .ok (_, stream) => ending stream
termination_by stream.bytes.length
decreasing_by
  rename_i read
  exact readRequest_shrinks read

def ServerTask.program (self : κ) : ServerTask → ServerProgram κ
  | .connection stream => serveConnection rust self stream
  | .http request => serveHttp hmacSha256 name hmacSecret request

end Programs

/-! ## The order of the checks -/

/-- A check that the atomic limiter answered, at a reading of the clock or with the
denial that a check gives up with. -/
structure Served (κ : Type) (loop : CheckLoop) where
  task : κ
  request : CheckRequest
  reading : Option loop.Time

namespace Served

variable {κ : Type} {loop : CheckLoop} (json : SerdeJson loop.State)

def answer (served : Served κ loop) (table : Table) : Decision × Table :=
  match served.reading with
  | some now => table.serve json ⟨now, served.request⟩
  | none => (loop.fallback, table)

def table : List (Served κ loop) → Table
  | [] => fun _ => none
  | last :: earlier => (last.answer json (table earlier)).2

def answersTo [DecidableEq κ] (task : κ) : List (Served κ loop) →
    List (CheckRequest × Decision)
  | [] => []
  | last :: earlier =>
      if last.task = task then
        answersTo task earlier ++ [(last.request, (last.answer json (table json earlier)).1)]
      else answersTo task earlier

section Answers

variable [DecidableEq κ] (last : Served κ loop) (earlier : List (Served κ loop))

theorem answersTo_own : answersTo json last.task (last :: earlier) =
    answersTo json last.task earlier ++
      [(last.request, (last.answer json (table json earlier)).1)] :=
  if_pos rfl

theorem answersTo_other {task : κ} (different : task ≠ last.task) :
    answersTo json task (last :: earlier) = answersTo json task earlier :=
  if_neg different.symm

end Answers

end Served

/-! ## What a task shows -/

def responses (rust : Library) (answers : List (CheckRequest × Decision)) : Bytes :=
  (answers.map fun answer => encodeResponse rust answer.2).flatMap framed

theorem responses_snoc (rust : Library) (answers : List (CheckRequest × Decision))
    (last : CheckRequest × Decision) :
    responses rust (answers ++ [last]) =
      responses rust answers ++ framed (encodeResponse rust last.2) := by
  simp [responses]

theorem responses_mono (rust : Library) {first all : List (CheckRequest × Decision)}
    (isPrefix : first <+: all) : responses rust first <+: responses rust all := by
  rcases isPrefix with ⟨rest, rfl⟩
  rw [responses, responses, List.map_append, List.flatMap_append]
  exact List.prefix_append _ _

section Shows

variable (rust : Library) (hmacSha256 : (key message : Bytes) → Bytes) (name : String)
  (hmacSecret : Option String)

/-- What the peer of a task sees whose checks got these answers. A connection answers
the requests of the frames that its stream starts with, in order. Only a write that
failed keeps it from answering them all. -/
def ServerTask.Shows (failed : Prop) (answers : List (CheckRequest × Decision))
    (sent : Bytes) (result : Option TaskResult) : ServerTask → Prop
  | .connection stream => ∃ frames : List (Frame rust),
      (frameCode rust).LongestPrefix stream.bytes frames ∧
        answers.map Prod.fst <+: frames.map Frame.request ∧
        responses rust answers.dropLast <+: sent ∧ sent <+: responses rust answers ∧
        ∀ returned, result = some returned →
          failed ∧ returned = .connection (.err .transport) ∨
          answers.map Prod.fst = frames.map Frame.request ∧
            sent = responses rust answers ∧ returned = .connection (ending rust stream)
  | .http request => sent = [] ∧
      (answers = [] ∧ result = none ∨
        ∃ decision, answers = [(request, decision)] ∧
          ∀ returned, result = some returned → ∃ ts, returned =
            .http (checkHandler hmacSha256 name hmacSecret request decision ts))

variable {rust hmacSha256 name hmacSecret}

theorem ServerTask.Shows.sent_eq {failed : Prop} {answers : List (CheckRequest × Decision)}
    {sent : Bytes} {result : Option TaskResult} {stream : Inbound}
    (shows : (ServerTask.connection stream).Shows rust hmacSha256 name hmacSecret failed
      answers sent result) (returned : result = some (.connection .ok)) :
    sent = responses rust answers := by
  rcases shows with ⟨frames, _, _, _, _, results⟩
  rcases results _ returned with ⟨-, broken⟩ | ⟨-, complete, -⟩
  · cases broken
  · exact complete

theorem ServerTask.Shows.mono {failed wider : Prop}
    {answers : List (CheckRequest × Decision)} {sent : Bytes}
    {result other : Option TaskResult} {task : ServerTask}
    (shows : task.Shows rust hmacSha256 name hmacSecret failed answers sent result)
    (implied : failed → wider)
    (returns : ∀ returned, other = some returned → result = some returned) :
    task.Shows rust hmacSha256 name hmacSecret wider answers sent other := by
  cases task with
  | connection stream =>
      rcases shows with ⟨frames, longest, asked, wrote, written, results⟩
      refine ⟨frames, longest, asked, wrote, written, fun returned isReturned => ?_⟩
      rcases results returned (returns returned isReturned) with broken | complete
      · exact .inl ⟨implied broken.1, broken.2⟩
      · exact .inr complete
  | http request =>
      rcases shows with ⟨silent, pending | answered⟩
      · refine ⟨silent, .inl ⟨pending.1, ?_⟩⟩
        cases isOther : other with
        | none => rfl
        | some returned =>
            have known := returns returned isOther
            rw [pending.2] at known
            cases known
      · rcases answered with ⟨decision, areAnswers, results⟩
        exact ⟨silent, .inr ⟨decision, areAnswers, fun returned isReturned =>
          results returned (returns returned isReturned)⟩⟩

end Shows

/-! ## Connections -/

section Connections

variable {rust : Library} {κ : Type} {task : κ}

variable (task) in
theorem serveConnection_of_stop {stream : Inbound} {outcome : Outcome}
    (stopped : readRequest rust stream = .error outcome) :
    serveConnection rust task stream = .pure (.connection outcome) ∧
      ending rust stream = outcome := by
  rw [serveConnection, ending, stopped]
  exact ⟨rfl, rfl⟩

variable (task) in
theorem serveConnection_of_frame {stream after : Inbound} {request : CheckRequest}
    (read : readRequest rust stream = .ok (request, after)) :
    serveConnection rust task stream =
        .request (.inl request) (fun decision =>
          writeAll task (toLE 4 (encodeResponse rust decision).length)
            (writeAll task (encodeResponse rust decision)
              (serveConnection rust task after))) ∧
      ending rust stream = ending rust after := by
  rw [serveConnection, ending, read]
  exact ⟨rfl, rfl⟩

theorem serveConnection_eq_pure {stream : Inbound} {returned : TaskResult}
    (isPure : serveConnection rust task stream = .pure returned) :
    returned = .connection (ending rust stream) ∧
      ∀ remaining, (frameCode rust).LongestPrefix stream.bytes remaining →
        remaining = [] := by
  cases read : readRequest rust stream with
  | ok result =>
      rw [(serveConnection_of_frame task read).1] at isPure
      cases isPure
  | error outcome =>
      rcases serveConnection_of_stop task read with ⟨isOutcome, isEnding⟩
      rw [isOutcome] at isPure
      refine ⟨isEnding ▸ (Program.pure.inj isPure).symm, fun remaining longest => ?_⟩
      cases remaining with
      | nil => rfl
      | cons frame remaining =>
          have starts := longest.1
          rw [FrameCode.wires_cons] at starts
          rcases (List.prefix_append _ _).trans starts with ⟨last, arriving⟩
          rcases readRequest_of_frame frame arriving.symm with ⟨after, _, isRead⟩
          rw [read] at isRead
          cases isRead

theorem handleConn_outcome {σ : Type} (check : Limiter σ) (state : σ) (stream : Inbound) :
    (handleConn rust check state stream).outcome = ending rust stream := by
  induction size : stream.bytes.length using Nat.strongRecOn generalizing state stream with
  | _ size induction =>
      cases read : readRequest rust stream with
      | error outcome =>
          rw [handleConn_of_stop rust check state read]
          exact (serveConnection_of_stop () read).2.symm
      | ok result =>
          rcases result with ⟨request, after⟩
          have shorter := readRequest_shrinks read
          rw [handleConn_of_frame rust check state read]
          rw [(serveConnection_of_frame () read).2]
          exact induction _ (size ▸ shorter) _ after rfl

variable (rust task) in
/-- Where a connection is: between two exchanges, at one of the two writes of an answer,
or stopped by a write that failed. -/
inductive ConnectionAt (frames : List (Frame rust)) (last : Outcome) (failed : Prop)
    (answers : List (CheckRequest × Decision)) (sent : Bytes)
    (program : ServerProgram κ) : Prop
  | reading (stream : Inbound) (remaining : List (Frame rust))
      (isProgram : program = serveConnection rust task stream)
      (ends : ending rust stream = last)
      (longest : (frameCode rust).LongestPrefix stream.bytes remaining)
      (split : frames.map Frame.request =
        answers.map Prod.fst ++ remaining.map Frame.request)
      (isSent : sent = responses rust answers)
  | header (stream : Inbound) (remaining : List (Frame rust))
      (earlier : List (CheckRequest × Decision)) (request : CheckRequest)
      (decision : Decision)
      (isProgram : program = writeAll task (toLE 4 (encodeResponse rust decision).length)
        (writeAll task (encodeResponse rust decision) (serveConnection rust task stream)))
      (ends : ending rust stream = last)
      (longest : (frameCode rust).LongestPrefix stream.bytes remaining)
      (areAnswers : answers = earlier ++ [(request, decision)])
      (split : frames.map Frame.request =
        answers.map Prod.fst ++ remaining.map Frame.request)
      (isSent : sent = responses rust earlier)
  | body (stream : Inbound) (remaining : List (Frame rust))
      (earlier : List (CheckRequest × Decision)) (request : CheckRequest)
      (decision : Decision)
      (isProgram : program = writeAll task (encodeResponse rust decision)
        (serveConnection rust task stream))
      (ends : ending rust stream = last)
      (longest : (frameCode rust).LongestPrefix stream.bytes remaining)
      (areAnswers : answers = earlier ++ [(request, decision)])
      (split : frames.map Frame.request =
        answers.map Prod.fst ++ remaining.map Frame.request)
      (isSent : sent = responses rust earlier ++
        toLE 4 (encodeResponse rust decision).length)
  | broken (earlier : List (CheckRequest × Decision)) (request : CheckRequest)
      (decision : Decision) (part : Bytes) (hasFailed : failed)
      (isProgram : program = .pure (.connection (.err .transport)))
      (areAnswers : answers = earlier ++ [(request, decision)])
      (begun : answers.map Prod.fst <+: frames.map Frame.request)
      (isSent : sent = responses rust earlier ++ part)
      (isPart : part <+: framed (encodeResponse rust decision))

namespace ConnectionAt

variable {frames : List (Frame rust)} {last : Outcome} {failed : Prop}
  {answers : List (CheckRequest × Decision)} {sent : Bytes} {program : ServerProgram κ}

theorem mono {wider : Prop} (implied : failed → wider)
    (reached : ConnectionAt rust task frames last failed answers sent program) :
    ConnectionAt rust task frames last wider answers sent program := by
  cases reached with
  | reading stream remaining isProgram ends longest split isSent =>
      exact .reading stream remaining isProgram ends longest split isSent
  | header stream remaining earlier request decision isProgram ends longest areAnswers
      split isSent =>
      exact .header stream remaining earlier request decision isProgram ends longest
        areAnswers split isSent
  | body stream remaining earlier request decision isProgram ends longest areAnswers
      split isSent =>
      exact .body stream remaining earlier request decision isProgram ends longest
        areAnswers split isSent
  | broken earlier request decision part hasFailed isProgram areAnswers begun isSent
      isPart =>
      exact .broken earlier request decision part (implied hasFailed) isProgram areAnswers
        begun isSent isPart

theorem asking {request : CheckRequest} {next : Decision → ServerProgram κ}
    (reached : ConnectionAt rust task frames last failed answers sent
      (.request (.inl request) next)) :
    ∃ (after : Inbound) (remaining : List (Frame rust)),
      (next = fun decision => writeAll task (toLE 4 (encodeResponse rust decision).length)
        (writeAll task (encodeResponse rust decision) (serveConnection rust task after))) ∧
      ending rust after = last ∧ (frameCode rust).LongestPrefix after.bytes remaining ∧
      frames.map Frame.request =
        answers.map Prod.fst ++ request :: remaining.map Frame.request ∧
      sent = responses rust answers := by
  cases reached with
  | reading stream remaining isProgram ends longest split isSent =>
      cases read : readRequest rust stream with
      | error outcome =>
          rw [(serveConnection_of_stop task read).1] at isProgram
          cases isProgram
      | ok result =>
          rcases result with ⟨asked, after⟩
          rcases serveConnection_of_frame task read with ⟨isRequest, sameEnding⟩
          rw [isRequest] at isProgram
          cases isProgram
          rcases readRequest_eq_ok read with ⟨frame, rfl, arriving⟩
          rw [arriving] at longest
          cases remaining with
          | nil =>
              have without := FrameCode.LongestPrefix.nil_iff.mp longest
              exact absurd (List.prefix_append _ _) (without frame)
          | cons first remaining =>
              have starts := longest.1
              rw [FrameCode.wires_cons] at starts
              have same : first = frame := (frameCode rust).unique
                ((List.prefix_append _ _).trans starts) (List.prefix_append _ _)
              subst same
              exact ⟨after, remaining, rfl, sameEnding.symm.trans ends,
                FrameCode.LongestPrefix.cons_iff.mp longest, split, isSent⟩
  | header stream remaining earlier request decision isProgram => cases isProgram
  | body stream remaining earlier request decision isProgram => cases isProgram
  | broken earlier request decision part hasFailed isProgram => cases isProgram

theorem check {request : CheckRequest} {next : Decision → ServerProgram κ}
    (reached : ConnectionAt rust task frames last failed answers sent
      (.request (.inl request) next)) (decision : Decision) :
    ConnectionAt rust task frames last failed (answers ++ [(request, decision)]) sent
      (next decision) := by
  rcases reached.asking with ⟨after, remaining, rfl, ends, longest, split, isSent⟩
  refine .header after remaining answers request decision rfl ends longest rfl ?_ isSent
  rw [split, List.map_append, List.append_assoc]
  rfl

theorem other [DecidableEq κ] {op : NetworkOp κ} {world : κ → Bytes}
    {next : (networkInterface κ).Reply op → ServerProgram κ}
    (reached : ConnectionAt rust task frames last failed answers (world task)
      (.request (.inr op) next)) (circumstances : Circumstances) :
    ConnectionAt rust task frames last (failed ∨ circumstances.failure.isSome) answers
        (((network κ).perform op circumstances world).2 task)
        (next ((network κ).perform op circumstances world).1) ∧
      ∀ different, different ≠ task →
        ((network κ).perform op circumstances world).2 different = world different := by
  rcases circumstances with ⟨failure, systemMs⟩
  cases reached with
  | reading stream remaining isProgram ends longest split isSent =>
      cases read : readRequest rust stream with
      | error outcome =>
          rw [(serveConnection_of_stop task read).1] at isProgram
          cases isProgram
      | ok result =>
          rw [(serveConnection_of_frame task read).1] at isProgram
          cases isProgram
  | header stream remaining earlier request decision isProgram ends longest areAnswers
      split isSent =>
      cases isProgram
      cases failure with
      | none =>
          refine ⟨?_, fun different other => Function.update_of_ne other _ _⟩
          apply ConnectionAt.body stream remaining earlier request decision rfl ends longest
            areAnswers split
          simp [isSent]
      | some written =>
          refine ⟨?_, fun different other => Function.update_of_ne other _ _⟩
          apply ConnectionAt.broken earlier request decision
            ((toLE 4 (encodeResponse rust decision).length).take written) (.inr rfl) rfl
            areAnswers (split ▸ List.prefix_append _ _)
          · simp only [Function.update_self, isSent]
          · exact (List.take_prefix _ _).trans (List.prefix_append _ _)
  | body stream remaining earlier request decision isProgram ends longest areAnswers
      split isSent =>
      cases isProgram
      cases failure with
      | none =>
          refine ⟨?_, fun different other => Function.update_of_ne other _ _⟩
          apply ConnectionAt.reading stream remaining rfl ends longest split
          simp [isSent, areAnswers, responses_snoc, framed]
      | some written =>
          refine ⟨?_, fun different other => Function.update_of_ne other _ _⟩
          apply ConnectionAt.broken earlier request decision
            (toLE 4 (encodeResponse rust decision).length ++
              (encodeResponse rust decision).take written) (.inr rfl) rfl areAnswers
            (split ▸ List.prefix_append _ _)
          · simp only [Function.update_self, isSent, List.append_assoc]
          · exact (List.prefix_append_right_inj _).mpr (List.take_prefix _ _)
  | broken earlier request decision part hasFailed isProgram => cases isProgram

end ConnectionAt

end Connections

/-! ## Runs of the server -/

section Runs

variable (rust : Library) (hmacSha256 : (key message : Bytes) → Bytes) (name : String)
  (hmacSecret : Option String) {κ : Type}

inductive HttpAt (request : CheckRequest) (answers : List (CheckRequest × Decision))
    (program : ServerProgram κ) : Prop
  | asking (isProgram : program = serveHttp hmacSha256 name hmacSecret request)
      (areAnswers : answers = [])
  | signing (secret : String) (decision : Decision)
      (isProgram : program = .request (.inr .nowMs) fun ts =>
        .pure (.http (checkHandler hmacSha256 name (some secret) request decision ts)))
      (isSecret : hmacSecret = some secret)
      (areAnswers : answers = [(request, decision)])
  | answered (decision : Decision) (ts : Int64)
      (isProgram : program =
        .pure (.http (checkHandler hmacSha256 name hmacSecret request decision ts)))
      (areAnswers : answers = [(request, decision)])

def ServerTask.At (self : κ) (failed : Prop) (answers : List (CheckRequest × Decision))
    (sent : Bytes) (program : ServerProgram κ) : ServerTask → Prop
  | .connection stream => ∃ frames : List (Frame rust),
      (frameCode rust).LongestPrefix stream.bytes frames ∧
        ConnectionAt rust self frames (ending rust stream) failed answers sent program
  | .http request => sent = [] ∧
      HttpAt hmacSha256 name hmacSecret request answers program

namespace ServerTask

variable {rust hmacSha256 name hmacSecret} {self : κ} {served : ServerTask} {failed : Prop}
  {answers : List (CheckRequest × Decision)} {sent : Bytes} {program : ServerProgram κ}

theorem At.start (self : κ) (served : ServerTask) :
    served.At rust hmacSha256 name hmacSecret self failed [] []
      (served.program rust hmacSha256 name hmacSecret self) := by
  cases served with
  | connection stream =>
      rcases (frameCode rust).exists_longestPrefix stream.bytes with ⟨frames, longest⟩
      exact ⟨frames, longest, .reading stream frames rfl rfl longest rfl rfl⟩
  | http request => exact ⟨rfl, .asking rfl rfl⟩

theorem At.mono {wider : Prop} (implied : failed → wider)
    (reached : served.At rust hmacSha256 name hmacSecret self failed answers sent program) :
    served.At rust hmacSha256 name hmacSecret self wider answers sent program := by
  cases served with
  | connection stream =>
      rcases reached with ⟨frames, longest, reached⟩
      exact ⟨frames, longest, reached.mono implied⟩
  | http request => exact reached

theorem At.check {request : CheckRequest} {next : Decision → ServerProgram κ}
    (reached : served.At rust hmacSha256 name hmacSecret self failed answers sent
      (.request (.inl request) next)) (decision : Decision) :
    served.At rust hmacSha256 name hmacSecret self failed (answers ++ [(request, decision)])
      sent (next decision) := by
  cases served with
  | connection stream =>
      rcases reached with ⟨frames, longest, reached⟩
      exact ⟨frames, longest, reached.check decision⟩
  | http asked =>
      rcases reached with ⟨isSent, reached⟩
      cases reached with
      | asking isProgram areAnswers =>
          cases isProgram
          subst areAnswers
          refine ⟨isSent, ?_⟩
          cases isSecret : hmacSecret with
          | none => exact .answered decision 0 rfl rfl
          | some secret => exact .signing secret decision rfl rfl rfl
      | signing secret decision isProgram => cases isProgram
      | answered decision ts isProgram => cases isProgram

theorem At.other [DecidableEq κ] {op : NetworkOp κ} {world : κ → Bytes}
    {next : (networkInterface κ).Reply op → ServerProgram κ}
    (reached : served.At rust hmacSha256 name hmacSecret self failed answers (world self)
      (.request (.inr op) next)) (circumstances : Circumstances) :
    served.At rust hmacSha256 name hmacSecret self
        (failed ∨ circumstances.failure.isSome) answers
        (((network κ).perform op circumstances world).2 self)
        (next ((network κ).perform op circumstances world).1) ∧
      ∀ different, different ≠ self →
        ((network κ).perform op circumstances world).2 different = world different := by
  cases served with
  | connection stream =>
      rcases reached with ⟨frames, longest, reached⟩
      rcases reached.other circumstances with ⟨reached, others⟩
      exact ⟨⟨frames, longest, reached⟩, others⟩
  | http asked =>
      rcases reached with ⟨isSent, reached⟩
      cases reached with
      | asking isProgram => cases isProgram
      | signing secret decision isProgram isSecret areAnswers =>
          cases isProgram
          subst isSecret
          exact ⟨⟨isSent, .answered decision circumstances.systemMs rfl areAnswers⟩,
            fun _ _ => rfl⟩
      | answered decision ts isProgram => cases isProgram

theorem At.shows (reached : served.At rust hmacSha256 name hmacSecret self failed answers sent
    program) {result : Option TaskResult}
    (isResult : ∀ returned, result = some returned ↔ program = .pure returned) :
    served.Shows rust hmacSha256 name hmacSecret failed answers sent result := by
  have running : ∀ {op next}, program = .request op next → result = none := by
    intro op next asks
    apply Option.eq_none_iff_forall_ne_some.mpr
    intro returned same
    rw [isResult, asks] at same
    cases same
  cases served with
  | http request =>
      rcases reached with ⟨isSent, reached⟩
      refine ⟨isSent, ?_⟩
      cases reached with
      | asking isProgram areAnswers => exact .inl ⟨areAnswers, running isProgram⟩
      | signing secret decision isProgram isSecret areAnswers =>
          refine .inr ⟨decision, areAnswers, fun returned same => ?_⟩
          rw [running isProgram] at same
          cases same
      | answered decision ts isProgram areAnswers =>
          refine .inr ⟨decision, areAnswers, fun returned same => ⟨ts, ?_⟩⟩
          rw [isResult, isProgram] at same
          exact (Program.pure.inj same).symm
  | connection stream =>
      rcases reached with ⟨frames, longest, reached⟩
      refine ⟨frames, longest, ?_⟩
      cases reached with
      | reading after remaining isProgram ends afterLongest split isSent =>
          refine ⟨split ▸ List.prefix_append _ _, ?_, isSent ▸ List.prefix_rfl, ?_⟩
          · rw [isSent]
            exact responses_mono rust (List.dropLast_prefix answers)
          · intro returned same
            rw [isResult, isProgram] at same
            rcases serveConnection_eq_pure same with ⟨isOutcome, stopped⟩
            rw [stopped remaining afterLongest, List.map_nil, List.append_nil] at split
            exact .inr ⟨split.symm, isSent, ends ▸ isOutcome⟩
      | header after remaining earlier request decision isProgram ends afterLongest
          areAnswers split isSent =>
          refine ⟨split ▸ List.prefix_append _ _, ?_, ?_, ?_⟩
          · rw [areAnswers, List.dropLast_concat, isSent]
          · rw [areAnswers, responses_snoc, isSent]
            exact List.prefix_append _ _
          · intro returned same
            rw [running isProgram] at same
            cases same
      | body after remaining earlier request decision isProgram ends afterLongest
          areAnswers split isSent =>
          refine ⟨split ▸ List.prefix_append _ _, ?_, ?_, ?_⟩
          · rw [areAnswers, List.dropLast_concat, isSent]
            exact List.prefix_append _ _
          · rw [areAnswers, responses_snoc, isSent, framed, ← List.append_assoc]
            exact List.prefix_append _ _
          · intro returned same
            rw [running isProgram] at same
            cases same
      | broken earlier request decision part hasFailed isProgram areAnswers begun isSent
          isPart =>
          refine ⟨begun, ?_, ?_, ?_⟩
          · rw [areAnswers, List.dropLast_concat, isSent]
            exact List.prefix_append _ _
          · rw [areAnswers, responses_snoc, isSent]
            exact (List.prefix_append_right_inj _).mpr isPart
          · intro returned same
            rw [isResult, isProgram] at same
            exact .inl ⟨hasFailed, (Program.pure.inj same).symm⟩

end ServerTask

end Runs

section Limiters

variable {rust : Library} {hmacSha256 : (key message : Bytes) → Bytes} {name : String}
  {hmacSecret : Option String} {limiter : Machine (callInterface CheckRequest Decision)}
  {κ : Type} [DecidableEq κ] {tasks : κ → ServerTask}

def Failing (self : κ) (event : Event (limiter.sum (network κ)) κ) : Prop :=
  event.thread = self ∧ event.choice.2.failure.isSome

def answersIn (self : κ) :
    List (Event (limiter.sum (network κ)) κ) → List (CheckRequest × Decision)
  | [] => []
  | event :: older =>
      match event.op with
      | .inl request =>
          if event.thread = self then
            answersIn self older ++
              [(request, (limiter.perform request event.choice.1 event.before.1).1)]
          else answersIn self older
      | .inr _ => answersIn self older

section Answers

variable (event : Event (limiter.sum (network κ)) κ)
  (older : List (Event (limiter.sum (network κ)) κ))

theorem answersIn_own {request : CheckRequest} (asks : event.op = .inl request) :
    answersIn event.thread (event :: older) = answersIn event.thread older ++
      [(request, (limiter.perform request event.choice.1 event.before.1).1)] := by
  simp [answersIn, asks]

theorem answersIn_other {self : κ} (different : self ≠ event.thread) :
    answersIn self (event :: older) = answersIn self older := by
  cases asks : event.op with
  | inl request => simp [answersIn, asks, different.symm]
  | inr op => simp [answersIn, asks]

end Answers

variable (rust hmacSha256 name hmacSecret tasks) in
/-- Whatever limiter the tasks share, each is where the answers to it take it. -/
def TasksReached (config : Config (limiter.sum (network κ)) κ TaskResult) : Prop :=
  ∀ self, (tasks self).At rust hmacSha256 name hmacSecret self
    (∃ event ∈ config.trace, Failing self event) (answersIn self config.trace)
    (config.world.2 self) (config.threads self)

theorem TasksReached.initial (object : limiter.World) :
    TasksReached rust hmacSha256 name hmacSecret tasks
      (Config.mk (m := limiter.sum (network κ)) (object, fun _ => [])
        (fun self => (tasks self).program rust hmacSha256 name hmacSecret self) []) :=
  fun self => ServerTask.At.start self (tasks self)

theorem Failing.older {self : κ} (event : Event (limiter.sum (network κ)) κ)
    {trace : List (Event (limiter.sum (network κ)) κ)}
    (failed : ∃ earlier ∈ trace, Failing self earlier) :
    ∃ earlier ∈ event :: trace, Failing self earlier := by
  rcases failed with ⟨earlier, member, failing⟩
  exact ⟨earlier, List.mem_cons_of_mem _ member, failing⟩

variable {config : Config (limiter.sum (network κ)) κ TaskResult} {self : κ}

theorem TasksReached.check
    (reached : TasksReached rust hmacSha256 name hmacSecret tasks config)
    {request : CheckRequest} {next : Decision → ServerProgram κ}
    (asks : config.threads self = .request (.inl request) next)
    (choice : limiter.Choice × Circumstances) :
    TasksReached rust hmacSha256 name hmacSecret tasks
      (config.advance (.step self choice)) := by
  have own := reached self
  rw [asks] at own
  rw [Config.advance_of_request asks]
  let event : Event (limiter.sum (network κ)) κ := ⟨self, .inl request, choice, config.world⟩
  intro other
  by_cases same : other = self
  · subst same
    have answered := (own.check
      (limiter.perform request choice.1 config.world.1).1).mono (Failing.older event)
    rw [← answersIn_own event config.trace rfl] at answered
    simpa only [Function.update_self] using answered
  · have elsewhere := (reached other).mono (Failing.older event)
    rw [← answersIn_other event config.trace same] at elsewhere
    simpa only [Function.update_of_ne same] using elsewhere

theorem TasksReached.other
    (reached : TasksReached rust hmacSha256 name hmacSecret tasks config)
    {op : NetworkOp κ} {next : (networkInterface κ).Reply op → ServerProgram κ}
    (asks : config.threads self = .request (.inr op) next)
    (choice : limiter.Choice × Circumstances) :
    TasksReached rust hmacSha256 name hmacSecret tasks
      (config.advance (.step self choice)) := by
  have own := reached self
  rw [asks] at own
  rw [Config.advance_of_request asks]
  rcases own.other choice.2 with ⟨own, others⟩
  intro other
  by_cases same : other = self
  · subst same
    simp only [Function.update_self]
    apply own.mono
    rintro (older | now)
    · exact Failing.older _ older
    · exact ⟨_, List.mem_cons_self, rfl, now⟩
  · have sent : ((network κ).perform op choice.2 config.world.2).2 other =
        config.world.2 other := others other same
    have elsewhere := reached other
    rw [← sent] at elsewhere
    simp only [Function.update_of_ne same]
    exact elsewhere.mono (Failing.older _)

theorem TasksReached.step
    (reached : TasksReached rust hmacSha256 name hmacSecret tasks config) (self : κ)
    (choice : limiter.Choice × Circumstances) :
    TasksReached rust hmacSha256 name hmacSecret tasks
      (config.advance (.step self choice)) := by
  cases asks : config.threads self with
  | pure value =>
      rw [Config.advance_of_pure asks]
      exact reached
  | request op next =>
      cases op with
      | inl request => exact reached.check asks choice
      | inr op => exact reached.other asks choice

/-- The schedule lets a write of the task fail. -/
def WriteFails {I : Interface} {m : Machine I} (self : κ)
    (actions : List (Action (m.sum (network κ)) κ)) : Prop :=
  ∃ choice, .step self choice ∈ actions ∧ choice.2.failure.isSome

theorem Failing.writeFails {I : Interface} {m : Machine I}
    {actions : List (Action (m.sum (network κ)) κ)}
    {atomicActions : List (Action (limiter.sum (network κ)) κ)}
    (moments : (atomicActions.filterMap Action.right).Sublist
      (actions.filterMap Action.right))
    (fresh : config.trace = [])
    (failed : ∃ event ∈ (config.run atomicActions).trace, Failing self event) :
    WriteFails self actions := by
  rcases failed with ⟨event, member, rfl, failing⟩
  have taken := (Config.mem_trace_run member).resolve_left (by simp [fresh])
  have seen : .step event.thread event.choice.2 ∈ actions.filterMap Action.right :=
    moments.mem (List.mem_filterMap.mpr ⟨_, taken, rfl⟩)
  rcases List.mem_filterMap.mp seen with ⟨action, isAction, same⟩
  rcases action with (change | change) | ⟨thread, choice⟩
  · cases same
  · cases same
  · rcases Action.step.inj (Option.some.inj same) with ⟨rfl, sameChoice⟩
    rw [← sameChoice] at failing
    exact ⟨choice, isAction, failing⟩

end Limiters

section System

variable {loop : CheckLoop} {json : SerdeJson loop.State} {readings : loop.Time → Prop}
  {κ : Type} [DecidableEq κ]

abbrev AtomicServer (json : SerdeJson loop.State) (readings : loop.Time → Prop)
    (κ : Type) [DecidableEq κ] :=
  Config ((atomicLimiter loop json readings).sum (network κ)) κ TaskResult

def servedIn (trace : List (Event ((atomicLimiter loop json readings).sum (network κ)) κ)) :
    List (Served κ loop) :=
  trace.filterMap fun event =>
    match event.op with
    | .inl request => some ⟨event.thread, request, event.choice.1.map Subtype.val⟩
    | .inr _ => none

omit [DecidableEq κ] in
theorem perform_eq_answer (self : κ) (request : CheckRequest)
    (choice : Option { now // readings now }) (table : Table) :
    (atomicLimiter loop json readings).perform request choice table =
      Served.answer json ⟨self, request, choice.map Subtype.val⟩ table := by
  cases choice <;> rfl

structure InOrder (config : AtomicServer json readings κ) : Prop where
  table : config.world.1 = Served.table json (servedIn config.trace)
  shown : ∀ served ∈ servedIn config.trace, ∀ now, served.reading = some now → readings now
  answers : ∀ self, answersIn self config.trace =
    Served.answersTo json self (servedIn config.trace)

theorem InOrder.check {config : AtomicServer json readings κ} (inOrder : InOrder config)
    {self : κ} {request : CheckRequest} {next : Decision → ServerProgram κ}
    (asks : config.threads self = .request (.inl request) next)
    (choice : Option { now // readings now } × Circumstances) :
    InOrder (config.advance (.step self choice)) := by
  rw [Config.advance_of_request asks]
  let event : Event ((atomicLimiter loop json readings).sum (network κ)) κ :=
    ⟨self, .inl request, choice, config.world⟩
  let last : Served κ loop := ⟨self, request, choice.1.map Subtype.val⟩
  have performed : (atomicLimiter loop json readings).perform request choice.1
      config.world.1 = last.answer json (Served.table json (servedIn config.trace)) :=
    (perform_eq_answer self request choice.1 config.world.1).trans
      (congrArg (last.answer json) inOrder.table)
  have recorded : servedIn (event :: config.trace) = last :: servedIn config.trace := rfl
  refine ⟨?_, ?_, ?_⟩
  · rw [recorded]
    exact congrArg Prod.snd performed
  · intro served member now isReading
    rcases List.mem_cons.mp member with rfl | older
    · rcases Option.map_eq_some_iff.mp isReading with ⟨shown, _, rfl⟩
      exact shown.property
    · exact inOrder.shown served older now isReading
  · intro other
    rw [recorded]
    by_cases own : other = self
    · subst own
      rw [Served.answersTo_own json last, ← inOrder.answers, ← performed]
      exact answersIn_own event config.trace rfl
    · rw [Served.answersTo_other json last _ own, ← inOrder.answers]
      exact answersIn_other event config.trace own

theorem InOrder.advance (config : AtomicServer json readings κ)
    (action : Action ((atomicLimiter loop json readings).sum (network κ)) κ)
    (inOrder : InOrder config) : InOrder (config.advance action) := by
  cases action with
  | evolve change => rcases change with change | change <;> exact nomatch change
  | step self choice =>
      cases asks : config.threads self with
      | pure value =>
          rw [Config.advance_of_pure asks]
          exact inOrder
      | request op next =>
          cases op with
          | inl request => exact inOrder.check asks choice
          | inr op =>
              rw [Config.advance_of_request asks]
              exact ⟨inOrder.table, inOrder.shown, inOrder.answers⟩

end System

def serverSystem (loop : CheckLoop) (json : SerdeJson loop.State) (rust : Library)
    (hmacSha256 : (key message : Bytes) → Bytes) (hmacSecret : Option String) {κ : Type}
    [DecidableEq κ] (tasks : κ → ServerTask) (start : loop.Time) :
    Config ((localMachine loop).sum (network κ)) κ TaskResult :=
  taskSystem loop json
    (fun self => (tasks self).program rust hmacSha256 loop.name hmacSecret self) start
    fun _ => []

/-- Every run of the server has an order of its checks that the atomic limiter answers,
and the tasks show the answers. -/
theorem CheckLoop.serves_in_order (loop : CheckLoop) (json : SerdeJson loop.State)
    (rust : Library) (hmacSha256 : (key message : Bytes) → Bytes)
    (hmacSecret : Option String) {κ : Type} [DecidableEq κ] (tasks : κ → ServerTask)
    (start : loop.Time) (actions : List (Action ((localMachine loop).sum (network κ)) κ))
    (bounded : actions.length < 2 ^ 63) :
    let state := (serverSystem loop json rust hmacSha256 hmacSecret tasks start).run actions
    ∃ served : List (Served κ loop),
      (∀ check ∈ served, ∀ now, check.reading = some now → shownBy start actions now) ∧
        state.world.1.store.contents = Served.table json served ∧
        ∀ self, (tasks self).Shows rust hmacSha256 loop.name hmacSecret
          (WriteFails self actions) (Served.answersTo json self served)
          (state.world.2 self) (state.result self) := by
  intro state
  have shown : shownBy start actions start := .inl rfl
  rcases (localLinearization loop json κ (shownBy start actions) shown).refines none
    (fun self => (tasks self).program rust hmacSha256 loop.name hmacSecret self)
    (n := network κ) (fun _ => []) actions (fun now member => .inr member) bounded.le with
    ⟨atomicActions, results, table, sent, -, moments⟩
  let atomic := (atomicTaskSystem loop json
    (fun self => (tasks self).program rust hmacSha256 loop.name hmacSecret self)
    (shownBy start actions) (n := network κ) fun _ => []).run atomicActions
  have inOrder : InOrder atomic :=
    Config.invariant_run _ InOrder.advance _ ⟨rfl, nofun, fun _ => rfl⟩
      atomicActions
  have reached : TasksReached rust hmacSha256 loop.name hmacSecret tasks atomic :=
    Config.invariant_run _ (fun _ action reached => by
      rcases action with (change | change) | ⟨self, choice⟩
      · exact nomatch change
      · exact nomatch change
      · exact reached.step self choice) _ (TasksReached.initial _) atomicActions
  refine ⟨servedIn atomic.trace, inOrder.shown, ?_, fun self => ?_⟩
  · rw [← inOrder.table]
    exact table.symm
  · have isResult : state.result self = atomic.result self := results self
    have isSent : state.world.2 = atomic.world.2 := sent
    rw [isResult, isSent, ← inOrder.answers]
    exact ((reached self).mono (Failing.writeFails moments rfl)).shows fun returned =>
      Config.result_eq_some

/-- In every run of the server the checks of its connections and of its HTTP requests
have one order, in which each is a step of the table at a reading of the clock, or is
denied without one. The peer of a task sees what the checks of the task get in it. -/
theorem RateLimiterConfig.server_serves_in_order (config : RateLimiterConfig)
    (json : SerdeJson config.limiter.State) (rust : Library)
    (hmacSha256 : (key message : Bytes) → Bytes) (hmacSecret : Option String) {κ : Type}
    [DecidableEq κ] (tasks : κ → ServerTask) (start : config.limiter.Time)
    (actions : List (Action ((localMachine config.limiter).sum (network κ)) κ))
    (bounded : actions.length < 2 ^ 63) :
    let state := (serverSystem config.limiter json rust hmacSha256 hmacSecret tasks
      start).run actions
    ∃ served : List (Served κ config.limiter),
      (∀ check ∈ served, ∀ now, check.reading = some now → shownBy start actions now) ∧
        state.world.1.store.contents = Served.table json served ∧
        ∀ self, (tasks self).Shows rust hmacSha256 config.limiter.name hmacSecret
          (WriteFails self actions) (Served.answersTo json self served)
          (state.world.2 self) (state.result self) :=
  config.limiter.serves_in_order json rust hmacSha256 hmacSecret tasks start actions
    bounded

/-- A connection and a request check the same key at once. The connection wins, and
breaks while it is answered. The request starts over and is denied. -/
theorem RateLimiterConfig.server_serves_in_order_collision :
    let config : RateLimiterConfig := ⟨.fixedWindow, 1, 60, 0, 1, 1, 0⟩
    let message := framed (RateLimitClient.buildRequest Library.sample ⟨"alice", "/", 1⟩)
    let tasks : Fin 2 → ServerTask
      | 0 => .connection (Inbound.ofPieces [message] .closed)
      | 1 => .http ⟨"alice", "/", 1⟩
    let fine : Circumstances := ⟨none, 7⟩
    let actions : List (Action ((localMachine config.limiter).sum (network (Fin 2)))
        (Fin 2)) :=
      ([1, 1, 0, 0, 0, 1, 1, 1, 1, 1, 0].map fun self => .step self ((), fine)) ++
        [.step 0 ((), ⟨some 5, 7⟩)]
    let system := serverSystem config.limiter Json.fixedWindow Library.sample
      (fun key message => key ++ message) (some "key") tasks (0 : UInt64)
    let state := system.run actions
    ((state.world.2 0).length = 9 ∧
        state.result 0 = some (.connection (.err .transport)) ∧
        (state.result 1).map (fun
          | .http response => response.status
          | .connection _ => 0) = some 429) ∧
      ∃ served : List (Served (Fin 2) config.limiter),
        (∀ check ∈ served, ∀ now, check.reading = some now →
            shownBy (0 : UInt64) actions now) ∧
          state.world.1.store.contents = Served.table Json.fixedWindow served ∧
          ∀ self, (tasks self).Shows Library.sample (fun key message => key ++ message)
            config.limiter.name (some "key") (WriteFails self actions)
            (Served.answersTo Json.fixedWindow self served) (state.world.2 self)
            (state.result self) := by
  intro config message tasks fine actions system state
  have short : actions.length < 2 ^ 63 := by decide +kernel
  exact ⟨by decide +kernel, config.server_serves_in_order Json.fixedWindow Library.sample
    (fun key message => key ++ message) (some "key") tasks (0 : UInt64) actions short⟩

end RateLimiting
