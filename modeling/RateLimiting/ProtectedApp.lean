import RateLimiting.Clients
import RateLimiting.Http.Middleware
import RateLimiting.Quota.Setbacks

/-! # Apps behind the middleware

An app puts the middleware in front of its handler and gives it a connection to the
server. Whatever the other tasks of the server do, the handler runs only for requests
that the server admitted. -/

namespace RateLimiting

open ByteStream FlatBuffers TcpServer RateLimitClient

/-! ## The app -/

namespace RateLimitMiddleware

/-- `dispatch`, over the effects of its two calls. -/
def dispatchWith {m : Type → Type} [Monad m] {Request Body : Type}
    (clientIdFn resourceFn : Request → String) (cost : Int)
    (limiter : (clientId resource : String) → (cost : Int) → m RateLimitResponse)
    (callNext : Request → m (Response Body)) (request : Request) : m (Response Body) := do
  let clientId := clientIdFn request
  let resource := resourceFn request
  let decision ← limiter clientId resource cost
  if !decision.allowed then
    return {
      statusCode := 429
      headers := [
        ("retry-after", toString decision.retryAfterSecs),
        ("ratelimit-remaining", toString decision.remaining)]
      content := .inl ⟨decision.reason, decision.retryAfterMs⟩ }
  let response ← callNext request
  return response.setHeader "ratelimit-remaining" (toString decision.remaining)

theorem dispatch_eq {Request Failure Body : Type}
    (self : RateLimitMiddleware Request Failure) (request : Request)
    (callNext : Request → Except Failure (Response Body)) :
    self.dispatch request callNext =
      dispatchWith self.clientIdFn self.resourceFn self.cost self.limiter callNext
        request := rfl

end RateLimitMiddleware

/-- Why a request gets no reply. The builder of the client refuses a cost that is no
unsigned number of 32 bits. -/
inductive DispatchError (Failure : Type) where
  | typeError
  | check (error : CheckError)
  | handler (failure : Failure)
deriving DecidableEq

structure AppState (Request : Type) where
  socket : Socket
  handled : List Request

structure ProtectedApp (Request Failure Body : Type) where
  clientIdFn : Request → String
  resourceFn : Request → String
  cost : Int
  handler : Request → Except Failure (RateLimitMiddleware.Response Body)

/-- A failed step keeps what it did to the socket. -/
abbrev AppM (Request Failure : Type) :=
  ExceptT (DispatchError Failure) (StateM (AppState Request))

namespace ProtectedApp

variable {Request Failure Body : Type} (python : Library)
  (app : ProtectedApp Request Failure Body)

def limiter (clientId resource : String) (cost : Int) :
    AppM Request Failure RateLimitResponse := fun state =>
  if 0 ≤ cost ∧ cost < 2 ^ 32 then
    let (result, socket) :=
      check python state.socket ⟨clientId, resource, UInt32.ofNat cost.toNat⟩
    (result.mapError .check, { state with socket })
  else (.error .typeError, state)

def callNext (request : Request) :
    AppM Request Failure (RateLimitMiddleware.Response Body) := fun state =>
  ((app.handler request).mapError .handler,
    { state with handled := state.handled ++ [request] })

def dispatch (request : Request) : AppM Request Failure (RateLimitMiddleware.Response Body) :=
  RateLimitMiddleware.dispatchWith app.clientIdFn app.resourceFn app.cost (limiter python)
    app.callNext request

def serveAll : List Request → AppState Request →
    List (Except (DispatchError Failure) (RateLimitMiddleware.Response Body)) ×
      AppState Request
  | [], state => ([], state)
  | request :: requests, state =>
      let (reply, state) := app.dispatch python request state
      let (replies, state) := serveAll requests state
      (reply :: replies, state)

def checkOf (request : Request) : CheckRequest :=
  ⟨app.clientIdFn request, app.resourceFn request, UInt32.ofNat app.cost.toNat⟩

def admitted : CheckResult → Bool
  | .ok response => response.allowed
  | .error _ => false

theorem dispatch_state (inRange : 0 ≤ app.cost ∧ app.cost < 2 ^ 32) (request : Request)
    (state : AppState Request) :
    (app.dispatch python request state).2 =
      ⟨(check python state.socket (app.checkOf request)).2, state.handled ++
        if admitted (check python state.socket (app.checkOf request)).1 then [request]
        else []⟩ := by
  have called : (limiter python (app.clientIdFn request) (app.resourceFn request) app.cost
      state : Except (DispatchError Failure) RateLimitResponse × AppState Request) =
      ((check python state.socket (app.checkOf request)).1.mapError .check,
        { state with socket := (check python state.socket (app.checkOf request)).2 }) :=
    if_pos inRange
  unfold dispatch RateLimitMiddleware.dispatchWith
  simp only [bind, ExceptT.bind, ExceptT.mk, StateT.bind, called]
  cases (check python state.socket (app.checkOf request)).1 with
  | error error => exact congrArg (AppState.mk _) (List.append_nil _).symm
  | ok response =>
      rcases response with ⟨allowed, remaining, retryAfterMs, reason, _, _⟩
      cases allowed with
      | false => exact congrArg (AppState.mk _) (List.append_nil _).symm
      | true =>
          simp only [Except.mapError, ExceptT.bindCont, admitted, Bool.not_true,
            Bool.false_eq_true, if_false, if_true, StateT.bind, callNext]
          cases app.handler request <;> rfl

theorem dispatch_of_typeError (outOfRange : ¬ (0 ≤ app.cost ∧ app.cost < 2 ^ 32))
    (request : Request) (state : AppState Request) :
    app.dispatch python request state = (.error .typeError, state) := by
  have refused : (limiter python (app.clientIdFn request) (app.resourceFn request) app.cost
      state : Except (DispatchError Failure) RateLimitResponse × AppState Request) =
      (.error .typeError, state) := if_neg outOfRange
  unfold dispatch RateLimitMiddleware.dispatchWith
  simp only [bind, ExceptT.bind, ExceptT.mk, StateT.bind, refused]
  rfl

theorem serveAll_state (inRange : 0 ≤ app.cost ∧ app.cost < 2 ^ 32)
    (requests : List Request) (state : AppState Request) :
    let calls := checkAll python state.socket (requests.map app.checkOf)
    (app.serveAll python requests state).2 = ⟨calls.2, state.handled ++
      ((requests.zip calls.1).filter fun call => admitted call.2).map Prod.fst⟩ := by
  induction requests generalizing state with
  | nil => simp [serveAll, checkAll]
  | cons request requests induction =>
      intro calls
      change (app.serveAll python requests (app.dispatch python request state).2).2 = _
      rw [induction, dispatch_state python app inRange]
      simp only [calls, List.map_cons, checkAll, List.zip_cons_cons, List.filter_cons]
      cases admitted (check python state.socket (app.checkOf request)).1 <;> simp

theorem serveAll_of_typeError (outOfRange : ¬ (0 ≤ app.cost ∧ app.cost < 2 ^ 32))
    (requests : List Request) (state : AppState Request) :
    (app.serveAll python requests state).2 = state := by
  induction requests generalizing state with
  | nil => rfl
  | cons request requests induction =>
      simp only [serveAll, dispatch_of_typeError python app outOfRange, induction]

end ProtectedApp

/-! ## What the order of the checks admits -/

namespace Served

variable {κ : Type} {loop : CheckLoop} (json : SerdeJson loop.State)

def admissions [DecidableEq κ] (task : κ) : List (Served κ loop) → List (Served κ loop)
  | [] => []
  | last :: earlier =>
      if last.task = task ∧ (last.answer json (table json earlier)).1.allowed then
        admissions task earlier ++ [last]
      else admissions task earlier

theorem admissions_requests [DecidableEq κ] (task : κ) (served : List (Served κ loop)) :
    ((answersTo json task served).filter fun answer => answer.2.allowed).map Prod.fst =
      (admissions json task served).map Served.request := by
  induction served with
  | nil => rfl
  | cons last earlier induction =>
      unfold answersTo admissions
      by_cases own : last.task = task
      · cases allowed : (last.answer json (table json earlier)).1.allowed <;>
          simp [own, allowed, induction]
      · simp [own, induction]

def admittedCost (key : String) (within : loop.Time → Bool) : List (Served κ loop) → Nat
  | [] => 0
  | last :: earlier =>
      admittedCost key within earlier +
        if last.request.key loop = key ∧ last.reading.any within ∧
          (last.answer json (table json earlier)).1.allowed then last.request.cost.toNat
        else 0

def history (key : String) : List (Served κ loop) → History loop κ
  | [] => []
  | last :: earlier =>
      match last.reading with
      | some now =>
          if last.request.key loop = key then
            history key earlier ++ [{
              call := last.task
              key := key
              now := now
              cost := last.request.cost
              before := (table json earlier key).bind json.fromSlice
              after := (loop.step now (Table.state json (table json earlier)
                ⟨now, last.request⟩) last.request.cost).1 }]
          else history key earlier
      | none => history key earlier

theorem history_snoc (task : κ) (now : loop.Time) (request : CheckRequest)
    (earlier : List (Served κ loop)) :
    ∃ commit : Commit loop κ, commit.now = now ∧ commit.cost = request.cost ∧
      commit.before =
        (table json earlier (request.key loop)).bind json.fromSlice ∧
      commit.after = commit.outcome.1 ∧
      commit.decision =
        (answer json ⟨task, request, some now⟩ (table json earlier)).1 ∧
      (table json (⟨task, request, some now⟩ :: earlier) (request.key loop)).bind
        json.fromSlice = some commit.after ∧
      history json (request.key loop) (⟨task, request, some now⟩ :: earlier) =
        history json (request.key loop) earlier ++ [commit] := by
  refine ⟨_, rfl, rfl, rfl, rfl, rfl, ?_, if_pos rfl⟩
  have written : table json (⟨task, request, some now⟩ :: earlier) (request.key loop) =
      some (json.toVec (loop.step now (Table.state json (table json earlier)
        ⟨now, request⟩) request.cost).1) := Function.update_self ..
  rw [written, Option.bind_some, json.fromSlice_toVec]

theorem history_other {key : String} (task : κ) (now : loop.Time) {request : CheckRequest}
    (earlier : List (Served κ loop)) (different : request.key loop ≠ key) :
    history json key (⟨task, request, some now⟩ :: earlier) = history json key earlier ∧
      table json (⟨task, request, some now⟩ :: earlier) key = table json earlier key :=
  ⟨if_neg different, Function.update_of_ne different.symm _ _⟩

theorem history_serial (key : String) (served : List (Served κ loop)) :
    (history json key served).Serial ∧
      (table json served key).bind json.fromSlice = (history json key served).final := by
  induction served with
  | nil => exact ⟨.nil, rfl⟩
  | cons last earlier induction =>
      rcases induction with ⟨serial, stored⟩
      rcases last with ⟨task, request, reading⟩
      cases reading with
      | none => exact ⟨serial, stored⟩
      | some now =>
          by_cases same : request.key loop = key
          · subst same
            rcases history_snoc json task now request earlier with
              ⟨commit, -, -, read, wrote, -, written, isHistory⟩
            rw [isHistory, written, History.final_snoc]
            exact ⟨.snoc serial (read.trans stored) wrote, rfl⟩
          · rcases history_other json task now earlier same with ⟨isHistory, isTable⟩
            rw [isHistory, isTable]
            exact ⟨serial, stored⟩

theorem admittedCost_eq (key : String) (within : loop.Time → Bool)
    (served : List (Served κ loop)) :
    admittedCost json key within served = (history json key served).charged within := by
  induction served with
  | nil => rfl
  | cons last earlier induction =>
      rcases last with ⟨task, request, reading⟩
      rw [admittedCost, induction]
      cases reading with
      | none => simp [history]
      | some now =>
          by_cases same : request.key loop = key
          · subst same
            rcases history_snoc json task now request earlier with
              ⟨commit, isNow, isCost, -, -, isDecision, -, isHistory⟩
            rw [isHistory, History.charged_snoc, Commit.charge, Commit.allowed, isNow, isCost,
              isDecision]
            cases inside : within now <;> simp [inside]
          · rw [(history_other json task now earlier same).1]
            simp [same]

end Served

/-! ## Handlers -/

theorem allowed_of_answers {result : CheckResult} {decision : Decision}
    (answers : Answers result decision) (admitted : ProtectedApp.admitted result) :
    decision.allowed = true := by
  by_cases nonneg : decision.Nonnegative
  · rcases answers.1 nonneg with ⟨response, rfl, sameAllowed, _⟩
    exact sameAllowed ▸ admitted
  · rw [answers.2 nonneg] at admitted
    cases admitted

theorem admitted_sublist {Request : Type} {checkOf : Request → CheckRequest}
    {requests : List Request} {results : List CheckResult}
    {answers : List (CheckRequest × Decision)} {ending : Ending}
    (asked : answers.map Prod.fst <+: requests.map checkOf)
    (sees : ClientSees results answers ending) :
    (((requests.zip results).filter fun call => ProtectedApp.admitted call.2).map
        fun call => checkOf call.1).Sublist
      ((answers.filter fun answer => answer.2.allowed).map Prod.fst) := by
  rcases sees with ⟨arrived, within, answered, others⟩
  induction arrived generalizing requests results answers with
  | zero =>
      have refused : ((requests.zip results).filter fun call =>
          ProtectedApp.admitted call.2) = [] := by
        apply List.filter_eq_nil_iff.mpr
        intro call member
        have isError := others call.2 (List.of_mem_zip member).2
        rw [isError]
        exact Bool.false_ne_true
      rw [refused]
      exact List.nil_sublist _
  | succ arrived induction =>
      cases answers with
      | nil => cases within
      | cons answer answers =>
          cases requests with
          | nil => exact List.nil_sublist _
          | cons request requests =>
              rw [List.map_cons, List.map_cons, List.cons_prefix_cons] at asked
              rcases asked with ⟨own, asked⟩
              cases results with
              | nil => exact List.nil_sublist _
              | cons result results =>
                  rcases List.forall₂_cons.mp answered with ⟨first, answered⟩
                  have rest := induction asked (Nat.le_of_succ_le_succ within) answered
                    others
                  have admits := allowed_of_answers first
                  simp only [List.zip_cons_cons, List.filter_cons]
                  cases admitted : ProtectedApp.admitted result with
                  | false =>
                      simp only [Bool.false_eq_true, if_false]
                      split
                      · exact rest.cons _
                      · exact rest
                  | true =>
                      simp only [if_true, admits admitted, List.map_cons, ← own]
                      exact rest.cons_cons _

/-- In every run of a server there is one order of its checks in which a window admits
at most one quota more than there are checks on the key that put the stored window back.
The handler of an app runs only for requests that are admitted in this order, whatever
the bytes are that are still on their way. -/
def WindowCounter.ProtectsApps {loop : CheckLoop} (counter : WindowCounter loop) : Prop :=
  ∀ (json : SerdeJson loop.State) (libraries : Libraries)
    (hmacSha256 : (key message : Bytes) → Bytes) (hmacSecret : Option String) {κ : Type}
    [DecidableEq κ] (tasks : κ → ServerTask) (start : loop.Time)
    (actions : List (Action ((localMachine loop).sum (network κ)) κ)),
  actions.length < 2 ^ 63 →
  let state := (serverSystem loop json libraries.rust hmacSha256 hmacSecret tasks
    start).run actions
  ∃ served : List (Served κ loop),
    (∀ check ∈ served, ∀ now, check.reading = some now → shownBy start actions now) ∧
      (∀ key window, Served.admittedCost json key (counter.within window) served ≤
        counter.quota * (counter.setbacks (Served.history json key served) + 1)) ∧
      (∀ self, (tasks self).Shows libraries.rust hmacSha256 loop.name hmacSecret
        (WriteFails self actions) (Served.answersTo json self served) (state.world.2 self)
        (state.result self)) ∧
      ∀ (self : κ) {Request Failure Body : Type} (app : ProtectedApp Request Failure Body)
        (requests : List Request) (toServer toClient : Inbound),
        let after := (app.serveAll libraries.python requests ⟨⟨[], toClient⟩, []⟩).2
        tasks self = .connection toServer →
        (∀ request ∈ requests,
          libraries.python.Makes (requestSlots (app.checkOf request))) →
        (∀ answer ∈ Served.answersTo json self served,
          libraries.rust.Makes (responseSlots answer.2)) →
        toServer.bytes <+: after.socket.sent → toClient.bytes <+: state.world.2 self →
        (after.handled.map app.checkOf).Sublist
          ((Served.admissions json self served).map Served.request)

theorem WindowCounter.protectsApps {loop : CheckLoop} {counter : WindowCounter loop}
    (renews : counter.Renews) : counter.ProtectsApps := by
  intro json libraries hmacSha256 hmacSecret κ _ tasks start actions bounded state
  rcases loop.serves_in_order json libraries.rust hmacSha256 hmacSecret tasks start actions
    bounded with ⟨served, shown, table, shows⟩
  refine ⟨served, shown, ?_, shows, ?_⟩
  · intro key window
    rw [Served.admittedCost_eq]
    exact charged_le_of_setbacks renews (Served.history_serial json key served).1 window
  · intro self Request Failure Body app requests toServer toClient after isConnection asks
      makes sent received
    by_cases inRange : 0 ≤ app.cost ∧ app.cost < 2 ^ 32
    · have isAfter := app.serveAll_state libraries.python inRange requests
        ⟨⟨[], toClient⟩, []⟩
      have asks : ∀ check ∈ requests.map app.checkOf,
          libraries.python.Makes (requestSlots check) := by
        intro check member
        rcases List.mem_map.mp member with ⟨request, isMember, rfl⟩
        exact asks request isMember
      have task := shows self
      rw [isConnection] at task
      rcases task with ⟨frames, longest, asked, _, wrote, _⟩
      simp only [after, isAfter, sent_of_makes _ asks] at sent
      have asked := asked.trans (requests_initial asks (longest.1.trans sent))
      have sees := clientSees_of_sent asks makes asked (received.trans wrote)
      simp only [after, isAfter, List.nil_append, List.map_map]
      rw [← Served.admissions_requests]
      exact admitted_sublist asked sees
    · have isAfter := app.serveAll_of_typeError libraries.python inRange requests
        ⟨⟨[], toClient⟩, []⟩
      simp only [after, isAfter]
      exact List.nil_sublist _

/-- The limiters that count per window protect the apps behind the middleware. -/
theorem window_counters_protect_apps (fixed : FixedWindowLimiter)
    (room : fixed.maxRequests.toNat + 2 ^ 32 ≤ 2 ^ 64)
    (sliding : SlidingWindowCounterLimiter) :
    fixed.windows.ProtectsApps ∧ sliding.windows.ProtectsApps :=
  ⟨WindowCounter.protectsApps (FixedWindowLimiter.windows_renew room),
    WindowCounter.protectsApps sliding.windows_renew⟩

/-- Two apps get a request of the same client at once. The handler of one of them runs,
and the other replies with the denial. -/
theorem window_counters_protect_two_apps :
    let fixed : FixedWindowLimiter := ⟨1, 60⟩
    let app : ProtectedApp String Empty Unit :=
      ⟨fun _ => "alice", fun _ => "/", 1, fun _ => .ok ⟨200, [], .inr ()⟩⟩
    let message := framed (buildRequest Libraries.sample.python ⟨"alice", "/", 1⟩)
    let toServer := Inbound.ofPieces [message] .closed
    let tasks : Fin 2 → ServerTask := fun _ => .connection toServer
    let actions : List (Action ((localMachine fixed.loop).sum (network (Fin 2)))
        (Fin 2)) :=
      [0, 0, 1, 1, 0, 1, 1, 1, 1, 1, 1, 0, 0].map fun self => .step self ((), ⟨none, 0⟩)
    let system := serverSystem fixed.loop Json.fixedWindow Libraries.sample.rust
      (fun key message => key ++ message) none tasks (0 : UInt64)
    let state := system.run actions
    let toClient : Fin 2 → Bytes
      | 0 => framed (encodeResponse Libraries.sample.rust ⟨true, 1, 0, 0, "ok — 1/1 used"⟩)
      | 1 => framed (encodeResponse Libraries.sample.rust
          ⟨false, 1, 0, 60000, "fixed-window limit 1/1 exceeded, resets in 60000ms"⟩)
    let requests : Fin 2 → List String
      | 0 => ["GET /items"]
      | 1 => ["GET /orders"]
    let apps := fun self => app.serveAll Libraries.sample.python (requests self)
      ⟨⟨[], Inbound.ofPieces [toClient self] .silent⟩, []⟩
    ((∀ self, state.world.2 self = toClient self) ∧ (apps 0).2.handled = ["GET /items"] ∧
        (apps 1).2.handled = [] ∧ ((apps 1).1.map fun reply =>
          reply.toOption.map fun response => response.statusCode) = [some 429]) ∧
      ∃ served : List (Served (Fin 2) fixed.loop),
        (∀ key window, Served.admittedCost Json.fixedWindow key
              (fixed.windows.within window) served ≤
            fixed.windows.quota * (fixed.windows.setbacks
              (Served.history Json.fixedWindow key served) + 1)) ∧
          ∀ self, ((apps self).2.handled.map app.checkOf).Sublist
            ((Served.admissions Json.fixedWindow self served).map Served.request) := by
  intro fixed app message toServer tasks actions system state toClient requests apps
  have short : actions.length < 2 ^ 63 := by decide +kernel
  rcases (window_counters_protect_apps fixed (by decide) ⟨1, 1⟩).1 Json.fixedWindow
    Libraries.sample (fun key message => key ++ message) none tasks (0 : UInt64) actions
    short with ⟨served, -, quota, shows, handles⟩
  have returned : ∀ self, state.result self = some (.connection .ok) := by decide +kernel
  have complete : ∀ self, state.world.2 self =
      responses Libraries.sample.rust (Served.answersTo Json.fixedWindow self served) :=
    fun self => ServerTask.Shows.sent_eq (shows self) (returned self)
  have written : ∀ self, state.world.2 self = toClient self := by decide +kernel
  have few : ∀ self, (state.world.2 self).length ≤ maxBufferSize := by decide +kernel
  have asks : ∀ self, ∀ request ∈ requests self,
      (buildRequest Libraries.sample.python (app.checkOf request)).length ≤
        maxBufferSize := by
    decide +kernel
  have sent : ∀ self, toServer.bytes <+: (apps self).2.socket.sent := by
    intro self
    have arriving : toServer.bytes = message := by simp [toServer]
    have isSent : ∀ self, (apps self).2.socket.sent = message := by decide +kernel
    rw [arriving, isSent]
  refine ⟨⟨written, by decide +kernel⟩, served, quota, fun self => ?_⟩
  apply handles self app (requests self) toServer _ rfl (asks self)
    (makes_of_sent (complete self) (few self)) (sent self)
  rw [Inbound.bytes_ofPieces, List.flatten_singleton, ← written]

end RateLimiting
