import RateLimiting.Algorithms.FixedWindow
import RateLimiting.Store.Json
import RateLimiting.Sequential
import RateLimiting.Tcp.Client

/-! # A client and a server

The bytes that a client sends reach the server in any pieces, and the bytes that
the server writes reach the client in any others. Every call gets the decision on
its own request. -/

namespace RateLimiting

open ByteStream FlatBuffers TcpServer RateLimitClient

/-! ## The limiter of a server -/

namespace CheckLoop

variable {loop : CheckLoop} (json : SerdeJson loop.State) {I : Interface}
  (backend : LawfulStore I)

def limiter (readings : Nat → loop.Time) : Limiter (backend.machine.World × Nat) :=
  fun (world, served) request =>
    let (decision, after) := serve json backend world ⟨readings served, request⟩
    (decision, after, served + 1)

end CheckLoop

/-! ## What goes over the wire -/

namespace TcpServer

theorem length_run {σ : Type} (check : Limiter σ) (state : σ)
    (requests : List CheckRequest) :
    (check.run state requests).1.length = requests.length := by
  induction requests generalizing state with
  | nil => rfl
  | cons request requests induction => exact congrArg (· + 1) (induction _)

def written (events : List Event) : Bytes :=
  events.flatMap fun
    | .check _ => []
    | .write bytes => bytes

theorem written_exchange (rust : Library) (request : CheckRequest)
    (decision : Decision) :
    written (exchange rust request decision) =
      framed (encodeResponse rust decision) := by
  simp [written, exchange, framed]

theorem exists_frames (libraries : Libraries) {requests : List CheckRequest}
    (fits : ∀ request ∈ requests,
      (buildRequest libraries.python request).length ≤ maxMsgBytes) :
    ∃ frames : List (Frame libraries.rust), frames.map Frame.request = requests ∧
      (frameCode libraries.rust).wires frames =
        requests.flatMap fun request =>
          framed (buildRequest libraries.python request) := by
  induction requests with
  | nil => exact ⟨[], rfl, rfl⟩
  | cons request requests induction =>
      rcases induction (fun other member => fits other (List.mem_cons_of_mem _ member))
        with ⟨frames, areRequests, wires⟩
      have bounded := fits request List.mem_cons_self
      have makes : libraries.python.Makes (requestSlots request) := by
        apply bounded.trans
        decide
      have nonempty := libraries.python.rootOffset (requestSlots request)
      rcases rootAsRateLimitRequest_buildRequest libraries request makes with
        ⟨view, accepted, arguments⟩
      let frame : Frame libraries.rust :=
        ⟨buildRequest libraries.python request, by rw [buildRequest]; omega, bounded,
          view, accepted⟩
      refine ⟨frame :: frames, ?_, ?_⟩
      · rw [List.map_cons, areRequests]
        exact congrArg (· :: requests) arguments
      · rw [FrameCode.wires_cons, wires]
        rfl

theorem written_exchanges (rust : Library) {requests : List CheckRequest}
    {decisions : List Decision} (answered : requests.length = decisions.length) :
    written (List.zipWith (exchange rust) requests decisions).flatten =
      (decisions.map (encodeResponse rust)).flatMap framed := by
  induction requests generalizing decisions with
  | nil =>
      rw [List.eq_nil_of_length_eq_zero answered.symm]
      rfl
  | cons request requests induction =>
      cases decisions with
      | nil => exact absurd answered (by simp)
      | cons decision decisions =>
          have others := induction (Nat.succ.inj answered)
          rw [List.zipWith_cons_cons, List.flatten_cons, List.map_cons, List.flatMap_cons,
            ← others, ← written_exchange rust request]
          exact List.flatMap_append

end TcpServer

/-! ## The session -/

def Decision.Nonnegative (decision : Decision) : Prop :=
  0 ≤ decision.remaining.toInt ∧ 0 ≤ decision.retryAfterMs.toInt

instance (decision : Decision) : Decidable decision.Nonnegative :=
  inferInstanceAs (Decidable (_ ∧ _))

/-- The response has the fields of the decision. -/
def RateLimitResponse.Carries (response : RateLimitResponse)
    (decision : Decision) : Prop :=
  response.allowed = decision.allowed ∧
    response.remaining = decision.remaining.toInt ∧
    response.retryAfterMs = decision.retryAfterMs.toInt ∧
    response.reason = decision.reason

namespace RateLimitClient

abbrev CheckResult := Except CheckError RateLimitResponse

def Returns (result : CheckResult) (decision : Decision) : Prop :=
  ∃ response, result = .ok response ∧ response.Carries decision

def Refuses (result : CheckResult) (decision : Decision) : Prop :=
  result = .error (.response (.validation (RateLimitResponse.negativeFields
    decision.remaining.toInt decision.retryAfterMs.toInt)))

/-- The result of a call on a decision, whose negative numbers are refused. -/
def Answers (result : CheckResult) (decision : Decision) : Prop :=
  (decision.Nonnegative → Returns result decision) ∧
    (¬ decision.Nonnegative → Refuses result decision)

theorem answers_parseResponse (libraries : Libraries) {decision : Decision}
    (makes : libraries.rust.Makes (responseSlots decision)) :
    Answers ((parseResponse libraries.python (encodeResponse libraries.rust decision)
      ).mapError .response) decision := by
  rw [parseResponse_encodeResponse libraries decision makes]
  unfold Answers Decision.Nonnegative
  constructor
  · intro nonneg
    rw [RateLimitResponse.validate, dif_pos nonneg]
    exact ⟨_, rfl, rfl, rfl, rfl, rfl⟩
  · intro negative
    rw [RateLimitResponse.validate, dif_neg negative]
    rfl

theorem sent_of_fits (python : Library) (toClient : Inbound)
    {requests : List CheckRequest}
    (fits : ∀ request ∈ requests, (buildRequest python request).length ≤ maxMsgBytes) :
    (checkAll python ⟨[], toClient⟩ requests).2.sent =
      requests.flatMap fun request => framed (buildRequest python request) := by
  apply checkAll_sent
  intro request member
  exact (fits request member).trans_lt (by decide)

theorem written_handleConn (libraries : Libraries) {σ : Type} (limiter : Limiter σ)
    (state : σ) {requests : List CheckRequest} {toServer : Inbound}
    (fits : ∀ request ∈ requests,
      (buildRequest libraries.python request).length ≤ maxMsgBytes)
    (sent : toServer.bytes = requests.flatMap fun request =>
      framed (buildRequest libraries.python request)) :
    written (handleConn libraries.rust limiter state toServer).events =
      ((limiter.run state requests).1.map (encodeResponse libraries.rust)).flatMap
        framed := by
  rcases exists_frames libraries fits with ⟨frames, areRequests, wires⟩
  have longest := (frameCode libraries.rust).longestPrefix_wires frames
  rw [wires, ← sent] at longest
  have served := (handleConn_eq libraries.rust limiter state longest).1
  rw [areRequests] at served
  rw [served, written_exchanges _ (length_run limiter state requests).symm]

theorem checkAll_answers (libraries : Libraries) {σ : Type} (limiter : Limiter σ)
    (state : σ) {requests : List CheckRequest} {toServer toClient : Inbound}
    (fits : ∀ request ∈ requests,
      (buildRequest libraries.python request).length ≤ maxMsgBytes)
    (makes : ∀ decision ∈ (limiter.run state requests).1,
      libraries.rust.Makes (responseSlots decision))
    (sent : toServer.bytes = (checkAll libraries.python ⟨[], toClient⟩ requests).2.sent)
    (received : toClient.bytes =
      written (handleConn libraries.rust limiter state toServer).events) :
    List.Forall₂ Answers (checkAll libraries.python ⟨[], toClient⟩ requests).1
      (limiter.run state requests).1 := by
  have packs : ∀ request ∈ requests,
      (buildRequest libraries.python request).length < 2 ^ 32 :=
    fun request member => (fits request member).trans_lt (by decide)
  rw [sent_of_fits _ _ fits] at sent
  rw [written_handleConn libraries limiter state fits sent] at received
  have answered := (length_run limiter state requests).symm
  rw [checkAll_of_responses _ (answered.trans (List.length_map _).symm) packs _ received,
    List.map_map, List.forall₂_map_left_iff, List.forall₂_same]
  · intro decision member
    exact answers_parseResponse libraries (makes decision member)
  · intro buf member
    rcases List.mem_map.mp member with ⟨decision, isMember, rfl⟩
    exact (makes decision isMember).trans_lt (by decide)

end RateLimitClient

/-- A connection serves the longest prefix of frames and nothing after it. The
calls of a client each get the decision on their own request, whatever the pieces
are that the bytes arrive in. -/
theorem session_correct (libraries : Libraries) {σ : Type} (limiter : Limiter σ) :
    (∀ (state : σ) (stream : Inbound), ∃ frames : List (Frame libraries.rust),
      (frameCode libraries.rust).LongestPrefix stream.bytes frames ∧
        let requests := frames.map Frame.request
        let served := limiter.run state requests
        let session := handleConn libraries.rust limiter state stream
        session.state = served.2 ∧ session.events =
          (List.zipWith (exchange libraries.rust) requests served.1).flatten) ∧
    ∀ (state : σ) (requests : List CheckRequest) (toServer toClient : Inbound),
      let decisions := (limiter.run state requests).1
      let called := checkAll libraries.python ⟨[], toClient⟩ requests
      (∀ request ∈ requests,
        (buildRequest libraries.python request).length ≤ maxMsgBytes) →
      (∀ decision ∈ decisions, libraries.rust.Makes (responseSlots decision)) →
      toServer.bytes = called.2.sent →
      toClient.bytes =
        written (handleConn libraries.rust limiter state toServer).events →
      List.Forall₂ Answers called.1 decisions := by
  constructor
  · intro state stream
    rcases (frameCode libraries.rust).exists_longestPrefix stream.bytes with
      ⟨frames, longest⟩
    rcases handleConn_eq libraries.rust limiter state longest with ⟨events, final⟩
    exact ⟨frames, longest, final, events⟩
  · intro state requests toServer toClient decisions called fits makes sent received
    exact checkAll_answers libraries limiter state fits makes sent received

theorem session_correct_full_window :
    let fixedWindow : FixedWindowLimiter := ⟨1, 60⟩
    let limiter := @CheckLoop.limiter fixedWindow.loop Json.fixedWindow _
      LocalStore.lawful fun _ => (0 : UInt64)
    let requests : List CheckRequest := [⟨"alice", "/", 1⟩, ⟨"alice", "/", 5⟩]
    let decisions := (limiter.run (LocalStore.new, 0) requests).1
    let sent := requests.flatMap fun request =>
      framed (buildRequest Libraries.sample.python request)
    let responses := (decisions.map (encodeResponse Libraries.sample.rust)).flatMap framed
    let toClient := Inbound.ofPieces [responses.take 50, responses.drop 50] .silent
    let toServer := Inbound.ofPieces [sent.take 3, sent.drop 3] .closed
    toClient.bytes = written
        (handleConn Libraries.sample.rust limiter (LocalStore.new, 0) toServer).events ∧
      List.Forall₂ Answers
        (checkAll Libraries.sample.python ⟨[], toClient⟩ requests).1 decisions := by
  intro fixedWindow limiter requests decisions sent responses toClient toServer
  have fits : ∀ request ∈ requests,
      (buildRequest Libraries.sample.python request).length ≤ maxMsgBytes := by
    decide +kernel
  have makes : ∀ decision ∈ decisions,
      (Libraries.sample.rust.finish (responseSlots decision)).length ≤
        maxBufferSize := by
    decide +kernel
  have arriving : toServer.bytes = sent := by simp [toServer]
  have received : toClient.bytes = written
      (handleConn Libraries.sample.rust limiter (LocalStore.new, 0) toServer).events := by
    rw [written_handleConn Libraries.sample limiter _ fits arriving]
    simp [toClient, responses, decisions]
  have isSent : toServer.bytes =
      (checkAll Libraries.sample.python ⟨[], toClient⟩ requests).2.sent := by
    rw [arriving, sent_of_fits _ _ fits]
  exact ⟨received, (session_correct Libraries.sample limiter).2 (LocalStore.new, 0)
    requests toServer toClient fits makes isSent received⟩

/-- A limit that does not fit in the field `remaining`. The decision comes with a
negative number, which the client refuses. -/
theorem unlimited_window_refused :
    let fixedWindow : FixedWindowLimiter := ⟨18446744073709551615, 60⟩
    let limiter := @CheckLoop.limiter fixedWindow.loop Json.fixedWindow _
      LocalStore.lawful fun _ => (0 : UInt64)
    let requests : List CheckRequest := [⟨"alice", "/", 1⟩]
    let decisions := (limiter.run (LocalStore.new, 0) requests).1
    let sent := requests.flatMap fun request =>
      framed (buildRequest Libraries.sample.python request)
    let responses := (decisions.map (encodeResponse Libraries.sample.rust)).flatMap framed
    let toClient := Inbound.ofPieces [responses] .closed
    let toServer := Inbound.ofPieces [sent] .closed
    (∀ request ∈ requests,
        (buildRequest Libraries.sample.python request).length ≤ maxMsgBytes) ∧
      toServer.bytes =
        (checkAll Libraries.sample.python ⟨[], toClient⟩ requests).2.sent ∧
      toClient.bytes = written
        (handleConn Libraries.sample.rust limiter (LocalStore.new, 0) toServer).events ∧
      (checkAll Libraries.sample.python ⟨[], toClient⟩ requests).1 =
        [.error (.response (.validation ["remaining"]))] ∧
      ¬ List.Forall₂ Returns
        (checkAll Libraries.sample.python ⟨[], toClient⟩ requests).1 decisions := by
  intro fixedWindow limiter requests decisions sent responses toClient toServer
  have fits : ∀ request ∈ requests,
      (buildRequest Libraries.sample.python request).length ≤ maxMsgBytes := by
    decide +kernel
  have decided : decisions =
      [⟨true, -1, -2, 0, "ok — 1/18446744073709551615 used"⟩] := by
    decide +kernel
  have makes : ∀ decision ∈ decisions,
      (Libraries.sample.rust.finish (responseSlots decision)).length ≤
        maxBufferSize := by
    decide +kernel
  have arriving : toServer.bytes = sent := by simp [toServer]
  have received : toClient.bytes = written
      (handleConn Libraries.sample.rust limiter (LocalStore.new, 0) toServer).events := by
    rw [written_handleConn Libraries.sample limiter _ fits arriving]
    simp [toClient, responses, decisions]
  have isSent : toServer.bytes =
      (checkAll Libraries.sample.python ⟨[], toClient⟩ requests).2.sent := by
    rw [arriving, sent_of_fits _ _ fits]
  have answers := checkAll_answers Libraries.sample limiter (LocalStore.new, 0) fits
    makes isSent received
  have refused : (checkAll Libraries.sample.python ⟨[], toClient⟩ requests).1 =
      [.error (.response (.validation ["remaining"]))] := by
    change List.Forall₂ Answers _ decisions at answers
    rw [decided] at answers
    rcases List.forall₂_cons_right_iff.mp answers with ⟨result, _, answer, last, isCalled⟩
    rw [isCalled, List.forall₂_nil_right_iff.mp last, answer.2 (by decide)]
    rfl
  refine ⟨fits, isSent, received, refused, ?_⟩
  rw [refused, decided]
  intro returns
  rcases List.forall₂_cons_right_iff.mp returns with ⟨_, _, ⟨_, isOk, _⟩, _, isCalled⟩
  rw [isOk] at isCalled
  exact absurd (List.cons.inj isCalled).1 (by simp)

end RateLimiting
