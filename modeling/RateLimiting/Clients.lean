import RateLimiting.Serving

/-! # The clients of the server

Clients of the TCP protocol, each on a connection of its own, that all call one server.
Bytes may stay on their way in both directions. A call that gets a response gets the
decision on its own request, and the decisions of all clients come from one order. -/

namespace RateLimiting

open ByteStream FlatBuffers TcpServer RateLimitClient

/-! ## Streams that stop early -/

namespace ByteStream.Inbound

theorem recvExact_ending (count : Nat) (collected : List UInt8) (stream : Inbound) :
    (recvExact count collected stream).2.ending = stream.ending := by
  induction collected, stream using recvExact.induct count with
  | case1 collected stream short nothing =>
      rw [recvExact, if_pos short, nothing]
  | case2 collected stream short taken after received induction =>
      rcases recv_eq_some (by omega) received with ⟨_, _, _, sameEnding⟩
      rw [recvExact, if_pos short, received]
      exact induction.trans sameEnding
  | case3 collected stream long =>
      rw [recvExact, if_neg long]

end ByteStream.Inbound

namespace RateLimitClient

variable {python : Library}

variable (python) in
theorem check_ending (socket : Socket) (request : CheckRequest) :
    (check python socket request).2.inbound.ending = socket.inbound.ending := by
  have lenEnding := Inbound.recvExact_ending 4 [] socket.inbound
  unfold check
  simp only
  split
  · split
    · rename_i inbound lenRead
      rw [lenRead] at lenEnding
      exact lenEnding
    · rename_i prefixed inbound lenRead
      rw [lenRead] at lenEnding
      have bufEnding := Inbound.recvExact_ending (fromLE prefixed) [] inbound
      split
      · rename_i after bufRead
        rw [bufRead] at bufEnding
        exact bufEnding.trans lenEnding
      · rename_i after bufRead
        rw [bufRead] at bufEnding
        exact bufEnding.trans lenEnding
  · rfl

theorem check_of_short (socket : Socket) {request : CheckRequest} {buf : Bytes}
    (fits : (buildRequest python request).length < 2 ^ 32) (short : buf.length < 2 ^ 32)
    (isPrefix : socket.inbound.bytes <+: framed buf)
    (incomplete : socket.inbound.bytes.length < (framed buf).length) :
    (check python socket request).1 = .error (.ofEnding socket.inbound.ending) ∧
      (check python socket request).2.inbound.bytes = [] := by
  by_cases noHeader : socket.inbound.bytes.length < 4
  · have lenRead := @Inbound.recvExact_of_short 4 [] socket.inbound (by simpa using noHeader)
    simp only [check, if_pos fits, lenRead, true_and]
    rfl
  · have header : (toLE 4 buf.length) <+: socket.inbound.bytes :=
      List.prefix_of_prefix_length_le (List.prefix_append _ _) isPrefix (by simp; omega)
    rcases header with ⟨part, arriving⟩
    rcases Inbound.recvExact_append arriving.symm (length_toLE ..) with
      ⟨afterLen, isPart, sameEnding, lenRead⟩
    have isLength : fromLE (toLE 4 buf.length) = buf.length := fromLE_toLE 4 (by omega)
    have partShort : part.length < buf.length := by
      rw [← arriving, framed, List.length_append, List.length_append] at incomplete
      omega
    have bufRead := @Inbound.recvExact_of_short buf.length [] afterLen
      (by rw [isPart, List.length_nil, Nat.zero_add]; exact partShort)
    simp only [check, if_pos fits, lenRead, isLength, bufRead, sameEnding, true_and]
    rfl

theorem checkAll_of_initial (socket : Socket) {requests : List CheckRequest}
    {responses : List Bytes} (answered : responses.length ≤ requests.length)
    (fits : ∀ request ∈ requests, (buildRequest python request).length < 2 ^ 32)
    (short : ∀ buf ∈ responses, buf.length < 2 ^ 32)
    (arriving : socket.inbound.bytes <+: responses.flatMap framed) :
    ∃ arrived ≤ responses.length, (checkAll python socket requests).1 =
      (responses.take arrived).map
          (fun buf => (parseResponse python buf).mapError CheckError.response) ++
        List.replicate (requests.length - arrived)
          (.error (.ofEnding socket.inbound.ending)) := by
  induction requests generalizing socket responses with
  | nil =>
      have isNil := List.eq_nil_of_length_eq_zero (Nat.le_zero.mp answered)
      subst isNil
      exact ⟨0, le_refl _, rfl⟩
  | cons request requests induction =>
      have fitsFirst := fits request List.mem_cons_self
      have fitsOthers : ∀ other ∈ requests, (buildRequest python other).length < 2 ^ 32 :=
        fun other member => fits other (List.mem_cons_of_mem _ member)
      have ending := check_ending python socket request
      by_cases complete : ∃ buf rest, responses = buf :: rest ∧
        framed buf <+: socket.inbound.bytes
      · rcases complete with ⟨buf, rest, rfl, last, isLast⟩
        rw [← isLast, List.flatMap_cons, List.prefix_append_right_inj] at arriving
        rcases check_of_response socket fitsFirst (short buf List.mem_cons_self) isLast.symm
          with ⟨outcome, after⟩
        rw [← after] at arriving
        rcases induction _ (Nat.le_of_succ_le_succ answered) fitsOthers
          (fun other member => short other (List.mem_cons_of_mem _ member)) arriving with
          ⟨arrived, within, others⟩
        refine ⟨arrived + 1, Nat.succ_le_succ within, ?_⟩
        rw [checkAll]
        simp only [outcome, others, ending, List.take_succ_cons, List.map_cons,
          List.cons_append, List.length_cons, Nat.add_sub_add_right]
      · have failed : (check python socket request).1 =
            .error (.ofEnding socket.inbound.ending) ∧
            (check python socket request).2.inbound.bytes = [] := by
          cases responses with
          | nil =>
              have nothing := List.prefix_nil.mp arriving
              have incomplete : socket.inbound.bytes.length < (framed []).length := by
                rw [nothing]
                decide
              exact check_of_short socket fitsFirst (by decide)
                (nothing ▸ List.nil_prefix) incomplete
          | cons buf rest =>
              have without : ¬ framed buf <+: socket.inbound.bytes :=
                fun starts => complete ⟨buf, rest, rfl, starts⟩
              rw [List.flatMap_cons] at arriving
              have isPrefix := (List.prefix_or_prefix_of_prefix arriving
                (List.prefix_append _ _)).resolve_right without
              apply check_of_short socket fitsFirst (short buf List.mem_cons_self) isPrefix
              apply Nat.lt_of_not_le
              intro long
              exact without (isPrefix.eq_of_length_le long ▸ List.prefix_rfl)
        rcases failed with ⟨outcome, after⟩
        rcases @induction _ [] (Nat.zero_le _) fitsOthers (fun buf member => by cases member)
          (after ▸ List.nil_prefix) with ⟨arrived, within, others⟩
        have isZero := Nat.le_zero.mp within
        subst isZero
        refine ⟨0, Nat.zero_le _, ?_⟩
        rw [checkAll]
        simp only [outcome, others, ending]
        rfl

end RateLimitClient

/-! ## Clients of one server -/

/-- What the calls of a client return: the first ones the decisions on their requests,
and the others that nothing arrived. -/
def ClientSees (results : List CheckResult) (answers : List (CheckRequest × Decision))
    (ending : Ending) : Prop :=
  ∃ arrived ≤ answers.length,
    List.Forall₂ Answers (results.take arrived) ((answers.take arrived).map Prod.snd) ∧
      ∀ result ∈ results.drop arrived, result = .error (.ofEnding ending)

theorem requests_initial {libraries : Libraries} {requests : List CheckRequest}
    {frames : List (Frame libraries.rust)}
    (makes : ∀ request ∈ requests, libraries.python.Makes (requestSlots request))
    (starts : (frameCode libraries.rust).wires frames <+: requests.flatMap fun request =>
      framed (buildRequest libraries.python request)) :
    frames.map Frame.request <+: requests := by
  induction requests generalizing frames with
  | nil =>
      cases frames with
      | nil => exact List.prefix_rfl
      | cons frame frames =>
          rw [FrameCode.wires_cons, List.flatMap_nil, List.prefix_nil,
            List.append_eq_nil_iff] at starts
          exact absurd starts.1 ((frameCode libraries.rust).nonempty frame)
  | cons request requests induction =>
      cases frames with
      | nil => exact List.nil_prefix
      | cons frame frames =>
          have isMade := makes request List.mem_cons_self
          rw [FrameCode.wires_cons, List.flatMap_cons] at starts
          rcases starts with ⟨last, split⟩
          change (toLE 4 _ ++ frame.body) ++ _ ++ last = (toLE 4 _ ++ _) ++ _ at split
          simp only [List.append_assoc] at split
          rcases List.append_inj split (by simp) with ⟨sameHeader, split⟩
          have sameLength : frame.body.length =
              (buildRequest libraries.python request).length := by
            have packs : (buildRequest libraries.python request).length < 256 ^ 4 :=
              isMade.trans_lt (by decide)
            rw [← frame.fromLE_length, sameHeader, fromLE_toLE 4 packs]
          rcases List.append_inj split sameLength with ⟨sameBody, rest⟩
          rcases rootAsRateLimitRequest_buildRequest libraries request isMade with
            ⟨view, accepted, arguments⟩
          have sameView : frame.view = view := by
            have isView := frame.accepted
            rw [sameBody, accepted] at isView
            exact (Except.ok.inj isView).symm
          have first : frame.request = request := by
            rw [Frame.request, sameView, arguments]
          rw [List.map_cons, first, List.cons_prefix_cons]
          exact ⟨rfl, induction (fun other member => makes other
            (List.mem_cons_of_mem _ member)) ⟨last, rest⟩⟩

theorem sent_of_makes {python : Library} (toClient : Inbound)
    {requests : List CheckRequest}
    (makes : ∀ request ∈ requests, python.Makes (requestSlots request)) :
    (checkAll python ⟨[], toClient⟩ requests).2.sent =
      requests.flatMap fun request => framed (buildRequest python request) := by
  apply checkAll_sent
  intro request member
  exact (makes request member).trans_lt (by decide)

theorem clientSees_of_sent {libraries : Libraries} {requests : List CheckRequest}
    {answers : List (CheckRequest × Decision)} {toClient : Inbound}
    (asks : ∀ request ∈ requests, libraries.python.Makes (requestSlots request))
    (makes : ∀ answer ∈ answers, libraries.rust.Makes (responseSlots answer.2))
    (asked : answers.map Prod.fst <+: requests)
    (received : toClient.bytes <+: responses libraries.rust answers) :
    ClientSees (checkAll libraries.python ⟨[], toClient⟩ requests).1 answers
      toClient.ending := by
  have packs : ∀ request ∈ requests,
      (buildRequest libraries.python request).length < 2 ^ 32 :=
    fun request member => (asks request member).trans_lt (by decide)
  have short : ∀ buf ∈ answers.map fun answer => encodeResponse libraries.rust answer.2,
      buf.length < 2 ^ 32 := by
    intro buf member
    rcases List.mem_map.mp member with ⟨answer, isMember, rfl⟩
    exact (makes answer isMember).trans_lt (by decide)
  have fewer : (answers.map fun answer => encodeResponse libraries.rust answer.2).length ≤
      requests.length := by
    simpa using asked.length_le
  rcases checkAll_of_initial ⟨[], toClient⟩ fewer packs short received with
    ⟨arrived, within, results⟩
  rw [List.length_map] at within
  refine ⟨arrived, within, ?_⟩
  have count : (((answers.map fun answer => encodeResponse libraries.rust answer.2).take
      arrived).map fun buf => (parseResponse libraries.python buf).mapError
        CheckError.response).length = arrived := by
    simp [within]
  rw [results]
  constructor
  · rw [List.take_left' count, ← List.map_take, List.map_map, List.forall₂_map_left_iff,
      List.forall₂_map_right_iff, List.forall₂_same]
    intro answer member
    exact answers_parseResponse libraries (makes answer (List.mem_of_mem_take member))
  · rw [List.drop_left' count]
    intro result member
    exact List.eq_of_mem_replicate member

theorem makes_of_sent {rust : Library} {answers : List (CheckRequest × Decision)}
    {sent : Bytes} (complete : sent = responses rust answers)
    (short : sent.length ≤ maxBufferSize) :
    ∀ answer ∈ answers, rust.Makes (responseSlots answer.2) := by
  intro answer member
  rcases List.append_of_mem member with ⟨before, after, rfl⟩
  have length := congrArg List.length complete
  simp only [responses, List.map_append, List.map_cons, List.flatMap_append,
    List.flatMap_cons, List.length_append, framed] at length
  change (encodeResponse rust answer.2).length ≤ _
  omega

/-- In every run of the server, clients that call it at once over connections of their
own get the decisions of one order of checks, in which each is a step of the table at a
reading of the clock, or is denied without one. However many bytes are still on their
way, each call returns the decision on its own request, or that nothing arrived. -/
theorem RateLimiterConfig.clients_get_decisions_in_order (config : RateLimiterConfig)
    (json : SerdeJson config.limiter.State) (libraries : Libraries)
    (hmacSha256 : (key message : Bytes) → Bytes) (hmacSecret : Option String) {κ : Type}
    [DecidableEq κ] (tasks : κ → ServerTask) (start : config.limiter.Time)
    (actions : List (Action ((localMachine config.limiter).sum (network κ)) κ))
    (bounded : actions.length < 2 ^ 63) :
    let state := (serverSystem config.limiter json libraries.rust hmacSha256 hmacSecret
      tasks start).run actions
    ∃ served : List (Served κ config.limiter),
      (∀ check ∈ served, ∀ now, check.reading = some now → shownBy start actions now) ∧
        state.world.1.store.contents = Served.table json served ∧
        (∀ self, (tasks self).Shows libraries.rust hmacSha256 config.limiter.name hmacSecret
          (WriteFails self actions) (Served.answersTo json self served)
          (state.world.2 self) (state.result self)) ∧
        ∀ (self : κ) (requests : List CheckRequest) (toServer toClient : Inbound),
          let answers := Served.answersTo json self served
          let calls := checkAll libraries.python ⟨[], toClient⟩ requests
          tasks self = .connection toServer →
          (∀ request ∈ requests, libraries.python.Makes (requestSlots request)) →
          (∀ answer ∈ answers, libraries.rust.Makes (responseSlots answer.2)) →
          toServer.bytes <+: calls.2.sent → toClient.bytes <+: state.world.2 self →
          answers.map Prod.fst <+: requests ∧
            ClientSees calls.1 answers toClient.ending := by
  intro state
  rcases config.limiter.serves_in_order json libraries.rust hmacSha256 hmacSecret tasks
    start actions bounded with ⟨served, shown, table, shows⟩
  refine ⟨served, shown, table, shows, ?_⟩
  intro self requests toServer toClient answers calls isConnection asks makes sent received
  have task := shows self
  rw [isConnection] at task
  rcases task with ⟨frames, longest, asked, _, wrote, _⟩
  rw [sent_of_makes _ asks] at sent
  have asked : answers.map Prod.fst <+: requests :=
    asked.trans (requests_initial asks (longest.1.trans sent))
  exact ⟨asked, clientSees_of_sent asks makes asked (received.trans wrote)⟩

/-- Two clients check the same key at once. One is allowed, and the response of the
other, which is denied, is cut short. -/
theorem RateLimiterConfig.clients_get_decisions_in_order_collision :
    let config : RateLimiterConfig := ⟨.fixedWindow, 1, 60, 0, 1, 1, 0⟩
    let requests : List CheckRequest := [⟨"alice", "/", 1⟩]
    let message := framed (buildRequest Libraries.sample.python ⟨"alice", "/", 1⟩)
    let toServer := Inbound.ofPieces [message.take 3, message.drop 3] .closed
    let tasks : Fin 2 → ServerTask := fun _ => .connection toServer
    let actions : List (Action ((localMachine config.limiter).sum (network (Fin 2)))
        (Fin 2)) :=
      [0, 0, 1, 1, 0, 1, 1, 1, 1, 1, 1, 0, 0].map fun self => .step self ((), ⟨none, 0⟩)
    let system := serverSystem config.limiter Json.fixedWindow Libraries.sample.rust
      (fun key message => key ++ message) none tasks (0 : UInt64)
    let state := system.run actions
    let toClient : Fin 2 → Inbound
      | 0 => Inbound.ofPieces [state.world.2 0] .silent
      | 1 => Inbound.ofPieces [(state.world.2 1).take 20] .closed
    let calls := fun self =>
      (checkAll Libraries.sample.python ⟨[], toClient self⟩ requests).1
    ((calls 0).map Except.isOk = [true] ∧ calls 1 = [.error .connectionError]) ∧
      ∃ served : List (Served (Fin 2) config.limiter),
        state.world.1.store.contents = Served.table Json.fixedWindow served ∧
          ∀ self, (Served.answersTo Json.fixedWindow self served).map Prod.fst <+:
              requests ∧
            ClientSees (calls self) (Served.answersTo Json.fixedWindow self served)
              (toClient self).ending := by
  intro config requests message toServer tasks actions system state toClient calls
  have short : actions.length < 2 ^ 63 := by decide +kernel
  rcases config.clients_get_decisions_in_order Json.fixedWindow Libraries.sample
    (fun key message => key ++ message) none tasks (0 : UInt64) actions short with
    ⟨served, -, table, shows, clients⟩
  have returned : ∀ self, state.result self = some (.connection .ok) := by decide +kernel
  have complete : ∀ self, state.world.2 self =
      responses Libraries.sample.rust (Served.answersTo Json.fixedWindow self served) :=
    fun self => ServerTask.Shows.sent_eq (shows self) (returned self)
  have few : ∀ self, (state.world.2 self).length ≤ maxBufferSize := by decide +kernel
  have asks : ∀ request ∈ requests,
      (buildRequest Libraries.sample.python request).length ≤ maxBufferSize := by
    decide +kernel
  refine ⟨by decide +kernel, served, table, fun self => ?_⟩
  apply clients self requests toServer (toClient self) rfl asks
    (makes_of_sent (complete self) (few self))
  · rw [sent_of_makes _ asks, Inbound.bytes_ofPieces]
    simp [requests, message]
  · have single : ∀ (piece : Bytes) ending, (Inbound.ofPieces [piece] ending).bytes = piece :=
      fun piece ending => by simp
    match self with
    | 0 => exact (single _ _).symm ▸ List.prefix_rfl
    | 1 => exact (single _ _).symm ▸ List.take_prefix 20 _

end RateLimiting
