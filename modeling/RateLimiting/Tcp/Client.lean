import RateLimiting.Tcp.Server

/-! # The TCP client

Calls of `RateLimitClient.check`, one after another on one socket. A call sends
its request whatever became of the calls before it. -/

namespace RateLimiting

open ByteStream FlatBuffers

def framed (message : Bytes) : Bytes :=
  toLE 4 message.length ++ message

namespace RateLimitClient

/-- Why a call has no response to return. `waiting` is a call that is still at
`recv`. -/
inductive CheckError where
  | structError
  | connectionError
  | transport
  | waiting
  | response (error : ResponseError)
deriving DecidableEq, Repr

def CheckError.ofEnding : Ending → CheckError
  | .closed => .connectionError
  | .failed => .transport
  | .silent => .waiting

structure Socket where
  sent : Bytes
  inbound : Inbound

variable (python : Library)

/-- `struct.pack` refuses a length of more than 32 bits. -/
def check (socket : Socket) (request : CheckRequest) :
    Except CheckError RateLimitResponse × Socket :=
  let payload := buildRequest python request
  if payload.length < 2 ^ 32 then
    let sent := socket.sent ++ (toLE 4 payload.length ++ payload)
    match socket.inbound.recvExact 4 [] with
    | (.error ending, inbound) => (.error (.ofEnding ending), ⟨sent, inbound⟩)
    | (.ok prefixed, inbound) =>
        match inbound.recvExact (fromLE prefixed) [] with
        | (.error ending, inbound) => (.error (.ofEnding ending), ⟨sent, inbound⟩)
        | (.ok buf, inbound) =>
            ((parseResponse python buf).mapError .response, ⟨sent, inbound⟩)
  else (.error .structError, socket)

def checkAll : Socket → List CheckRequest →
    List (Except CheckError RateLimitResponse) × Socket
  | socket, [] => ([], socket)
  | socket, request :: requests =>
      let (outcome, socket) := check python socket request
      let (outcomes, socket) := checkAll socket requests
      (outcome :: outcomes, socket)

variable {python}

theorem check_sent (socket : Socket) {request : CheckRequest}
    (fits : (buildRequest python request).length < 2 ^ 32) :
    (check python socket request).2.sent =
      socket.sent ++ framed (buildRequest python request) := by
  simp only [check, if_pos fits]
  split
  · rfl
  · split <;> rfl

theorem checkAll_sent (socket : Socket) {requests : List CheckRequest}
    (fits : ∀ request ∈ requests, (buildRequest python request).length < 2 ^ 32) :
    (checkAll python socket requests).2.sent = socket.sent ++
      requests.flatMap fun request => framed (buildRequest python request) := by
  induction requests generalizing socket with
  | nil => exact (List.append_nil _).symm
  | cons request requests induction =>
      have others : ∀ other ∈ requests, (buildRequest python other).length < 2 ^ 32 :=
        fun other member => fits other (List.mem_cons_of_mem _ member)
      rw [checkAll, List.flatMap_cons]
      simp only [induction _ others, check_sent socket (fits request List.mem_cons_self),
        List.append_assoc]

theorem check_of_response (socket : Socket) {request : CheckRequest}
    {buf last : Bytes} (fits : (buildRequest python request).length < 2 ^ 32)
    (short : buf.length < 2 ^ 32)
    (arriving : socket.inbound.bytes = framed buf ++ last) :
    (check python socket request).1 = (parseResponse python buf).mapError .response ∧
      (check python socket request).2.inbound.bytes = last := by
  rw [framed, List.append_assoc] at arriving
  rcases Inbound.recvExact_append arriving (length_toLE ..) with
    ⟨afterLen, bufArriving, _, lenRead⟩
  rcases Inbound.recvExact_append bufArriving rfl with ⟨after, isLast, _, bufRead⟩
  have isLength : fromLE (toLE 4 buf.length) = buf.length := fromLE_toLE 4 (by omega)
  simp only [check, if_pos fits, lenRead, isLength, bufRead, true_and]
  exact isLast

theorem checkAll_of_responses (socket : Socket) {requests : List CheckRequest}
    {responses : List Bytes} (answered : requests.length = responses.length)
    (fits : ∀ request ∈ requests, (buildRequest python request).length < 2 ^ 32)
    (short : ∀ buf ∈ responses, buf.length < 2 ^ 32)
    (arriving : socket.inbound.bytes = responses.flatMap framed) :
    (checkAll python socket requests).1 =
      responses.map fun buf => (parseResponse python buf).mapError .response := by
  induction requests generalizing socket responses with
  | nil =>
      have isNil := List.eq_nil_of_length_eq_zero answered.symm
      rw [isNil]
      rfl
  | cons request requests induction =>
      cases responses with
      | nil => exact absurd answered (by simp)
      | cons buf responses =>
          rw [List.flatMap_cons] at arriving
          rcases check_of_response socket (fits request List.mem_cons_self)
            (short buf List.mem_cons_self) arriving with ⟨outcome, isLast⟩
          have others := induction (check python socket request).2
            (Nat.succ.inj answered)
            (fun other member => fits other (List.mem_cons_of_mem _ member))
            (fun other member => short other (List.mem_cons_of_mem _ member)) isLast
          rw [checkAll, List.map_cons]
          simp only [outcome, others]

end RateLimitClient

end RateLimiting
