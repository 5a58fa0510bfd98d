import RateLimiting.Foundation.FrameCode
import RateLimiting.Tcp.Wire

/-! # The TCP server

The loop of one connection: read a frame, check its request, write the response.
The first frame that is malformed or cut short ends it. The limiter, which other
connections share, is any function of a state. -/

namespace RateLimiting

open ByteStream FlatBuffers

abbrev Limiter (σ : Type) := σ → CheckRequest → Decision × σ

def Limiter.run {σ : Type} (check : Limiter σ) :
    σ → List CheckRequest → List Decision × σ
  | state, [] => ([], state)
  | state, request :: requests =>
      let (decision, state) := check state request
      let (decisions, state) := run check state requests
      (decision :: decisions, state)

namespace TcpServer

def maxMsgBytes : Nat := 1 <<< 20

inductive ConnError where
  | unexpectedEof
  | transport
deriving DecidableEq, Repr

/-- How `handle_conn` stops: it returns, or it waits at a read. -/
inductive Outcome where
  | ok
  | err (cause : ConnError)
  | waiting
deriving DecidableEq, Repr

def Outcome.ofEnding : Ending → Outcome
  | .closed => .err .unexpectedEof
  | .failed => .err .transport
  | .silent => .waiting

inductive Event where
  | check (request : CheckRequest)
  | write (bytes : Bytes)
deriving DecidableEq, Repr

structure Session (σ : Type) where
  events : List Event
  state : σ
  outcome : Outcome

variable (rust : Library) {σ : Type} (check : Limiter σ)

/-- One pass of the loop up to the call of the limiter. -/
def readRequest (stream : Inbound) : Except Outcome (CheckRequest × Inbound) :=
  match stream.recvExact 4 [] with
  | (.error .closed, _) => .error .ok
  | (.error ending, _) => .error (.ofEnding ending)
  | (.ok lenBuf, stream) =>
      let msgLen := fromLE lenBuf
      if msgLen = 0 ∨ maxMsgBytes < msgLen then .error .ok
      else
        match stream.recvExact msgLen [] with
        | (.error ending, _) => .error (.ofEnding ending)
        | (.ok body, stream) =>
            match rootAsRateLimitRequest rust body with
            | .ok req => .ok (req.arguments, stream)
            | .error _ => .error .ok

def exchange (request : CheckRequest) (decision : Decision) : List Event :=
  let respBytes := encodeResponse rust decision
  [.check request, .write (toLE 4 respBytes.length), .write respBytes]

/-! ## Frames -/

structure Frame where
  body : Bytes
  nonempty : 1 ≤ body.length
  bounded : body.length ≤ maxMsgBytes
  view : RateLimitRequest
  accepted : rootAsRateLimitRequest rust body = .ok view

namespace Frame

variable {rust}

theorem ext_body {left right : Frame rust} (same : left.body = right.body) :
    left = right := by
  rcases left with ⟨body, _, _, leftView, leftAccepted⟩
  rcases right with ⟨_, _, _, rightView, rightAccepted⟩
  cases same
  have sameView : leftView = rightView :=
    Except.ok.inj (leftAccepted.symm.trans rightAccepted)
  cases sameView
  rfl

variable (frame : Frame rust)

def request : CheckRequest :=
  frame.view.arguments

def wire : Bytes :=
  toLE 4 frame.body.length ++ frame.body

theorem fromLE_length : fromLE (toLE 4 frame.body.length) = frame.body.length := by
  have bounded := frame.bounded
  rw [maxMsgBytes] at bounded
  exact fromLE_toLE 4 (by omega)

end Frame

def frameCode : FrameCode (Frame rust) UInt8 where
  wire := Frame.wire
  nonempty frame isNil := by
    have short := congrArg List.length isNil
    simp [Frame.wire] at short
  unique := by
    rintro left right stream ⟨leftLast, isLeft⟩ ⟨rightLast, isRight⟩
    have split := isLeft.trans isRight.symm
    rw [Frame.wire, Frame.wire, List.append_assoc, List.append_assoc] at split
    rcases List.append_inj split (by simp) with ⟨sameHeader, sameRest⟩
    have sameLength : left.body.length = right.body.length := by
      rw [← left.fromLE_length, sameHeader, right.fromLE_length]
    exact Frame.ext_body (List.append_inj sameRest sameLength).1

variable {rust}

theorem readRequest_of_frame {stream : Inbound} (frame : Frame rust) {last : Bytes}
    (arriving : stream.bytes = frame.wire ++ last) :
    ∃ after : Inbound, after.bytes = last ∧
      readRequest rust stream = .ok (frame.request, after) := by
  rw [Frame.wire, List.append_assoc] at arriving
  rcases Inbound.recvExact_append arriving (length_toLE ..) with
    ⟨afterLen, bodyArriving, _, lenRead⟩
  rcases Inbound.recvExact_append bodyArriving rfl with ⟨after, isLast, _, bodyRead⟩
  have nonempty := frame.nonempty
  have accepted : ¬ (frame.body.length = 0 ∨ maxMsgBytes < frame.body.length) := by
    rintro (isZero | tooLong)
    · omega
    · exact absurd frame.bounded (Nat.not_le_of_lt tooLong)
  refine ⟨after, isLast, ?_⟩
  simp only [readRequest, lenRead, frame.fromLE_length, if_neg accepted, bodyRead,
    frame.accepted]
  rfl

theorem readRequest_eq_ok {stream after : Inbound} {request : CheckRequest}
    (read : readRequest rust stream = .ok (request, after)) :
    ∃ frame : Frame rust, frame.request = request ∧
      stream.bytes = frame.wire ++ after.bytes := by
  unfold readRequest at read
  split at read
  · exact absurd read (by simp)
  · exact absurd read (by simp)
  · rename_i lenBuf afterLen lenRead
    simp only at read
    split at read
    · exact absurd read (by simp)
    · rename_i accepted
      split at read
      · exact absurd read (by simp)
      · rename_i body afterBody bodyRead
        split at read
        · rename_i view isView
          simp only [Except.ok.injEq, Prod.mk.injEq] at read
          rcases read with ⟨isRequest, rfl⟩
          rcases Inbound.recvExact_eq_ok lenRead with ⟨lenSplit, lenBytes⟩
          rcases Inbound.recvExact_eq_ok bodyRead with ⟨bodySplit, bodyBytes⟩
          have header : toLE 4 body.length = lenBuf := by
            rw [bodyBytes, ← lenBytes, toLE_fromLE]
          refine ⟨⟨body, by omega, by omega, view, isView⟩, isRequest, ?_⟩
          change stream.bytes = (toLE 4 body.length ++ body) ++ afterBody.bytes
          rw [header, lenSplit, bodySplit, List.append_assoc]
        · exact absurd read (by simp)

theorem readRequest_shrinks {stream after : Inbound} {request : CheckRequest}
    (read : readRequest rust stream = .ok (request, after)) :
    after.bytes.length < stream.bytes.length := by
  rcases readRequest_eq_ok read with ⟨frame, _, split⟩
  rw [split, Frame.wire, List.length_append, List.length_append, length_toLE]
  omega

/-! ## The connection -/

variable (rust)

def handleConn (state : σ) (stream : Inbound) : Session σ :=
  match _ : readRequest rust stream with
  | .error outcome => { events := [], state := state, outcome := outcome }
  | .ok (request, stream) =>
      let (decision, state) := check state request
      let session := handleConn state stream
      { session with events := exchange rust request decision ++ session.events }
termination_by stream.bytes.length
decreasing_by
  rename_i read
  exact readRequest_shrinks read

theorem handleConn_of_frame (state : σ) {stream after : Inbound}
    {request : CheckRequest} (read : readRequest rust stream = .ok (request, after)) :
    handleConn rust check state stream =
      let session := handleConn rust check (check state request).2 after
      { session with
        events := exchange rust request (check state request).1 ++ session.events } := by
  rw [handleConn, read]

theorem handleConn_of_stop (state : σ) {stream : Inbound} {outcome : Outcome}
    (stopped : readRequest rust stream = .error outcome) :
    handleConn rust check state stream = ⟨[], state, outcome⟩ := by
  rw [handleConn, stopped]

/-- The frames that a stream starts with are served, each once and in order. -/
theorem handleConn_eq {frames : List (Frame rust)} {stream : Inbound} (state : σ)
    (longest : (frameCode rust).LongestPrefix stream.bytes frames) :
    (handleConn rust check state stream).events =
        (List.zipWith (exchange rust) (frames.map Frame.request)
          (check.run state (frames.map Frame.request)).1).flatten ∧
      (handleConn rust check state stream).state =
        (check.run state (frames.map Frame.request)).2 := by
  induction frames generalizing state stream with
  | nil =>
      have without := FrameCode.LongestPrefix.nil_iff.mp longest
      cases read : readRequest rust stream with
      | error outcome =>
          rw [handleConn_of_stop rust check state read]
          exact ⟨rfl, rfl⟩
      | ok result =>
          rcases readRequest_eq_ok read with ⟨frame, _, split⟩
          exact absurd ⟨result.2.bytes, split.symm⟩ (without frame)
  | cons frame frames induction =>
      have starts := longest.1
      rw [FrameCode.wires_cons] at starts
      rcases (List.prefix_append _ _).trans starts with ⟨last, split⟩
      rcases readRequest_of_frame frame split.symm with ⟨after, isLast, read⟩
      have remaining : (frameCode rust).LongestPrefix after.bytes frames := by
        rw [isLast]
        apply FrameCode.LongestPrefix.cons_iff.mp
        rw [split]
        exact longest
      rcases induction (check state frame.request).2 remaining with ⟨events, final⟩
      rw [handleConn_of_frame rust check state read]
      constructor
      · simp only [events, List.map_cons, Limiter.run, List.zipWith_cons_cons,
          List.flatten_cons]
      · exact final

end TcpServer

end RateLimiting
