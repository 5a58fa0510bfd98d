import RateLimiting.Http.MacRoundTrip
import RateLimiting.Tcp.Session

/-! # The waits that the servers publish

The middleware of the Python client asks the TCP server before each request. Both
servers turn the milliseconds of a denial into seconds, each in its own way. -/

namespace RateLimiting

def RateLimitResponse.retryAfterSecs (self : RateLimitResponse) : Int :=
  if 0 < self.retryAfterMs then max 1 (self.retryAfterMs / 1000) else 0

/-- The limiter is what one call of it returns or raises. -/
structure RateLimitMiddleware (Request Failure : Type) where
  limiter : (clientId resource : String) → (cost : Int) →
    Except Failure RateLimitResponse
  resourceFn : Request → String
  clientIdFn : Request → String
  cost : Int

namespace RateLimitMiddleware

structure Denial where
  detail : String
  retryAfterMs : Int
deriving DecidableEq, Repr

/-- The names of the headers are in lower case, as the framework keeps them. -/
structure Response (Body : Type) where
  statusCode : Nat
  headers : List (String × String)
  content : Denial ⊕ Body

variable {Request Failure Body : Type}

def Response.header (response : Response Body) (name : String) : Option String :=
  response.headers.lookup name

/-- Assignment to a header: it replaces the first one of that name and removes the
others. -/
def Response.setHeader (response : Response Body) (name value : String) :
    Response Body :=
  let headers := match response.headers.span (·.1 ≠ name) with
    | (before, _ :: after) => before ++ (name, value) :: after.filter (·.1 ≠ name)
    | (before, []) => before ++ [(name, value)]
  { response with headers }

def dispatch (self : RateLimitMiddleware Request Failure) (request : Request)
    (callNext : Request → Except Failure (Response Body)) :
    Except Failure (Response Body) := do
  let clientId := self.clientIdFn request
  let resource := self.resourceFn request
  let decision ← self.limiter clientId resource self.cost
  if !decision.allowed then
    return {
      statusCode := 429
      headers := [
        ("retry-after", toString decision.retryAfterSecs),
        ("ratelimit-remaining", toString decision.remaining)]
      content := .inl ⟨decision.reason, decision.retryAfterMs⟩ }
  let response ← callNext request
  return response.setHeader "ratelimit-remaining" (toString decision.remaining)

variable (self : RateLimitMiddleware Request Failure) (request : Request)
variable (callNext : Request → Except Failure (Response Body))
variable {decision : RateLimitResponse}

theorem dispatch_denied
    (checked : self.limiter (self.clientIdFn request) (self.resourceFn request)
      self.cost = .ok decision)
    (denied : decision.allowed = false) :
    self.dispatch request callNext = .ok {
      statusCode := 429
      headers := [
        ("retry-after", toString decision.retryAfterSecs),
        ("ratelimit-remaining", toString decision.remaining)]
      content := .inl ⟨decision.reason, decision.retryAfterMs⟩ } := by
  simp only [dispatch, checked, bind, Except.bind, denied]
  rfl

end RateLimitMiddleware

open HttpServer

/-! ## The server -/

theorem headerValue_toString (number : Int) :
    headerValue (toString number) = toString number := by
  refine if_pos (List.all_eq_true.mpr ?_)
  intro c member
  rw [toList_toString] at member
  exact (isHeaderChar_of_isNumeral (Numerals.digits_numeral _ c member)).1

/-- The seconds that the server computes for a denial. -/
def HttpServer.deniedSecs (retryAfterMs : Int64) : Int64 :=
  max (retryAfterMs / 1000) 1

theorem toInt_deniedSecs {retryAfterMs : Int64} (nonneg : 0 ≤ retryAfterMs.toInt) :
    (deniedSecs retryAfterMs).toInt = max (retryAfterMs.toInt / 1000) 1 := by
  have quotient : (retryAfterMs / 1000).toInt = retryAfterMs.toInt.tdiv 1000 :=
    Int64.toInt_div_of_ne_right retryAfterMs 1000 (by decide)
  rw [deniedSecs, toInt_max, quotient, Int.tdiv_eq_ediv_of_nonneg nonneg]
  rfl

section Waits

variable (hmacSha256 : (key message : Bytes) → Bytes) (name : String)
variable (hmacSecret : Option String) (asked : CheckRequest) {d : Decision} (ts : Int64)

theorem headerValue_int64 (number : Int64) :
    headerValue s!"{number}" = toString number.toInt :=
  headerValue_toString number.toInt

theorem denied_reset (denied : d.allowed = false) :
    (checkHandler hmacSha256 name hmacSecret asked d ts).header "ratelimit-reset" =
      some (toString (deniedSecs d.retryAfterMs).toInt) := by
  rw [← headerValue_int64]
  have seconds : (if d.allowed then 0 else max (d.retryAfterMs / 1000) 1) =
      deniedSecs d.retryAfterMs := by
    rw [denied]
    rfl
  rw [← seconds]
  rfl

theorem denied_retryAfter (denied : d.allowed = false) :
    (checkHandler hmacSha256 name hmacSecret asked d ts).header "retry-after" =
      if 0 < d.retryAfterMs then some (toString (deniedSecs d.retryAfterMs).toInt)
      else none := by
  rw [← headerValue_int64, deniedSecs]
  generalize shown : max (d.retryAfterMs / 1000) 1 = seconds
  by_cases positive : 0 < d.retryAfterMs
  · simp [checkHandler, Response.header, denied, List.lookup_cons, positive, shown]
  · cases hmacSecret <;>
      simp [checkHandler, Response.header, denied, List.lookup_cons, positive]

end Waits

/-- A wait rounded up to seconds, at least one. -/
def ceilSecs (retryAfterMs : Int) : Int :=
  max 1 ((retryAfterMs + 999) / 1000)

/-- Both servers publish the wait rounded up. -/
def PublishesCeiling {Body : Type} (answer : HttpServer.Response)
    (reply : RateLimitMiddleware.Response Body) (retryAfterMs : Int) : Prop :=
  answer.header "ratelimit-reset" = some (toString (ceilSecs retryAfterMs)) ∧
    answer.header "retry-after" = some (toString (ceilSecs retryAfterMs)) ∧
    reply.header "retry-after" = some (toString (ceilSecs retryAfterMs))

/-- What both servers publish for one denial. -/
theorem published_waits (hmacSha256 : (key message : Bytes) → Bytes) (name : String)
    (hmacSecret : Option String) (asked : CheckRequest) (d : Decision) (ts : Int64)
    {Request Failure Body : Type} (middleware : RateLimitMiddleware Request Failure)
    (request : Request)
    (callNext : Request → Except Failure (RateLimitMiddleware.Response Body))
    (response : RateLimitResponse)
    (checked : middleware.limiter (middleware.clientIdFn request)
      (middleware.resourceFn request) middleware.cost = .ok response)
    (carries : response.Carries d)
    (denied : d.allowed = false) (nonneg : 0 ≤ d.retryAfterMs.toInt) :
    let answer := checkHandler hmacSha256 name hmacSecret asked d ts
    let wait := d.retryAfterMs.toInt
    ∃ (seconds : Int) (reply : RateLimitMiddleware.Response Body),
      answer.status = 429 ∧
      answer.header "ratelimit-reset" = some (toString seconds) ∧
      answer.header "retry-after" =
        (if 0 < wait then some (toString seconds) else none) ∧
      1 ≤ seconds ∧ wait < (seconds + 1) * 1000 ∧ seconds ≤ ceilSecs wait ∧
      (wait ≤ 1000 ∨ 1000 ∣ wait → seconds = ceilSecs wait) ∧
      middleware.dispatch request callNext = .ok reply ∧
      reply.statusCode = 429 ∧
      reply.header "retry-after" =
        some (toString (if 0 < wait then max 1 (wait / 1000) else 0)) ∧
      (0 < wait → wait ≤ 1000 ∨ 1000 ∣ wait → PublishesCeiling answer reply wait) := by
  intro answer wait
  have seconds := toInt_deniedSecs nonneg
  have middle : response.retryAfterSecs = if 0 < wait then max 1 (wait / 1000) else 0 := by
    rw [RateLimitResponse.retryAfterSecs, carries.2.2.1]
  have wholeSeconds : wait ≤ 1000 ∨ 1000 ∣ wait →
      max 1 (wait / 1000) = ceilSecs wait := by
    rw [ceilSecs]
    omega
  have reset := denied_reset hmacSha256 name hmacSecret asked ts denied
  have retryAfter := denied_retryAfter hmacSha256 name hmacSecret asked ts denied
  simp only [Int64.lt_iff_toInt_lt, Int64.toInt_zero, seconds, max_comm _ (1 : Int)]
    at reset retryAfter
  refine ⟨max 1 (wait / 1000), _, ?_, reset, retryAfter, ?_, ?_, ?_, wholeSeconds,
    middleware.dispatch_denied request callNext checked (carries.1.trans denied), rfl,
    congrArg (fun number => some (toString number)) middle, ?_⟩
  · simp [answer, checkHandler, denied]
  · omega
  · omega
  · rw [ceilSecs]
    omega
  · intro positive whole
    rw [if_pos positive] at retryAfter middle
    rw [PublishesCeiling, ← wholeSeconds whole, ← middle]
    exact ⟨reset.trans (by rw [middle]), retryAfter.trans (by rw [middle]), rfl⟩

def RateLimitMiddleware.answering (response : RateLimitResponse) :
    RateLimitMiddleware Unit Empty where
  limiter _ _ _ := .ok response
  resourceFn _ := "/api/orders"
  clientIdFn _ := "alice"
  cost := 1

theorem published_waits_minute :
    let d : Decision :=
      ⟨false, 1, 0, 60000, "fixed-window limit 1/1 exceeded, resets in 60000ms"⟩
    let answer := checkHandler sampleHmac "fixed_window" none ⟨"alice", "/", 1⟩ d 0
    let response : RateLimitResponse :=
      ⟨false, 0, 60000, d.reason, by decide, by decide⟩
    let middleware := RateLimitMiddleware.answering response
    let callNext : Unit → Except Empty (RateLimitMiddleware.Response Unit) :=
      fun _ => .ok ⟨200, [], .inr ()⟩
    ∃ reply, middleware.dispatch () callNext = .ok reply ∧
      PublishesCeiling answer reply 60000 := by
  intro d answer response middleware callNext
  have carries : response.Carries d := ⟨rfl, rfl, rfl, rfl⟩
  rcases published_waits sampleHmac "fixed_window" none ⟨"alice", "/", 1⟩ d 0 middleware
      () callNext response rfl carries rfl (by decide) with
    ⟨seconds, reply, -, -, -, -, -, -, -, dispatched, -, -, published⟩
  exact ⟨reply, dispatched, published (by decide) (.inr (by decide))⟩

/-- A wait of a second and a half is published as one second, and a wait of zero as
zero seconds by one server and not at all by the other. -/
theorem waits_published_short :
    let d (retryAfterMs : Int64) : Decision := ⟨false, 1, 0, retryAfterMs, "denied"⟩
    let answer (retryAfterMs : Int64) :=
      checkHandler sampleHmac "fixed_window" none ⟨"alice", "/", 1⟩ (d retryAfterMs) 0
    let halves : RateLimitResponse := ⟨false, 0, 1500, "denied", by decide, by decide⟩
    let none : RateLimitResponse := ⟨false, 0, 0, "denied", by decide, by decide⟩
    let callNext : Unit → Except Empty (RateLimitMiddleware.Response Unit) :=
      fun _ => .ok ⟨200, [], .inr ()⟩
    (∃ reply, (RateLimitMiddleware.answering halves).dispatch () callNext = .ok reply ∧
      halves.Carries (d 1500) ∧ reply.header "retry-after" = some "1" ∧
      ¬PublishesCeiling (answer 1500) reply 1500) ∧
    (∃ reply, (RateLimitMiddleware.answering none).dispatch () callNext = .ok reply ∧
      none.Carries (d 0) ∧ reply.header "retry-after" = some "0" ∧
      (answer 0).header "retry-after" = .none ∧
      ¬PublishesCeiling (answer 0) reply 0) := by
  intro d answer halves none callNext
  constructor
  · refine ⟨_, rfl, ⟨rfl, rfl, rfl, rfl⟩, by decide +kernel, ?_⟩
    rintro ⟨-, -, published⟩
    exact absurd published (by decide +kernel)
  · refine ⟨_, rfl, ⟨rfl, rfl, rfl, rfl⟩, by decide +kernel, by decide +kernel, ?_⟩
    rintro ⟨-, published, -⟩
    exact absurd published (by decide +kernel)

end RateLimiting
