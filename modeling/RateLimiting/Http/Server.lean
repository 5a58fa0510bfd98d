import RateLimiting.Foundation.Numerals
import RateLimiting.Limiter
import RateLimiting.Store.Basic

/-! # The HTTP server

The handler of `POST /check`: the decision of the limiter as a status, the draft
rate-limit headers, the authentication code and a body. The keyed hash is a
parameter. -/

namespace RateLimiting

def asBytes (text : String) : Bytes :=
  text.toByteArray.data.toList

theorem asBytes_injective : Function.Injective asBytes := by
  intro left right same
  exact String.toByteArray_inj.mp (ByteArray.ext (Array.toList_inj.mp same))

namespace HttpServer

structure CheckResponse where
  allowed : Bool
  remaining : Int64
  retryAfterMs : Int64
  reason : String
deriving DecidableEq, Repr

structure Response where
  status : Nat
  headers : List (String × String)
  body : CheckResponse
deriving DecidableEq, Repr

def Response.header (response : Response) (name : String) : Option String :=
  response.headers.lookup name

/-- What `HeaderValue::from_str` accepts: visible ASCII, spaces and tabs. -/
def isHeaderChar (c : Char) : Bool :=
  (32 ≤ c.toNat ∧ c.toNat < 127) ∨ c.toNat = 9

/-- The closure `hv`. -/
def headerValue (text : String) : String :=
  if text.toList.all isHeaderChar then text else "0"

section Mac

variable (hmacSha256 : (key message : Bytes) → Bytes)

def hmacSha256Hex (secret message : String) : String :=
  String.ofList (Numerals.hex (hmacSha256 (asBytes secret) (asBytes message)))

def macPayload (request : CheckRequest) (d : Decision) (ts : Int64) : String :=
  s!"{request.clientId}|{request.resource}|{d.allowed}|{d.remaining}|" ++
    s!"{d.retryAfterMs}|{ts}"

/-- The handler, from the decision `d` of the limiter `name` and the time `ts`. -/
def checkHandler (name : String) (hmacSecret : Option String)
    (request : CheckRequest) (d : Decision) (ts : Int64) : Response :=
  let resetSecs : Int64 := if d.allowed then 0 else max (d.retryAfterMs / 1000) 1
  let retryAfter :=
    if !d.allowed && 0 < d.retryAfterMs then
      [("retry-after", headerValue s!"{resetSecs}")]
    else []
  let mac := match hmacSecret with
    | some secret =>
        let sig := hmacSha256Hex hmacSha256 secret (macPayload request d ts)
        [("x-ratelimit-mac", headerValue s!"t={ts},v={sig}")]
    | none => []
  { status := if d.allowed then 200 else 429
    headers :=
      [("ratelimit-limit", headerValue s!"{d.limit}"),
        ("ratelimit-remaining", headerValue s!"{d.remaining}"),
        ("ratelimit-reset", headerValue s!"{resetSecs}"),
        ("ratelimit-policy", headerValue s!"{name};l={d.limit}")] ++
      retryAfter ++ mac
    body := {
      allowed := d.allowed
      remaining := d.remaining
      retryAfterMs := d.retryAfterMs
      reason := d.reason } }

end Mac

end HttpServer

end RateLimiting
