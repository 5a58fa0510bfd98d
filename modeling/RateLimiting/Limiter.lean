namespace RateLimiting

/-! # Rate-limit decisions -/

structure Decision where
  allowed : Bool
  limit : Int64
  remaining : Int64
  retryAfterMs : Int64
  reason : String
deriving DecidableEq, Repr

/-- The arguments of a check, as `POST /check` and the TCP protocol carry them. -/
structure CheckRequest where
  clientId : String
  resource : String
  cost : UInt32
deriving DecidableEq, Repr

end RateLimiting
