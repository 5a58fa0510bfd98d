import RateLimiting.Foundation.Program

/-! # The versioned key-value store -/

namespace RateLimiting

abbrev Bytes := List UInt8

structure CasResult where
  success : Bool
  /-- Version after a successful put, or the current version on conflict. -/
  version : Int64
deriving DecidableEq, Repr

/-- A store is a family of programs over the atomic operations of its backend:
one call may take several of them. -/
structure StateStore (I : Interface) where
  get : (key : String) → Program I (Option (Bytes × Int64))
  put : (key : String) → (value : Bytes) → Program I Int64
  cas : (key : String) → (expected : Option Int64) → (value : Bytes) →
    Program I CasResult

/-- How `serde_json` writes and reads one type of state. The law is the only
fact about the library that the development relies on. -/
structure SerdeJson (State : Type) where
  toVec : State → Bytes
  fromSlice : Bytes → Option State
  fromSlice_toVec : ∀ state, fromSlice (toVec state) = some state

attribute [simp] SerdeJson.fromSlice_toVec

end RateLimiting
