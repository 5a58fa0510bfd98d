import Mathlib.Algebra.Group.Nat.Defs
import RateLimiting.Limiter
import RateLimiting.Store.Basic

/-! # The check loop

The five limiters share one loop: read the clock, read the stored state, compute
the next state and the decision, write it back with compare-and-swap, and start
again on conflict, at most five times. A `CheckLoop` is what differs. -/

namespace RateLimiting

/-- What a check may ask for: its clock, or an operation of the store. -/
inductive CheckOp (Op : Type)
  | now
  | store (op : Op)

@[reducible] def checkInterface (Time : Type) (I : Interface) : Interface where
  Op := CheckOp I.Op
  Reply
    | .now => Time
    | .store op => I.Reply op

def Program.onStore (Time : Type) {I : Interface} {α : Type} :
    Program I α → Program (checkInterface Time I) α
  | .pure value => .pure value
  | .request op next =>
      .request (.store op) fun reply => (next reply).onStore Time

structure CheckWorld (Time Store : Type) where
  clock : Time
  store : Store

/-- The clock is shared; the environment sets it. -/
@[reducible] def checkMachine (Time : Type) {I : Interface} (m : Machine I) :
    Machine (checkInterface Time I) where
  World := CheckWorld Time m.World
  Choice := m.Choice
  Change := Time
  perform
    | .now, _, world => (world.clock, world)
    | .store op, choice, world =>
        ((m.perform op choice world.store).1,
          { world with store := (m.perform op choice world.store).2 })
  evolve clock world := { world with clock := clock }

theorem Program.run_onStore (Time : Type) {I : Interface} {α : Type} (m : Machine I)
    (choice : m.Choice) (program : Program I α) (world : CheckWorld Time m.World) :
    (program.onStore Time).run (checkMachine Time m) choice world =
      ((program.run m choice world.store).1,
        { world with store := (program.run m choice world.store).2 }) := by
  induction program generalizing world with
  | pure value => rfl
  | request op next induction => exact induction _ _

/-- One rate-limiting algorithm with its configuration. `step` is the body of
the loop between the read and the write. The two laws say that the decision
given up with after five conflicts is a denial and is told apart from every
decision of `step`. -/
structure CheckLoop where
  name : String
  Time : Type
  /-- The reading as a number of the clock's own units. -/
  reading : Time → Nat
  State : Type
  /-- The state of a client that is absent, or whose bytes do not parse. -/
  fresh : (now : Time) → State
  step : (now : Time) → State → (cost : UInt32) → State × Decision
  fallback : Decision
  fallback_denied : fallback.allowed = false
  step_ordinary : ∀ now state cost, (step now state cost).2 ≠ fallback

/-- A reading of `now_ms`, the milliseconds since the Unix epoch: the source
takes the duration since the epoch, which is never negative. -/
abbrev Millis := { ms : Int64 // 0 ≤ ms }

def Millis.reading (now : Millis) : Nat :=
  now.val.toInt.toNat

theorem Millis.toInt_nonneg (now : Millis) : 0 ≤ now.val.toInt :=
  Int64.le_iff_toInt_le.mp now.property

theorem Millis.coe_reading (now : Millis) : (now.reading : Int) = now.val.toInt :=
  Int.toNat_of_nonneg now.toInt_nonneg

theorem Millis.reading_lt (now : Millis) : now.reading < 2 ^ 63 := by
  have bound := now.val.toInt_lt
  rw [← now.coe_reading] at bound
  omega

theorem Millis.exists_reading {ms : Nat} (fits : ms < 2 ^ 63) :
    ∃ now : Millis, now.reading = ms := by
  have value := Int64.toInt_ofNat_of_lt fits
  refine ⟨⟨Int64.ofNat ms, ?_⟩, ?_⟩
  · rw [Int64.le_iff_toInt_le, value]
    exact Int.natCast_nonneg ms
  · rw [Millis.reading, value]
    exact Int.toNat_natCast ms

/-- What a check returns after five conflicts. -/
def concurrentUpdate (limit : Int64) : Decision where
  allowed := false
  limit := limit
  remaining := 0
  retryAfterMs := 100
  reason := "rate-limit check failed (concurrent update), retry in 100ms"

theorem ne_concurrentUpdate_of_head (decision : Decision) (limit : Int64)
    (head : decision.reason.toList.head? ≠ some 'r') :
    decision ≠ concurrentUpdate limit := by
  intro equal
  apply head
  simp [equal, concurrentUpdate]

namespace CheckLoop

variable (loop : CheckLoop) (json : SerdeJson loop.State)

def key (clientId resource : String) : String :=
  s!"{loop.name}/{clientId}/{resource}"

theorem key_eq_iff (left right : String × String) :
    loop.key left.1 left.2 = loop.key right.1 right.2 ↔
      s!"{left.1}/{left.2}" = s!"{right.1}/{right.2}" := by
  simp [key, toString, String.append_assoc]

def load (now : loop.Time) :
    Option (Bytes × Int64) → loop.State × Option Int64
  | some (bytes, version) =>
      ((json.fromSlice bytes).getD (loop.fresh now), some version)
  | none => (loop.fresh now, none)

@[simp] theorem load_state (now : loop.Time) (entry : Option (Bytes × Int64)) :
    (loop.load json now entry).1 =
      (entry.bind fun found => json.fromSlice found.1).getD (loop.fresh now) := by
  cases entry <;> rfl

@[simp] theorem load_version (now : loop.Time) (entry : Option (Bytes × Int64)) :
    (loop.load json now entry).2 = entry.map Prod.snd := by
  cases entry <;> rfl

variable {I : Interface} (store : StateStore I)

def attempt (key : String) (cost : UInt32) :
    Program (checkInterface loop.Time I) (Option Decision) := do
  let now ← Program.perform (I := checkInterface loop.Time I) .now
  let entry ← (store.get key).onStore loop.Time
  let (state, version) := loop.load json now entry
  let (newState, decision) := loop.step now state cost
  let result ←
    (store.cas key version (json.toVec newState)).onStore loop.Time
  pure (if result.success then some decision else none)

/-- The passes that are left. The pause before a retry is time passing, which
the environment may do between any two operations. -/
def retry (key : String) (cost : UInt32) :
    Nat → Program (checkInterface loop.Time I) Decision
  | 0 => pure loop.fallback
  | attempts + 1 => do
      match ← loop.attempt json store key cost with
      | some decision => pure decision
      | none => retry key cost attempts

def check (clientId resource : String) (cost : UInt32) :
    Program (checkInterface loop.Time I) Decision :=
  loop.retry json store (loop.key clientId resource) cost 5

end CheckLoop

def CheckRequest.key (loop : CheckLoop) (request : CheckRequest) : String :=
  loop.key request.clientId request.resource

end RateLimiting
