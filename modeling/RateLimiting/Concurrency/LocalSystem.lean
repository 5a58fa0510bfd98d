import RateLimiting.Concurrency.CheckTrace
import RateLimiting.History
import RateLimiting.Store.Local

/-! # Concurrent checks over the in-process store

Any number of checks run against one `LocalStore` and one clock. The trace of a
run determines its writes, in order, and for each of them the clock reading and
the stored state that the writing check had. -/

namespace RateLimiting

open CheckTrace

@[reducible] def localMachine (loop : CheckLoop) :
    Machine (checkInterface loop.Time LocalStore.interface) :=
  checkMachine loop.Time LocalStore.machine

/-! ## The passes of a check -/

namespace CheckLoop

variable (loop : CheckLoop) (json : SerdeJson loop.State) (key : String) (cost : UInt32)

def swapped (attempts : Nat) (now : loop.Time) (entry : Option (Bytes × Int64))
    (result : CasResult) : Program (checkInterface loop.Time LocalStore.interface) Decision :=
  if result.success then .pure (loop.outcomeOf json cost now entry).2
  else loop.retry json LocalStore.stateStore key cost attempts

def loaded (attempts : Nat) (now : loop.Time) (entry : Option (Bytes × Int64)) :
    Program (checkInterface loop.Time LocalStore.interface) Decision :=
  .request (.store (.cas key (entry.map Prod.snd)
      (json.toVec (loop.outcomeOf json cost now entry).1)))
    (loop.swapped json key cost attempts now entry)

def clocked (attempts : Nat) (now : loop.Time) :
    Program (checkInterface loop.Time LocalStore.interface) Decision :=
  .request (.store (.get key)) fun entry =>
    loop.loaded json key cost attempts now entry

theorem retry_local (attempts : Nat) :
    loop.retry json LocalStore.stateStore key cost (attempts + 1) =
      .request .now fun now => loop.clocked json key cost attempts now := by
  rw [retry_succ]
  rfl

end CheckLoop

section Phase

variable {loop : CheckLoop} (json : SerdeJson loop.State)

/-- Where a check is in its passes, with what is known of it there. -/
inductive LocalPhase (facts : PassFacts loop) (request : CheckRequest)
    (program : Program (checkInterface loop.Time LocalStore.interface) Decision) : Prop
  | ready (attempts : Nat) (known : facts.ready attempts) (isProgram : program =
      loop.retry json LocalStore.stateStore (request.key loop) request.cost attempts)
  | clocked (attempts : Nat) (now : loop.Time) (known : facts.clocked attempts now)
      (isProgram : program =
        loop.clocked json (request.key loop) request.cost attempts now)
  | loaded (attempts : Nat) (now : loop.Time) (entry : Option (Bytes × Int64))
      (known : facts.loaded attempts now entry) (isProgram : program =
        loop.loaded json (request.key loop) request.cost attempts now entry)
  | returned (decision : Decision) (known : facts.returned decision)
      (isProgram : program = .pure decision)

/-- The next operation of a check, with what follows its answer. -/
inductive LocalMove (facts : PassFacts loop) (request : CheckRequest) :
    (op : (checkInterface loop.Time LocalStore.interface).Op) →
    ((checkInterface loop.Time LocalStore.interface).Reply op →
      Program (checkInterface loop.Time LocalStore.interface) Decision) → Prop
  | clock (attempts : Nat) (known : facts.ready (attempts + 1)) :
      LocalMove facts request .now fun now =>
        loop.clocked json (request.key loop) request.cost attempts now
  | read (attempts : Nat) (now : loop.Time) (known : facts.clocked attempts now) :
      LocalMove facts request (.store (.get (request.key loop))) fun entry =>
        loop.loaded json (request.key loop) request.cost attempts now entry
  | swap (attempts : Nat) (now : loop.Time) (entry : Option (Bytes × Int64))
      (known : facts.loaded attempts now entry) :
      LocalMove facts request (.store (.cas (request.key loop) (entry.map Prod.snd)
          (json.toVec (loop.outcomeOf json request.cost now entry).1)))
        (loop.swapped json (request.key loop) request.cost attempts now entry)

variable {json} {facts after : PassFacts loop} {request : CheckRequest}

theorem LocalPhase.mono
    {program : Program (checkInterface loop.Time LocalStore.interface) Decision}
    (phase : LocalPhase json facts request program)
    (ready : ∀ attempts, facts.ready attempts → after.ready attempts)
    (clocked : ∀ attempts now, facts.clocked attempts now → after.clocked attempts now)
    (loaded : ∀ attempts now entry, facts.loaded attempts now entry →
      after.loaded attempts now entry)
    (returned : ∀ decision, facts.returned decision → after.returned decision) :
    LocalPhase json after request program := by
  cases phase with
  | ready attempts known isProgram => exact .ready attempts (ready _ known) isProgram
  | clocked attempts now known isProgram =>
      exact .clocked attempts now (clocked _ _ known) isProgram
  | loaded attempts now entry known isProgram =>
      exact .loaded attempts now entry (loaded _ _ _ known) isProgram
  | returned decision known isProgram =>
      exact .returned decision (returned _ known) isProgram

variable {op : (checkInterface loop.Time LocalStore.interface).Op}
  {next : (checkInterface loop.Time LocalStore.interface).Reply op →
    Program (checkInterface loop.Time LocalStore.interface) Decision}

theorem LocalPhase.move (phase : LocalPhase json facts request (.request op next)) :
    LocalMove json facts request op next := by
  cases phase with
  | ready attempts known isProgram =>
      cases attempts with
      | zero => cases isProgram
      | succ attempts =>
          rw [CheckLoop.retry_local] at isProgram
          cases isProgram
          exact .clock attempts known
  | clocked attempts now known isProgram =>
      cases isProgram
      exact .read attempts now known
  | loaded attempts now entry known isProgram =>
      cases isProgram
      exact .swap attempts now entry known
  | returned decision known isProgram => cases isProgram

/-- One operation of a check, and what is known after it. -/
theorem LocalMove.phase (move : LocalMove json facts request op next) (choice : Unit)
    (world : CheckWorld loop.Time LocalStore)
    (clock : ∀ attempts, facts.ready (attempts + 1) → op = .now →
      after.clocked attempts world.clock)
    (read : ∀ attempts now, facts.clocked attempts now →
      op = .store (.get (request.key loop)) →
        after.loaded attempts now (world.store.state (request.key loop)))
    (swap : ∀ attempts now entry, facts.loaded attempts now entry →
      op = .store (.cas (request.key loop) (entry.map Prod.snd)
          (json.toVec (loop.outcomeOf json request.cost now entry).1)) →
        if world.store.accepts (request.key loop) (entry.map Prod.snd)
        then after.returned (loop.outcomeOf json request.cost now entry).2
        else after.ready attempts) :
    LocalPhase json after request
      (next ((localMachine loop).perform op choice world).1) := by
  cases move with
  | clock attempts known => exact .clocked attempts _ (clock attempts known rfl) rfl
  | read attempts now known => exact .loaded attempts now _ (read attempts now known rfl) rfl
  | swap attempts now entry known =>
      have left := swap attempts now entry known rfl
      cases accepted : world.store.accepts (request.key loop) (entry.map Prod.snd) with
      | true =>
          rw [accepted] at left
          refine .returned _ left ?_
          simp [CheckLoop.swapped, LocalStore.cas_of_accepts _ _ _ _ accepted]
      | false =>
          rw [accepted] at left
          refine .ready attempts left ?_
          simp [CheckLoop.swapped, LocalStore.cas_of_not_accepts _ _ _ _ accepted]

end Phase

/-! ## Runs -/

variable (loop : CheckLoop) (json : SerdeJson loop.State) {ι : Type}

/-- The calls `request` of one limiter, none of which has started. -/
def localSystem (request : ι → CheckRequest) (start : loop.Time) :
    Config (localMachine loop) ι Decision where
  world := { clock := start, store := LocalStore.new }
  threads call :=
    loop.check json LocalStore.stateStore (request call).clientId
      (request call).resource (request call).cost
  trace := []

abbrev LocalTrace (ι : Type) := List (Event (localMachine loop) ι)

namespace LocalTrace

variable {loop}

/-- The write an operation made: a compare-and-swap that succeeded. -/
def write? (event : Event (localMachine loop) ι) : Option (ι × String × Bytes) :=
  match event.op with
  | .store (.cas key expected value) =>
      if event.before.store.accepts key expected then
        some (event.thread, key, value)
      else none
  | _ => none

def writes (trace : LocalTrace loop ι) : List (ι × String × Bytes) :=
  trace.reverse.filterMap write?

def found (event : Event (localMachine loop) ι) (key : String) :
    Option loop.State :=
  (event.before.store.state key).bind fun entry => json.fromSlice entry.1

variable [DecidableEq ι]

variable (request : ι → CheckRequest)

/-- The check that an operation completed, after the operations `older`. -/
def commit? (older : LocalTrace loop ι) (event : Event (localMachine loop) ι) :
    Option (Commit loop ι) := do
  let (call, key, value) ← write? event
  let now ← captured call older
  let after ← json.fromSlice value
  pure {
    call := call
    key := key
    now := now
    cost := (request call).cost
    before := found json event key
    after := after }

def history : LocalTrace loop ι → History loop ι
  | [] => []
  | event :: older => history older ++ (commit? json request older event).toList

def nonDecreasing (start : loop.Time)
    (actions : List (Action (localMachine loop) ι)) : Prop :=
  ((start :: actions.filterMap fun
    | .evolve clock => some clock
    | .step _ _ => none).map loop.reading).Pairwise (· ≤ ·)

instance (start : loop.Time) (actions : List (Action (localMachine loop) ι)) :
    Decidable (nonDecreasing start actions) :=
  inferInstanceAs (Decidable (List.Pairwise _ _))

end LocalTrace

end RateLimiting
