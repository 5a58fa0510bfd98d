import Mathlib.Data.List.Induction
import RateLimiting.History
import RateLimiting.Store.Lawful

/-! # Sequential runs

Calls that run one after another, over any lawful store, are those of an atomic
table: each takes one step of its algorithm on the bytes under its key and
leaves every other key alone. -/

namespace RateLimiting

structure Arrival (loop : CheckLoop) where
  now : loop.Time
  request : CheckRequest

def Arrival.key {loop : CheckLoop} (arrival : Arrival loop) : String :=
  arrival.request.key loop

/-! ## The atomic table -/

abbrev Table := String → Option Bytes

namespace Table

variable {loop : CheckLoop} (json : SerdeJson loop.State)

def state (table : Table) (arrival : Arrival loop) : loop.State :=
  ((table arrival.key).bind json.fromSlice).getD (loop.fresh arrival.now)

def serve (table : Table) (arrival : Arrival loop) : Decision × Table :=
  let outcome := loop.step arrival.now (table.state json arrival) arrival.request.cost
  (outcome.2, Function.update table arrival.key (some (json.toVec outcome.1)))

def serveAll : Table → List (Arrival loop) → List Decision × Table
  | table, [] => ([], table)
  | table, arrival :: rest =>
      let (decision, after) := table.serve json arrival
      let (decisions, final) := after.serveAll rest
      (decision :: decisions, final)

@[simp] theorem serveAll_nil (table : Table) :
    table.serveAll json ([] : List (Arrival loop)) = ([], table) := rfl

@[simp] theorem serveAll_cons (table : Table) (arrival : Arrival loop)
    (rest : List (Arrival loop)) :
    table.serveAll json (arrival :: rest) =
      ((table.serve json arrival).1 ::
          ((table.serve json arrival).2.serveAll json rest).1,
        ((table.serve json arrival).2.serveAll json rest).2) := rfl

theorem serveAll_append (table : Table) (first rest : List (Arrival loop)) :
    table.serveAll json (first ++ rest) =
      ((table.serveAll json first).1 ++
          ((table.serveAll json first).2.serveAll json rest).1,
        ((table.serveAll json first).2.serveAll json rest).2) := by
  induction first generalizing table with
  | nil => rfl
  | cons arrival first induction => simp [induction]

theorem serve_decision_congr {left right : Table} {arrival : Arrival loop}
    (same : left arrival.key = right arrival.key) :
    (left.serve json arrival).1 = (right.serve json arrival).1 := by
  simp [serve, state, same]

theorem serve_other (table : Table) (arrival : Arrival loop) {key : String}
    (different : key ≠ arrival.key) :
    (table.serve json arrival).2 key = table key :=
  Function.update_of_ne different _ _

theorem serve_key_congr {left right : Table} {arrival : Arrival loop}
    (same : left arrival.key = right arrival.key) :
    (left.serve json arrival).2 arrival.key =
      (right.serve json arrival).2 arrival.key := by
  simp [serve, state, same]

/-- The calls on one key, absent at first, make a serial history. -/
theorem serial_history (table : Table) {key : String} (absent : table key = none)
    (calls : List (Arrival loop)) (oneKey : ∀ call ∈ calls, call.key = key) :
    ∃ history : History loop Unit, history.Serial ∧
      (history.map fun commit => (commit.now, commit.cost)) =
        calls.map (fun call => (call.now, call.request.cost)) ∧
      history.map Commit.decision = (table.serveAll json calls).1 ∧
      (table.serveAll json calls).2 key = history.final.map json.toVec := by
  induction calls using List.reverseRecOn with
  | nil => exact ⟨[], .nil, rfl, rfl, absent⟩
  | append_singleton calls call induction =>
      rcases induction fun other member => oneKey other (by simp [member]) with
        ⟨history, serial, arguments, decisions, stored⟩
      have isKey : call.key = key := oneKey call (by simp)
      have found : state json (table.serveAll json calls).2 call =
          history.final.getD (loop.fresh call.now) := by
        rw [state, isKey, stored]
        cases history.final <;> simp
      let after := (loop.step call.now (history.final.getD (loop.fresh call.now))
        call.request.cost).1
      refine ⟨history ++ [⟨(), key, call.now, call.request.cost, history.final, after⟩],
        .snoc serial rfl rfl, ?_, ?_, ?_⟩
      · simp [arguments]
      · simp [serveAll_append, decisions, serve, found, Commit.decision,
          Commit.outcome]
      · simp [serveAll_append, serve, found, isKey, after]

end Table

namespace CheckLoop

/-- The decisions that calls on one key get from what is stored there. -/
def decisions (loop : CheckLoop) :
    Option loop.State → List (loop.Time × UInt32) → List Decision
  | _, [] => []
  | stored, (now, cost) :: rest =>
      let outcome := loop.step now (stored.getD (loop.fresh now)) cost
      outcome.2 :: loop.decisions (some outcome.1) rest

end CheckLoop

theorem Table.serveAll_oneKey {loop : CheckLoop} (json : SerdeJson loop.State)
    (table : Table) {key : String} (calls : List (Arrival loop))
    (oneKey : ∀ call ∈ calls, call.key = key) :
    (table.serveAll json calls).1 =
      loop.decisions ((table key).bind json.fromSlice)
        (calls.map fun call => (call.now, call.request.cost)) := by
  induction calls generalizing table with
  | nil => rfl
  | cons call rest induction =>
      have isKey : call.key = key := oneKey call (by simp)
      have after : ((table.serve json call).2 key).bind json.fromSlice =
          some (loop.step call.now (table.state json call) call.request.cost).1 := by
        simp [serve, isKey]
      rw [serveAll_cons, induction _ fun other member => oneKey other (by simp [member]),
        after, ← isKey]
      rfl

/-! ## Runs over a store -/

namespace CheckLoop

variable {loop : CheckLoop} (json : SerdeJson loop.State) {I : Interface}
  (backend : LawfulStore I)

theorem attempt_run (arrival : Arrival loop) (world : backend.machine.World) :
    ∃ after, (loop.attempt json backend.store arrival.key arrival.request.cost).run
        (checkMachine loop.Time backend.machine) backend.choice
        ⟨arrival.now, world⟩ =
      (some (Table.serve json (backend.contents world) arrival).1,
        ⟨arrival.now, after⟩) ∧
      backend.contents after =
        (Table.serve json (backend.contents world) arrival).2 := by
  have found : (loop.load json arrival.now (backend.lookup world arrival.key)).1 =
      Table.state json (backend.contents world) arrival := by
    rw [load_state, Table.state, LawfulStore.contents, Option.bind_map]
    rfl
  refine ⟨_, ?_, backend.cas_contents world arrival.key _⟩
  simp only [attempt, Program.perform, Program.request_bind, Program.pure_bind,
    Program.run_request, Program.run_bind, Program.run_onStore, backend.get_run,
    found, load_version, backend.cas_success, if_true, Program.pure_eq,
    Program.run_pure]
  rfl

theorem check_run (arrival : Arrival loop) (world : backend.machine.World) :
    ∃ after, (loop.check json backend.store arrival.request.clientId
        arrival.request.resource arrival.request.cost).run
        (checkMachine loop.Time backend.machine) backend.choice
        ⟨arrival.now, world⟩ =
      ((Table.serve json (backend.contents world) arrival).1,
        ⟨arrival.now, after⟩) ∧
      backend.contents after =
        (Table.serve json (backend.contents world) arrival).2 := by
  rcases attempt_run json backend arrival world with ⟨after, ran, left⟩
  refine ⟨after, ?_, left⟩
  change (loop.retry json backend.store arrival.key arrival.request.cost 5).run _ _ _ = _
  rw [retry, Program.run_bind, ran]
  rfl

/-- One call with the store to itself. -/
def serve (world : backend.machine.World) (arrival : Arrival loop) :
    Decision × backend.machine.World :=
  let (decision, after) := (loop.check json backend.store arrival.request.clientId
      arrival.request.resource arrival.request.cost).run
    (checkMachine loop.Time backend.machine) backend.choice ⟨arrival.now, world⟩
  (decision, after.store)

variable (loop) in
/-- The calls in turn: their decisions and the store they leave. -/
def runCalls : List (Arrival loop) → backend.machine.World →
    List Decision × backend.machine.World
  | [], world => ([], world)
  | arrival :: rest, world =>
      let (decision, after) := serve json backend world arrival
      let (decisions, final) := runCalls rest after
      (decision :: decisions, final)

def found (world : backend.machine.World) (arrival : Arrival loop) : loop.State :=
  Table.state json (backend.contents world) arrival

theorem found_eq (world : backend.machine.World) (arrival : Arrival loop) :
    found json backend world arrival =
      ((backend.contents world arrival.key).bind json.fromSlice).getD
        (loop.fresh arrival.now) := rfl

def outcome (world : backend.machine.World) (arrival : Arrival loop) :
    loop.State × Decision :=
  loop.step arrival.now (found json backend world arrival) arrival.request.cost

theorem serve_decision (world : backend.machine.World) (arrival : Arrival loop) :
    (serve json backend world arrival).1 = (outcome json backend world arrival).2 := by
  rcases check_run json backend arrival world with ⟨after, ran, _⟩
  exact congrArg Prod.fst ran

theorem serve_contents (world : backend.machine.World) (arrival : Arrival loop) :
    backend.contents (serve json backend world arrival).2 =
      Function.update (backend.contents world) arrival.key
        (some (json.toVec (outcome json backend world arrival).1)) := by
  rcases check_run json backend arrival world with ⟨after, ran, left⟩
  have isAfter : (serve json backend world arrival).2 = after :=
    congrArg (fun ended => ended.2.store) ran
  rw [isAfter, left]
  rfl

/-- A sequential run refines the atomic table. -/
theorem runCalls_refines (calls : List (Arrival loop))
    (world : backend.machine.World) :
    (loop.runCalls json backend calls world).1 =
        (Table.serveAll json (backend.contents world) calls).1 ∧
      backend.contents (loop.runCalls json backend calls world).2 =
        (Table.serveAll json (backend.contents world) calls).2 := by
  induction calls generalizing world with
  | nil => exact ⟨rfl, rfl⟩
  | cons arrival rest induction =>
      have rest := induction (serve json backend world arrival).2
      rw [serve_contents] at rest
      simp only [runCalls, serve_decision, Table.serveAll_cons]
      exact ⟨congrArg _ rest.1, rest.2⟩

theorem runCalls_oneKey {key : String} (calls : List (Arrival loop))
    (oneKey : ∀ call ∈ calls, call.key = key) (world : backend.machine.World) :
    (loop.runCalls json backend calls world).1 =
      loop.decisions ((backend.contents world key).bind json.fromSlice)
        (calls.map fun call => (call.now, call.request.cost)) :=
  (runCalls_refines json backend calls world).1.trans
    (Table.serveAll_oneKey json _ calls oneKey)

theorem runCalls_absent {key : String} (calls : List (Arrival loop))
    (oneKey : ∀ call ∈ calls, call.key = key) {world : backend.machine.World}
    (absent : backend.lookup world key = none) :
    (loop.runCalls json backend calls world).1 =
      loop.decisions none (calls.map fun call => (call.now, call.request.cost)) := by
  rw [runCalls_oneKey json backend calls oneKey, LawfulStore.contents, absent]
  rfl

end CheckLoop

end RateLimiting
