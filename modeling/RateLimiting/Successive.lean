import RateLimiting.Restarts

/-! # A call and the next one on its key

Calls on other keys change nothing that a call finds, so the next call on a key
takes its step on the state that the call before it wrote, however many calls on
other keys lie in between. -/

namespace RateLimiting

def Arrival.alone {loop : CheckLoop} (arrival : Arrival loop) : loop.alone.Call :=
  ⟨(), arrival.now, arrival.request⟩

namespace CheckLoop

variable {loop : CheckLoop} (json : SerdeJson loop.State) {I : Interface}
  (backend : LawfulStore I)

theorem runCalls_alone (calls : List (Arrival loop)) (world : backend.machine.World) :
    loop.runCalls json backend calls world =
      @Family.runCalls _ loop.alone json I backend (calls.map Arrival.alone) world := by
  induction calls generalizing world with
  | nil => rfl
  | cons call calls induction =>
      simp only [runCalls, List.map_cons, Family.runCalls, induction]
      rfl

theorem found_elsewhere {call : Arrival loop} (others : List (Arrival loop))
    (elsewhere : ∀ other ∈ others, other.key ≠ call.key)
    (world : backend.machine.World) :
    found json backend (loop.runCalls json backend others world).2 call =
      found json backend world call := by
  induction others generalizing world with
  | nil => rfl
  | cons other others induction =>
      have before := induction (fun call member => elsewhere call (by simp [member]))
        (serve json backend world other).2
      exact before.trans (@Family.found_serve_other _ loop.alone json I backend world
        other.alone call.alone (elsewhere other (by simp)))

/-! ## The next call -/

/-- A later call on the key of `first`, with calls on other keys in between. -/
structure Next (first : Arrival loop) where
  between : List (Arrival loop)
  call : Arrival loop
  elsewhere : ∀ other ∈ between, other.key ≠ first.key
  sameKey : call.key = first.key
  ordered : loop.reading first.now ≤ loop.reading call.now

namespace Next

variable {first : Arrival loop} (next : Next first)

/-- Its decision, when `first` is called on a store. -/
def decision (world : backend.machine.World) : Decision :=
  let after := (serve json backend world first).2
  (serve json backend (loop.runCalls json backend next.between after).2 next.call).1

theorem decision_eq (world : backend.machine.World) :
    next.decision json backend world =
      (loop.step next.call.now (outcome json backend world first).1
        next.call.request.cost).2 := by
  have written : found json backend (serve json backend world first).2 next.call =
      (outcome json backend world first).1 :=
    @Family.found_serve_self _ loop.alone json I backend world first.alone
      next.call.alone next.sameKey.symm
  have elsewhere : ∀ other ∈ next.between, other.key ≠ next.call.key := by
    rw [next.sameKey]
    exact next.elsewhere
  rw [decision, serve_decision, outcome,
    found_elsewhere json backend next.between elsewhere, written]

def again (first : Arrival loop) (later : loop.Time) (cost : UInt32)
    (ordered : loop.reading first.now ≤ loop.reading later) : Next first where
  between := []
  call := ⟨later, { first.request with cost := cost }⟩
  elsewhere _ member := absurd member List.not_mem_nil
  sameKey := rfl
  ordered := ordered

end Next

/-! ## Reachable stores -/

/-- A store left by calls, on whatever keys, that began without the key, and
whose readings are nondecreasing and up to `now`. -/
def Reached (key : String) (now : loop.Time) (world : backend.machine.World) : Prop :=
  ∃ (start : backend.machine.World) (earlier : List (Arrival loop)),
    backend.lookup start key = none ∧
      (earlier.map fun call => loop.reading call.now).Pairwise (· ≤ ·) ∧
      (∀ call ∈ earlier, loop.reading call.now ≤ loop.reading now) ∧
      (loop.runCalls json backend earlier start).2 = world

theorem Reached.of_one {key : String} {now : loop.Time} {start : backend.machine.World}
    (earlier : Arrival loop) (absent : backend.lookup start key = none)
    (ordered : loop.reading earlier.now ≤ loop.reading now) :
    Reached json backend key now (loop.runCalls json backend [earlier] start).2 :=
  ⟨start, [earlier], absent, List.pairwise_singleton .., by simpa using ordered, rfl⟩

variable {json backend}

theorem Keeps.found {holds : loop.Time → loop.State → Prop} (keeps : loop.Keeps holds)
    {world : backend.machine.World} {arrival : Arrival loop}
    (reached : Reached json backend arrival.key arrival.now world) :
    holds arrival.now (found json backend world arrival) := by
  rcases reached with ⟨start, earlier, absent, sorted, past, rfl⟩
  let calls := earlier.map Arrival.alone ++ [arrival.alone]
  have ordered : (calls.map fun call => loop.reading call.now).Pairwise (· ≤ ·) := by
    rw [List.map_append, List.map_map]
    refine List.pairwise_append.mpr ⟨sorted, List.pairwise_singleton .., ?_⟩
    simpa [Arrival.alone] using past
  have bound : earlier.length < calls.length := by simp [calls]
  have isLast : calls[earlier.length] = arrival.alone := by simp [calls]
  have before : calls.take earlier.length = earlier.map Arrival.alone := by simp [calls]
  have alone : loop.alone.Keeps (fun _ => True) holds := fun _ _ => keeps
  have held := alone.found json backend (fun _ _ => trivial) start ordered
    earlier.length bound (isLast ▸ absent)
  rw [isLast, before, ← runCalls_alone] at held
  exact held

end CheckLoop

end RateLimiting
