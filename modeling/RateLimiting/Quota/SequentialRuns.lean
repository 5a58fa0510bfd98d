import RateLimiting.Quota.Admission
import RateLimiting.Sequential

/-! # Sequential runs as histories

The calls of a sequential run on one absent key, with their decisions, are a
serial history. What a range of clock readings was charged is the cost of the
calls that were allowed with such a reading. -/

namespace RateLimiting

def admittedWithin {loop : CheckLoop} (calls : List (Arrival loop))
    (decisions : List Decision) (within : loop.Time → Bool) : Nat :=
  (List.zipWith (fun call decision =>
    if within call.now then if decision.allowed then call.request.cost.toNat else 0
    else 0) calls decisions).sum

theorem admittedWithin_take_succ {loop : CheckLoop} {calls : List (Arrival loop)}
    {decisions : List Decision} {k : Nat} (bound : k < calls.length)
    (decided : k < decisions.length) (within : loop.Time → Bool) :
    admittedWithin (calls.take (k + 1)) (decisions.take (k + 1)) within =
      admittedWithin (calls.take k) (decisions.take k) within +
        if within calls[k].now then
          if decisions[k].allowed then calls[k].request.cost.toNat else 0
        else 0 := by
  have sameLength : (calls.take k).length = (decisions.take k).length := by
    rw [List.length_take_of_le bound.le, List.length_take_of_le decided.le]
  rw [← List.take_append_getElem bound, ← List.take_append_getElem decided,
    admittedWithin, List.zipWith_append sameLength, List.sum_append]
  simp [admittedWithin]

structure History.Recounts {loop : CheckLoop} (history : History loop Unit)
    (calls : List (Arrival loop)) (decisions : List Decision) : Prop where
  serial : history.Serial
  arguments : (history.map fun commit => (commit.now, commit.cost)) =
    calls.map fun call => (call.now, call.request.cost)
  decided : history.map Commit.decision = decisions

theorem CheckLoop.runCalls_recounts {loop : CheckLoop} (json : SerdeJson loop.State)
    {I : Interface} (backend : LawfulStore I) {world : backend.machine.World}
    {key : String} (absent : backend.lookup world key = none)
    (calls : List (Arrival loop)) (oneKey : ∀ call ∈ calls, call.key = key) :
    ∃ history : History loop Unit,
      history.Recounts calls (loop.runCalls json backend calls world).1 ∧
        backend.contents (loop.runCalls json backend calls world).2 key =
          history.final.map json.toVec := by
  have empty : backend.contents world key = none := by
    rw [LawfulStore.contents, absent]
    rfl
  rcases Table.serial_history json (backend.contents world) empty calls oneKey with
    ⟨history, serial, arguments, decided, stored⟩
  rcases runCalls_refines json backend calls world with ⟨decisions, contents⟩
  exact ⟨history, ⟨serial, arguments, decided.trans decisions.symm⟩, contents ▸ stored⟩

namespace History

namespace Recounts

variable {loop : CheckLoop} {history : History loop Unit}
  {calls : List (Arrival loop)} {decisions : List Decision}

theorem length_eq (recounts : history.Recounts calls decisions) :
    history.length = calls.length := by
  simpa using congrArg List.length recounts.arguments

theorem decisions_length (recounts : history.Recounts calls decisions) :
    decisions.length = calls.length := by
  rw [← recounts.decided, List.length_map, recounts.length_eq]

theorem arguments_eq (recounts : history.Recounts calls decisions) {k : Nat}
    (inside : k < history.length) (bound : k < calls.length) :
    history[k].now = calls[k].now ∧ history[k].cost = calls[k].request.cost := by
  have entry := congrArg (·[k]?) recounts.arguments
  simpa [inside, bound] using entry

theorem decision_eq (recounts : history.Recounts calls decisions) {k : Nat}
    (inside : k < history.length) (bound : k < decisions.length) :
    decisions[k] = history[k].decision := by
  have entry := congrArg (·[k]?) recounts.decided
  simpa [inside, bound] using entry.symm

theorem decision_eq_step (recounts : history.Recounts calls decisions) {k : Nat}
    (bound : k < calls.length) (decided : k < decisions.length) :
    decisions[k] = (loop.step calls[k].now
      ((final (history.take k)).getD (loop.fresh calls[k].now))
        calls[k].request.cost).2 := by
  have inside : k < history.length := recounts.length_eq ▸ bound
  rcases recounts.arguments_eq inside bound with ⟨sameNow, sameCost⟩
  rw [recounts.decision_eq inside decided, Commit.decision, Commit.outcome,
    recounts.serial.before_eq inside, sameNow, sameCost]

theorem take (recounts : history.Recounts calls decisions) (k : Nat) :
    Recounts (history.take k) (calls.take k) (decisions.take k) where
  serial := recounts.serial.take k
  arguments := by rw [List.map_take, recounts.arguments, List.map_take]
  decided := by rw [List.map_take, recounts.decided]

theorem charged_eq (recounts : history.Recounts calls decisions)
    (within : loop.Time → Bool) :
    history.charged within = admittedWithin calls decisions within := by
  unfold charged admittedWithin
  congr 1
  apply List.ext_getElem
  · simp [recounts.length_eq, recounts.decisions_length]
  · intro k left right
    have inside : k < history.length := by simpa using left
    have bound : k < calls.length := recounts.length_eq ▸ inside
    have decided : k < decisions.length := recounts.decisions_length ▸ bound
    rcases recounts.arguments_eq inside bound with ⟨sameNow, sameCost⟩
    simp [recounts.decision_eq inside decided, Commit.charge, Commit.allowed,
      sameNow, sameCost]

theorem charged_take_eq (recounts : history.Recounts calls decisions) (k : Nat)
    (within : loop.Time → Bool) :
    charged (history.take k) within =
      admittedWithin (calls.take k) (decisions.take k) within :=
  (recounts.take k).charged_eq within

theorem readings (recounts : history.Recounts calls decisions) :
    (history.map fun commit => loop.reading commit.now) =
      calls.map fun call => loop.reading call.now := by
  have same := congrArg (List.map fun pair => loop.reading pair.1) recounts.arguments
  rwa [List.map_map, List.map_map] at same

theorem reading_le (recounts : history.Recounts calls decisions)
    (ordered : (calls.map fun call => loop.reading call.now).Pairwise (· ≤ ·)) {k : Nat}
    (bound : k < calls.length) :
    ∀ commit ∈ history.take k,
      loop.reading commit.now ≤ loop.reading calls[k].now := by
  intro commit member
  rw [← recounts.readings] at ordered
  have inside : k < history.length := recounts.length_eq ▸ bound
  rcases List.mem_take_iff_getElem.mp member with ⟨j, earlier, rfl⟩
  have pair := List.pairwise_iff_getElem.mp ordered j k (by simp; omega) (by simpa)
    (by omega)
  rw [← (recounts.arguments_eq inside bound).1]
  simpa using pair

end Recounts

end History

end RateLimiting
