import RateLimiting.Algorithms.Basic

/-! # Serial histories

The abstract reading of a rate limiter: one state per key, changed by one check
at a time. A history lists the checks that took effect, in order; it is serial
when each of them ran on the state that the one before it left. -/

namespace RateLimiting

theorem sorted_snoc {α : Type} {reading : α → Nat} {items : List α} {last : α}
    (sorted : ((items ++ [last]).map reading).Pairwise (· ≤ ·)) :
    (items.map reading).Pairwise (· ≤ ·) ∧
      ∀ item ∈ items, reading item ≤ reading last := by
  rw [List.map_append, List.pairwise_append] at sorted
  rcases sorted with ⟨sorted, _, upToLast⟩
  refine ⟨sorted, fun item member => ?_⟩
  exact upToLast _ (List.mem_map_of_mem member) _ (by simp)

/-- One check that took effect: when it read the clock, what it read from the
store, if that was a state, and what it wrote. -/
structure Commit (loop : CheckLoop) (ι : Type) where
  call : ι
  key : String
  now : loop.Time
  cost : UInt32
  before : Option loop.State
  after : loop.State

namespace Commit

variable {loop : CheckLoop} {ι : Type}

def outcome (commit : Commit loop ι) : loop.State × Decision :=
  loop.step commit.now (commit.before.getD (loop.fresh commit.now)) commit.cost

def decision (commit : Commit loop ι) : Decision :=
  commit.outcome.2

def allowed (commit : Commit loop ι) : Bool :=
  commit.decision.allowed

/-- What the check took from the quota. -/
def charge (commit : Commit loop ι) : Nat :=
  if commit.allowed then commit.cost.toNat else 0

end Commit

abbrev History (loop : CheckLoop) (ι : Type) := List (Commit loop ι)

namespace History

variable {loop : CheckLoop} {ι : Type}

def on (history : History loop ι) (key : String) : History loop ι :=
  history.filter fun commit => commit.key = key

def final (history : History loop ι) : Option loop.State :=
  history.getLast?.map Commit.after

/-- Each check ran on the state that the one before it left. -/
inductive Serial : History loop ι → Prop
  | nil : Serial []
  | snoc {history : History loop ι} {commit : Commit loop ι}
      (serial : Serial history) (read : commit.before = history.final)
      (wrote : commit.after = commit.outcome.1) : Serial (history ++ [commit])

def replay (loop : CheckLoop) (calls : List (loop.Time × UInt32)) :
    Option loop.State :=
  calls.foldl (fun state (now, cost) =>
    some (loop.step now (state.getD (loop.fresh now)) cost).1) none

@[simp] theorem on_nil (key : String) : on ([] : History loop ι) key = [] := rfl

@[simp] theorem on_append (history rest : History loop ι) (key : String) :
    on (history ++ rest) key = on history key ++ on rest key :=
  List.filter_append ..

theorem on_singleton (commit : Commit loop ι) (key : String) :
    on [commit] key = if commit.key = key then [commit] else [] := by
  by_cases same : commit.key = key <;> simp [on, same]

@[simp] theorem final_nil : final ([] : History loop ι) = none := rfl

@[simp] theorem final_snoc (history : History loop ι) (commit : Commit loop ι) :
    final (history ++ [commit]) = some commit.after := by
  simp [final]

theorem final_append (history rest : History loop ι) :
    final (history ++ rest) = (final rest).or (final history) := by
  rw [final, List.getLast?_append, Option.map_or]
  rfl

theorem Serial.take {history : History loop ι} (serial : Serial history)
    (count : Nat) : Serial (history.take count) := by
  induction serial with
  | nil => simpa using Serial.nil
  | @snoc history commit serial read wrote induction =>
      by_cases inside : count ≤ history.length
      · rw [List.take_append_of_le_length inside]
        exact induction
      · rw [List.take_of_length_le (by simp; omega)]
        exact .snoc serial read wrote

theorem Serial.before_eq {history : History loop ι} (serial : Serial history)
    {index : Nat} (bound : index < history.length) :
    history[index].before = final (history.take index) := by
  induction serial with
  | nil => simp at bound
  | @snoc history commit serial read wrote induction =>
      rw [List.length_append, List.length_singleton] at bound
      rcases Nat.lt_succ_iff_lt_or_eq.mp bound with earlier | rfl
      · rw [List.getElem_append_left earlier,
          List.take_append_of_le_length (Nat.le_of_lt earlier)]
        exact induction earlier
      · rw [List.getElem_concat_length rfl, List.take_left]
        exact read

theorem Serial.final_eq_replay {history : History loop ι}
    (serial : Serial history) :
    final history =
      replay loop (history.map fun commit => (commit.now, commit.cost)) := by
  induction serial with
  | nil => rfl
  | @snoc history commit _ read wrote induction =>
      have foldStep : replay loop
          ((history ++ [commit]).map fun commit => (commit.now, commit.cost)) =
          some (loop.step commit.now
            ((replay loop (history.map fun commit => (commit.now, commit.cost))).getD
              (loop.fresh commit.now)) commit.cost).1 := by
        simp [replay]
      rw [final_snoc, foldStep, wrote, Commit.outcome, read, induction]

end History

end RateLimiting
