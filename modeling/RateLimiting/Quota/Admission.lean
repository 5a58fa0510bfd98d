import Mathlib.Algebra.BigOperators.Group.Finset.Basic
import Mathlib.Algebra.Order.BigOperators.Group.List
import Mathlib.Data.Fintype.Basic
import RateLimiting.Concurrency.Serializability

/-! # What a run admits

The cost of the calls that a run has admitted is the charge of the checks in its
history, so a bound on serial histories is a bound on concurrent runs. -/

namespace RateLimiting

namespace History

variable {loop : CheckLoop} {ι : Type}

/-- What the checks that read the clock in some range took from the quota. -/
def charged (history : History loop ι) (within : loop.Time → Bool) : Nat :=
  (history.map fun commit => if within commit.now then commit.charge else 0).sum

@[simp] theorem charged_nil (within : loop.Time → Bool) :
    charged ([] : History loop ι) within = 0 := rfl

@[simp] theorem charged_snoc (history : History loop ι) (commit : Commit loop ι)
    (within : loop.Time → Bool) :
    charged (history ++ [commit]) within =
      charged history within + if within commit.now then commit.charge else 0 := by
  simp [charged]

theorem charged_snoc_cases (history : History loop ι) (commit : Commit loop ι)
    (within : loop.Time → Bool) :
    charged (history ++ [commit]) within = charged history within ∨
      within commit.now = true ∧ commit.allowed = true ∧
        charged (history ++ [commit]) within =
          charged history within + commit.cost.toNat := by
  rw [charged_snoc, Commit.charge]
  cases within commit.now <;> cases commit.allowed <;> simp

theorem charged_le_snoc (history : History loop ι) (commit : Commit loop ι)
    (within : loop.Time → Bool) :
    charged history within ≤ charged (history ++ [commit]) within := by
  rw [charged_snoc]
  exact Nat.le_add_right _ _

theorem charged_le_of_mem {history : History loop ι} {within wider : loop.Time → Bool}
    (implied : ∀ commit ∈ history, within commit.now = true → wider commit.now = true) :
    charged history within ≤ charged history wider := by
  apply List.sum_le_sum
  intro commit member
  split
  · next inside => rw [if_pos (implied commit member inside)]
  · exact Nat.zero_le _

theorem charged_mono (history : History loop ι) {within wider : loop.Time → Bool}
    (implied : ∀ now, within now = true → wider now = true) :
    charged history within ≤ charged history wider :=
  charged_le_of_mem fun commit _ => implied commit.now

theorem charged_le_add (history : History loop ι)
    {within first second : loop.Time → Bool}
    (covered : ∀ now, within now = true → first now = true ∨ second now = true) :
    charged history within ≤ charged history first + charged history second := by
  unfold charged
  rw [← List.sum_map_add]
  apply List.sum_le_sum
  intro commit _
  split
  · next inside =>
      rcases covered _ inside with left | right
      · simp [left]
      · simp [right]
  · exact Nat.zero_le _

theorem charged_congr {history : History loop ι} {within other : loop.Time → Bool}
    (same : ∀ commit ∈ history, within commit.now = other commit.now) :
    charged history within = charged history other := by
  unfold charged
  congr 1
  apply List.map_congr_left
  intro commit member
  rw [same commit member]

theorem charged_eq_zero {history : History loop ι} {within : loop.Time → Bool}
    (outside : ∀ commit ∈ history, within commit.now = false) :
    charged history within = 0 := by
  unfold charged
  apply List.sum_eq_zero
  intro charge member
  rcases List.mem_map.mp member with ⟨commit, listed, rfl⟩
  rw [outside commit listed, if_neg (by decide)]

theorem charged_on (history : History loop ι) (key : String)
    (within : loop.Time → Bool) :
    charged (on history key) within =
      (history.map fun commit =>
        if commit.key = key ∧ within commit.now then commit.charge else 0).sum := by
  induction history with
  | nil => rfl
  | cons commit history induction =>
      by_cases same : commit.key = key <;>
        simp_all [charged, on]

end History

open CheckTrace LocalTrace

variable {loop : CheckLoop} {ι : Type} [DecidableEq ι] (request : ι → CheckRequest)

/-- The total cost of the calls on a key that returned an admission and whose
last clock reading, that of the pass that committed, is in some range. -/
def admittedCost [Fintype ι] (config : Config (localMachine loop) ι Decision)
    (key : String) (within : loop.Time → Bool) : Nat :=
  ∑ call, if (request call).key loop = key ∧
      (config.result call).any Decision.allowed ∧
      (captured call config.trace).any within
    then (request call).cost.toNat else 0

variable {json : SerdeJson loop.State} {request}

theorem SystemInvariant.admittedCost_eq_charged [Fintype ι]
    {config : Config (localMachine loop) ι Decision}
    (invariant : SystemInvariant json request config) (key : String)
    (within : loop.Time → Bool) :
    admittedCost request config key within =
      ((history json request config.trace).on key).charged within := by
  let cost := fun call => if (request call).key loop = key ∧
      (config.result call).any Decision.allowed ∧
      (captured call config.trace).any within
    then (request call).cost.toNat else 0
  have committed : ∀ commit ∈ history json request config.trace,
      cost commit.call =
        if commit.key = key ∧ within commit.now then commit.charge else 0 := by
    intro commit member
    have known := invariant.recorded commit member
    have returned : config.result commit.call = some commit.decision := by
      rw [Config.result, known.returned]
    simp only [cost, ← known.key, ← known.cost, known.reading, returned,
      Option.any_some, Commit.charge, Commit.allowed]
    by_cases allowed : commit.decision.allowed = true <;> simp [allowed]
  have uncommitted : ∀ call,
      call ∉ (history json request config.trace).map Commit.call →
        cost call = 0 := by
    intro call absent
    cases isResult : config.result call with
    | none => simp [cost, isResult]
    | some decision =>
        rcases invariant.result_cases isResult with ⟨member, _⟩ | ⟨_, fallback⟩
        · exact absurd member absent
        · simp [cost, isResult, fallback, loop.fallback_denied]
  calc ∑ call, cost call
      = ∑ call ∈ ((history json request config.trace).map Commit.call).toFinset,
          cost call := by
        refine (Finset.sum_subset (Finset.subset_univ _) ?_).symm
        intro call _ absent
        exact uncommitted call (by simpa using absent)
    _ = (((history json request config.trace).map Commit.call).map cost).sum :=
        List.sum_toFinset cost invariant.distinct
    _ = ((history json request config.trace).map fun commit =>
          if commit.key = key ∧ within commit.now then commit.charge else 0).sum := by
        rw [List.map_map]
        exact congrArg List.sum (List.map_congr_left committed)
    _ = ((history json request config.trace).on key).charged within :=
        (History.charged_on _ key within).symm

end RateLimiting
