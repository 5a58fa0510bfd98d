import RateLimiting.Concurrency.StepCondition

/-! # The order of the sliding log

The log is kept oldest first by appending. A check appends its own reading, taken
before it read the log, so the order is kept as long as no check appends to a log that
holds a later reading. -/

namespace RateLimiting

namespace SlidingWindowLogLimiter

open SlidingWindowLog

def OldestFirst (state : State) : Prop :=
  state.timestampsMs.Pairwise (· ≤ ·)

variable (self : SlidingWindowLogLimiter)

/-- A check that appends appends to readings that are not later than its own. -/
def InTurn (now : Millis) (state : State) (cost : UInt32) : Prop :=
  (self.retained now state).length + cost.toNat ≤ self.maxRequests.toNat →
    0 < cost.toNat → ∀ t ∈ self.retained now state, t ≤ now.val

instance decidableInTurn (now : Millis) (state : State) (cost : UInt32) :
    Decidable (self.InTurn now state cost) :=
  have : Decidable (∀ t ∈ self.retained now state, t ≤ now.val) :=
    List.decidableBAll _ _
  inferInstanceAs (Decidable (_ → _ → _))

variable {self}

theorem oldestFirst_retained (self : SlidingWindowLogLimiter) {state : State}
    (ordered : OldestFirst state) (now : Millis) :
    (self.retained now state).Pairwise (· ≤ ·) :=
  ordered.sublist List.filter_sublist

theorem oldestFirst_step_iff {state : State} (ordered : OldestFirst state) (now : Millis)
    (cost : UInt32) : OldestFirst (self.step now state cost).1 ↔ self.InTurn now state cost := by
  have retained := self.oldestFirst_retained ordered now
  rw [OldestFirst, step_state, step_allowed, InTurn]
  by_cases fits : (self.retained now state).length + cost.toNat ≤ self.maxRequests.toNat
  · simp only [fits, decide_true, if_true, true_implies]
    rw [List.pairwise_append]
    constructor
    · rintro ⟨-, -, upTo⟩ positive t member
      exact upTo t member now.val (List.mem_replicate.mpr ⟨positive.ne', rfl⟩)
    · intro upTo
      have copies : (List.replicate cost.toNat now.val).Pairwise (· ≤ ·) :=
        List.pairwise_replicate.mpr (.inr (Int64.le_refl now.val))
      refine ⟨retained, copies, fun t member other copy => ?_⟩
      rcases List.mem_replicate.mp copy with ⟨nonzero, rfl⟩
      exact upTo (Nat.pos_of_ne_zero nonzero) t member
  · simp only [fits, decide_false, false_implies, iff_true]
    exact retained

theorem keeps_oldestFirst : self.loop.KeepsWhen self.InTurn OldestFirst := by
  intro now found cost ordered inTurn
  have before : OldestFirst (found.getD (self.loop.fresh now)) := by
    cases found with
    | none => exact .nil
    | some state => exact ordered state rfl
  exact (oldestFirst_step_iff before now cost).mpr inTurn

theorem head?_retained_le {state : State} (ordered : OldestFirst state) {now : Millis}
    {first : Int64} (head : (self.retained now state).head? = some first) :
    ∀ t ∈ self.retained now state, first ≤ t := by
  have retained := self.oldestFirst_retained ordered now
  cases log : self.retained now state with
  | nil => rw [log] at head; cases head
  | cons oldest rest =>
      rw [log] at head retained
      cases head
      exact List.forall_mem_cons.mpr ⟨Int64.le_refl first, fun _ member =>
        List.rel_of_pairwise_cons retained member⟩

end SlidingWindowLogLimiter

open LocalTrace

/-- In a run whose checks all append in turn, every stored log is oldest first, and the
entry that the wait of a denied call is computed from is the least of those retained. -/
theorem SlidingWindowLogLimiter.log_oldest_first (maxRequests windowSecs : UInt64)
    (json : SerdeJson SlidingWindowLog.State) {ι : Type} [DecidableEq ι]
    (request : ι → CheckRequest) (start : Millis)
    (actions : List (Action (localMachine (new maxRequests windowSecs).loop) ι))
    (inTurn : Meets json request (new maxRequests windowSecs).InTurn
      ((localSystem (new maxRequests windowSecs).loop json request start).run
        actions).trace) :
    ∀ key, ∀ entry ∈ ((localSystem (new maxRequests windowSecs).loop json request
        start).run actions).world.store.state key,
      ∀ state ∈ json.fromSlice entry.1,
        state.timestampsMs.Pairwise (· ≤ ·) ∧
        ∀ now first, ((new maxRequests windowSecs).retained now state).head? =
            some first →
          ∀ t ∈ (new maxRequests windowSecs).retained now state, first ≤ t := by
  intro key entry stored state decoded
  have invariant := passInvariant_run keeps_oldestFirst start actions inTurn
  have ordered := invariant.stored key entry stored state decoded
  exact ⟨ordered, fun now first head => head?_retained_le ordered head⟩

theorem SlidingWindowLogLimiter.log_oldest_first_in_turn :
    let request : Fin 2 → CheckRequest := fun _ => ⟨"alice", "/", 1⟩
    let actions : List (Action (localMachine (new 2 1).loop) (Fin 2)) :=
      [.step 0 (), .step 0 (), .step 0 (), .evolve (⟨500, by decide⟩ : Millis),
        .step 1 (), .step 1 (), .step 1 ()]
    let start : Millis := ⟨0, by decide⟩
    ∀ key, ∀ entry ∈ ((localSystem (new 2 1).loop Json.slidingWindowLog request
        start).run actions).world.store.state key,
      ∀ state ∈ Json.slidingWindowLog.fromSlice entry.1,
        state.timestampsMs.Pairwise (· ≤ ·) ∧
        ∀ now first, ((new 2 1).retained now state).head? = some first →
          ∀ t ∈ (new 2 1).retained now state, first ≤ t := by
  intro request actions start
  exact SlidingWindowLogLimiter.log_oldest_first 2 1 Json.slidingWindowLog request start
    actions (by decide +kernel)

/-- The first call reads its clock before the second and commits after it. -/
theorem SlidingWindowLogLimiter.late_commit_out_of_order :
    let request : Fin 2 → CheckRequest := fun _ => ⟨"alice", "/", 1⟩
    let actions : List (Action (localMachine (new 2 1).loop) (Fin 2)) :=
      [.step 0 (), .evolve (⟨500, by decide⟩ : Millis), .step 1 (), .step 1 (),
        .step 1 (), .step 0 (), .step 0 ()]
    let start : Millis := ⟨0, by decide⟩
    let store := ((localSystem (new 2 1).loop Json.slidingWindowLog request start).run
      actions).world.store
    let log := (store.state "sliding_window_log/alice//").bind fun entry =>
      Json.slidingWindowLog.fromSlice entry.1
    nonDecreasing start actions ∧ log = some ⟨[500, 0]⟩ ∧
      ¬([500, 0] : List Int64).Pairwise (· ≤ ·) := by
  decide +kernel

end RateLimiting
