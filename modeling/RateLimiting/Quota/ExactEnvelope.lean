import Mathlib.Algebra.BigOperators.Ring.Finset
import RateLimiting.Quota.RateEnvelope
import RateLimiting.Quota.SequentialRuns

/-! # The token bucket is its envelope

In a sequential run the bucket denies nothing that conforms: one lazily refilled
number decides as the least slack over all earlier calls does. -/

namespace RateLimiting

namespace BucketView

variable {loop : CheckLoop} {view : BucketView loop} {ι : Type}

theorem inOrder_of_sorted (lawful : view.Lawful) {history : History loop ι}
    (serial : history.Serial)
    (sorted : (history.map fun commit => loop.reading commit.now).Pairwise (· ≤ ·)) :
    ∀ commit ∈ history, view.InOrder commit := by
  induction serial with
  | nil => simp
  | @snoc history commit serial read wrote induction =>
      rcases sorted_snoc sorted with ⟨earlier, upToLast⟩
      intro other member
      rcases List.mem_append.mp member with member | member
      · exact induction earlier other member
      rcases List.mem_singleton.mp member with rfl
      unfold InOrder
      rw [read]
      cases serial with
      | nil => simp [lawful.fresh_stamp]
      | @snoc history previous _ _ wrote =>
          rw [History.final_snoc, Option.getD_some, wrote, Commit.outcome,
            lawful.step_stamp]
          exact_mod_cast upToLast previous (by simp)

theorem allowed_iff_intervals (lawful : view.Lawful)
    (capacityNonneg : 0 ≤ view.capacity) (rateNonneg : 0 ≤ view.rate)
    {history : History loop ι} (serial : history.Serial)
    (sorted : (history.map fun commit => loop.reading commit.now).Pairwise (· ≤ ·))
    {k : Nat} (bound : k < history.length) :
    history[k].allowed = true ↔ ∀ j (_ : j ≤ k),
      (history[k].cost.toNat : ℚ) + (((history.map Commit.charge).take k).drop j).sum ≤
        view.capacity + view.rate *
          ((loop.reading history[k].now : ℚ) - loop.reading history[j].now) / 1000 := by
  have inOrder := inOrder_of_sorted lawful serial sorted
  have metered := metered_of_serial lawful capacityNonneg rateNonneg (serial.take k)
    fun commit member => inOrder commit (List.mem_of_mem_take member)
  have read := serial.before_eq bound
  have total : ∀ j, Bucket.total ((((history.take k).map fun commit =>
      (⟨loop.reading commit.now, commit.charge⟩ : Grant ℚ))).drop j) =
        ((((history.map Commit.charge).take k).drop j).sum : Nat) := by
    intro j
    rw [← List.map_drop, ← List.map_take, ← List.map_drop, Bucket.total,
      List.map_map, Nat.cast_list_sum, List.map_map]
    rfl
  have decided : history[k].allowed = true ↔ (history[k].cost.toNat : ℚ) ≤
      Bucket.available view.capacity (view.rate / 1000) (grants (history.take k))
        (loop.reading history[k].now) := by
    rw [← metered.before_refilled read (inOrder _ (List.getElem_mem bound))]
    exact lawful.step_allowed _ _ _ (metered.before_stamp_nonneg lawful read)
  rw [decided, grants, Bucket.le_available_reverse_iff]
  constructor
  · rintro ⟨capped, intervals⟩ j upTo
    rcases Nat.lt_or_eq_of_le upTo with earlier | rfl
    · have interval := intervals j (by simp; omega)
      rw [total] at interval
      simp only [List.getElem_map, List.getElem_take] at interval
      linarith
    · rw [List.drop_of_length_le (by simp), List.sum_nil]
      simpa using capped
  · intro intervals
    refine ⟨?_, fun j inside => ?_⟩
    · have capped := intervals k le_rfl
      rw [List.drop_of_length_le (by simp), List.sum_nil] at capped
      simpa using capped
    · have earlier : j < k := by simp at inside; omega
      have interval := intervals j earlier.le
      rw [total]
      simp only [List.getElem_map, List.getElem_take]
      linarith

end BucketView

def admittedCosts {loop : CheckLoop} (calls : List (Arrival loop))
    (decisions : List Decision) : List Nat :=
  List.zipWith (fun call decision =>
    if decision.allowed then call.request.cost.toNat else 0) calls decisions

theorem History.Recounts.admittedCosts_eq {loop : CheckLoop}
    {history : History loop Unit} {calls : List (Arrival loop)}
    {decisions : List Decision} (recounts : history.Recounts calls decisions) :
    admittedCosts calls decisions = history.map Commit.charge := by
  apply List.ext_getElem
  · simp [admittedCosts, recounts.length_eq, recounts.decisions_length]
  · intro k left right
    have inside : k < history.length := by simpa using right
    have bound : k < calls.length := recounts.length_eq ▸ inside
    have decided : k < decisions.length := recounts.decisions_length ▸ bound
    simp [admittedCosts, recounts.decision_eq inside decided, Commit.charge,
      Commit.allowed, (recounts.arguments_eq inside bound).2]

/-- Call `k` is allowed exactly when its cost and what was admitted since any
call `j` fit in the capacity and the refill since then. -/
theorem TokenBucketLimiter.allowed_iff_envelope (limiter : TokenBucketLimiter)
    (capacityNonneg : 0 ≤ limiter.capacity) (ratePositive : 0 < limiter.refillRate)
    (json : SerdeJson TokenBucket.State) {I : Interface} (backend : LawfulStore I)
    (world : backend.machine.World) (key : String)
    (absent : backend.lookup world key = none)
    (calls : List (Arrival limiter.loop)) (oneKey : ∀ call ∈ calls, call.key = key)
    (ordered : (calls.map fun call => limiter.loop.reading call.now).Pairwise
      (· ≤ ·))
    (k : Nat) (bound : k < calls.length) :
    let decisions := (limiter.loop.runCalls json backend calls world).1
    (decisions[k]?).any Decision.allowed = true ↔ ∀ j (_ : j ≤ k),
      (calls[k].request.cost.toNat : ℚ) +
          (((admittedCosts calls decisions).take k).drop j).sum ≤
        limiter.capacity + limiter.refillRate *
          ((Millis.reading calls[k].now : ℚ) - Millis.reading calls[j].now) / 1000 := by
  intro decisions
  rcases CheckLoop.runCalls_recounts json backend absent calls oneKey with
    ⟨history, recounts, _⟩
  have inside : k < history.length := recounts.length_eq ▸ bound
  have decided : k < decisions.length := recounts.decisions_length ▸ bound
  have exact := BucketView.allowed_iff_intervals limiter.bucket_lawful capacityNonneg
    ratePositive.le recounts.serial (recounts.readings.symm ▸ ordered) inside
  have charges : admittedCosts calls decisions = history.map Commit.charge :=
    recounts.admittedCosts_eq
  rw [charges, List.getElem?_eq_getElem decided, Option.any_some,
    recounts.decision_eq inside decided]
  refine exact.trans (forall_congr' fun j => forall_congr' fun upTo => ?_)
  rw [(recounts.arguments_eq inside bound).1, (recounts.arguments_eq inside bound).2,
    (recounts.arguments_eq (upTo.trans_lt inside) (upTo.trans_lt bound)).1]

/-- A burst, a denial half a second later and an admission after a second. -/
theorem TokenBucketLimiter.allowed_iff_envelope_burst :
    let limiter : TokenBucketLimiter := ⟨2, 1⟩
    let calls : List (Arrival limiter.loop) :=
      [⟨(⟨0, by decide⟩ : Millis), ⟨"alice", "/", 2⟩⟩,
        ⟨(⟨500, by decide⟩ : Millis), ⟨"alice", "/", 1⟩⟩,
        ⟨(⟨1000, by decide⟩ : Millis), ⟨"alice", "/", 1⟩⟩]
    let decisions :=
      (limiter.loop.runCalls Json.tokenBucket LocalStore.lawful calls LocalStore.new).1
    (decisions[2]?).any Decision.allowed = true ↔ ∀ j (upTo : j ≤ 2),
      (calls[2].request.cost.toNat : ℚ) +
          (((admittedCosts calls decisions).take 2).drop j).sum ≤
        limiter.capacity + limiter.refillRate * ((Millis.reading calls[2].now : ℚ) -
          Millis.reading (calls.get ⟨j, Nat.lt_succ_of_le upTo⟩).now) / 1000 := by
  intro limiter calls
  exact limiter.allowed_iff_envelope (by decide) (by decide) Json.tokenBucket
    LocalStore.lawful LocalStore.new "token_bucket/alice//" rfl calls
    (by decide +kernel) (by decide +kernel) 2 (by decide)

end RateLimiting
