import Mathlib.Algebra.Order.Group.MinMax
import RateLimiting.Config
import RateLimiting.Foundation.Settling
import RateLimiting.Sequential
import RateLimiting.Store.Json

/-! # Denied and free checks

A check that is denied or costs nothing still writes: it stores the state that
it found, brought up to date. Every later check brings what it finds up to date
itself, so that write changes nothing, as long as time only ever takes from the
stored state. -/

namespace RateLimiting

/-- What a caller acts on. -/
def Decision.answer (d : Decision) : Bool × Int64 × Int64 :=
  (d.allowed, d.remaining, d.retryAfterMs)

/-- Calls that a run marks, all of them denied or free, can be left out: the
others are answered as before. -/
def CheckLoop.Invisible (loop : CheckLoop) : Prop :=
  ∀ (json : SerdeJson loop.State) {I : Interface} (backend : LawfulStore I)
    (world : backend.machine.World) (key : String),
    backend.lookup world key = none →
  ∀ calls : List (Arrival loop × Bool), (∀ call ∈ calls, call.1.key = key) →
    (calls.map fun call => loop.reading call.1.now).Pairwise (· ≤ ·) →
    let decisions := (loop.runCalls json backend (calls.map Prod.fst) world).1
    (∀ served ∈ calls.zip decisions, served.1.2 = true →
      served.2.allowed = false ∨ served.1.1.request.cost = 0) →
    ((calls.zip decisions).filter fun served => !served.1.2).map
        (fun served => served.2.answer) =
      (loop.runCalls json backend ((calls.filter fun call => !call.2).map Prod.fst)
        world).1.map Decision.answer

/-- A loop whose step brings the state up to date first. -/
structure LazyLoop (loop : CheckLoop) extends
    Settling loop.Time loop.State
      (fun earlier later => loop.reading earlier ≤ loop.reading later) where
  fresh_eq : fresh = loop.fresh
  step_settle : ∀ now state cost,
    loop.step now (settle now state) cost = loop.step now state cost
  step_valid : ∀ now state cost, valid now state →
    valid now (loop.step now state cost).1
  step_unchanged : ∀ now state cost,
    (loop.step now state cost).2.allowed = false ∨ cost = 0 →
      (loop.step now state cost).1 = settle now state

def argument {loop : CheckLoop} (call : Arrival loop × Bool) : loop.Time × UInt32 :=
  (call.1.now, call.1.request.cost)

theorem runCalls_marked {loop : CheckLoop} (json : SerdeJson loop.State) {I : Interface}
    (backend : LawfulStore I) {world : backend.machine.World} {key : String}
    (absent : backend.lookup world key = none) (calls : List (Arrival loop × Bool))
    (oneKey : ∀ call ∈ calls, call.1.key = key) :
    (loop.runCalls json backend (calls.map Prod.fst) world).1 =
      loop.decisions none (calls.map argument) := by
  rw [CheckLoop.runCalls_absent json backend _ _ absent, List.map_map]
  · rfl
  · intro call member
    rcases List.mem_map.mp member with ⟨pair, listed, rfl⟩
    exact oneKey pair listed

theorem CheckLoop.Invisible.answer_eq {loop : CheckLoop} (invisible : loop.Invisible)
    (json : SerdeJson loop.State) {first free last : loop.Time}
    (upToFree : loop.reading first ≤ loop.reading free)
    (upToLast : loop.reading free ≤ loop.reading last) (cost lastCost : UInt32) :
    let found := (loop.step first (loop.fresh first) cost).1
    (loop.step last (loop.step free found 0).1 lastCost).2.answer =
      (loop.step last found lastCost).2.answer := by
  intro found
  let call : loop.Time → UInt32 → Bool → Arrival loop × Bool := fun now cost marked =>
    (⟨now, ⟨"alice", "/", cost⟩⟩, marked)
  let calls := [call first cost false, call free 0 true, call last lastCost false]
  have oneKey : ∀ call ∈ calls, call.1.key = loop.key "alice" "/" := by
    simp [calls, call, Arrival.key, CheckRequest.key]
  have ordered : (calls.map fun call => loop.reading call.1.now).Pairwise (· ≤ ·) := by
    simp [calls, call, upToFree, upToLast, upToFree.trans upToLast]
  have isFree : ∀ call ∈ calls, call.2 = true → call.1.request.cost = 0 := by
    simp [calls, call]
  have same := invisible json LocalStore.lawful LocalStore.new (loop.key "alice" "/") rfl
    calls oneKey ordered fun served member marked =>
      .inr (isFree served.1 (List.of_mem_zip member).1 marked)
  rw [runCalls_marked _ _ rfl calls oneKey, runCalls_marked _ _ rfl _ fun call member =>
    oneKey call (List.mem_of_mem_filter member)] at same
  exact (List.cons.inj (List.cons.inj same).2).1

namespace LazyLoop

variable {loop : CheckLoop} (lazy : LazyLoop loop)

theorem step_worth (now : loop.Time) (stored : Option loop.State) (cost : UInt32) :
    loop.step now (stored.getD (loop.fresh now)) cost =
      loop.step now (lazy.worth now stored) cost := by
  rw [Settling.worth, lazy.step_settle, lazy.fresh_eq]

theorem decisions_filter (calls : List (Arrival loop × Bool))
    {start : loop.Time} {full kept : Option loop.State}
    (agree : lazy.Agree start full kept)
    (ordered : (loop.reading start ::
      calls.map fun call => loop.reading call.1.now).Pairwise (· ≤ ·))
    (marked : ∀ served ∈ calls.zip (loop.decisions full (calls.map argument)),
      served.1.2 = true → served.2.allowed = false ∨ served.1.1.request.cost = 0) :
    ((calls.zip (loop.decisions full (calls.map argument))).filter
        fun served => !served.1.2).map Prod.snd =
      loop.decisions kept ((calls.filter fun call => !call.2).map argument) := by
  induction calls generalizing start full kept with
  | nil => rfl
  | cons call rest induction =>
      rcases call with ⟨⟨now, request⟩, mark⟩
      rcases List.pairwise_cons.mp ordered with ⟨fromStart, restOrdered⟩
      have after : loop.reading start ≤ loop.reading now := fromStart _ (by simp)
      have valid := agree.found_valid after
      rw [lazy.fresh_eq] at valid
      simp only [List.map_cons, argument, CheckLoop.decisions, List.zip_cons_cons,
        List.mem_cons, forall_eq_or_imp] at marked ⊢
      rcases marked with ⟨isMarked, restMarked⟩
      cases mark with
      | true =>
          have unchanged := lazy.step_unchanged now _ request.cost (isMarked rfl)
          rw [← lazy.fresh_eq] at unchanged
          rw [List.filter_cons_of_neg (by simp), List.filter_cons_of_neg (by simp)]
          apply induction _ restOrdered restMarked
          rw [← lazy.fresh_eq, unchanged]
          exact agree.settled after
      | false =>
          have same : loop.step now (kept.getD (loop.fresh now)) request.cost =
              loop.step now (full.getD (loop.fresh now)) request.cost := by
            rw [lazy.step_worth, lazy.step_worth, agree.worth_eq now after]
          rw [List.filter_cons_of_pos (by simp), List.filter_cons_of_pos (by simp),
            List.map_cons, List.map_cons, argument, CheckLoop.decisions, same]
          congr 1
          exact induction (Settling.agree_stored (lazy.step_valid _ _ _ valid))
            restOrdered restMarked

include lazy in
theorem invisible : loop.Invisible := by
  intro json I backend world key absent calls oneKey ordered decisions marked
  have isRun : decisions = loop.decisions none (calls.map argument) :=
    runCalls_marked json backend absent calls oneKey
  rw [runCalls_marked json backend absent _ fun call member =>
    oneKey call (List.mem_of_mem_filter member)]
  rw [isRun] at marked ⊢
  cases calls with
  | nil => rfl
  | cons first rest =>
      have startOrdered : (loop.reading first.1.now ::
          (first :: rest).map fun call => loop.reading call.1.now).Pairwise (· ≤ ·) := by
        rw [List.map_cons] at ordered ⊢
        exact List.pairwise_cons.mpr ⟨fun reading member => by
          rcases List.mem_cons.mp member with rfl | later
          · exact le_rfl
          · exact (List.pairwise_cons.mp ordered).1 reading later, ordered⟩
      rw [← lazy.decisions_filter (first :: rest) (Settling.agree_none _) startOrdered
        marked, List.map_map]
      rfl

end LazyLoop

/-! ## Windows -/

namespace FixedWindowLimiter

open FixedWindow

variable (self : FixedWindowLimiter)

theorem count_count {earlier later : UInt64} (ordered : earlier.toNat ≤ later.toNat)
    {state : State} (past : state.windowId.toNat ≤ (self.windowId earlier).toNat) :
    self.count later ⟨self.count earlier state, self.windowId earlier⟩ =
      self.count later state := by
  have forward : (self.windowId earlier).toNat ≤ (self.windowId later).toNat :=
    toNat_div_mono ordered _
  unfold count
  by_cases same : self.windowId earlier = self.windowId later
  · simp [same]
  · have gone : state.windowId ≠ self.windowId later := by
      intro equal
      apply same
      rw [equal] at past
      exact UInt64.toNat_inj.mp (Nat.le_antisymm forward past)
    simp [same, gone]

@[simp] theorem count_settled (now : UInt64) (state : State) :
    self.count now ⟨self.count now state, self.windowId now⟩ = self.count now state :=
  if_pos rfl

@[simp] theorem count_zero (now windowId : UInt64) : self.count now ⟨0, windowId⟩ = 0 :=
  ite_self 0

theorem step_congr {now : UInt64} {left right : State}
    (same : self.count now left = self.count now right) (cost : UInt32) :
    self.step now left cost = self.step now right cost := by
  simp only [step, same]

@[reducible] def lazyLoop : LazyLoop self.loop where
  before_trans := Nat.le_trans
  fresh := self.loop.fresh
  settle now state := ⟨self.count now state, self.windowId now⟩
  valid now state := state.windowId.toNat ≤ (self.windowId now).toNat
  fresh_valid _ := le_rfl
  settle_valid _ := le_rfl
  valid_later ordered valid := valid.trans (toNat_div_mono ordered _)
  settle_settle ordered valid := by rw [self.count_count ordered valid]
  settle_fresh _ := by rw [count_zero, count_zero]
  fresh_eq := rfl
  step_settle now state cost := self.step_congr (self.count_settled now state) cost
  step_valid now state cost _ := by
    change (self.step now state cost).1.windowId.toNat ≤ _
    rw [step_state]
  step_unchanged now state cost unchanged := by
    change (self.step now state cost).1 = _
    rw [step_state]
    rcases unchanged with denied | rfl
    · rw [if_neg (by rw [denied]; decide)]
    · simp

end FixedWindowLimiter

namespace SlidingWindowCounterLimiter

open SlidingWindowCounter

variable (self : SlidingWindowCounterLimiter)

def shift : Nat → UInt64 × UInt64 → UInt64 × UInt64
  | 0, counts => counts
  | 1, counts => (counts.2, 0)
  | _, _ => (0, 0)

theorem shift_add (first second : Nat) (counts : UInt64 × UInt64) :
    shift second (shift first counts) = shift (first + second) counts := by
  rcases first with _ | _ | first <;> rcases second with _ | _ | second <;>
    simp [shift, Nat.add_comm, Nat.add_left_comm]

theorem counts_eq_shift (now : UInt64) (state : State) :
    self.counts now state =
      shift ((self.windowId now).toNat - state.currWindowId.toNat)
        (state.prevCount, state.currCount) := by
  have difference := toNat_saturatingSub (self.windowId now) state.currWindowId
  unfold counts
  rcases windows : (self.windowId now).toNat - state.currWindowId.toNat with
    _ | _ | windows
  · rw [windows] at difference
    have zero : saturatingSub (self.windowId now) state.currWindowId = 0 :=
      UInt64.toNat_inj.mp difference
    simp [zero, shift]
  · rw [windows] at difference
    have one : saturatingSub (self.windowId now) state.currWindowId = 1 :=
      UInt64.toNat_inj.mp difference
    simp [one, shift]
  · have notZero : saturatingSub (self.windowId now) state.currWindowId ≠ 0 := by
      intro zero
      rw [zero, UInt64.toNat_zero] at difference
      omega
    have notOne : saturatingSub (self.windowId now) state.currWindowId ≠ 1 := by
      intro one
      rw [one, UInt64.toNat_one] at difference
      omega
    simp [notZero, notOne, shift]

def rotated (now : UInt64) (state : State) : State where
  prevCount := (self.counts now state).1
  currCount := (self.counts now state).2
  currWindowId := self.windowId now

@[simp] theorem counts_rotated (now : UInt64) (state : State) :
    self.counts now (self.rotated now state) = self.counts now state := by
  rw [counts_eq_shift, rotated, Nat.sub_self]
  rfl

theorem counts_counts {earlier later : UInt64} (ordered : earlier.toNat ≤ later.toNat)
    {state : State} (past : state.currWindowId.toNat ≤ (self.windowId earlier).toNat) :
    self.counts later (self.rotated earlier state) = self.counts later state := by
  have forward : (self.windowId earlier).toNat ≤ (self.windowId later).toNat :=
    toNat_div_mono ordered _
  have windows : (self.windowId earlier).toNat - state.currWindowId.toNat +
      ((self.windowId later).toNat - (self.windowId earlier).toNat) =
        (self.windowId later).toNat - state.currWindowId.toNat := by
    omega
  rw [counts_eq_shift self later state, ← windows, ← shift_add, ← counts_eq_shift,
    counts_eq_shift]
  rfl

theorem counts_fresh (now windowId : UInt64) :
    self.counts now ⟨0, 0, windowId⟩ = (0, 0) := by
  rw [counts_eq_shift]
  rcases (self.windowId now).toNat - windowId.toNat with _ | _ | windows <;> rfl

theorem step_congr {now : UInt64} {left right : State}
    (same : self.counts now left = self.counts now right) (cost : UInt32) :
    self.step now left cost = self.step now right cost := by
  have sameWeight : self.weighted now left = self.weighted now right := by
    simp only [weighted, same]
  simp only [step, same, sameWeight]

@[reducible] def lazyLoop : LazyLoop self.loop where
  before_trans := Nat.le_trans
  fresh := self.loop.fresh
  settle := self.rotated
  valid now state := state.currWindowId.toNat ≤ (self.windowId now).toNat
  fresh_valid _ := le_rfl
  settle_valid _ := le_rfl
  valid_later ordered valid := valid.trans (toNat_div_mono ordered _)
  settle_settle ordered valid := by
    rw [rotated, self.counts_counts ordered valid, rotated]
  settle_fresh _ := by
    rw [rotated, rotated, counts_fresh, counts_fresh]
  fresh_eq := rfl
  step_settle now state cost := self.step_congr (self.counts_rotated now state) cost
  step_valid now state cost _ := by
    change (self.step now state cost).1.currWindowId.toNat ≤ _
    rw [step_state]
  step_unchanged now state cost unchanged := by
    change (self.step now state cost).1 = _
    rw [step_state]
    rcases unchanged with denied | rfl
    · rw [if_neg (by rw [denied]; decide)]
      rfl
    · simp [rotated]

end SlidingWindowCounterLimiter

/-! ## Buckets -/

def Passed (now : Millis) (stamp : Int64) : Prop :=
  0 ≤ stamp.toInt ∧ stamp.toInt ≤ now.reading

theorem passed_now (now : Millis) : Passed now now.val := by
  exact ⟨now.toInt_nonneg, now.coe_reading.ge⟩

theorem Passed.later {earlier later : Millis} {stamp : Int64}
    (passed : Passed earlier stamp) (ordered : earlier.reading ≤ later.reading) :
    Passed later stamp :=
  ⟨passed.1, passed.2.trans (by exact_mod_cast ordered)⟩

theorem Passed.elapsedSecs_add {earlier later : Millis} {stamp : Int64}
    (passed : Passed earlier stamp) (ordered : earlier.reading ≤ later.reading) :
    elapsedSecs earlier stamp + elapsedSecs later earlier.val =
      elapsedSecs later stamp := by
  apply RateLimiting.elapsedSecs_add passed.1 _ ordered
  exact passed.2.trans earlier.coe_reading.le

namespace TokenBucketLimiter

open TokenBucket

variable (self : TokenBucketLimiter)

def refilled (now : Millis) (state : State) : State where
  tokens := self.tokens now state
  lastRefillMs := now.val

theorem tokens_refilled {self : TokenBucketLimiter} (rateNonneg : 0 ≤ self.refillRate)
    {earlier later : Millis} (ordered : earlier.reading ≤ later.reading) {state : State}
    (passed : Passed earlier state.lastRefillMs) :
    self.tokens later (self.refilled earlier state) = self.tokens later state := by
  have gained : 0 ≤ elapsedSecs later earlier.val * self.refillRate :=
    mul_nonneg (elapsedSecs_nonneg ..) rateNonneg
  rw [tokens, tokens, refilled, tokens, ← passed.elapsedSecs_add ordered,
    ← min_add_add_right, min_assoc, min_eq_right (le_add_of_nonneg_right gained),
    add_mul, add_assoc]

@[simp] theorem tokens_settled (now : Millis) (state : State) :
    self.tokens now (self.refilled now state) = self.tokens now state := by
  rw [tokens, refilled, elapsedSecs_self, zero_mul, add_zero]
  exact min_eq_left (min_le_right _ _)

theorem tokens_full {self : TokenBucketLimiter} (rateNonneg : 0 ≤ self.refillRate)
    (now : Millis) (stamp : Int64) : self.tokens now ⟨self.capacity, stamp⟩ =
      self.capacity :=
  min_eq_right (le_add_of_nonneg_right
    (mul_nonneg (elapsedSecs_nonneg ..) rateNonneg))

theorem step_congr {now : Millis} {left right : State}
    (same : self.tokens now left = self.tokens now right) (cost : UInt32) :
    self.step now left cost = self.step now right cost := by
  simp only [step, same]

@[reducible] def lazyLoop (rateNonneg : 0 ≤ self.refillRate) : LazyLoop self.loop where
  before_trans := Nat.le_trans
  fresh := self.loop.fresh
  settle := self.refilled
  valid now state := Passed now state.lastRefillMs
  fresh_valid := passed_now
  settle_valid _ := passed_now _
  valid_later ordered valid := valid.later ordered
  settle_settle ordered valid := by
    rw [refilled, tokens_refilled rateNonneg ordered valid, refilled]
  settle_fresh _ := by
    rw [refilled, refilled, tokens_full rateNonneg, tokens_full rateNonneg]
  fresh_eq := rfl
  step_settle now state cost := self.step_congr (self.tokens_settled now state) cost
  step_valid now state cost _ := by
    change Passed now (self.step now state cost).1.lastRefillMs
    rw [step_state]
    exact passed_now now
  step_unchanged now state cost unchanged := by
    change (self.step now state cost).1 = _
    rw [step_state]
    rcases unchanged with denied | rfl
    · rw [if_neg (by rw [denied]; decide)]
      rfl
    · simp [refilled]

end TokenBucketLimiter

namespace LeakyBucketLimiter

open LeakyBucket

variable (self : LeakyBucketLimiter)

def drained (now : Millis) (state : State) : State where
  queue := self.queue now state
  lastLeakMs := now.val

theorem queue_drained {self : LeakyBucketLimiter} (rateNonneg : 0 ≤ self.leakRate)
    {earlier later : Millis} (ordered : earlier.reading ≤ later.reading) {state : State}
    (passed : Passed earlier state.lastLeakMs) :
    self.queue later (self.drained earlier state) = self.queue later state := by
  have leaked : 0 ≤ elapsedSecs later earlier.val * self.leakRate :=
    mul_nonneg (elapsedSecs_nonneg ..) rateNonneg
  rw [queue, queue, drained, queue, ← passed.elapsedSecs_add ordered,
    ← max_sub_sub_right, max_assoc, max_eq_right (sub_le_self 0 leaked), add_mul,
    sub_sub]

@[simp] theorem queue_settled (now : Millis) (state : State) :
    self.queue now (self.drained now state) = self.queue now state := by
  rw [queue, drained, elapsedSecs_self, zero_mul, sub_zero]
  exact max_eq_left (self.queue_nonneg now state)

theorem queue_empty {self : LeakyBucketLimiter} (rateNonneg : 0 ≤ self.leakRate)
    (now : Millis) (stamp : Int64) : self.queue now ⟨0, stamp⟩ = 0 :=
  max_eq_right (sub_le_self 0 (mul_nonneg (elapsedSecs_nonneg ..) rateNonneg))

theorem step_congr {now : Millis} {left right : State}
    (same : self.queue now left = self.queue now right) (cost : UInt32) :
    self.step now left cost = self.step now right cost := by
  simp only [step, same]

@[reducible] def lazyLoop (rateNonneg : 0 ≤ self.leakRate) : LazyLoop self.loop where
  before_trans := Nat.le_trans
  fresh := self.loop.fresh
  settle := self.drained
  valid now state := Passed now state.lastLeakMs
  fresh_valid := passed_now
  settle_valid _ := passed_now _
  valid_later ordered valid := valid.later ordered
  settle_settle ordered valid := by
    rw [drained, queue_drained rateNonneg ordered valid, drained]
  settle_fresh _ := by
    rw [drained, drained, queue_empty rateNonneg, queue_empty rateNonneg]
  fresh_eq := rfl
  step_settle now state cost := self.step_congr (self.queue_settled now state) cost
  step_valid now state cost _ := by
    change Passed now (self.step now state cost).1.lastLeakMs
    rw [step_state]
    exact passed_now now
  step_unchanged now state cost unchanged := by
    change (self.step now state cost).1 = _
    rw [step_state]
    rcases unchanged with denied | rfl
    · rw [if_neg (by rw [denied]; decide)]
      rfl
    · simp [drained]

end LeakyBucketLimiter

/-! ## The log -/

namespace SlidingWindowLogLimiter

open SlidingWindowLog

/-- The cutoff does not go back: the window is not negative, or so negative that
the subtraction wraps at every reading. -/
def CutoffMonotone (self : SlidingWindowLogLimiter) : Prop :=
  0 ≤ self.windowMs ∨ self.windowMs = Int64.minValue

variable {self : SlidingWindowLogLimiter}

theorem toInt_cutoff_of_minValue (least : self.windowMs = Int64.minValue)
    (now : Millis) : (self.cutoff now).toInt = now.val.toInt - 2 ^ 63 := by
  have nonneg := now.toInt_nonneg
  have upper := now.val.toInt_lt
  have wrapped : now.val - Int64.minValue = now.val + Int64.minValue := by
    rw [Int64.sub_eq_add_neg]
    rfl
  have minimum : Int64.minValue.toInt = -2 ^ 63 := rfl
  rw [cutoff, least, wrapped, Int64.toInt_add, minimum, Int.bmod_eq_of_le] <;> omega

theorem CutoffMonotone.cutoff_le (monotone : self.CutoffMonotone)
    {earlier later : Millis} (ordered : earlier.reading ≤ later.reading) :
    self.cutoff earlier ≤ self.cutoff later := by
  rcases monotone with nonneg | least
  · exact cutoff_mono (Int64.le_iff_toInt_le.mp nonneg) ordered
  · rw [Int64.le_iff_toInt_le, toInt_cutoff_of_minValue least,
      toInt_cutoff_of_minValue least, ← earlier.coe_reading, ← later.coe_reading]
    omega

theorem retained_retained (monotone : self.CutoffMonotone) {earlier later : Millis}
    (ordered : earlier.reading ≤ later.reading) (state : State) :
    self.retained later ⟨self.retained earlier state⟩ = self.retained later state := by
  unfold retained
  rw [List.filter_filter]
  apply List.filter_congr
  intro t _
  by_cases live : self.cutoff later < t
  · simp [live, Int64.lt_of_le_of_lt (monotone.cutoff_le ordered) live]
  · simp [live]

@[simp] theorem retained_settled (now : Millis) (state : State) :
    self.retained now ⟨self.retained now state⟩ = self.retained now state := by
  simp [retained, List.filter_filter]

@[simp] theorem retained_nil (now : Millis) : self.retained now ⟨[]⟩ = [] := rfl

theorem step_congr {now : Millis} {left right : State}
    (same : self.retained now left = self.retained now right) (cost : UInt32) :
    self.step now left cost = self.step now right cost := by
  simp only [step, same]

theorem step_nil (none : self.maxRequests = 0) (now : Millis) (cost : UInt32) :
    (self.step now ⟨[]⟩ cost).1 = ⟨[]⟩ := by
  rw [step_state, step_allowed, retained_nil, none]
  split
  · next fits =>
      have free : cost.toNat = 0 := by simpa using fits
      rw [free]
      rfl
  · rfl

@[reducible] def lazyLoop (self : SlidingWindowLogLimiter)
    (keeps : self.maxRequests = 0 ∨ self.CutoffMonotone) : LazyLoop self.loop where
  before_trans := Nat.le_trans
  fresh := self.loop.fresh
  settle now state := ⟨self.retained now state⟩
  valid _ state := self.maxRequests = 0 → state = ⟨[]⟩
  fresh_valid _ _ := rfl
  settle_valid valid none := by rw [valid none, retained_nil]
  valid_later _ valid := valid
  settle_settle ordered valid := by
    rcases keeps with none | monotone
    · rw [valid none, retained_nil]
    · rw [retained_retained monotone ordered]
  settle_fresh _ := rfl
  fresh_eq := rfl
  step_settle now state cost := step_congr (retained_settled now state) cost
  step_valid now state cost valid none := by
    rw [valid none]
    exact step_nil none now cost
  step_unchanged now state cost unchanged := by
    change (self.step now state cost).1 = _
    rw [step_state]
    rcases unchanged with denied | rfl
    · rw [if_neg (by rw [denied]; decide)]
    · simp

/-- The last reading at which the cutoff of a negative window does not wrap: every
timestamp is dropped. -/
def lastReading (self : SlidingWindowLogLimiter) : Int64 :=
  Int64.maxValue + self.windowMs

theorem toInt_lastReading (negative : self.windowMs < 0) :
    self.lastReading.toInt = 2 ^ 63 - 1 + self.windowMs.toInt := by
  have greatest : Int64.maxValue.toInt = 2 ^ 63 - 1 := rfl
  have below : self.windowMs.toInt < 0 := Int64.lt_iff_toInt_lt.mp negative
  have above := self.windowMs.le_toInt
  rw [lastReading, Int64.toInt_add, greatest, Int.bmod_eq_of_le] <;> omega

theorem lastReading_nonneg (negative : self.windowMs < 0)
    (notLeast : self.windowMs ≠ Int64.minValue) : 0 ≤ self.lastReading := by
  have least : Int64.minValue.toInt = -2 ^ 63 := rfl
  have above := self.windowMs.le_toInt
  have apart := mt Int64.toInt_inj.mp notLeast
  rw [Int64.le_iff_toInt_le, toInt_lastReading negative, Int64.toInt_zero]
  omega

theorem nextReading_nonneg (negative : self.windowMs < 0)
    (notLeast : self.windowMs ≠ Int64.minValue) : 0 ≤ self.lastReading + 1 := by
  have value := toInt_lastReading negative
  have below : self.windowMs.toInt < 0 := Int64.lt_iff_toInt_lt.mp negative
  have nonneg : 0 ≤ self.lastReading.toInt :=
    Int64.le_iff_toInt_le.mp (lastReading_nonneg negative notLeast)
  rw [Int64.le_iff_toInt_le, toInt_succ_of_lt nonneg (by omega), Int64.toInt_zero]
  omega

theorem step_free (now : Millis) (state : State) :
    (self.step now state 0).1 = ⟨self.retained now state⟩ := by
  rw [step_state]
  simp

theorem remaining_free (now : Millis) (state : State) :
    (self.step now state 0).2.remaining = (UInt64.ofNat (self.maxRequests.toNat -
      (self.retained now state).length)).toInt64 := by
  rw [step_remaining]
  simp

theorem retained_lastReading (nonneg : 0 ≤ self.lastReading) (state : State) :
    self.retained ⟨self.lastReading, nonneg⟩ state = [] := by
  have cutoff : self.cutoff ⟨self.lastReading, nonneg⟩ = Int64.maxValue := by
    simp only [cutoff, lastReading]
    grind
  have greatest : Int64.maxValue.toInt = 2 ^ 63 - 1 := rfl
  rw [retained, cutoff, List.filter_eq_nil_iff]
  intro t _ above
  have bound := t.toInt_lt
  have below := Int64.lt_iff_toInt_lt.mp (of_decide_eq_true above)
  omega

theorem retained_nextReading (nonneg : 0 ≤ self.lastReading)
    (nextNonneg : 0 ≤ self.lastReading + 1) :
    self.retained ⟨self.lastReading + 1, nextNonneg⟩ ⟨[self.lastReading]⟩ =
      [self.lastReading] := by
  have wraps : Int64.maxValue + 1 = Int64.minValue := rfl
  have cutoff : self.cutoff ⟨self.lastReading + 1, nextNonneg⟩ = Int64.minValue := by
    simp only [cutoff, lastReading]
    rw [← wraps]
    grind
  have least : Int64.minValue.toInt = -2 ^ 63 := rfl
  have above := Int64.le_iff_toInt_le.mp nonneg
  rw [Int64.toInt_zero] at above
  rw [retained, cutoff, List.filter_cons_of_pos]
  · rfl
  · apply decide_eq_true
    rw [Int64.lt_iff_toInt_lt]
    omega

theorem not_invisible (negative : self.windowMs < 0)
    (notLeast : self.windowMs ≠ Int64.minValue) (quota : self.maxRequests ≠ 0) :
    ¬ self.loop.Invisible := by
  intro invisible
  have nonneg := lastReading_nonneg negative notLeast
  have nextNonneg := nextReading_nonneg negative notLeast
  have positive := toNat_pos_iff.mpr quota
  let last : Millis := ⟨self.lastReading, nonneg⟩
  let next : Millis := ⟨self.lastReading + 1, nextNonneg⟩
  have value := toInt_lastReading negative
  have below : self.windowMs.toInt < 0 := Int64.lt_iff_toInt_lt.mp negative
  have past : self.loop.reading last ≤ self.loop.reading next := by
    change self.lastReading.toInt.toNat ≤ (self.lastReading + 1).toInt.toNat
    rw [toInt_succ_of_lt (Int64.le_iff_toInt_le.mp nonneg) (by omega)]
    omega
  have same : (self.step next (self.step last (self.step last ⟨[]⟩ 1).1 0).1 0).2.answer =
      (self.step next (self.step last ⟨[]⟩ 1).1 0).2.answer :=
    invisible.answer_eq Json.slidingWindowLog (le_refl _) past 1 0
  have remains := congrArg (·.2.1) same
  simp only [Decision.answer] at remains
  have logged : (self.step last ⟨[]⟩ 1).1 = ⟨[self.lastReading]⟩ := by
    rw [step_state, step_allowed, retained_nil, if_pos]
    · rfl
    · exact decide_eq_true (by simpa using Nat.succ_le_of_lt positive)
  rw [step_free, retained_lastReading nonneg, logged, remaining_free, remaining_free,
    retained_nil, retained_nextReading nonneg nextNonneg] at remains
  have counts := congrArg (fun remaining => remaining.toUInt64.toNat) remains
  have bound := self.maxRequests.toNat_lt
  simp only [UInt64.toUInt64_toInt64, UInt64.toNat_ofNat', List.length_nil,
    List.length_singleton] at counts
  omega

end SlidingWindowLogLimiter

/-- Denied and free checks are invisible, except to a log with a quota whose
window in milliseconds has overflowed to a negative one. -/
theorem RateLimiterConfig.invisible_iff (config : RateLimiterConfig)
    (refillPositive : 0 < config.refillRate) (leakPositive : 0 < config.leakRate) :
    config.limiter.Invisible ↔
      (config.algorithm = .slidingWindowLog → config.maxRequests = 0 ∨
        (SlidingWindowLogLimiter.new config.maxRequests
          config.windowSecs).CutoffMonotone) := by
  rcases config with ⟨algorithm, maxRequests, windowSecs, capacity, refill, leak, queue⟩
  cases algorithm with
  | fixedWindow =>
      exact iff_of_true (FixedWindowLimiter.lazyLoop _).invisible nofun
  | slidingWindowLog =>
      constructor
      · intro invisible _
        by_contra visible
        rcases not_or.mp visible with ⟨quota, backward⟩
        rcases not_or.mp backward with ⟨negative, notLeast⟩
        exact SlidingWindowLogLimiter.not_invisible (Int64.not_le.mp negative) notLeast
          quota invisible
      · intro keeps
        exact (SlidingWindowLogLimiter.lazyLoop _ (keeps rfl)).invisible
  | slidingWindowCounter =>
      exact iff_of_true (SlidingWindowCounterLimiter.lazyLoop _).invisible nofun
  | tokenBucket =>
      exact iff_of_true
        (TokenBucketLimiter.lazyLoop ⟨capacity, refill⟩ refillPositive.le).invisible nofun
  | leakyBucket =>
      exact iff_of_true
        (LeakyBucketLimiter.lazyLoop ⟨leak, queue⟩ leakPositive.le).invisible nofun

theorem RateLimiterConfig.invisible_iff_minute :
    let config : RateLimiterConfig := ⟨.slidingWindowLog, 10, 60, 1, 1, 1, 1⟩
    config.limiter.Invisible ↔
      (config.algorithm = .slidingWindowLog → config.maxRequests = 0 ∨
        (SlidingWindowLogLimiter.new config.maxRequests
          config.windowSecs).CutoffMonotone) := by
  intro config
  exact config.invisible_iff (by decide) (by decide)

/-- The window in milliseconds is the least signed integer and 192. The free
check at 191 drops the timestamp of the first; without it, the cutoff of the
check at 192 has wrapped and the timestamp counts. -/
theorem RateLimiterConfig.negative_window_visible :
    let config : RateLimiterConfig :=
      ⟨.slidingWindowLog, 1, 9223372036854776, 1, 1, 1, 1⟩
    let first : Arrival config.limiter :=
      ⟨(⟨191, by decide⟩ : Millis), ⟨"alice", "/", 1⟩⟩
    let free : Arrival config.limiter :=
      ⟨(⟨191, by decide⟩ : Millis), ⟨"alice", "/", 0⟩⟩
    let last : Arrival config.limiter :=
      ⟨(⟨192, by decide⟩ : Millis), ⟨"alice", "/", 1⟩⟩
    let answers := fun calls : List (Arrival config.limiter) =>
      (config.limiter.runCalls Json.slidingWindowLog LocalStore.lawful calls
        LocalStore.new).1.map Decision.answer
    answers [first, free, last] = [(true, 0, 0), (true, 1, 0), (true, 0, 0)] ∧
      answers [first, last] = [(true, 0, 0), (false, 0, 0)] ∧
      ¬ config.limiter.Invisible := by
  refine ⟨by decide +kernel, by decide +kernel, ?_⟩
  exact SlidingWindowLogLimiter.not_invisible (by decide) (by decide) (by decide)

end RateLimiting
