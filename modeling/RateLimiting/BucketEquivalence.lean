import Mathlib.Algebra.Order.Group.MinMax
import Mathlib.Data.Option.Basic
import RateLimiting.Sequential
import RateLimiting.Store.Json

/-! # Token bucket and leaky bucket

The tokens of one bucket are the free depth of the other. With one capacity and
one rate the two limiters give the same answers, whatever the clock does. -/

namespace RateLimiting

/-- What a decision says apart from its text. -/
def Decision.verdict (d : Decision) : Bool × Int64 × Int64 × Int64 :=
  (d.allowed, d.limit, d.remaining, d.retryAfterMs)

namespace BucketEquivalence

variable (capacity : UInt64) (rate : ℚ)

@[reducible] def token : TokenBucketLimiter :=
  ⟨capacity.toNat, rate⟩

@[reducible] def leaky : LeakyBucketLimiter :=
  ⟨rate, capacity⟩

structure Related (tokens : TokenBucket.State) (queue : LeakyBucket.State) : Prop where
  level : tokens.tokens = capacity.toNat - queue.queue
  stamp : tokens.lastRefillMs = queue.lastLeakMs

variable {capacity rate} {tokens : TokenBucket.State} {queue : LeakyBucket.State}

theorem Related.refilled (related : Related capacity tokens queue) (now : Millis) :
    (token capacity rate).tokens now tokens =
      capacity.toNat - (leaky capacity rate).queue now queue := by
  rw [TokenBucketLimiter.tokens, LeakyBucketLimiter.queue, related.level,
    related.stamp, ← min_sub_sub_left, sub_zero, sub_sub_eq_add_sub,
    add_sub_right_comm]

theorem Related.fresh (now : Millis) :
    Related capacity ((token capacity rate).loop.fresh now)
      ((leaky capacity rate).loop.fresh now) where
  level := (sub_zero _).symm
  stamp := rfl

theorem Related.allowed_eq (related : Related capacity tokens queue) (now : Millis)
    (cost : UInt32) :
    ((token capacity rate).step now tokens cost).2.allowed =
      ((leaky capacity rate).step now queue cost).2.allowed := by
  rw [TokenBucketLimiter.step_allowed, LeakyBucketLimiter.step_allowed,
    related.refilled, LeakyBucketLimiter.cap, decide_eq_decide, le_sub_iff_add_le']

theorem Related.step (related : Related capacity tokens queue) (now : Millis)
    (cost : UInt32) :
    Related capacity ((token capacity rate).step now tokens cost).1
      ((leaky capacity rate).step now queue cost).1 := by
  rw [TokenBucketLimiter.step_state, LeakyBucketLimiter.step_state,
    related.allowed_eq, related.refilled]
  constructor
  · cases ((leaky capacity rate).step now queue cost).2.allowed with
    | true => exact sub_sub _ _ _
    | false => rfl
  · rfl

theorem Related.verdict_eq (related : Related capacity tokens queue)
    (fits : capacity.toNat < 2 ^ 63) (now : Millis) (cost : UInt32) :
    ((token capacity rate).step now tokens cost).2.verdict =
      ((leaky capacity rate).step now queue cost).2.verdict := by
  have remaining : ((token capacity rate).step now tokens cost).2.remaining =
      ((leaky capacity rate).step now queue cost).2.remaining := by
    rw [TokenBucketLimiter.step_remaining, LeakyBucketLimiter.step_remaining,
      (related.step now cost).level]
    rfl
  have retryAfterMs : ((token capacity rate).step now tokens cost).2.retryAfterMs =
      ((leaky capacity rate).step now queue cost).2.retryAfterMs := by
    rw [TokenBucketLimiter.step_retryAfterMs, LeakyBucketLimiter.step_retryAfterMs,
      related.allowed_eq, related.refilled, LeakyBucketLimiter.cap,
      sub_sub_eq_add_sub, add_comm]
  simp only [Decision.verdict, related.allowed_eq, remaining, retryAfterMs,
    TokenBucketLimiter.step_limit, LeakyBucketLimiter.step_limit, asI64_toNat fits]

theorem decisions_agree (fits : capacity.toNat < 2 ^ 63)
    (calls : List (Millis × UInt32)) {tokens : Option TokenBucket.State}
    {queue : Option LeakyBucket.State}
    (related : Option.Rel (Related capacity) tokens queue) :
    ((token capacity rate).loop.decisions tokens calls).map Decision.verdict =
      ((leaky capacity rate).loop.decisions queue calls).map Decision.verdict := by
  induction calls generalizing tokens queue with
  | nil => rfl
  | cons call rest induction =>
      rcases call with ⟨now, cost⟩
      have found : Related capacity (tokens.getD ((token capacity rate).loop.fresh now))
          (queue.getD ((leaky capacity rate).loop.fresh now)) := by
        cases related with
        | none => exact Related.fresh now
        | some related => exact related
      simp only [CheckLoop.decisions, List.map_cons]
      rw [found.verdict_eq fits, induction (.some (found.step now cost))]

def arrivals (loop : CheckLoop) (calls : List (loop.Time × CheckRequest)) :
    List (Arrival loop) :=
  calls.map fun call => ⟨call.1, call.2⟩

theorem run_absent {loop : CheckLoop} (json : SerdeJson loop.State) {I : Interface}
    (backend : LawfulStore I) {world : backend.machine.World}
    {clientId resource : String}
    (absent : backend.lookup world (loop.key clientId resource) = none)
    (calls : List (loop.Time × CheckRequest))
    (oneKey : ∀ call ∈ calls,
      s!"{call.2.clientId}/{call.2.resource}" = s!"{clientId}/{resource}") :
    (loop.runCalls json backend (arrivals loop calls) world).1 =
      loop.decisions none (calls.map fun call => (call.1, call.2.cost)) := by
  rw [CheckLoop.runCalls_absent json backend (arrivals loop calls) ?_ absent, arrivals,
    List.map_map]
  · rfl
  · intro call member
    rcases List.mem_map.mp member with ⟨request, listed, rfl⟩
    exact (loop.key_eq_iff (request.2.clientId, request.2.resource)
      (clientId, resource)).mpr (oneKey request listed)

end BucketEquivalence

open BucketEquivalence

/-- The two limiters with one capacity and one rate, each over a store of its
own, decide every sequence of calls on one key alike. -/
theorem buckets_agree (capacity : UInt64) (capacityExact : capacity.toNat < 2 ^ 53)
    (rate : ℚ) (tokenJson : SerdeJson TokenBucket.State)
    (leakyJson : SerdeJson LeakyBucket.State) {I J : Interface}
    (tokenBackend : LawfulStore I) (leakyBackend : LawfulStore J)
    (tokenWorld : tokenBackend.machine.World)
    (leakyWorld : leakyBackend.machine.World) (clientId resource : String)
    (tokenAbsent : tokenBackend.lookup tokenWorld
      ((token capacity rate).loop.key clientId resource) = none)
    (leakyAbsent : leakyBackend.lookup leakyWorld
      ((leaky capacity rate).loop.key clientId resource) = none)
    (calls : List (Millis × CheckRequest))
    (oneKey : ∀ call ∈ calls,
      s!"{call.2.clientId}/{call.2.resource}" = s!"{clientId}/{resource}") :
    ((token capacity rate).loop.runCalls tokenJson tokenBackend
        (arrivals (token capacity rate).loop calls) tokenWorld).1.map Decision.verdict =
      ((leaky capacity rate).loop.runCalls leakyJson leakyBackend
        (arrivals (leaky capacity rate).loop calls) leakyWorld).1.map
          Decision.verdict := by
  rw [run_absent tokenJson tokenBackend tokenAbsent calls oneKey,
    run_absent leakyJson leakyBackend leakyAbsent calls oneKey]
  exact decisions_agree (by omega) _ .none

theorem buckets_agree_burst :
    let calls : List (Millis × CheckRequest) :=
      [(⟨1000, by decide⟩, ⟨"alice", "/", 2⟩), (⟨1500, by decide⟩, ⟨"alice", "/", 1⟩),
        (⟨1000, by decide⟩, ⟨"alice", "/", 1⟩)]
    ((token 2 1).loop.runCalls Json.tokenBucket LocalStore.lawful
        (arrivals (token 2 1).loop calls) LocalStore.new).1.map Decision.verdict =
      ((leaky 2 1).loop.runCalls Json.leakyBucket LocalStore.lawful
        (arrivals (leaky 2 1).loop calls) LocalStore.new).1.map Decision.verdict := by
  intro calls
  exact buckets_agree 2 (by decide) 1 Json.tokenBucket Json.leakyBucket LocalStore.lawful
    LocalStore.lawful LocalStore.new LocalStore.new "alice" "/" rfl rfl calls
    (by decide +kernel)

end RateLimiting
