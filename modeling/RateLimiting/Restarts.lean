import RateLimiting.Config
import RateLimiting.Sequential

/-! # Restarts with other settings

The stored states outlive the process. A family is one algorithm under all
settings; in a run over one store each call has the settings of the process that
serves it. -/

namespace RateLimiting

/-- The loops of one algorithm. They agree on the clock, on the type of their
states and on the keys. -/
structure Family (Settings : Type) where
  name : String
  Time : Type
  reading : Time → Nat
  State : Type
  fresh : Settings → (now : Time) → State
  step : Settings → (now : Time) → State → (cost : UInt32) → State × Decision
  fallback : Settings → Decision
  fallback_denied : ∀ config, (fallback config).allowed = false
  step_ordinary : ∀ config now state cost,
    (step config now state cost).2 ≠ fallback config

@[reducible] def Family.limiter {Settings : Type} (family : Family Settings)
    (config : Settings) : CheckLoop where
  name := family.name
  Time := family.Time
  reading := family.reading
  State := family.State
  fresh := family.fresh config
  step := family.step config
  fallback := family.fallback config
  fallback_denied := family.fallback_denied config
  step_ordinary := family.step_ordinary config

/-- One loop under settings that are all alike. -/
@[reducible] def CheckLoop.alone (loop : CheckLoop) : Family Unit where
  name := loop.name
  Time := loop.Time
  reading := loop.reading
  State := loop.State
  fresh _ := loop.fresh
  step _ := loop.step
  fallback _ := loop.fallback
  fallback_denied _ := loop.fallback_denied
  step_ordinary _ := loop.step_ordinary

/-! ## The five families -/

def RateLimiterConfig.fixedWindow (config : RateLimiterConfig) : FixedWindowLimiter :=
  ⟨config.maxRequests, config.windowSecs⟩

def RateLimiterConfig.slidingWindowLog (config : RateLimiterConfig) :
    SlidingWindowLogLimiter :=
  .new config.maxRequests config.windowSecs

def RateLimiterConfig.slidingWindowCounter (config : RateLimiterConfig) :
    SlidingWindowCounterLimiter :=
  ⟨config.maxRequests, config.windowSecs⟩

def RateLimiterConfig.tokenBucket (config : RateLimiterConfig) : TokenBucketLimiter :=
  ⟨config.bucketCapacity, config.refillRate⟩

def RateLimiterConfig.leakyBucket (config : RateLimiterConfig) : LeakyBucketLimiter :=
  ⟨config.leakRate, config.queueCapacity⟩

@[reducible] def Algorithm.family : Algorithm → Family RateLimiterConfig
  | .fixedWindow => {
      name := "fixed_window"
      Time := UInt64
      reading := UInt64.toNat
      State := FixedWindow.State
      fresh := fun config => config.fixedWindow.loop.fresh
      step := fun config => config.fixedWindow.step
      fallback := fun config => config.fixedWindow.loop.fallback
      fallback_denied := fun _ => rfl
      step_ordinary := fun config => config.fixedWindow.step_ordinary }
  | .slidingWindowLog => {
      name := "sliding_window_log"
      Time := Millis
      reading := Millis.reading
      State := SlidingWindowLog.State
      fresh := fun config => config.slidingWindowLog.loop.fresh
      step := fun config => config.slidingWindowLog.step
      fallback := fun config => config.slidingWindowLog.loop.fallback
      fallback_denied := fun _ => rfl
      step_ordinary := fun config => config.slidingWindowLog.step_ordinary }
  | .slidingWindowCounter => {
      name := "sliding_window_counter"
      Time := UInt64
      reading := UInt64.toNat
      State := SlidingWindowCounter.State
      fresh := fun config => config.slidingWindowCounter.loop.fresh
      step := fun config => config.slidingWindowCounter.step
      fallback := fun config => config.slidingWindowCounter.loop.fallback
      fallback_denied := fun _ => rfl
      step_ordinary := fun config => config.slidingWindowCounter.step_ordinary }
  | .tokenBucket => {
      name := "token_bucket"
      Time := Millis
      reading := Millis.reading
      State := TokenBucket.State
      fresh := fun config => config.tokenBucket.loop.fresh
      step := fun config => config.tokenBucket.step
      fallback := fun config => config.tokenBucket.loop.fallback
      fallback_denied := fun _ => rfl
      step_ordinary := fun config => config.tokenBucket.step_ordinary }
  | .leakyBucket => {
      name := "leaky_bucket"
      Time := Millis
      reading := Millis.reading
      State := LeakyBucket.State
      fresh := fun config => config.leakyBucket.loop.fresh
      step := fun config => config.leakyBucket.step
      fallback := fun config => config.leakyBucket.loop.fallback
      fallback_denied := fun _ => rfl
      step_ordinary := fun config => config.leakyBucket.step_ordinary }

theorem RateLimiterConfig.limiter_eq_family (config : RateLimiterConfig) :
    config.limiter = config.algorithm.family.limiter config := by
  rcases config with ⟨algorithm, _⟩
  cases algorithm <;> rfl

/-! ## Runs -/

namespace Family

variable {Settings : Type} (family : Family Settings)

structure Call where
  config : Settings
  now : family.Time
  request : CheckRequest

variable {family}

def Call.arrival (call : family.Call) : Arrival (family.limiter call.config) :=
  ⟨call.now, call.request⟩

def Call.key (call : family.Call) : String :=
  call.arrival.key

variable (json : SerdeJson family.State) {I : Interface} (backend : LawfulStore I)

def serve (world : backend.machine.World) (call : family.Call) :
    Decision × backend.machine.World :=
  CheckLoop.serve json backend world call.arrival

/-- The calls in turn over one store, each by a process with its settings. -/
def runCalls : List family.Call → backend.machine.World →
    List Decision × backend.machine.World
  | [], world => ([], world)
  | call :: rest, world =>
      let (decision, after) := serve json backend world call
      let (decisions, final) := runCalls rest after
      (decision :: decisions, final)

def found (world : backend.machine.World) (call : family.Call) : family.State :=
  CheckLoop.found json backend world call.arrival

def outcome (world : backend.machine.World) (call : family.Call) :
    family.State × Decision :=
  CheckLoop.outcome json backend world call.arrival

theorem runCalls_append (first rest : List family.Call)
    (world : backend.machine.World) :
    runCalls json backend (first ++ rest) world =
      ((runCalls json backend first world).1 ++
          (runCalls json backend rest (runCalls json backend first world).2).1,
        (runCalls json backend rest (runCalls json backend first world).2).2) := by
  induction first generalizing world with
  | nil => rfl
  | cons call first induction => simp [runCalls, induction]

theorem runCalls_snoc (earlier : List family.Call) (last : family.Call)
    (world : backend.machine.World) :
    (runCalls json backend (earlier ++ [last]) world).2 =
      (serve json backend (runCalls json backend earlier world).2 last).2 := by
  rw [runCalls_append]
  rfl

theorem runCalls_length (calls : List family.Call) (world : backend.machine.World) :
    (runCalls json backend calls world).1.length = calls.length := by
  induction calls generalizing world with
  | nil => rfl
  | cons call rest induction => simp [runCalls, induction]

theorem runCalls_getElem? (calls : List family.Call) (world : backend.machine.World)
    {k : Nat} (bound : k < calls.length) :
    (runCalls json backend calls world).1[k]? = some (outcome json backend
      (runCalls json backend (calls.take k) world).2 calls[k]).2 := by
  have split : calls = calls.take k ++ calls[k] :: calls.drop (k + 1) := by
    rw [← List.drop_eq_getElem_cons bound, List.take_append_drop]
  have length := runCalls_length json backend (calls.take k) world
  rw [List.length_take_of_le bound.le] at length
  rw [outcome, ← CheckLoop.serve_decision]
  conv => lhs; rw [split]
  rw [runCalls_append, List.getElem?_append_right (by omega), length, Nat.sub_self]
  rfl

/-! ## What a call finds -/

theorem found_eq (world : backend.machine.World) (call : family.Call) :
    found json backend world call =
      ((backend.contents world call.key).bind json.fromSlice).getD
        (family.fresh call.config call.now) := rfl

theorem found_serve_self (world : backend.machine.World) {last call : family.Call}
    (same : last.key = call.key) :
    found json backend (serve json backend world last).2 call =
      (outcome json backend world last).1 := by
  rw [found_eq, serve, CheckLoop.serve_contents, ← same, Call.key,
    Function.update_self, Option.bind_some, json.fromSlice_toVec, Option.getD_some]
  rfl

theorem found_serve_other (world : backend.machine.World) {last call : family.Call}
    (different : last.key ≠ call.key) :
    found json backend (serve json backend world last).2 call =
      found json backend world call := by
  have unchanged : call.key ≠ last.arrival.key := Ne.symm different
  rw [found_eq, serve, CheckLoop.serve_contents, Function.update_of_ne unchanged]
  rfl

/-- A call finds a fresh state or what an earlier call on its key left. -/
theorem found_cases (earlier : List family.Call) {world : backend.machine.World}
    {call : family.Call} (absent : backend.lookup world call.key = none) :
    found json backend (runCalls json backend earlier world).2 call =
        family.fresh call.config call.now ∨
      ∃ j, ∃ bound : j < earlier.length, earlier[j].key = call.key ∧
        found json backend (runCalls json backend earlier world).2 call =
          (outcome json backend (runCalls json backend (earlier.take j) world).2
            earlier[j]).1 := by
  induction earlier using List.reverseRecOn with
  | nil =>
      left
      rw [found_eq, runCalls, LawfulStore.contents, absent]
      rfl
  | append_singleton earlier last induction =>
      rw [runCalls_snoc]
      by_cases same : last.key = call.key
      · right
        refine ⟨earlier.length, by simp, ?_, ?_⟩
        · rw [List.getElem_concat_length rfl, same]
        · rw [List.getElem_concat_length rfl, List.take_left,
            found_serve_self json backend _ same]
      · rw [found_serve_other json backend _ same]
        rcases induction with isFresh | ⟨j, bound, sameKey, left⟩
        · exact .inl isFresh
        · refine .inr ⟨j, by simp; omega, ?_, ?_⟩
          · rw [List.getElem_append_left bound, sameKey]
          · rw [List.getElem_append_left bound, List.take_append_of_le_length bound.le]
            exact left

end Family

/-- What every step keeps of the states, up to the later readings. -/
structure CheckLoop.Keeps (loop : CheckLoop) (holds : loop.Time → loop.State → Prop) :
    Prop where
  fresh : ∀ now, holds now (loop.fresh now)
  step : ∀ now state cost, holds now state → holds now (loop.step now state cost).1
  later : ∀ earlier now state, loop.reading earlier ≤ loop.reading now →
    holds earlier state → holds now state

namespace Family

variable {Settings : Type} {family : Family Settings}
  (json : SerdeJson family.State) {I : Interface} (backend : LawfulStore I)

def Keeps (family : Family Settings) (valid : Settings → Prop)
    (holds : family.Time → family.State → Prop) : Prop :=
  ∀ config, valid config → (family.limiter config).Keeps holds

theorem Keeps.found {valid : Settings → Prop}
    {holds : family.Time → family.State → Prop} (keeps : family.Keeps valid holds)
    {calls : List family.Call} (validCalls : ∀ call ∈ calls, valid call.config)
    (world : backend.machine.World)
    (ordered : (calls.map fun call => family.reading call.now).Pairwise (· ≤ ·))
    (k : Nat) (bound : k < calls.length)
    (absent : backend.lookup world calls[k].key = none) :
    holds calls[k].now
      (found json backend (runCalls json backend (calls.take k) world).2 calls[k]) := by
  induction k using Nat.strong_induction_on with
  | h k induction =>
      have kept := keeps _ (validCalls _ (List.getElem_mem bound))
      rcases found_cases json backend (calls.take k) absent with
        isFresh | ⟨j, inside, sameKey, left⟩
      · rw [isFresh]
        exact kept.fresh _
      · rw [List.length_take_of_le bound.le] at inside
        have earlier : j < calls.length := inside.trans bound
        rw [List.getElem_take] at sameKey left
        rw [List.take_take, min_eq_left inside.le] at left
        rw [left]
        have readings := List.pairwise_iff_getElem.mp ordered j k (by simpa)
          (by simpa) inside
        rw [List.getElem_map, List.getElem_map] at readings
        apply kept.later calls[j].now _ _ readings
        exact (keeps _ (validCalls _ (List.getElem_mem earlier))).step _ _ _
          (induction j inside earlier (sameKey.symm ▸ absent))

end Family

end RateLimiting
