import RateLimiting.Concurrency.StepCondition

/-! # Reachable states

The states that checks leave behind while the clock keeps to some of its readings.
Whatever the order of their operations, each is made by whole steps, and whole steps
make no others. -/

namespace RateLimiting

open CheckTrace LocalTrace

def LocalTrace.readings {loop : CheckLoop} {ι : Type} (start : loop.Time)
    (actions : List (Action (localMachine loop) ι)) : List loop.Time :=
  start :: actions.filterMap fun
    | .evolve clock => some clock
    | .step _ _ => none

namespace CheckLoop

/-- Some run in which the clock only gives the readings `allowed` stores the state. -/
def Storable (loop : CheckLoop) (json : SerdeJson loop.State) (allowed : loop.Time → Prop)
    (state : loop.State) : Prop :=
  ∃ (ι : Type) (_ : DecidableEq ι) (request : ι → CheckRequest) (start : loop.Time)
    (actions : List (Action (localMachine loop) ι)),
    (∀ clock ∈ readings start actions, allowed clock) ∧
      ∃ key, ∃ entry ∈ ((localSystem loop json request start).run
          actions).world.store.state key,
        json.fromSlice entry.1 = some state

/-- The states that steps at the readings `allowed` make. -/
inductive Reachable (loop : CheckLoop) (allowed : loop.Time → Prop) : loop.State → Prop
  | step (now : loop.Time) (found : Option loop.State) (cost : UInt32)
      (reading : allowed now) (before : ∀ state ∈ found, Reachable loop allowed state) :
      Reachable loop allowed (loop.step now (found.getD (loop.fresh now)) cost).1

variable {loop : CheckLoop} {allowed : loop.Time → Prop}

theorem Reachable.first {now : loop.Time} (reading : allowed now) (cost : UInt32) :
    loop.Reachable allowed (loop.step now (loop.fresh now) cost).1 :=
  .step now none cost reading fun _ member => nomatch member

theorem Reachable.next {state : loop.State} (reachable : loop.Reachable allowed state)
    {now : loop.Time} (reading : allowed now) (cost : UInt32) :
    loop.Reachable allowed (loop.step now state cost).1 := by
  refine .step now (some state) cost reading ?_
  rintro found ⟨⟩
  exact reachable

theorem Reachable.within {inRange : loop.State → Prop}
    (keeps : loop.KeepsWhen (fun now _ _ => allowed now) inRange) {state : loop.State}
    (reachable : loop.Reachable allowed state) : inRange state := by
  induction reachable with
  | step now found cost reading before induction =>
      exact keeps now found cost induction reading

theorem keeps_reachable :
    loop.KeepsWhen (fun now _ _ => allowed now) (loop.Reachable allowed) :=
  fun now found cost before reading => .step now found cost reading before

end CheckLoop

open CheckLoop

section Runs

variable {loop : CheckLoop} {json : SerdeJson loop.State} {allowed : loop.Time → Prop}
  {ι : Type} [DecidableEq ι] {request : ι → CheckRequest}

/-! ## Runs make whole steps -/

structure Timed (json : SerdeJson loop.State) (request : ι → CheckRequest)
    (allowed : loop.Time → Prop) (config : Config (localMachine loop) ι Decision) :
    Prop where
  readings : ReadingsAllowed allowed config
  meets : Meets json request (fun now _ _ => allowed now) config.trace

theorem Timed.advance {config : Config (localMachine loop) ι Decision}
    (timed : Timed json request allowed config)
    (action : Action (localMachine loop) ι)
    (reading : ∀ clock, action = .evolve clock → allowed clock) :
    Timed json request allowed (config.advance action) := by
  refine ⟨timed.readings.advance action reading, ?_⟩
  cases action with
  | evolve clock => exact timed.meets
  | step thread choice =>
      cases program : config.threads thread with
      | pure decision =>
          rw [Config.advance_of_pure program]
          exact timed.meets
      | request op next =>
          rw [Config.advance_of_request program]
          exact ⟨fun _ _ now read => timed.readings.taken thread now read, timed.meets⟩

theorem Timed.run {config : Config (localMachine loop) ι Decision}
    (timed : Timed json request allowed config)
    (actions : List (Action (localMachine loop) ι))
    (reading : ∀ clock, .evolve clock ∈ actions → allowed clock) :
    Timed json request allowed (config.run actions) := by
  induction actions generalizing config with
  | nil => exact timed
  | cons action actions induction =>
      have next := timed.advance action fun clock same => reading clock (by simp [same])
      exact induction next fun clock member => reading clock (List.mem_cons_of_mem _ member)

theorem CheckLoop.Storable.reachable {state : loop.State}
    (storable : loop.Storable json allowed state) : loop.Reachable allowed state := by
  rcases storable with
    ⟨ι, _, request, start, actions, clocks, key, entry, stored, decoded⟩
  have started : Timed json request allowed (localSystem loop json request start) :=
    ⟨⟨clocks start List.mem_cons_self, fun _ _ read => (nomatch read)⟩, trivial⟩
  have timed := started.run actions fun clock member => clocks clock
    (List.mem_cons_of_mem _ (List.mem_filterMap.mpr ⟨_, member, rfl⟩))
  exact (passInvariant_run keeps_reachable start actions timed.meets).stored key entry
    stored state decoded

/-! ## Whole steps are runs -/

def soloCheck (call : ι) (now : loop.Time) : List (Action (localMachine loop) ι) :=
  [.evolve now, .step call (), .step call (), .step call ()]

theorem run_soloCheck {config : Config (localMachine loop) ι Decision} {call : ι}
    {key : String} {cost : UInt32} {attempts : Nat}
    (ready : config.threads call =
      loop.retry json LocalStore.stateStore key cost (attempts + 1)) (now : loop.Time) :
    (∀ other, other ≠ call →
      (config.run (soloCheck call now)).threads other = config.threads other) ∧
      ((config.run (soloCheck call now)).world.store.state key).map Prod.fst =
        some (json.toVec (loop.step now (((config.world.store.state key).bind
          fun entry => json.fromSlice entry.1).getD (loop.fresh now)) cost).1) := by
  rw [CheckLoop.retry_local] at ready
  have accepted := (config.world.store.accepts_iff key _).mpr rfl
  have evolved : (config.advance (.evolve now)).threads call = _ := ready
  have clocked : ((config.advance (.evolve now)).advance (.step call ())).threads call =
      loop.clocked json key cost attempts now := by
    rw [Config.advance_of_request evolved]
    exact Function.update_self ..
  have loaded : (((config.advance (.evolve now)).advance (.step call ())).advance
      (.step call ())).threads call =
        loop.loaded json key cost attempts now (config.world.store.state key) := by
    rw [Config.advance_of_request clocked, Config.advance_of_request evolved]
    exact Function.update_self ..
  have ran : config.run (soloCheck call now) =
      (((config.advance (.evolve now)).advance (.step call ())).advance
        (.step call ())).advance (.step call ()) := rfl
  rw [ran, Config.advance_of_request loaded, Config.advance_of_request clocked,
    Config.advance_of_request evolved]
  constructor
  · intro other different
    simp only [Function.update_of_ne different]
    rfl
  · change ((config.world.store.cas key _ _).2.state key).map Prod.fst = _
    rw [LocalStore.cas_of_accepts _ _ _ _ accepted]
    simp [CheckLoop.outcomeOf]

/-- The calls from `position` on have not started, and `found` is what they will find. -/
structure Prepared (loop : CheckLoop) (json : SerdeJson loop.State)
    (config : Config (localMachine loop) (Nat × UInt32) Decision) (position : Nat)
    (found : Option loop.State) : Prop where
  unstarted : ∀ call : Nat × UInt32, position ≤ call.1 →
    config.threads call = loop.retry json LocalStore.stateStore (loop.key "" "") call.2 5
  stored : (config.world.store.state (loop.key "" "")).bind
    (fun entry => json.fromSlice entry.1) = found

theorem Prepared.serve {config : Config (localMachine loop) (Nat × UInt32) Decision}
    {position : Nat} {found : Option loop.State}
    (prepared : Prepared loop json config position found) (now : loop.Time)
    (cost : UInt32) :
    Prepared loop json (config.run (soloCheck (position, cost) now)) (position + 1)
      (some (loop.step now (found.getD (loop.fresh now)) cost).1) := by
  rcases run_soloCheck (prepared.unstarted (position, cost) le_rfl) now with ⟨others, stored⟩
  constructor
  · intro call later
    rw [others call (by rintro rfl; exact absurd later (by simp))]
    exact prepared.unstarted call (by omega)
  · rw [prepared.stored] at stored
    rcases Option.map_eq_some_iff.mp stored with ⟨entry, isEntry, bytes⟩
    rw [isEntry, Option.bind_some, bytes, json.fromSlice_toVec]

def costing (call : Nat × UInt32) : CheckRequest where
  clientId := ""
  resource := ""
  cost := call.2

theorem Prepared.extend {start : loop.Time} {position : Nat} {found : Option loop.State}
    {actions : List (Action (localMachine loop) (Nat × UInt32))}
    (prepared : Prepared loop json ((localSystem loop json costing start).run actions)
      position found)
    (clocks : ∀ clock ∈ readings start actions, allowed clock) {now : loop.Time}
    (reading : allowed now) (cost : UInt32) :
    ∃ longer, (∀ clock ∈ readings start longer, allowed clock) ∧
      Prepared loop json ((localSystem loop json costing start).run longer) (position + 1)
        (some (loop.step now (found.getD (loop.fresh now)) cost).1) := by
  refine ⟨actions ++ soloCheck (position, cost) now, ?_, ?_⟩
  · intro clock member
    rw [readings, List.filterMap_append, ← List.cons_append, List.mem_append] at member
    rcases member with before | added
    · exact clocks clock before
    · rw [List.mem_singleton.mp added]
      exact reading
  · rw [Config.run, List.foldl_append]
    exact prepared.serve now cost

theorem CheckLoop.Reachable.prepared (json : SerdeJson loop.State) {state : loop.State}
    (reachable : loop.Reachable allowed state) :
    ∃ start actions position, (∀ clock ∈ readings start actions, allowed clock) ∧
      Prepared loop json ((localSystem loop json costing start).run actions) position
        (some state) := by
  induction reachable with
  | step now found cost reading before induction =>
      cases found with
      | none =>
          have start : Prepared loop json ((localSystem loop json costing now).run []) 0
              none := ⟨fun _ _ => rfl, rfl⟩
          rcases start.extend (by simpa [readings] using reading) reading cost with
            ⟨actions, clocks, prepared⟩
          exact ⟨now, actions, 1, clocks, prepared⟩
      | some state =>
          rcases induction state rfl with ⟨start, actions, position, clocks, prepared⟩
          rcases prepared.extend clocks reading cost with ⟨longer, clocks, prepared⟩
          exact ⟨start, longer, position + 1, clocks, prepared⟩

/-- The states that runs store are those that whole steps make. -/
theorem CheckLoop.storable_iff {state : loop.State} :
    loop.Storable json allowed state ↔ loop.Reachable allowed state := by
  constructor
  · exact Storable.reachable
  · intro reachable
    rcases reachable.prepared json with
      ⟨start, actions, position, clocks, prepared⟩
    rcases Option.bind_eq_some_iff.mp prepared.stored with ⟨entry, stored, decoded⟩
    exact ⟨Nat × UInt32, inferInstance, costing, start, actions, clocks, _, entry, stored,
      decoded⟩

/-- The checked step computes what the step does, on whatever is stored while the clock
only gives the readings `allowed`. -/
def CheckLoop.Computes (loop : CheckLoop) (json : SerdeJson loop.State)
    (allowed : loop.Time → Prop)
    (checkedStep : loop.Time → loop.State → UInt32 → Option (loop.State × Decision)) :
    Prop :=
  ∀ now (found : Option loop.State) cost, allowed now →
    (∀ state ∈ found, loop.Storable json allowed state) →
      checkedStep now (found.getD (loop.fresh now)) cost =
        some (loop.step now (found.getD (loop.fresh now)) cost)

theorem CheckLoop.KeepsWhen.computes {inRange : loop.State → Prop}
    (keeps : loop.KeepsWhen (fun now _ _ => allowed now) inRange)
    (fresh : ∀ now, inRange (loop.fresh now))
    {checkedStep : loop.Time → loop.State → UInt32 → Option (loop.State × Decision)}
    (exact : ∀ now state cost, allowed now → inRange state →
      checkedStep now state cost = some (loop.step now state cost)) :
    loop.Computes json allowed checkedStep := by
  intro now found cost reading stored
  apply exact now _ cost reading
  cases found with
  | none => exact fresh now
  | some state => exact (stored state rfl).reachable.within keeps

end Runs

end RateLimiting
