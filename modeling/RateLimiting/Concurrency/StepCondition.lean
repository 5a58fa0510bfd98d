import RateLimiting.Concurrency.Serializability
import RateLimiting.Concurrency.StateRanges

/-! # Steps under a condition

A range of states that the steps of a limiter leave unless a condition holds of the
reading, the state that was read and the cost. Where the condition holds of every
check that writes, every stored state is in the range. No version has to be unique
for that: a check writes what it computed from what it read. -/

namespace RateLimiting

def CheckLoop.stateOf (loop : CheckLoop) (json : SerdeJson loop.State) (now : loop.Time)
    (entry : Option (Bytes × Int64)) : loop.State :=
  (loop.load json now entry).1

/-- The steps keep a range of states as long as they meet a condition. -/
def CheckLoop.KeepsWhen (loop : CheckLoop)
    (condition : loop.Time → loop.State → UInt32 → Prop) (inRange : loop.State → Prop) :
    Prop :=
  ∀ now (found : Option loop.State) cost, (∀ state ∈ found, inRange state) →
    condition now (found.getD (loop.fresh now)) cost →
      inRange (loop.step now (found.getD (loop.fresh now)) cost).1

theorem CheckLoop.Confines.keepsWhen {loop : CheckLoop} {inRange : loop.State → Prop}
    (confines : loop.Confines inRange)
    (condition : loop.Time → loop.State → UInt32 → Prop) :
    loop.KeepsWhen condition inRange := by
  intro now found cost before _
  cases found with
  | none => exact confines.step now _ cost (confines.fresh now)
  | some state => exact confines.step now state cost (before state rfl)

open CheckTrace LocalTrace

variable {loop : CheckLoop} {ι : Type} [DecidableEq ι]

namespace LocalTrace

def lastRead (call : ι) (trace : LocalTrace loop ι) : Option (Bytes × Int64) :=
  (Config.latest (fun event : Event (localMachine loop) ι =>
    match event.op with
    | .store (.get key) => some (event.before.store.state key)
    | _ => none) call trace).join

variable (json : SerdeJson loop.State) (request : ι → CheckRequest)

/-- Every check that writes meets the condition with what it has read. -/
def Meets (condition : loop.Time → loop.State → UInt32 → Prop) :
    LocalTrace loop ι → Prop
  | [] => True
  | event :: older =>
      (∀ write ∈ write? event, ∀ now ∈ captured event.thread older,
        condition now (loop.stateOf json now (lastRead event.thread older))
          (request event.thread).cost) ∧
      Meets condition older

instance decidableMeets (condition : loop.Time → loop.State → UInt32 → Prop)
    [∀ now state cost, Decidable (condition now state cost)] :
    (trace : LocalTrace loop ι) → Decidable (Meets json request condition trace)
  | [] => inferInstanceAs (Decidable True)
  | _ :: older =>
      have := decidableMeets condition older
      inferInstanceAs (Decidable (_ ∧ Meets json request condition older))

theorem lastRead_cons_of_ne {event : Event (localMachine loop) ι} {call : ι}
    (other : call ≠ event.thread) (older : LocalTrace loop ι) :
    lastRead call (event :: older) = lastRead call older :=
  congrArg Option.join (Config.latest_cons_of_ne _ other older)

variable {json request}

theorem Meets.suffix {condition : loop.Time → loop.State → UInt32 → Prop}
    {older trace : LocalTrace loop ι} (suffix : older <:+ trace)
    (meets : Meets json request condition trace) : Meets json request condition older := by
  rcases suffix with ⟨newer, rfl⟩
  induction newer with
  | nil => exact meets
  | cons event newer induction => exact induction meets.2

end LocalTrace

def readInRange (json : SerdeJson loop.State) (inRange : loop.State → Prop) (call : ι)
    (trace : LocalTrace loop ι) : PassFacts loop where
  ready _ := True
  clocked _ now := captured call trace = some now
  loaded _ now entry := captured call trace = some now ∧ lastRead call trace = entry ∧
    ∀ state ∈ entry.bind fun found => json.fromSlice found.1, inRange state
  returned _ := True

structure PassInvariant (json : SerdeJson loop.State) (request : ι → CheckRequest)
    (inRange : loop.State → Prop) (config : Config (localMachine loop) ι Decision) :
    Prop where
  stored : ∀ key, ∀ entry ∈ config.world.store.state key,
    ∀ state ∈ json.fromSlice entry.1, inRange state
  passes : ∀ call, LocalPhase json (readInRange json inRange call config.trace)
    (request call) (config.threads call)

section Invariant

variable {json : SerdeJson loop.State} {request : ι → CheckRequest}
  {inRange : loop.State → Prop} {condition : loop.Time → loop.State → UInt32 → Prop}

theorem CheckLoop.KeepsWhen.outcome (keeps : loop.KeepsWhen condition inRange)
    {cost : UInt32} {now : loop.Time} {entry : Option (Bytes × Int64)}
    (within : ∀ state ∈ entry.bind fun found => json.fromSlice found.1, inRange state)
    (holds : condition now (loop.stateOf json now entry) cost) :
    ∀ state ∈ json.fromSlice (json.toVec (loop.outcomeOf json cost now entry).1),
      inRange state := by
  rw [CheckLoop.stateOf, CheckLoop.load_state] at holds
  rw [json.fromSlice_toVec]
  rintro state ⟨⟩
  exact keeps now _ cost within holds

variable {config : Config (localMachine loop) ι Decision} {call : ι}
  {op : (checkInterface loop.Time LocalStore.interface).Op}
  {next : (checkInterface loop.Time LocalStore.interface).Reply op →
    Program (checkInterface loop.Time LocalStore.interface) Decision}

theorem PassInvariant.stored_perform (keeps : loop.KeepsWhen condition inRange)
    (invariant : PassInvariant json request inRange config)
    (move : LocalMove json (readInRange json inRange call config.trace) (request call) op
      next)
    (meets : Meets json request condition (⟨call, op, (), config.world⟩ :: config.trace)) :
    ∀ key, ∀ entry ∈ ((localMachine loop).perform op () config.world).2.store.state key,
      ∀ state ∈ json.fromSlice entry.1, inRange state := by
  cases move with
  | clock attempts known => exact invariant.stored
  | read attempts now known => exact invariant.stored
  | swap attempts now entry known =>
      rcases known with ⟨reading, read, within⟩
      cases accepted : config.world.store.accepts ((request call).key loop)
          (entry.map Prod.snd) with
      | false =>
          simp only [LocalStore.cas_of_not_accepts _ _ _ _ accepted]
          exact invariant.stored
      | true =>
          have holds := meets.1 (call, (request call).key loop,
            json.toVec (loop.outcomeOf json (request call).cost now entry).1)
            (if_pos accepted) now reading
          rw [read] at holds
          have written := keeps.outcome within holds
          simp only [LocalStore.cas_of_accepts _ _ _ _ accepted]
          intro key found member
          rcases mem_update member with rfl | before
          · exact written
          · exact invariant.stored key found before

theorem PassInvariant.phase_perform (invariant : PassInvariant json request inRange config)
    (move : LocalMove json (readInRange json inRange call config.trace) (request call) op
      next) :
    LocalPhase json
      (readInRange json inRange call (⟨call, op, (), config.world⟩ :: config.trace))
      (request call) (next ((localMachine loop).perform op () config.world).1) := by
  apply move.phase () config.world
  · rintro attempts _ rfl
    exact if_pos rfl
  · rintro attempts now reading rfl
    refine ⟨reading, congrArg Option.join (if_pos rfl), ?_⟩
    intro state member
    rcases Option.bind_eq_some_iff.mp member with ⟨entry, found, decoded⟩
    exact invariant.stored _ entry found state decoded
  · intro attempts now entry _ _
    split <;> trivial

theorem PassInvariant.advance (keeps : loop.KeepsWhen condition inRange)
    (invariant : PassInvariant json request inRange config)
    (action : Action (localMachine loop) ι)
    (meets : Meets json request condition (config.advance action).trace) :
    PassInvariant json request inRange (config.advance action) := by
  cases action with
  | evolve clock => exact ⟨invariant.stored, invariant.passes⟩
  | step call choice =>
      cases asks : config.threads call with
      | pure decision =>
          rw [Config.advance_of_pure asks]
          exact invariant
      | request op next =>
          have phase := invariant.passes call
          rw [asks] at phase
          rw [Config.advance_of_request asks] at meets ⊢
          refine ⟨invariant.stored_perform keeps phase.move meets, fun other => ?_⟩
          by_cases same : other = call
          · subst same
            simp only [Function.update_self]
            exact invariant.phase_perform phase.move
          · simp only [Function.update_of_ne same]
            apply (invariant.passes other).mono
            · exact fun _ _ => trivial
            · exact fun _ now reading => (captured_cons_of_ne same _).trans reading
            · exact fun _ now entry known =>
                ⟨(captured_cons_of_ne same _).trans known.1,
                  (lastRead_cons_of_ne same _).trans known.2.1, known.2.2⟩
            · exact fun _ _ => trivial

theorem passInvariant_run (keeps : loop.KeepsWhen condition inRange) (start : loop.Time)
    (actions : List (Action (localMachine loop) ι))
    (meets : Meets json request condition
      ((localSystem loop json request start).run actions).trace) :
    PassInvariant json request inRange
      ((localSystem loop json request start).run actions) := by
  apply Config.invariant_run_within (PassInvariant json request inRange)
    (Meets json request condition) Meets.suffix
    (fun config action invariant within => invariant.advance keeps action within) _ _ actions
    meets
  exact ⟨fun _ _ member => (nomatch member), fun _ => .ready 5 trivial rfl⟩

end Invariant

end RateLimiting
