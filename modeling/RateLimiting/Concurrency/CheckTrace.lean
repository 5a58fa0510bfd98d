import RateLimiting.Algorithms.Basic
import RateLimiting.Foundation.Interleaving

/-! # The passes of a check

What the programs and the traces of checks have in common over every store. -/

namespace RateLimiting

namespace CheckLoop

variable (loop : CheckLoop) (json : SerdeJson loop.State)

/-- The step that a pass takes on what it has read. -/
def outcomeOf (cost : UInt32) (now : loop.Time) (entry : Option (Bytes × Int64)) :
    loop.State × Decision :=
  loop.step now ((entry.bind fun found => json.fromSlice found.1).getD
    (loop.fresh now)) cost

theorem retry_succ {I : Interface} (store : StateStore I) (key : String)
    (cost : UInt32) (attempts : Nat) :
    loop.retry json store key cost (attempts + 1) =
      .request .now fun now =>
        (store.get key).onStore loop.Time >>= fun entry =>
          (store.cas key (entry.map Prod.snd)
            (json.toVec (loop.outcomeOf json cost now entry).1)).onStore loop.Time >>=
              fun result =>
                if result.success then .pure (loop.outcomeOf json cost now entry).2
                else loop.retry json store key cost attempts := by
  simp only [retry, attempt, Program.perform, Program.request_bind, Program.pure_bind,
    Program.bind_assoc, Program.pure_eq, load_version]
  congr 1
  funext now
  congr 1
  funext entry
  simp only [outcomeOf, load_state]
  congr 1
  funext result
  cases result.success <;> rfl

end CheckLoop

structure PassFacts (loop : CheckLoop) where
  ready : (attempts : Nat) → Prop
  clocked : (attempts : Nat) → (now : loop.Time) → Prop
  loaded : (attempts : Nat) → (now : loop.Time) → (entry : Option (Bytes × Int64)) → Prop
  returned : Decision → Prop

namespace CheckTrace

variable {Time : Type} {I : Interface} {m : Machine I} {ι : Type} [DecidableEq ι]

def captured (call : ι) : List (Event (checkMachine Time m) ι) → Option Time :=
  Config.latest (fun event =>
    match event.op with
    | .now => some event.before.clock
    | .store _ => none) call

theorem captured_cons_of_ne {event : Event (checkMachine Time m) ι} {call : ι}
    (other : call ≠ event.thread) (older : List (Event (checkMachine Time m) ι)) :
    captured call (event :: older) = captured call older :=
  Config.latest_cons_of_ne _ other older

variable {α : Type} {allowed : Time → Prop} {config : Config (checkMachine Time m) ι α}

structure ReadingsAllowed (allowed : Time → Prop)
    (config : Config (checkMachine Time m) ι α) : Prop where
  clock : allowed config.world.clock
  taken : ∀ call, ∀ now ∈ captured call config.trace, allowed now

theorem ReadingsAllowed.advance (readings : ReadingsAllowed allowed config)
    (action : Action (checkMachine Time m) ι)
    (set : ∀ clock, action = .evolve clock → allowed clock) :
    ReadingsAllowed allowed (config.advance action) := by
  cases action with
  | evolve clock => exact ⟨set clock rfl, readings.taken⟩
  | step thread choice =>
      cases asks : config.threads thread with
      | pure value =>
          rw [Config.advance_of_pure asks]
          exact readings
      | request op next =>
          rw [Config.advance_of_request asks]
          cases op with
          | store op => exact ⟨readings.clock, readings.taken⟩
          | now =>
              refine ⟨readings.clock, fun call now taken => ?_⟩
              by_cases own : thread = call
              · have isClock : some config.world.clock = some now :=
                  (if_pos own).symm.trans taken
                rw [← Option.some.inj isClock]
                exact readings.clock
              · exact readings.taken call now ((if_neg own).symm.trans taken)

end CheckTrace

end RateLimiting
