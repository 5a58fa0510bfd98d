import RateLimiting.Foundation.Budget
import RateLimiting.Foundation.Objects

/-! # Panics

A reply may make a program panic. Its thread stops there and returns nothing, and what it
did to the world before stays done. For the other threads it is as if the thread were
never scheduled again. -/

namespace RateLimiting

namespace Program

variable {I : Interface} {α : Type}

/-- The program as it runs if some replies make it panic, which ends it with `none`. -/
def panicking (panics : (op : I.Op) → I.Reply op → Bool) :
    Program I α → Program I (Option α)
  | .pure value => .pure (some value)
  | .request op next =>
      .request op fun reply =>
        if panics op reply then .pure none else (next reply).panicking panics

theorem Within.panicking {weight : I.Op → Nat} {program : Program I α} {budget : Nat}
    (within : program.Within weight budget) (panics : (op : I.Op) → I.Reply op → Bool) :
    (program.panicking panics).Within weight budget := by
  induction within with
  | pure budget value => exact .pure budget (some value)
  | request affordable _ induction =>
      refine .request affordable fun reply => ?_
      split
      · exact .pure _ none
      · exact induction reply

end Program

def panicsLeft {I : Interface} (J : Interface) (panics : (op : I.Op) → I.Reply op → Bool) :
    (op : (I.sum J).Op) → (I.sum J).Reply op → Bool
  | .inl op, reply => panics op reply
  | .inr _, _ => false

theorem panicsLeft_eq_false {I J : Interface} {panics : (op : I.Op) → I.Reply op → Bool}
    (never : ∀ op reply, panics op reply = false) (op : (I.sum J).Op)
    (reply : (I.sum J).Reply op) : panicsLeft J panics op reply = false := by
  cases op with
  | inl op => exact never op reply
  | inr op => rfl

namespace Config

variable {I : Interface} {m : Machine I} {ι α : Type}
  (panics : (op : I.Op) → I.Reply op → Bool)

/-- The same threads, which may panic. -/
def panicking (config : Config m ι α) : Config m ι (Option α) where
  world := config.world
  threads thread := (config.threads thread).panicking panics
  trace := config.trace

variable {panics}

theorem threads_panicking (config : Config m ι α) (thread : ι) :
    (config.panicking panics).threads thread = (config.threads thread).panicking panics :=
  rfl

theorem result_panicking (config : Config m ι α) (thread : ι) :
    (config.panicking panics).result thread = (config.result thread).map some := by
  unfold result
  rw [threads_panicking]
  cases config.threads thread <;> rfl

theorem join_result_panicking (config : Config m ι α) (thread : ι) :
    ((config.panicking panics).result thread).join = config.result thread := by
  rw [result_panicking]
  cases config.result thread <;> rfl

variable [DecidableEq ι]

/-! ## Without panics -/

theorem advance_panicking (never : ∀ op reply, panics op reply = false)
    (config : Config m ι α) (action : Action m ι) :
    (config.panicking panics).advance action = (config.advance action).panicking panics := by
  cases action with
  | evolve change => rfl
  | step thread choice =>
      cases asks : config.threads thread with
      | pure value =>
          have returned : (config.panicking panics).threads thread = .pure (some value) := by
            rw [threads_panicking, asks]
            rfl
          rw [advance_of_pure asks, advance_of_pure returned]
      | request op next =>
          have panicking : (config.panicking panics).threads thread = .request op fun reply =>
              if panics op reply then .pure none else (next reply).panicking panics := by
            rw [threads_panicking, asks]
            rfl
          rw [advance_of_request asks, advance_of_request panicking, never]
          simp only [Config.panicking, Bool.false_eq_true, if_false, mk.injEq, true_and, and_true]
          funext other
          by_cases own : other = thread
          · subst own
            simp
          · simp [Function.update_of_ne own]

theorem run_panicking (never : ∀ op reply, panics op reply = false)
    (config : Config m ι α) (actions : List (Action m ι)) :
    (config.panicking panics).run actions = (config.run actions).panicking panics := by
  induction actions generalizing config with
  | nil => rfl
  | cons action actions induction =>
      change ((config.panicking panics).advance action).run actions = _
      rw [advance_panicking never]
      exact induction _

/-! ## Threads that panic at once -/

/-- The thread panics at its next operation, or has panicked. -/
def PanicsNow (op : I.Op) (thread : ι) (config : Config m ι (Option α)) : Prop :=
  config.threads thread = .request op (fun _ => .pure none) ∨
    config.threads thread = .pure none

theorem PanicsNow.advance {op : I.Op} {thread : ι} {config : Config m ι (Option α)}
    (ends : config.PanicsNow op thread) (action : Action m ι) :
    (config.advance action).PanicsNow op thread := by
  cases action with
  | evolve change => exact ends
  | step other choice =>
      cases asks : config.threads other with
      | pure value =>
          rw [advance_of_pure asks]
          exact ends
      | request requested next =>
          rw [advance_of_request asks]
          by_cases own : thread = other
          · subst own
            rcases ends with waits | ended
            · rw [asks] at waits
              cases waits
              exact .inr (Function.update_self ..)
            · rw [asks] at ended
              cases ended
          · simpa only [PanicsNow, Function.update_of_ne own] using ends

theorem result_of_panic {config : Config m ι α} {thread : ι} {op : I.Op}
    {next : I.Reply op → Program I α} (asks : config.threads thread = .request op next)
    (always : ∀ reply, panics op reply = true) {actions : List (Action m ι)}
    (turn : 1 ≤ turns thread actions) :
    ((config.panicking panics).run actions).result thread = some none := by
  have waits : (config.panicking panics).threads thread =
      .request op (fun _ => .pure none) := by
    rw [threads_panicking, asks]
    simp [Program.panicking, always]
  have panicked : ((config.panicking panics).run actions).PanicsNow op thread :=
    invariant_run (PanicsNow op thread) (fun _ action ends => ends.advance action) _
      (.inl waits) actions
  have within : ((config.panicking panics).threads thread).Within (fun _ => 1) 1 := by
    rw [waits]
    exact .request (le_refl _) fun _ => .pure _ _
  rcases returns_of_turns (config.panicking panics) within turn with ⟨value, returned⟩
  rcases panicked with waits | ended
  · rw [returned] at waits
    cases waits
  · rw [result, ended]

/-! ## Panics as threads that are not scheduled -/

variable (panics) in
/-- A run in which threads have panicked, and one in which they are not scheduled. -/
structure Panicked (stopped : Config m ι (Option α)) (config : Config m ι α) : Prop where
  world : stopped.world = config.world
  trace : stopped.trace = config.trace
  threads : ∀ thread, stopped.threads thread = .pure none ∨
    stopped.threads thread = (config.threads thread).panicking panics

theorem Panicked.advance {stopped : Config m ι (Option α)} {config : Config m ι α}
    (panicked : Panicked panics stopped config) (action : Action m ι) :
    ∃ actions, actions.Sublist [action] ∧
      Panicked panics (stopped.advance action) (config.run actions) := by
  rcases panicked with ⟨world, trace, threads⟩
  cases action with
  | evolve change =>
      refine ⟨[.evolve change], List.Sublist.refl _, ?_, trace, threads⟩
      exact congrArg (m.evolve change) world
  | step thread choice =>
      rcases threads thread with ended | continues
      · rw [advance_of_pure ended]
        exact ⟨[], List.nil_sublist _, world, trace, threads⟩
      · cases asks : config.threads thread with
        | pure value =>
            rw [asks] at continues
            rw [advance_of_pure continues]
            exact ⟨[], List.nil_sublist _, world, trace, threads⟩
        | request op next =>
            rw [asks] at continues
            refine ⟨[.step thread choice], List.Sublist.refl _, ?_⟩
            change Panicked panics _ (config.advance (.step thread choice))
            rw [advance_of_request asks, advance_of_request continues, world, trace]
            refine ⟨rfl, rfl, fun other => ?_⟩
            by_cases own : other = thread
            · subst own
              simp only [Function.update_self]
              split
              · exact .inl rfl
              · exact .inr rfl
            · simp only [Function.update_of_ne own]
              exact threads other

/-- Whatever threads do that may panic, the same threads do if some of their steps are
left out. -/
theorem exists_run_of_panicking (config : Config m ι α) (actions : List (Action m ι)) :
    ∃ fewer : List (Action m ι), fewer.Sublist actions ∧
      Panicked panics ((config.panicking panics).run actions) (config.run fewer) := by
  have general : ∀ stopped, Panicked panics stopped config →
      ∃ fewer : List (Action m ι), fewer.Sublist actions ∧
        Panicked panics (stopped.run actions) (config.run fewer) := by
    induction actions generalizing config with
    | nil => exact fun stopped panicked => ⟨[], List.nil_sublist _, panicked⟩
    | cons action actions induction =>
        intro stopped panicked
        rcases panicked.advance action with ⟨first, some, panicked⟩
        rcases induction _ _ panicked with ⟨rest, fewer, panicked⟩
        refine ⟨first ++ rest, some.append fewer, ?_⟩
        rw [run_append]
        exact panicked
  exact general _ ⟨rfl, rfl, fun _ => .inr rfl⟩

omit [DecidableEq ι] in
theorem Panicked.result {stopped : Config m ι (Option α)} {config : Config m ι α}
    (panicked : Panicked panics stopped config) {thread : ι} {value : α}
    (returned : (stopped.result thread).join = some value) :
    config.result thread = some value := by
  unfold Config.result at returned ⊢
  rcases panicked.threads thread with ended | continues
  · rw [ended] at returned
    cases returned
  · rw [continues] at returned
    cases isProgram : config.threads thread with
    | pure known =>
        rw [isProgram] at returned
        exact returned
    | request op next =>
        rw [isProgram] at returned
        cases returned

end Config

end RateLimiting
