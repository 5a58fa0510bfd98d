import RateLimiting.Foundation.Interleaving

/-! # Contracts between programs and machines

A contract says which operations a program may ask for and what the replies may
be. If every thread keeps to it and the machine upholds it under an invariant of
its world, the invariant holds in every state of every run, whatever the other
threads do between two operations. -/

namespace RateLimiting

structure Contract (I : Interface) where
  permits : I.Op → Prop
  promises : (op : I.Op) → I.Reply op → Prop

/-- The operations of a program are permitted as long as the replies are as
promised, and so is its result. -/
inductive Program.Honors {I : Interface} {α : Type} (contract : Contract I)
    (result : α → Prop) : Program I α → Prop
  | pure {value : α} (isResult : result value) : Honors contract result (.pure value)
  | request {op : I.Op} {next : I.Reply op → Program I α} (permitted : contract.permits op)
      (resume : ∀ reply, contract.promises op reply →
        Honors contract result (next reply)) : Honors contract result (.request op next)

namespace Program.Honors

variable {I : Interface} {α β : Type} {contract : Contract I} {result : α → Prop}

theorem bind {program : Program I α} {rest : α → Program I β} {after : β → Prop}
    (honors : program.Honors contract result)
    (continued : ∀ value, result value → (rest value).Honors contract after) :
    (program >>= rest).Honors contract after := by
  induction honors with
  | pure isResult => exact continued _ isResult
  | request permitted _ induction => exact .request permitted induction

theorem perform {op : I.Op} (permitted : contract.permits op) :
    (Program.perform op).Honors contract (contract.promises op) :=
  .request permitted fun _ promised => .pure promised

end Program.Honors

/-- The replies of a machine are as promised while an invariant holds, and the
permitted operations and the environment keep it. -/
structure Machine.Upholds {I : Interface} (m : Machine I) (contract : Contract I)
    (invariant : m.World → Prop) : Prop where
  evolve : ∀ change world, invariant world → invariant (m.evolve change world)
  reply : ∀ op choice world, contract.permits op → invariant world →
    contract.promises op (m.perform op choice world).1
  keep : ∀ op choice world, contract.permits op → invariant world →
    invariant (m.perform op choice world).2

namespace Config

variable {I : Interface} {m : Machine I} {ι α : Type} [DecidableEq ι]
  {contract : Contract I} {invariant : m.World → Prop} {result : α → Prop}

structure Honored (contract : Contract I) (invariant : m.World → Prop)
    (result : α → Prop) (config : Config m ι α) : Prop where
  world : invariant config.world
  threads : ∀ thread, (config.threads thread).Honors contract result

theorem Honored.advance (upholds : m.Upholds contract invariant)
    {config : Config m ι α} (honored : Honored contract invariant result config)
    (action : Action m ι) : Honored contract invariant result (config.advance action) := by
  cases action with
  | evolve change =>
      exact ⟨upholds.evolve change _ honored.world, honored.threads⟩
  | step thread choice =>
      cases asks : config.threads thread with
      | pure value =>
          rw [advance_of_pure asks]
          exact honored
      | request op next =>
          have honors := honored.threads thread
          rw [asks] at honors
          rw [advance_of_request asks]
          cases honors with
          | request permitted resume =>
              refine ⟨upholds.keep op choice _ permitted honored.world, fun other => ?_⟩
              change (Function.update config.threads thread _ other).Honors contract result
              by_cases same : other = thread
              · subst same
                rw [Function.update_self]
                exact resume _ (upholds.reply op choice _ permitted honored.world)
              · rw [Function.update_of_ne same]
                exact honored.threads other

/-- A contract holds through every schedule. -/
theorem Honored.run (upholds : m.Upholds contract invariant) {config : Config m ι α}
    (honored : Honored contract invariant result config) (actions : List (Action m ι)) :
    Honored contract invariant result (config.run actions) :=
  invariant_run (Honored contract invariant result)
    (fun _ action holds => holds.advance upholds action) config honored actions

end Config

end RateLimiting
