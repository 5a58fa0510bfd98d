import RateLimiting.Foundation.Interleaving

/-! # Budgets

A weight on the operations of an interface bounds what a program can spend, whatever
it is answered. In a run, a thread spends its own budget only: no schedule of the
other threads makes it perform more. -/

namespace RateLimiting

namespace Program

variable {I : Interface} {α β : Type} {weight : I.Op → Nat}

/-- On no path does the program spend more than the budget. -/
inductive Within (weight : I.Op → Nat) : Nat → Program I α → Prop
  | pure (budget : Nat) (value : α) : Within weight budget (.pure value)
  | request {budget : Nat} {op : I.Op} {next : I.Reply op → Program I α}
      (affordable : weight op ≤ budget)
      (rest : ∀ reply, Within weight (budget - weight op) (next reply)) :
      Within weight budget (.request op next)

theorem Within.mono {program : Program I α} {budget wider : Nat}
    (within : program.Within weight budget) (ordered : budget ≤ wider) :
    program.Within weight wider := by
  induction within generalizing wider with
  | pure budget value => exact .pure wider value
  | request affordable _ induction =>
      refine .request (affordable.trans ordered) fun reply => ?_
      exact induction reply (Nat.sub_le_sub_right ordered _)

theorem Within.perform (op : I.Op) : (Program.perform op).Within weight (weight op) :=
  .request (le_refl _) fun reply => .pure _ reply

theorem Within.bind {program : Program I α} {rest : α → Program I β}
    {first last : Nat} (within : program.Within weight first)
    (continued : ∀ value, (rest value).Within weight last) :
    (program >>= rest).Within weight (first + last) := by
  induction within with
  | pure budget value => exact (continued value).mono (Nat.le_add_left _ _)
  | @request budget op next affordable _ induction =>
      refine .request (affordable.trans (Nat.le_add_right _ _)) fun reply => ?_
      rw [Nat.sub_add_comm affordable]
      exact induction reply

end Program

namespace Config

variable {I : Interface} {m : Machine I} {ι α : Type} [DecidableEq ι]

def spent (weight : I.Op → Nat) (thread : ι) : List (Event m ι) → Nat
  | [] => 0
  | event :: older =>
      if event.thread = thread then weight event.op + spent weight thread older
      else spent weight thread older

def Affords (weight : I.Op → Nat) (budget : Nat) (thread : ι) (config : Config m ι α) :
    Prop :=
  ∃ left, (config.threads thread).Within weight left ∧
    spent weight thread config.trace + left ≤ budget

variable {weight : I.Op → Nat} {budget : Nat} {thread : ι}

theorem Affords.advance {config : Config m ι α} (affords : Affords weight budget thread config)
    (action : Action m ι) : Affords weight budget thread (config.advance action) := by
  cases action with
  | evolve change => exact affords
  | step actor choice =>
      cases program : config.threads actor with
      | pure value =>
          rw [advance_of_pure program]
          exact affords
      | request op next =>
          rcases affords with ⟨left, within, bound⟩
          rw [advance_of_request program]
          by_cases own : thread = actor
          · subst own
            rw [program] at within
            cases within with
            | request affordable rest =>
                refine ⟨left - weight op, ?_, ?_⟩
                · simpa using rest _
                · rw [spent, if_pos rfl]
                  change weight op + _ + _ ≤ _
                  omega
          · refine ⟨left, ?_, ?_⟩
            · simpa [Function.update_of_ne own] using within
            · rw [spent, if_neg (Ne.symm own)]
              exact bound

theorem spent_run_le (config : Config m ι α) (fresh : spent weight thread config.trace = 0)
    (within : (config.threads thread).Within weight budget) (actions : List (Action m ι)) :
    spent weight thread (config.run actions).trace ≤ budget := by
  have affords := invariant_run (Affords weight budget thread)
    (fun _ action affords => affords.advance action) config
    ⟨budget, within, by rw [fresh, Nat.zero_add]⟩ actions
  rcases affords with ⟨left, _, bound⟩
  exact (Nat.le_add_right _ _).trans bound

/-- The times that a schedule lets a thread move. -/
def turns (thread : ι) (actions : List (Action m ι)) : Nat :=
  actions.countP fun
    | .evolve _ => false
    | .step actor _ => actor = thread

theorem threads_run_of_pure {config : Config m ι α} {value : α}
    (returned : config.threads thread = .pure value) (actions : List (Action m ι)) :
    (config.run actions).threads thread = .pure value := by
  apply invariant_run (fun config => config.threads thread = .pure value) _ config returned
  intro config action returned
  cases action with
  | evolve change => exact returned
  | step actor choice =>
      by_cases own : thread = actor
      · rw [advance_of_pure (own ▸ returned)]
        exact returned
      · cases program : config.threads actor with
        | pure other =>
            rw [advance_of_pure program]
            exact returned
        | request op next =>
            rw [advance_of_request program]
            exact (Function.update_of_ne own _ _).trans returned

/-- A thread that is let move as often as its program has operations returns, whatever
the other threads do. -/
theorem returns_of_turns (config : Config m ι α) {budget : Nat}
    (within : (config.threads thread).Within (fun _ => 1) budget)
    {actions : List (Action m ι)} (enough : budget ≤ turns thread actions) :
    ∃ value, (config.run actions).threads thread = .pure value := by
  induction actions generalizing config budget with
  | nil =>
      cases program : config.threads thread with
      | pure value => exact ⟨value, program⟩
      | request op next =>
          rw [program] at within
          cases within with
          | request affordable _ =>
              have none : budget = 0 := Nat.le_zero.mp enough
              omega
  | cons action actions induction =>
      cases action with
      | evolve change =>
          apply induction (config.advance (.evolve change)) within
          simpa [turns] using enough
      | step actor choice =>
          by_cases own : actor = thread
          · subst own
            have later : budget - 1 ≤ turns actor actions := by
              simp only [turns, List.countP_cons_of_pos, decide_true] at enough
              exact Nat.sub_le_of_le_add enough
            cases program : config.threads actor with
            | pure value => exact ⟨value, threads_run_of_pure program _⟩
            | request op next =>
                rw [program] at within
                cases within with
                | request _ rest =>
                    apply induction (config.advance (.step actor choice)) _ later
                    rw [advance_of_request program]
                    simpa using rest _
          · have same : turns thread (.step actor choice :: actions) =
                turns thread actions := by
              simp [turns, own]
            rw [same] at enough
            apply induction (config.advance (.step actor choice)) _ enough
            cases program : config.threads actor with
            | pure value =>
                rw [advance_of_pure program]
                exact within
            | request op next =>
                rw [advance_of_request program]
                simpa [Function.update_of_ne (Ne.symm own)] using within

end Config

end RateLimiting
