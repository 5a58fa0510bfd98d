import Mathlib.Data.List.Infix
import Mathlib.Logic.Function.Basic
import RateLimiting.Foundation.Program

/-! # Interleaving semantics

Threads run programs against one machine. An action lets the environment move
or lets one thread perform its next operation; every list of actions is a
schedule, and an action of a thread that has returned changes nothing. -/

namespace RateLimiting

structure Event {I : Interface} (m : Machine I) (ι : Type) where
  thread : ι
  op : I.Op
  choice : m.Choice
  before : m.World

inductive Action {I : Interface} (m : Machine I) (ι : Type)
  | evolve (change : m.Change)
  | step (thread : ι) (choice : m.Choice)

/-- A state of a run. `trace` lists the operations performed so far, the most
recent first; no program can read it. -/
structure Config {I : Interface} (m : Machine I) (ι α : Type) where
  world : m.World
  threads : ι → Program I α
  trace : List (Event m ι)

namespace Config

variable {I : Interface} {m : Machine I} {ι α : Type} [DecidableEq ι]

def advance (config : Config m ι α) : Action m ι → Config m ι α
  | .evolve change => { config with world := m.evolve change config.world }
  | .step thread choice =>
      match config.threads thread with
      | .pure _ => config
      | .request op next =>
          { world := (m.perform op choice config.world).2
            threads := Function.update config.threads thread
              (next (m.perform op choice config.world).1)
            trace := ⟨thread, op, choice, config.world⟩ :: config.trace }

def run (config : Config m ι α) (actions : List (Action m ι)) : Config m ι α :=
  actions.foldl advance config

def result (config : Config m ι α) (thread : ι) : Option α :=
  match config.threads thread with
  | .pure value => some value
  | .request _ _ => none

omit [DecidableEq ι] in
theorem result_eq_some {config : Config m ι α} {thread : ι} {value : α} :
    config.result thread = some value ↔ config.threads thread = .pure value := by
  unfold result
  cases config.threads thread <;> simp

theorem advance_of_pure {config : Config m ι α} {thread : ι} {value : α}
    (returned : config.threads thread = .pure value) (choice : m.Choice) :
    config.advance (.step thread choice) = config := by
  simp [advance, returned]

theorem advance_of_request {config : Config m ι α} {thread : ι} {op : I.Op}
    {next : I.Reply op → Program I α}
    (asks : config.threads thread = .request op next) (choice : m.Choice) :
    config.advance (.step thread choice) =
      { world := (m.perform op choice config.world).2
        threads := Function.update config.threads thread
          (next (m.perform op choice config.world).1)
        trace := ⟨thread, op, choice, config.world⟩ :: config.trace } := by
  simp [advance, asks]

/-- A property that every action preserves holds after every schedule. -/
theorem invariant_run (Invariant : Config m ι α → Prop)
    (preserved : ∀ config action, Invariant config →
      Invariant (config.advance action))
    (config : Config m ι α) (initial : Invariant config)
    (actions : List (Action m ι)) : Invariant (config.run actions) := by
  induction actions generalizing config with
  | nil => exact initial
  | cons action actions induction =>
      exact induction _ (preserved config action initial)

theorem trace_suffix_advance (config : Config m ι α) (action : Action m ι) :
    config.trace <:+ (config.advance action).trace := by
  cases action with
  | evolve change => exact List.suffix_rfl
  | step thread choice =>
      cases program : config.threads thread with
      | pure value =>
          rw [advance_of_pure program]
      | request op next =>
          rw [advance_of_request program]
          exact List.suffix_cons _ _

theorem trace_suffix_run (config : Config m ι α) (actions : List (Action m ι)) :
    config.trace <:+ (config.run actions).trace := by
  induction actions generalizing config with
  | nil => exact List.suffix_rfl
  | cons action actions induction =>
      exact (config.trace_suffix_advance action).trans (induction _)

theorem length_trace_advance_le (config : Config m ι α) (action : Action m ι) :
    (config.advance action).trace.length ≤ config.trace.length + 1 := by
  cases action with
  | evolve change => exact Nat.le_succ _
  | step thread choice =>
      cases program : config.threads thread with
      | pure value =>
          rw [advance_of_pure program]
          exact Nat.le_succ _
      | request op next =>
          rw [advance_of_request program]
          exact le_refl _

theorem run_append (config : Config m ι α) (first rest : List (Action m ι)) :
    config.run (first ++ rest) = (config.run first).run rest :=
  List.foldl_append

theorem mem_trace_run {config : Config m ι α} {actions : List (Action m ι)}
    {event : Event m ι} (member : event ∈ (config.run actions).trace) :
    event ∈ config.trace ∨ .step event.thread event.choice ∈ actions := by
  induction actions generalizing config with
  | nil => exact .inl member
  | cons action actions induction =>
      rcases @induction (config.advance action) member with performed | later
      · cases action with
        | evolve change => exact .inl performed
        | step thread choice =>
            cases program : config.threads thread with
            | pure value =>
                rw [advance_of_pure program] at performed
                exact .inl performed
            | request op next =>
                rw [advance_of_request program] at performed
                rcases List.mem_cons.mp performed with rfl | older
                · exact .inr List.mem_cons_self
                · exact .inl older
      · exact .inr (List.mem_cons_of_mem _ later)

/-- The same for actions that preserve the property only within a bound. What
keeps to the bound at the end has kept to it throughout. -/
theorem invariant_run_within (Invariant : Config m ι α → Prop)
    (Within : List (Event m ι) → Prop)
    (inherited : ∀ {older trace}, older <:+ trace → Within trace → Within older)
    (preserved : ∀ config action, Invariant config →
      Within (config.advance action).trace → Invariant (config.advance action))
    (config : Config m ι α) (initial : Invariant config) (actions : List (Action m ι))
    (within : Within (config.run actions).trace) : Invariant (config.run actions) := by
  induction actions generalizing config with
  | nil => exact initial
  | cons action actions induction =>
      have next := trace_suffix_run (config.advance action) actions
      exact induction _ (preserved config action initial (inherited next within)) within

/-! ## What a thread has learnt -/

section Latest

variable {β : Type} (value? : Event m ι → Option β)

/-- The last of the values that the operations of a thread gave. -/
def latest (thread : ι) : List (Event m ι) → Option β
  | [] => none
  | event :: older =>
      match value? event with
      | some value => if event.thread = thread then some value else latest thread older
      | none => latest thread older

theorem latest_cons_of_ne {event : Event m ι} {thread : ι}
    (other : thread ≠ event.thread) (older : List (Event m ι)) :
    latest value? thread (event :: older) = latest value? thread older := by
  rw [latest]
  split
  · exact if_neg (Ne.symm other)
  · rfl

end Latest

/-! ## The worlds of a trace

Where nothing but the operations changes the world, each operation is performed on
the world that the one before it left. -/

def worldAfter (start : m.World) : List (Event m ι) → m.World
  | [] => start
  | event :: _ => (m.perform event.op event.choice event.before).2

def Linked (start : m.World) : List (Event m ι) → Prop
  | [] => True
  | event :: older => event.before = worldAfter start older ∧ Linked start older

omit [DecidableEq ι] in
theorem Linked.suffix {start : m.World} {older trace : List (Event m ι)}
    (linked : Linked start trace) (suffix : older <:+ trace) : Linked start older := by
  rcases suffix with ⟨newer, rfl⟩
  induction newer with
  | nil => exact linked
  | cons event newer induction => exact induction linked.2

end Config

end RateLimiting
