import Mathlib.Data.Sigma.Basic
import RateLimiting.Foundation.Interleaving

/-! # Systems that share a part of their worlds

Each of several systems has a machine of its own, and the worlds of the machines have a
part in common. In a run of them all, each system runs as it may alone, with what the
others do to the common part as moves of its environment. -/

namespace RateLimiting

@[reducible] def Interface.sigma {σ : Type} (I : σ → Interface) : Interface where
  Op := Σ s, (I s).Op
  Reply op := (I op.1).Reply op.2

namespace Program

variable {σ α : Type}

def inject {I : σ → Interface} (s : σ) : Program (I s) α → Program (Interface.sigma I) α
  | .pure value => .pure value
  | .request op next => .request ⟨s, op⟩ fun reply => (next reply).inject s

inductive Only {I : Interface} (Allowed : I.Op → Prop) : Program I α → Prop
  | pure (value : α) : Only Allowed (.pure value)
  | request {op : I.Op} {next : I.Reply op → Program I α} (allowed : Allowed op)
      (rest : ∀ reply, (next reply).Only Allowed) : Only Allowed (.request op next)

theorem Only.bind {I : Interface} {β : Type} {Allowed : I.Op → Prop}
    {program : Program I α} {rest : α → Program I β} (only : program.Only Allowed)
    (rests : ∀ value, (rest value).Only Allowed) :
    (program.bind rest).Only Allowed := by
  induction only with
  | pure value => exact rests value
  | request allowed _ induction => exact .request allowed induction

end Program

theorem Config.only_advance {I : Interface} {m : Machine I} {ι α : Type} [DecidableEq ι]
    {Allowed : I.Op → Prop} {config : Config m ι α}
    (only : ∀ thread, (config.threads thread).Only Allowed) (action : Action m ι)
    (thread : ι) : ((config.advance action).threads thread).Only Allowed := by
  cases action with
  | evolve change => exact only thread
  | step own choice =>
      cases asks : config.threads own with
      | pure value =>
          rw [advance_of_pure asks]
          exact only thread
      | request op next =>
          rw [advance_of_request asks]
          by_cases same : thread = own
          · subst same
            have asked := only thread
            rw [asks] at asked
            cases asked with
            | request allowed rest =>
                simp only [Function.update_self]
                exact rest _
          · simp only [Function.update_of_ne same]
            exact only thread

def Action.taken {I : Interface} {m : Machine I} {ι : Type} :
    Action m ι → Option (ι × m.Choice)
  | .evolve _ => none
  | .step thread choice => some (thread, choice)

/-- How the worlds of machines have a part in common. `move` are the changes that belong
to one system alone, and `seen` is the change that an operation of another system is. -/
structure Sharing {σ : Type} {I : σ → Interface} (m : ∀ s, Machine (I s)) where
  Shared : Type
  Private : σ → Type
  Choice : Type
  Move : σ → Type
  choice : ∀ s, Choice → (m s).Choice
  world : ∀ s, Private s → Shared → (m s).World
  mine : ∀ s, (m s).World → Private s
  common : ∀ s, (m s).World → Shared
  move : ∀ s, Move s → (m s).Change
  seen : ∀ s t, (I t).Op → Choice → Option (m s).Change
  world_mine : ∀ s whole, world s (mine s whole) (common s whole) = whole
  common_move : ∀ s change own shared,
    common s ((m s).evolve (move s change) (world s own shared)) = shared
  seen_perform : ∀ s t op decided own other shared,
    (seen s t op decided).elim (world s own shared)
        (fun change => (m s).evolve change (world s own shared)) =
      world s own (common t ((m t).perform op (choice t decided) (world t other shared)).2)

namespace Sharing

variable {σ α : Type} [DecidableEq σ] {I : σ → Interface} {m : ∀ s, Machine (I s)}
  (sharing : Sharing m) {κ : σ → Type} [∀ s, DecidableEq (κ s)]

@[reducible] def machine : Machine (Interface.sigma I) where
  World := (∀ s, sharing.Private s) × sharing.Shared
  Choice := sharing.Choice
  Change := Σ s, sharing.Move s
  perform op decided whole :=
    let result := (m op.1).perform op.2 (sharing.choice op.1 decided)
      (sharing.world op.1 (whole.1 op.1) whole.2)
    (result.1, (Function.update whole.1 op.1 (sharing.mine op.1 result.2),
      sharing.common op.1 result.2))
  evolve change whole :=
    let after := (m change.1).evolve (sharing.move change.1 change.2)
      (sharing.world change.1 (whole.1 change.1) whole.2)
    (Function.update whole.1 change.1 (sharing.mine change.1 after),
      sharing.common change.1 after)

def takenBy (s : σ) : Action sharing.machine (Σ s, κ s) → Option (κ s × (m s).Choice)
  | .evolve _ => none
  | .step thread decided =>
      if same : thread.1 = s then some (same ▸ thread.2, sharing.choice s decided) else none

structure Views (s : σ) (whole : Config sharing.machine (Σ s, κ s) α)
    (part : Config (m s) (κ s) α) : Prop where
  world : part.world = sharing.world s (whole.world.1 s) whole.world.2
  threads : ∀ thread, whole.threads ⟨s, thread⟩ = (part.threads thread).inject s

/-- The actions of a system on its own that come of actions of them all: it takes the
same steps, and the environment does its moves and what the others are allowed to do. -/
structure Projects (Allowed : ∀ s, (I s).Op → Prop) (s : σ)
    (actions : List (Action sharing.machine (Σ s, κ s)))
    (own : List (Action (m s) (κ s))) : Prop where
  length : own.length ≤ actions.length
  taken : own.filterMap Action.taken = actions.filterMap (sharing.takenBy s)
  changes : ∀ change, .evolve change ∈ own →
    (∃ move, change = sharing.move s move ∧ .evolve ⟨s, move⟩ ∈ actions) ∨
      ∃ t op decided, t ≠ s ∧ Allowed t op ∧ sharing.seen s t op decided = some change

variable {sharing} {Allowed : ∀ s, (I s).Op → Prop}
  {whole : Config sharing.machine (Σ s, κ s) α} {parts : ∀ s, Config (m s) (κ s) α}

theorem Views.own {s : σ} {part : Config (m s) (κ s) α} (views : sharing.Views s whole part)
    (thread : κ s) (decided : sharing.Choice) :
    sharing.Views s (whole.advance (.step ⟨s, thread⟩ decided))
      (part.advance (.step thread (sharing.choice s decided))) := by
  have program := views.threads thread
  cases asks : part.threads thread with
  | pure value =>
      rw [asks] at program
      rw [Config.advance_of_pure asks, Config.advance_of_pure program]
      exact views
  | request op next =>
      rw [asks] at program
      rw [Config.advance_of_request asks, Config.advance_of_request program]
      refine ⟨?_, fun other => ?_⟩
      · simp only [Function.update_self, views.world]
        exact (sharing.world_mine s _).symm
      · by_cases same : other = thread
        · subst same
          simp only [Function.update_self, views.world]
        · have different : (⟨s, other⟩ : Σ s, κ s) ≠ ⟨s, thread⟩ := by simpa using same
          simp only [Function.update_of_ne same, Function.update_of_ne different]
          exact views.threads other

theorem Views.other {s t : σ} {part : Config (m s) (κ s) α}
    (views : sharing.Views s whole part) (different : t ≠ s) {thread : κ t} {op : (I t).Op}
    {next : (I t).Reply op → Program (I t) α}
    (asks : whole.threads ⟨t, thread⟩ = (Program.request op next).inject t)
    (decided : sharing.Choice) :
    sharing.Views s (whole.advance (.step ⟨t, thread⟩ decided))
      (part.run ((sharing.seen s t op decided).map .evolve).toList) := by
  have law := sharing.seen_perform s t op decided (whole.world.1 s) (whole.world.1 t)
    whole.world.2
  rw [Config.advance_of_request asks]
  have world : (part.run ((sharing.seen s t op decided).map .evolve).toList).world =
      (sharing.seen s t op decided).elim part.world fun change =>
        (m s).evolve change part.world := by
    cases sharing.seen s t op decided <;> rfl
  have threads : (part.run ((sharing.seen s t op decided).map .evolve).toList).threads =
      part.threads := by
    cases sharing.seen s t op decided <;> rfl
  refine ⟨?_, fun own => ?_⟩
  · rw [world, views.world, law]
    simp only [Function.update_of_ne (Ne.symm different)]
  · have elsewhere : (⟨s, own⟩ : Σ s, κ s) ≠ ⟨t, thread⟩ := by
      intro same
      exact different (congrArg Sigma.fst same).symm
    rw [threads]
    simp only [Function.update_of_ne elsewhere]
    exact views.threads own

omit [∀ s, DecidableEq (κ s)] in
theorem Projects.nil {s : σ} {actions : List (Action sharing.machine (Σ s, κ s))}
    (nothing : actions.filterMap (sharing.takenBy s) = []) :
    sharing.Projects Allowed s actions [] where
  length := Nat.zero_le _
  taken := nothing.symm
  changes _ member := absurd member List.not_mem_nil

theorem Views.evolve {s : σ} {part : Config (m s) (κ s) α}
    (views : sharing.Views s whole part) (change : Σ s, sharing.Move s) :
    ∃ own, sharing.Views s (whole.advance (.evolve change)) (part.run own) ∧
      sharing.Projects Allowed s [.evolve change] own := by
  rcases change with ⟨t, move⟩
  by_cases same : t = s
  · subst same
    refine ⟨[.evolve (sharing.move t move)], ⟨?_, views.threads⟩, le_refl _, rfl, ?_⟩
    · change (m t).evolve (sharing.move t move) part.world = _
      rw [views.world]
      simp only [Config.advance, Function.update_self]
      exact (sharing.world_mine t _).symm
    · intro change member
      rcases Action.evolve.inj (List.mem_singleton.mp member) with rfl
      exact .inl ⟨move, rfl, List.mem_singleton_self _⟩
  · refine ⟨[], ⟨?_, views.threads⟩, .nil rfl⟩
    change part.world = _
    simp only [Config.advance, Function.update_of_ne (Ne.symm same), sharing.common_move,
      views.world]

omit [∀ s, DecidableEq (κ s)] in
theorem takenBy_own (s : σ) (thread : κ s) (decided : sharing.Choice) :
    sharing.takenBy s (.step ⟨s, thread⟩ decided) =
      some (thread, sharing.choice s decided) :=
  dif_pos rfl

omit [∀ s, DecidableEq (κ s)] in
theorem takenBy_other {s t : σ} (different : t ≠ s) (thread : κ t)
    (decided : sharing.Choice) : sharing.takenBy s (.step ⟨t, thread⟩ decided) = none :=
  dif_neg different

theorem Views.advance (views : ∀ s, sharing.Views s whole (parts s))
    (only : ∀ s thread, ((parts s).threads thread).Only (Allowed s))
    (action : Action sharing.machine (Σ s, κ s)) (s : σ) :
    ∃ own, sharing.Views s (whole.advance action) ((parts s).run own) ∧
      sharing.Projects Allowed s [action] own := by
  cases action with
  | evolve change => exact (views s).evolve change
  | step thread decided =>
      rcases thread with ⟨t, thread⟩
      by_cases same : t = s
      · subst same
        have taken : [Action.step ⟨t, thread⟩ decided].filterMap (sharing.takenBy t) =
            [(thread, sharing.choice t decided)] :=
          List.filterMap_cons_some (takenBy_own t thread decided)
        refine ⟨[.step thread (sharing.choice t decided)], (views t).own thread decided,
          le_refl _, taken.symm, ?_⟩
        intro change member
        cases List.mem_singleton.mp member
      · have elsewhere : [Action.step ⟨t, thread⟩ decided].filterMap
            (sharing.takenBy s) = [] :=
          List.filterMap_cons_none (takenBy_other same thread decided)
        have program := (views t).threads thread
        have allowed := only t thread
        cases asks : (parts t).threads thread with
        | pure value =>
            rw [asks] at program
            rw [Config.advance_of_pure program]
            exact ⟨[], views s, .nil elsewhere⟩
        | request op next =>
            rw [asks] at program allowed
            refine ⟨_, (views s).other same program decided, ?_, ?_, ?_⟩
            · cases sharing.seen s t op decided <;> simp
            · rw [elsewhere]
              cases sharing.seen s t op decided <;> rfl
            · intro change member
              cases allowed with
              | request allowed _ =>
                  refine .inr ⟨t, op, decided, same, allowed, ?_⟩
                  cases isSeen : sharing.seen s t op decided with
                  | none => simp [isSeen] at member
                  | some other =>
                      simp only [isSeen, Option.map_some, Option.toList_some,
                        List.mem_singleton, Action.evolve.injEq] at member
                      rw [member]

omit [∀ s, DecidableEq (κ s)] in
theorem Projects.cons {s : σ} {action : Action sharing.machine (Σ s, κ s)}
    {actions : List (Action sharing.machine (Σ s, κ s))}
    {first rest : List (Action (m s) (κ s))}
    (begins : sharing.Projects Allowed s [action] first)
    (continues : sharing.Projects Allowed s actions rest) :
    sharing.Projects Allowed s (action :: actions) (first ++ rest) where
  length := by
    have short := begins.length
    have others := continues.length
    simp only [List.length_append, List.length_cons, List.length_nil] at *
    omega
  taken := by
    have split : (action :: actions).filterMap (sharing.takenBy s) =
        [action].filterMap (sharing.takenBy s) ++
          actions.filterMap (sharing.takenBy s) := by
      rw [← List.filterMap_append]
      rfl
    rw [List.filterMap_append, begins.taken, continues.taken, split]
  changes change member := by
    rcases List.mem_append.mp member with member | member
    · rcases begins.changes change member with ⟨move, isMove, isAction⟩ | seen
      · exact .inl ⟨move, isMove, List.mem_cons.mpr (.inl (List.mem_singleton.mp isAction))⟩
      · exact .inr seen
    · rcases continues.changes change member with ⟨move, isMove, isAction⟩ | seen
      · exact .inl ⟨move, isMove, List.mem_cons_of_mem _ isAction⟩
      · exact .inr seen

/-- In every run of the systems, each runs as it may on its own. -/
theorem Views.run (views : ∀ s, sharing.Views s whole (parts s))
    (only : ∀ s thread, ((parts s).threads thread).Only (Allowed s))
    (actions : List (Action sharing.machine (Σ s, κ s))) (s : σ) :
    ∃ own, sharing.Views s (whole.run actions) ((parts s).run own) ∧
      sharing.Projects Allowed s actions own := by
  induction actions generalizing whole parts with
  | nil => exact ⟨[], views s, .nil rfl⟩
  | cons action actions induction =>
      choose first viewed projected using fun s => Views.advance views only action s
      have stillOnly : ∀ s thread,
          (((parts s).run (first s)).threads thread).Only (Allowed s) := by
        intro s
        exact Config.invariant_run
          (fun config => ∀ thread, (config.threads thread).Only (Allowed s))
          (fun _ action only => Config.only_advance only action) _ (only s) (first s)
      rcases induction viewed stillOnly with ⟨rest, views, projects⟩
      refine ⟨first s ++ rest, ?_, (projected s).cons projects⟩
      rw [Config.run_append]
      exact views

omit [∀ s, DecidableEq (κ s)] in
theorem Views.result_eq {s : σ} {part : Config (m s) (κ s) α}
    (views : sharing.Views s whole part) (thread : κ s) :
    whole.result ⟨s, thread⟩ = part.result thread := by
  unfold Config.result
  rw [views.threads]
  cases part.threads thread <;> rfl

end Sharing

end RateLimiting
