import RateLimiting.Foundation.Interleaving

/-! # Concurrent objects

An object answers calls. Its clients are programs that make calls and perform other
operations in between, and it is implemented by programs over the operations of a
machine, which take several steps each. If every call takes effect with its last
operation, as one step of an atomic object does, then the clients cannot tell the two
apart. -/

namespace RateLimiting

@[reducible] def Interface.sum (I J : Interface) : Interface where
  Op := I.Op ⊕ J.Op
  Reply
    | .inl op => I.Reply op
    | .inr op => J.Reply op

@[reducible] def callInterface (Request Response : Type) : Interface where
  Op := Request
  Reply _ := Response

/-- Two machines side by side. An operation of one does not touch the other. -/
@[reducible] def Machine.sum {I J : Interface} (m : Machine I) (n : Machine J) :
    Machine (I.sum J) where
  World := m.World × n.World
  Choice := m.Choice × n.Choice
  Change := m.Change ⊕ n.Change
  perform
    | .inl op, choice, world =>
        ((m.perform op choice.1 world.1).1, ((m.perform op choice.1 world.1).2, world.2))
    | .inr op, choice, world =>
        ((n.perform op choice.2 world.2).1, (world.1, (n.perform op choice.2 world.2).2))
  evolve
    | .inl change, world => (m.evolve change world.1, world.2)
    | .inr change, world => (world.1, n.evolve change world.2)

def Action.right {I J : Interface} {m : Machine I} {n : Machine J} {κ : Type} :
    Action (m.sum n) κ → Option (Action n κ)
  | .evolve (.inl _) => none
  | .evolve (.inr change) => some (.evolve change)
  | .step client choice => some (.step client choice.2)

namespace Program

variable {I : Interface} {α : Type}

def onLeft (J : Interface) : Program I α → Program (I.sum J) α
  | .pure value => .pure value
  | .request op next => .request (.inl op) fun reply => (next reply).onLeft J

variable {J : Interface} {Request Response : Type}

/-- A client whose calls are made by programs. -/
def implement (implementation : Request → Program I Response) :
    Program ((callInterface Request Response).sum J) α → Program (I.sum J) α :=
  interpret fun
    | .inl call => (implementation call).onLeft J
    | .inr op => perform (I := I.sum J) (.inr op)

variable (implementation : Request → Program I Response)

theorem implement_call (call : Request)
    (next : Response → Program ((callInterface Request Response).sum J) α) :
    Program.implement implementation (.request (.inl call) next) =
      ((implementation call).onLeft J).bind fun response =>
        (next response).implement implementation := rfl

theorem implement_other (op : J.Op)
    (next : J.Reply op → Program ((callInterface Request Response).sum J) α) :
    Program.implement implementation (.request (.inr op) next) =
      .request (.inr op) fun reply => (next reply).implement implementation := rfl

end Program

/-- The calls of clients: who makes it, how many it made before, and what it asks. -/
abbrev CallOf (κ Request : Type) := κ × Nat × Request

/-- Why an implementation is as good as an atomic object. In a run of calls, by `bound`
actions, every operation leaves the object alone, or has an effect that its call does not
hear of, or is the last of its call and does what the atomic object does. -/
structure Linearization {I : Interface} {Request Response : Type} (m : Machine I)
    (implementation : Request → Program I Response)
    (atomic : Machine (callInterface Request Response)) (κ : Type) [DecidableEq κ]
    [DecidableEq Request] (bound : Nat) (start : m.World) (first : atomic.World) where
  Represents : m.World → atomic.World → Prop
  /-- What is true of the calls after so many actions. -/
  Holds : Nat → Config m (CallOf κ Request) Response → Prop
  Permitted : m.Change → Prop
  /-- The effects of a call that it does not hear of. -/
  EffectOf : κ → Request → atomic.Change → Prop
  starts : ∀ request, ∃ op next, implementation request = .request op next
  represents : Represents start first
  initial : Holds 0 ⟨start, fun call => implementation call.2.2, []⟩
  evolve : ∀ spent config change object, Holds spent config → Permitted change →
    spent < bound → Represents config.world object →
      Holds (spent + 1) (config.advance (.evolve change)) ∧
        Represents (m.evolve change config.world) object
  perform : ∀ spent (config : Config m (CallOf κ Request) Response) call op next choice
    object, Holds spent config → config.threads call = .request op next → spent < bound →
      Represents config.world object →
    let after := config.advance (.step call choice)
    Holds (spent + 1) after ∧
      ((∃ op next, after.threads call = .request op next) ∧
          (Represents after.world object ∨
            ∃ effect, EffectOf call.1 call.2.2 effect ∧
              Represents after.world (atomic.evolve effect object)) ∨
        ∃ choice, after.threads call = .pure (atomic.perform call.2.2 choice object).1 ∧
          Represents after.world (atomic.perform call.2.2 choice object).2)

/-- Every effect in a run of the clients of an atomic object is one of a call that a
client is making. -/
def Attributed {J : Interface} {Request Response β κ : Type} [DecidableEq κ]
    {atomic : Machine (callInterface Request Response)} {n : Machine J}
    (EffectOf : κ → Request → atomic.Change → Prop) :
    Config (atomic.sum n) κ β → List (Action (atomic.sum n) κ) → Prop
  | _, [] => True
  | config, action :: actions =>
      (∀ effect, action = .evolve (.inl effect) → ∃ client request rest,
        config.threads client = .request (.inl request) rest ∧
          EffectOf client request effect) ∧
      Attributed EffectOf (config.advance action) actions

namespace Attributed

variable {J : Interface} {Request Response β κ : Type} [DecidableEq κ]
  {atomic : Machine (callInterface Request Response)} {n : Machine J}
  {EffectOf : κ → Request → atomic.Change → Prop} {config : Config (atomic.sum n) κ β}

theorem append {first rest : List (Action (atomic.sum n) κ)}
    (begins : Attributed EffectOf config first)
    (continues : Attributed EffectOf (config.run first) rest) :
    Attributed EffectOf config (first ++ rest) := by
  induction first generalizing config with
  | nil => exact continues
  | cons action first induction => exact ⟨begins.1, induction begins.2 continues⟩

theorem of_step (client : κ) (choice : atomic.Choice × n.Choice) :
    Attributed EffectOf config [.step client choice] := by
  refine ⟨fun effect isEffect => ?_, trivial⟩
  cases isEffect

theorem invariant_run (Invariant : Config (atomic.sum n) κ β → Prop)
    (step : ∀ config client choice, Invariant config →
      Invariant (config.advance (.step client choice)))
    (other : ∀ config change, Invariant config →
      Invariant (config.advance (.evolve (.inr change))))
    (effect : ∀ config client request rest change, Invariant config →
      config.threads client = .request (.inl request) rest →
      EffectOf client request change → Invariant (config.advance (.evolve (.inl change))))
    (config : Config (atomic.sum n) κ β) (initial : Invariant config)
    {actions : List (Action (atomic.sum n) κ)}
    (attributed : Attributed EffectOf config actions) : Invariant (config.run actions) := by
  induction actions generalizing config with
  | nil => exact initial
  | cons action actions induction =>
      apply induction _ _ attributed.2
      rcases action with (change | change) | ⟨client, choice⟩
      · rcases attributed.1 change rfl with ⟨client, request, rest, asks, isEffect⟩
        exact effect config client request rest change initial asks isEffect
      · exact other config change initial
      · exact step config client choice initial

end Attributed

namespace Linearization

variable {I J : Interface} {Request Response β κ : Type} [DecidableEq κ]
  [DecidableEq Request] {m : Machine I} {implementation : Request → Program I Response}
  {atomic : Machine (callInterface Request Response)} {bound : Nat} {start : m.World}
  {first : atomic.World}
  (linearization : Linearization m implementation atomic κ bound start first)
  {n : Machine J}

inductive Tracks (implementation : Request → Program I Response) (client : κ)
    (calls : CallOf κ Request → Program I Response) (made : Nat) :
    Program (I.sum J) β → Program ((callInterface Request Response).sum J) β → Prop
  | returned (value : β) : Tracks implementation client calls made (.pure value) (.pure value)
  | other (op : J.Op)
      (next : J.Reply op → Program ((callInterface Request Response).sum J) β) :
      Tracks implementation client calls made
        (.request (.inr op) fun reply => (next reply).implement implementation)
        (.request (.inr op) next)
  | calling (number : Nat) (request : Request) (op : I.Op)
      (next : I.Reply op → Program I Response)
      (rest : Response → Program ((callInterface Request Response).sum J) β)
      (earlier : number < made)
      (program : calls (client, number, request) = .request op next) :
      Tracks implementation client calls made
        (.request (.inl op) fun reply => ((next reply).onLeft J).bind fun response =>
          (rest response).implement implementation)
        (.request (.inl request) rest)

def Fresh (implementation : Request → Program I Response) (client : κ)
    (calls : CallOf κ Request → Program I Response) (made : Nat) : Prop :=
  ∀ later request, made ≤ later → calls (client, later, request) = implementation request

structure Simulates (spent : Nat) (concrete : Config (m.sum n) κ β)
    (calls : Config m (CallOf κ Request) Response)
    (abstract : Config (atomic.sum n) κ β) : Prop where
  holds : linearization.Holds spent calls
  world : concrete.world = (calls.world, abstract.world.2)
  represents : linearization.Represents calls.world abstract.world.1
  tracks : ∀ client, ∃ made,
    Tracks implementation client calls.threads made (concrete.threads client)
        (abstract.threads client) ∧
      Fresh implementation client calls.threads made

variable {linearization} {client : κ} {calls after : CallOf κ Request → Program I Response}
  {made : Nat}

omit [DecidableEq κ] [DecidableEq Request] in
theorem Fresh.tracks (starts : ∀ request, ∃ op next, implementation request = .request op next)
    (fresh : Fresh implementation client calls made)
    (program : Program ((callInterface Request Response).sum J) β) :
    ∃ made, Tracks implementation client calls made (program.implement implementation)
        program ∧ Fresh implementation client calls made := by
  cases program with
  | pure value => exact ⟨made, .returned value, fresh⟩
  | request op next =>
      cases op with
      | inr op => exact ⟨made, .other op next, fresh⟩
      | inl request =>
          rcases starts request with ⟨op, first, isFirst⟩
          have program := (fresh made request (le_refl _)).trans isFirst
          refine ⟨made + 1, ?_, fun later request ordered => fresh later request (by omega)⟩
          rw [Program.implement_call, isFirst]
          exact .calling made request op first next (Nat.lt_succ_self made) program

omit [DecidableEq κ] [DecidableEq Request] in
theorem Tracks.frame {concrete : Program (I.sum J) β}
    {abstract : Program ((callInterface Request Response).sum J) β}
    (tracks : Tracks implementation client calls made concrete abstract)
    (same : ∀ number request, after (client, number, request) =
      calls (client, number, request)) :
    Tracks implementation client after made concrete abstract := by
  cases tracks with
  | returned value => exact .returned value
  | other op next => exact .other op next
  | calling number request op next rest earlier program =>
      exact .calling number request op next rest earlier ((same _ _).trans program)

omit [DecidableEq κ] [DecidableEq Request] in
theorem Fresh.frame (fresh : Fresh implementation client calls made)
    (same : ∀ number request, after (client, number, request) =
      calls (client, number, request)) :
    Fresh implementation client after made :=
  fun later request ordered => (same _ _).trans (fresh later request ordered)

section Step

variable {spent : Nat} {concrete : Config (m.sum n) κ β}
  {calls : Config m (CallOf κ Request) Response} {abstract : Config (atomic.sum n) κ β}

theorem Simulates.other (simulates : linearization.Simulates spent concrete calls abstract)
    {op : J.Op} {next : J.Reply op → Program ((callInterface Request Response).sum J) β}
    (asks : concrete.threads client =
      .request (.inr op) fun reply => (next reply).implement implementation)
    (abstractAsks : abstract.threads client = .request (.inr op) next)
    (fresh : Fresh implementation client calls.threads made)
    (choice : m.Choice × n.Choice) (any : atomic.Choice) :
    linearization.Simulates spent (concrete.advance (.step client choice)) calls
      (abstract.advance (.step client (any, choice.2))) := by
  rw [Config.advance_of_request asks, Config.advance_of_request abstractAsks]
  constructor
  · exact simulates.holds
  · simp only [simulates.world]
  · exact simulates.represents
  · intro other
    by_cases own : other = client
    · subst own
      simp only [Function.update_self, simulates.world]
      exact fresh.tracks linearization.starts _
    · simp only [Function.update_of_ne own]
      exact simulates.tracks other

theorem Simulates.call (simulates : linearization.Simulates spent concrete calls abstract)
    {number : Nat} {request : Request} {op : I.Op} {next : I.Reply op → Program I Response}
    {rest : Response → Program ((callInterface Request Response).sum J) β}
    (earlier : number < made)
    (program : calls.threads (client, number, request) = .request op next)
    (asks : concrete.threads client = .request (.inl op) fun reply =>
      ((next reply).onLeft J).bind fun response => (rest response).implement implementation)
    (abstractAsks : abstract.threads client = .request (.inl request) rest)
    (fresh : Fresh implementation client calls.threads made)
    (within : spent < bound) (choice : m.Choice × n.Choice) :
    ∃ actions, linearization.Simulates (spent + 1) (concrete.advance (.step client choice))
        (calls.advance (.step (client, number, request) choice.1)) (abstract.run actions) ∧
      Attributed linearization.EffectOf abstract actions ∧
      (actions.filterMap Action.right).Sublist [.step client choice.2] := by
  have performed := linearization.perform spent calls (client, number, request) op next
    choice.1 abstract.world.1 simulates.holds program within simulates.represents
  have advanced := Config.advance_of_request program choice.1
  have continued : (calls.advance (.step (client, number, request) choice.1)).threads
      (client, number, request) = next (m.perform op choice.1 calls.world).1 := by
    rw [advanced]
    exact Function.update_self ..
  have others : ∀ call, call ≠ (client, number, request) →
      (calls.advance (.step (client, number, request) choice.1)).threads call =
        calls.threads call := by
    intro call different
    rw [advanced]
    exact Function.update_of_ne different _ _
  have world : (calls.advance (.step (client, number, request) choice.1)).world =
      (m.perform op choice.1 calls.world).2 := by
    rw [advanced]
  generalize calls.advance (.step (client, number, request) choice.1) = after
    at performed continued others world ⊢
  have stillFresh : Fresh implementation client after.threads made := by
    intro later asked ordered
    rw [others _ (by simp; omega)]
    exact fresh later asked ordered
  have elsewhere : ∀ other, other ≠ client → ∃ made,
      Tracks implementation other after.threads made (concrete.threads other)
          (abstract.threads other) ∧
        Fresh implementation other after.threads made := by
    intro other different
    rcases simulates.tracks other with ⟨made, tracks, fresh⟩
    have same : ∀ number request, after.threads (other, number, request) =
        calls.threads (other, number, request) :=
      fun _ _ => others _ (by simp [different])
    exact ⟨made, tracks.frame same, fresh.frame same⟩
  rcases performed with ⟨holds, silent | linearized⟩
  · rcases silent with ⟨⟨op, next, continues⟩, effective⟩
    have goesOn : ∀ object, linearization.Represents after.world object →
        linearization.Simulates (spent + 1) (concrete.advance (.step client choice)) after
          { abstract with world := (object, abstract.world.2) } := by
      intro object represents
      rw [Config.advance_of_request asks]
      refine ⟨holds, ?_, represents, ?_⟩
      · simp only [simulates.world, world]
      · intro other
        by_cases own : other = client
        · subst own
          rw [continues] at continued
          simp only [Function.update_self, simulates.world, ← continued, abstractAsks]
          exact ⟨made, .calling number request op next rest earlier continues, stillFresh⟩
        · simp only [Function.update_of_ne own]
          exact elsewhere other own
    rcases effective with represents | ⟨effect, isEffect, represents⟩
    · exact ⟨[], goesOn _ represents, trivial, List.nil_sublist _⟩
    · refine ⟨[.evolve (.inl effect)], goesOn _ represents, ⟨?_, trivial⟩,
        List.nil_sublist _⟩
      rintro other ⟨⟩
      exact ⟨client, request, rest, abstractAsks, isEffect⟩
  · rcases linearized with ⟨atomicChoice, returns, represents⟩
    refine ⟨[.step client (atomicChoice, choice.2)], ?_, .of_step client _,
      List.Sublist.refl _⟩
    change linearization.Simulates _ _ _ (abstract.advance (.step client
      (atomicChoice, choice.2)))
    rw [Config.advance_of_request asks, Config.advance_of_request abstractAsks]
    refine ⟨holds, ?_, represents, ?_⟩
    · simp only [simulates.world, world]
    · intro other
      by_cases own : other = client
      · subst own
        rw [returns] at continued
        simp only [Function.update_self, simulates.world, ← continued]
        exact stillFresh.tracks linearization.starts _
      · simp only [Function.update_of_ne own]
        exact elsewhere other own

theorem Simulates.advance (simulates : linearization.Simulates spent concrete calls abstract)
    (any : atomic.Choice) (action : Action (m.sum n) κ)
    (permitted : ∀ change, action = .evolve (.inl change) → linearization.Permitted change)
    (within : spent < bound) :
    ∃ used ≤ spent + 1, ∃ after actions,
      linearization.Simulates used (concrete.advance action) after (abstract.run actions) ∧
        Attributed linearization.EffectOf abstract actions ∧
        (actions.filterMap Action.right).Sublist action.right.toList := by
  cases action with
  | evolve change =>
      cases change with
      | inl change =>
          rcases linearization.evolve spent calls change abstract.world.1 simulates.holds
            (permitted change rfl) within simulates.represents with ⟨holds, represents⟩
          refine ⟨spent + 1, le_refl _, calls.advance (.evolve change), [],
            ⟨holds, ?_, represents, simulates.tracks⟩, trivial, List.nil_sublist _⟩
          simp only [Config.advance, simulates.world]
          rfl
      | inr change =>
          refine ⟨spent, Nat.le_succ _, calls, [.evolve (.inr change)], ⟨simulates.holds, ?_,
            simulates.represents, simulates.tracks⟩, ⟨fun effect isEffect => ?_, trivial⟩,
            List.Sublist.refl _⟩
          · simp only [Config.advance, simulates.world]
            rfl
          · cases isEffect
  | step client choice =>
      rcases simulates.tracks client with ⟨made, tracks, fresh⟩
      generalize isConcrete : concrete.threads client = program at tracks
      generalize isAbstract : abstract.threads client = abstractProgram at tracks
      cases tracks with
      | returned value =>
          rw [Config.advance_of_pure isConcrete]
          exact ⟨spent, Nat.le_succ _, calls, [], simulates, trivial, List.nil_sublist _⟩
      | other op next =>
          exact ⟨spent, Nat.le_succ _, calls, [.step client (any, choice.2)],
            simulates.other isConcrete isAbstract fresh choice any, .of_step client _,
            List.Sublist.refl _⟩
      | calling number request op next rest earlier program =>
          exact ⟨spent + 1, le_refl _, _,
            simulates.call earlier program isConcrete isAbstract fresh within choice⟩

theorem Simulates.run (simulates : linearization.Simulates spent concrete calls abstract)
    (any : atomic.Choice) (actions : List (Action (m.sum n) κ))
    (permitted : ∀ change, .evolve (.inl change) ∈ actions → linearization.Permitted change)
    (within : spent + actions.length ≤ bound) :
    ∃ used after atomicActions,
      linearization.Simulates used (concrete.run actions) after
          (abstract.run atomicActions) ∧
        Attributed linearization.EffectOf abstract atomicActions ∧
        (atomicActions.filterMap Action.right).Sublist
          (actions.filterMap Action.right) := by
  induction actions generalizing spent concrete calls abstract with
  | nil => exact ⟨spent, calls, [], simulates, trivial, List.Sublist.refl _⟩
  | cons action actions induction =>
      rw [List.length_cons] at within
      rcases simulates.advance any action
        (fun change isChange => permitted change (isChange ▸ List.mem_cons_self))
        (by omega) with
        ⟨used, few, after, first, simulates, firstAttributed, firstMatched⟩
      rcases induction simulates (fun change member => permitted change
        (List.mem_cons_of_mem _ member)) (by omega) with
        ⟨used, last, rest, simulates, restAttributed, restMatched⟩
      refine ⟨used, last, first ++ rest, ?_, firstAttributed.append restAttributed, ?_⟩
      · rw [Config.run_append]
        exact simulates
      · have split : (action :: actions).filterMap Action.right =
            action.right.toList ++ actions.filterMap Action.right := by
          cases seen : action.right <;> simp [seen]
        rw [List.filterMap_append, split]
        exact firstMatched.append restMatched

theorem Simulates.result_eq (simulates : linearization.Simulates spent concrete calls abstract)
    (client : κ) : concrete.result client = abstract.result client := by
  rcases simulates.tracks client with ⟨made, tracks, _⟩
  unfold Config.result
  generalize concrete.threads client = program at tracks ⊢
  generalize abstract.threads client = abstractProgram at tracks ⊢
  cases tracks <;> rfl

end Step

/-- Whatever the clients of the implementation do, those of the atomic object can do, at
some of the same moments: they return the same, and leave the same object behind. -/
theorem refines (any : atomic.Choice)
    (clients : κ → Program ((callInterface Request Response).sum J) β) (world : n.World)
    (actions : List (Action (m.sum n) κ))
    (permitted : ∀ change, .evolve (.inl change) ∈ actions → linearization.Permitted change)
    (within : actions.length ≤ bound) :
    ∃ atomicActions : List (Action (atomic.sum n) κ),
      let concrete := (Config.mk (m := m.sum n) (start, world)
        (fun client => (clients client).implement implementation) []).run actions
      let atomicStart : Config (atomic.sum n) κ β := ⟨(first, world), clients, []⟩
      let abstract := atomicStart.run atomicActions
      (∀ client, concrete.result client = abstract.result client) ∧
        linearization.Represents concrete.world.1 abstract.world.1 ∧
        concrete.world.2 = abstract.world.2 ∧
        Attributed linearization.EffectOf atomicStart atomicActions ∧
        (atomicActions.filterMap Action.right).Sublist (actions.filterMap Action.right) := by
  let calls : Config m (CallOf κ Request) Response :=
    ⟨start, fun call => implementation call.2.2, []⟩
  have simulates : linearization.Simulates 0
      (Config.mk (m := m.sum n) (start, world)
        (fun client => (clients client).implement implementation) []) calls
      (Config.mk (m := atomic.sum n) (first, world) clients []) := {
    holds := linearization.initial
    world := rfl
    represents := linearization.represents
    tracks := fun client => by
      have fresh : Fresh implementation client calls.threads 0 := fun _ _ _ => rfl
      exact fresh.tracks linearization.starts (clients client) }
  rcases simulates.run any actions permitted (by omega) with
    ⟨used, after, atomicActions, simulates, attributed, moments⟩
  refine ⟨atomicActions, simulates.result_eq, ?_, ?_, attributed, moments⟩
  · rw [simulates.world]
    exact simulates.represents
  · rw [simulates.world]

end Linearization

end RateLimiting
