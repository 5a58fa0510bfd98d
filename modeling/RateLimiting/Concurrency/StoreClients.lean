import RateLimiting.Foundation.Interleaving
import RateLimiting.Foundation.MachineNumber
import RateLimiting.Foundation.Tickets
import RateLimiting.Store.Local

/-! # Clients of the in-process store

Any number of clients call `get`, `put` and `cas` of one `LocalStore`, each call
chosen by the replies to those before it. A version is a ticket: `put` draws it in
one step and inserts under it in another, a successful `cas` does both at once. -/

namespace RateLimiting

namespace StateStore

inductive Call
  | get (key : String)
  | put (key : String) (value : Bytes)
  | cas (key : String) (expected : Option Int64) (value : Bytes)

@[reducible] def calls : Interface where
  Op := Call
  Reply
    | .get _ => Option (Bytes × Int64)
    | .put _ _ => Int64
    | .cas _ _ _ => CasResult

def perform {I : Interface} (store : StateStore I) :
    (call : Call) → Program I (calls.Reply call)
  | .get key => store.get key
  | .put key value => store.put key value
  | .cas key expected value => store.cas key expected value

end StateStore

variable {ι α : Type}

def localClients (clients : ι → Program StateStore.calls α) :
    Config LocalStore.machine ι α where
  world := LocalStore.new
  threads client := (clients client).interpret LocalStore.stateStore.perform
  trace := []

abbrev StoreEvent (ι : Type) := Event LocalStore.machine ι

namespace StoreEvent

def write? (event : StoreEvent ι) : Option (String × Bytes × Int64) :=
  match event.op with
  | .insert key entry => some (key, entry)
  | .cas key expected value =>
      if event.before.accepts key expected then
        some (key, value, event.before.counter)
      else none
  | _ => none

def draws (event : StoreEvent ι) : Bool :=
  match event.op with
  | .nextVersion => true
  | .cas key expected _ => event.before.accepts key expected
  | _ => false

def writeOn? (key : String) (event : StoreEvent ι) : Option (Bytes × Int64) :=
  (write? event).bind fun write => if write.1 = key then some write.2 else none

def succeeds (event : StoreEvent ι) : Bool :=
  match event.op with
  | .cas key expected value => (event.before.cas key expected value).1.success
  | _ => false

def after (event : StoreEvent ι) : LocalStore :=
  (LocalStore.machine.perform event.op event.choice event.before).2

theorem state_after (event : StoreEvent ι) (key : String) :
    event.after.state key = (event.writeOn? key).or (event.before.state key) := by
  rcases event with ⟨client, op, choice, before⟩
  cases op with
  | get read => rfl
  | nextVersion => rfl
  | insert written entry =>
      by_cases same : written = key
      · simp [after, LocalStore.insert, writeOn?, write?, same]
      · simp [after, LocalStore.insert, writeOn?, write?, same,
          Function.update_of_ne (Ne.symm same)]
  | cas written expected value =>
      cases accepted : before.accepts written expected with
      | false => simp [after, LocalStore.cas_of_not_accepts, writeOn?, write?, accepted]
      | true =>
          by_cases same : written = key
          · subst same
            simp [after, LocalStore.cas_of_accepts, writeOn?, write?, accepted]
          · simp [after, LocalStore.cas_of_accepts, writeOn?, write?, accepted, same,
              Function.update_of_ne (Ne.symm same)]

theorem counter_after (event : StoreEvent ι) :
    event.after.counter =
      if event.draws then event.before.counter + 1 else event.before.counter := by
  rcases event with ⟨client, op, choice, before⟩
  cases op with
  | get read => rfl
  | nextVersion => rfl
  | insert written entry => rfl
  | cas written expected value =>
      cases accepted : before.accepts written expected with
      | false => simp [after, LocalStore.cas_of_not_accepts, draws, accepted]
      | true => simp [after, LocalStore.cas_of_accepts, draws, accepted]

theorem cas_of_write {client : ι} {key : String} {expected : Option Int64} {value : Bytes}
    {choice : Unit} {before : LocalStore} {write : String × Bytes × Int64}
    (stored : write? ⟨client, .cas key expected value, choice, before⟩ = some write) :
    draws ⟨client, .cas key expected value, choice, before⟩ = true ∧
      write.2.2 = before.counter := by
  cases accepted : before.accepts key expected with
  | false => simp [write?, accepted] at stored
  | true =>
      simp only [write?, accepted, if_true, Option.some.injEq] at stored
      exact ⟨accepted, by rw [← stored]⟩

end StoreEvent

/-- The versions of the store as tickets of the clients. -/
def versionOffice (ι : Type) : Office (StoreEvent ι) ι where
  holder := Event.thread
  draws := StoreEvent.draws
  redeems event := (StoreEvent.write? event).isSome

/-- The writes of a history, a `put` counted from the step that draws its version. -/
def writesBegun (trace : List (StoreEvent ι)) : Nat :=
  (versionOffice ι).drawn trace

/-- The entry that was last stored under a key. -/
def lastWrite (key : String) (trace : List (StoreEvent ι)) : Option (Bytes × Int64) :=
  trace.findSome? (StoreEvent.writeOn? key)

theorem lastWrite_cons (key : String) (event : StoreEvent ι)
    (older : List (StoreEvent ι)) :
    lastWrite key (event :: older) = (event.writeOn? key).or (lastWrite key older) := by
  unfold lastWrite
  rw [List.findSome?_cons]
  cases event.writeOn? key <;> rfl

theorem lastWrite_append (key : String) (newer older : List (StoreEvent ι)) :
    lastWrite key (newer ++ older) = (lastWrite key newer).or (lastWrite key older) :=
  List.findSome?_append

theorem lastWrite_eq_none_iff {key : String} {trace : List (StoreEvent ι)} :
    lastWrite key trace = none ↔ ∀ event ∈ trace, event.writeOn? key = none :=
  List.findSome?_eq_none_iff

section Worlds

open Config

variable {trace : List (StoreEvent ι)}

theorem state_worldAfter (linked : Linked LocalStore.new trace) (key : String) :
    (worldAfter LocalStore.new trace).state key = lastWrite key trace := by
  induction trace with
  | nil => rfl
  | cons event older induction =>
      have found : event.before.state key = lastWrite key older := by
        rw [linked.1]
        exact induction linked.2
      rw [lastWrite_cons, ← found]
      exact event.state_after key

theorem counter_worldAfter (linked : Linked LocalStore.new trace) :
    (worldAfter LocalStore.new trace).counter = Int64.ofNat (writesBegun trace + 1) := by
  induction trace with
  | nil => rfl
  | cons event older induction =>
      have found : event.before.counter = Int64.ofNat (writesBegun older + 1) := by
        rw [linked.1]
        exact induction linked.2
      apply event.counter_after.trans
      rw [found]
      cases draws : event.draws with
      | false =>
          have same : writesBegun (event :: older) = writesBegun older :=
            Office.drawn_cons_of_not_draws draws
          rw [same]
          rfl
      | true =>
          have next : writesBegun (event :: older) = writesBegun older + 1 :=
            Office.drawn_cons_of_draws draws
          rw [next]
          simp

end Worlds

/-! ## The invariant -/

/-- Where a client stands: between two calls, or about to insert under the version
that it has drawn. -/
inductive InCall (config : Config LocalStore.machine ι α) [DecidableEq ι] (client : ι) :
    Prop
  | between (rest : Program StateStore.calls α)
      (program : config.threads client =
        rest.interpret LocalStore.stateStore.perform)
  | inserting (key : String) (value : Bytes) (version : Int64)
      (rest : Int64 → Program StateStore.calls α)
      (program : config.threads client =
        .request (.insert key (value, version)) fun _ =>
          (rest version).interpret LocalStore.stateStore.perform)
      (ticket : version = Int64.ofNat ((versionOffice ι).ticket client config.trace))
      (holds : (versionOffice ι).Holds client config.trace)

structure ClientInvariant [DecidableEq ι] (config : Config LocalStore.machine ι α) :
    Prop where
  linked : Config.Linked LocalStore.new config.trace
  world : config.world = Config.worldAfter LocalStore.new config.trace
  honest : (versionOffice ι).Honest config.trace
  /-- The version of every stored entry is the ticket that it was stored under. -/
  versions : ∀ redemption ∈ (versionOffice ι).redemptions config.trace,
    redemption.1.write?.map (·.2.2) = some (Int64.ofNat redemption.2)
  calls : ∀ client, InCall config client

section Invariant

variable [DecidableEq ι]

theorem InCall.frame {config later : Config LocalStore.machine ι α} {client : ι}
    {event : StoreEvent ι} (inCall : InCall config client)
    (trace : later.trace = event :: config.trace) (different : client ≠ event.thread)
    (program : later.threads client = config.threads client) : InCall later client := by
  cases inCall with
  | between rest isProgram => exact .between rest (program.trans isProgram)
  | inserting key value version rest isProgram ticket holds =>
      refine .inserting key value version rest (program.trans isProgram) ?_ ?_
      · rw [trace, Office.ticket_cons_of_ne different]
        exact ticket
      · rw [trace]
        exact (Office.holds_cons_of_ne different).mpr holds

theorem ClientInvariant.initial (clients : ι → Program StateStore.calls α) :
    ClientInvariant (localClients clients) where
  linked := trivial
  world := rfl
  honest := trivial
  versions redemption member := by cases member
  calls client := .between (clients client) rfl

theorem ClientInvariant.perform {config later : Config LocalStore.machine ι α}
    (invariant : ClientInvariant config) (event : StoreEvent ι)
    (before : event.before = config.world) (trace : later.trace = event :: config.trace)
    (world : later.world = event.after)
    (others : ∀ client, client ≠ event.thread →
      later.threads client = config.threads client)
    (honest : (versionOffice ι).redeems event = true →
      (versionOffice ι).draws event = true ∨
        (versionOffice ι).Holds event.thread config.trace)
    (version : ∀ write, event.write? = some write →
      write.2.2 = Int64.ofNat ((versionOffice ι).ticket event.thread later.trace))
    (inCall : InCall later event.thread) : ClientInvariant later where
  linked := by
    rw [trace]
    exact ⟨before.trans invariant.world, invariant.linked⟩
  world := by
    rw [world, trace]
    rfl
  honest := by
    rw [trace]
    exact ⟨honest, invariant.honest⟩
  versions := by
    intro redemption member
    rw [trace] at member version
    cases write : event.write? with
    | none =>
        have quiet : (versionOffice ι).redeems event = false := by
          simp [versionOffice, write]
        rw [Office.redemptions_cons_of_not_redeems quiet] at member
        exact invariant.versions redemption member
    | some stored =>
        have redeems : (versionOffice ι).redeems event = true := by
          simp [versionOffice, write]
        rw [Office.redemptions_cons_of_redeems redeems] at member
        rcases List.mem_cons.mp member with rfl | earlier
        · rw [write, Option.map_some, version stored write]
          rfl
        · exact invariant.versions redemption earlier
  calls := by
    intro client
    by_cases same : client = event.thread
    · rw [same]
      exact inCall
    · exact (invariant.calls client).frame trace same (others client same)

theorem ClientInvariant.counter {config : Config LocalStore.machine ι α}
    (invariant : ClientInvariant config) :
    config.world.counter = Int64.ofNat (writesBegun config.trace + 1) := by
  rw [invariant.world]
  exact counter_worldAfter invariant.linked

theorem ClientInvariant.advance {config : Config LocalStore.machine ι α}
    (invariant : ClientInvariant config) (action : Action LocalStore.machine ι) :
    ClientInvariant (config.advance action) := by
  rcases action with change | ⟨client, choice⟩
  · exact nomatch change
  have others : ∀ next, ∀ other, other ≠ client →
      Function.update config.threads client next other = config.threads other :=
    fun next other different => Function.update_of_ne different _ _
  cases invariant.calls client with
  | inserting key value version rest program ticket holds =>
      have quiet : (versionOffice ι).draws
          ⟨client, .insert key (value, version), choice, config.world⟩ = false := rfl
      rw [Config.advance_of_request program]
      refine invariant.perform ⟨client, .insert key (value, version), choice,
        config.world⟩ rfl rfl rfl (others _) (fun _ => .inr holds) ?_
        (.between (rest version) (Function.update_self ..))
      rintro write ⟨⟩
      rw [Office.ticket_cons_of_not_draws quiet]
      exact ticket
  | between rest program =>
      cases rest with
      | pure value =>
          rw [Config.advance_of_pure program]
          exact invariant
      | request call next =>
          cases call with
          | get key =>
              rw [Config.advance_of_request program]
              exact invariant.perform ⟨client, .get key, choice, config.world⟩ rfl rfl
                rfl (others _) nofun nofun (.between (next _) (Function.update_self ..))
          | put key value =>
              have draws : (versionOffice ι).draws
                  ⟨client, .nextVersion, choice, config.world⟩ = true := rfl
              rw [Config.advance_of_request program]
              refine invariant.perform ⟨client, .nextVersion, choice, config.world⟩ rfl
                rfl rfl (others _) nofun nofun
                (.inserting key value config.world.counter next
                  (Function.update_self ..) ?_ ?_)
              · rw [invariant.counter]
                exact congrArg Int64.ofNat (Office.ticket_cons_of_draws draws).symm
              · exact Office.holds_cons_of_draws draws rfl
          | cas key expected value =>
              rw [Config.advance_of_request program]
              refine invariant.perform ⟨client, .cas key expected value, choice,
                config.world⟩ rfl rfl rfl (others _) ?_ ?_
                (.between (next _) (Function.update_self ..))
              · intro redeems
                rcases Option.isSome_iff_exists.mp redeems with ⟨write, stored⟩
                exact .inl (StoreEvent.cas_of_write stored).1
              · intro write stored
                rcases StoreEvent.cas_of_write stored with ⟨draws, drawn⟩
                rw [drawn, invariant.counter]
                exact congrArg Int64.ofNat (Office.ticket_cons_of_draws draws).symm

theorem clientInvariant_run (clients : ι → Program StateStore.calls α)
    (actions : List (Action LocalStore.machine ι)) :
    ClientInvariant ((localClients clients).run actions) :=
  Config.invariant_run ClientInvariant (fun _ action invariant => invariant.advance action)
    _ (.initial clients) actions

/-! ## Compare and swap -/

omit [DecidableEq ι] in
theorem write?_of_writeOn? {key : String} {event : StoreEvent ι} {entry : Bytes × Int64}
    (stored : event.writeOn? key = some entry) : event.write? = some (key, entry) := by
  rcases Option.bind_eq_some_iff.mp stored with ⟨write, isWrite, same⟩
  split at same
  · rename_i isKey
    rw [isWrite, ← Option.some.inj same, ← isKey]
  · cases same

omit [DecidableEq ι] in
theorem redeems_of_writeOn? {key : String} {event : StoreEvent ι} {entry : Bytes × Int64}
    (stored : event.writeOn? key = some entry) :
    (versionOffice ι).redeems event = true := by
  change event.write?.isSome = true
  rw [write?_of_writeOn? stored]
  rfl

theorem ClientInvariant.version_eq {config : Config LocalStore.machine ι α}
    (invariant : ClientInvariant config) {key : String} {event : StoreEvent ι}
    {number : Nat} {entry : Bytes × Int64}
    (member : (event, number) ∈ (versionOffice ι).redemptions config.trace)
    (stored : event.writeOn? key = some entry) : entry.2 = Int64.ofNat number := by
  have version := invariant.versions _ member
  rw [write?_of_writeOn? stored] at version
  exact Option.some.inj version

/-- Entries stored by two operations have different versions. -/
theorem ClientInvariant.versions_apart {config : Config LocalStore.machine ι α}
    (invariant : ClientInvariant config) (bounded : writesBegun config.trace < 2 ^ 63)
    {newer older : List (StoreEvent ι)} (trace : config.trace = newer ++ older)
    {key : String} {later earlier : StoreEvent ι} (new : later ∈ newer)
    (old : earlier ∈ older) {laterEntry earlierEntry : Bytes × Int64}
    (laterStored : later.writeOn? key = some laterEntry)
    (earlierStored : earlier.writeOn? key = some earlierEntry) :
    earlierEntry.2 ≠ laterEntry.2 := by
  have honest := invariant.honest
  rw [trace] at honest
  rcases Office.tickets_apart honest new old (redeems_of_writeOn? laterStored)
    (redeems_of_writeOn? earlierStored) with ⟨first, second, laterAt, earlierAt, apart⟩
  rw [← trace] at laterAt earlierAt
  have firstBound : first ≤ writesBegun config.trace := Office.redemptions_le earlierAt
  have secondBound : second ≤ writesBegun config.trace := Office.redemptions_le laterAt
  rw [invariant.version_eq laterAt laterStored, invariant.version_eq earlierAt earlierStored]
  intro same
  exact apart (int64_ofNat_injective (by omega) (by omega) same)

/-- In every run of fewer than `2 ^ 63` writes: a `cas` on what an earlier `get` of the
key returned succeeds if and only if no write to the key took effect in between. -/
theorem cas_iff_unwritten (clients : ι → Program StateStore.calls α)
    (actions : List (Action LocalStore.machine ι))
    (bounded : writesBegun ((localClients clients).run actions).trace < 2 ^ 63)
    {newer between older : List (StoreEvent ι)} {get cas : StoreEvent ι} {key : String}
    {value : Bytes}
    (trace : ((localClients clients).run actions).trace =
      newer ++ cas :: between ++ get :: older)
    (isGet : get.op = .get key)
    (isCas : cas.op = .cas key ((get.before.get key).map Prod.snd) value) :
    cas.succeeds = true ↔ ∀ event ∈ between, event.writeOn? key = none := by
  have invariant := clientInvariant_run clients actions
  generalize (localClients clients).run actions = config at *
  have linked := invariant.linked
  rw [trace, List.append_assoc, List.cons_append] at linked
  have atCas := linked.suffix (List.suffix_append newer _)
  have atGet := atCas.2.suffix (List.suffix_append between _)
  have read : get.before.get key = lastWrite key older := by
    rw [LocalStore.get, atGet.1]
    exact state_worldAfter atGet.2 key
  have unread : get.writeOn? key = none := by
    simp [StoreEvent.writeOn?, StoreEvent.write?, isGet]
  have found : cas.before.state key = (lastWrite key between).or (lastWrite key older) := by
    rw [atCas.1, state_worldAfter atCas.2 key, lastWrite_append, lastWrite_cons, unread,
      Option.none_or]
  rw [StoreEvent.succeeds, isCas]
  simp only [LocalStore.cas_success, LocalStore.accepts_iff, read, found]
  constructor
  · intro accepted
    rw [← lastWrite_eq_none_iff]
    cases written : lastWrite key between with
    | none => rfl
    | some later =>
        rw [written] at accepted
        cases stored : lastWrite key older with
        | none => simp [stored] at accepted
        | some earlier =>
            rcases List.exists_of_findSome?_eq_some written with ⟨event, new, isNew⟩
            rcases List.exists_of_findSome?_eq_some stored with ⟨event, old, isOld⟩
            have apart := invariant.versions_apart bounded trace
              (List.mem_append_right newer (List.mem_cons_of_mem cas new))
              (List.mem_cons_of_mem get old) isNew isOld
            rw [stored] at accepted
            exact absurd (Option.some.inj accepted) apart
  · intro unwritten
    rw [lastWrite_eq_none_iff.mpr unwritten, Option.none_or]

end Invariant

/-- A `put` that drew before the `get` inserts after it. -/
theorem cas_iff_unwritten_late_put :
    let clients : Fin 2 → Program StateStore.calls Unit := fun client =>
      if client = 0 then
        .request (.get "alice") fun entry =>
          .request (.cas "alice" (entry.map Prod.snd) [2]) fun _ => .pure ()
      else .request (.put "alice" [1]) fun _ => .pure ()
    let start := localClients clients
    let drawn := start.advance (.step 1 ())
    let got := drawn.advance (.step 0 ())
    let put := got.advance (.step 1 ())
    let cas : StoreEvent (Fin 2) := ⟨0, .cas "alice" none [2], (), put.world⟩
    let insert : StoreEvent (Fin 2) := ⟨1, .insert "alice" ([1], 1), (), got.world⟩
    cas.succeeds = true ↔ ∀ event ∈ [insert], StoreEvent.writeOn? "alice" event = none := by
  intro clients start drawn got put cas insert
  let actions : List (Action LocalStore.machine (Fin 2)) :=
    [.step 1 (), .step 0 (), .step 1 (), .step 0 ()]
  have trace : (start.run actions).trace = [] ++ cas :: [insert] ++
      ⟨0, .get "alice", (), drawn.world⟩ :: [⟨1, .nextVersion, (), start.world⟩] := rfl
  exact cas_iff_unwritten clients actions (by decide) trace rfl rfl

end RateLimiting
