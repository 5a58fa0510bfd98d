import Mathlib.Logic.Function.Basic
import RateLimiting.Store.Basic

/-! # The in-process store

A map behind a mutex and a shared version counter. Every operation that holds
the lock is one atomic step; `put` draws its version before it takes the lock
and is therefore two. -/

namespace RateLimiting

structure LocalStore where
  state : String → Option (Bytes × Int64)
  counter : Int64

namespace LocalStore

def new : LocalStore where
  state := fun _ => none
  counter := 1

/-- `fetch_add` on the counter, which wraps. -/
def nextVersion (store : LocalStore) : Int64 × LocalStore :=
  (store.counter, { store with counter := store.counter + 1 })

def get (store : LocalStore) (key : String) : Option (Bytes × Int64) :=
  store.state key

def insert (store : LocalStore) (key : String) (entry : Bytes × Int64) :
    LocalStore :=
  { store with state := Function.update store.state key (some entry) }

def accepts (store : LocalStore) (key : String) (expected : Option Int64) : Bool :=
  match expected, store.state key with
  | none, none => true
  | some expectedVersion, some (_, currentVersion) =>
      expectedVersion == currentVersion
  | _, _ => false

def cas (store : LocalStore) (key : String) (expected : Option Int64)
    (value : Bytes) : CasResult × LocalStore :=
  if store.accepts key expected then
    let (version, drawn) := store.nextVersion
    (⟨true, version⟩, drawn.insert key (value, version))
  else
    (⟨false, ((store.state key).map Prod.snd).getD 0⟩, store)

@[simp] theorem new_state (key : String) : new.state key = none := rfl

theorem accepts_iff (store : LocalStore) (key : String)
    (expected : Option Int64) :
    store.accepts key expected = true ↔
      expected = (store.state key).map Prod.snd := by
  unfold accepts
  cases expected <;> cases store.state key <;> simp

theorem cas_of_accepts (store : LocalStore) (key : String)
    (expected : Option Int64) (value : Bytes)
    (accepted : store.accepts key expected = true) :
    store.cas key expected value =
      (⟨true, store.counter⟩,
        ⟨Function.update store.state key (some (value, store.counter)),
          store.counter + 1⟩) := by
  simp [cas, accepted, nextVersion, insert]

theorem cas_of_not_accepts (store : LocalStore) (key : String)
    (expected : Option Int64) (value : Bytes)
    (rejected : store.accepts key expected = false) :
    store.cas key expected value =
      (⟨false, ((store.state key).map Prod.snd).getD 0⟩, store) := by
  simp [cas, rejected]

@[simp] theorem cas_success (store : LocalStore) (key : String)
    (expected : Option Int64) (value : Bytes) :
    (store.cas key expected value).1.success = store.accepts key expected := by
  cases accepted : store.accepts key expected <;> simp [cas, accepted, nextVersion]

/-! ## The store as a machine -/

inductive Op
  | get (key : String)
  | nextVersion
  | insert (key : String) (entry : Bytes × Int64)
  | cas (key : String) (expected : Option Int64) (value : Bytes)

@[reducible] def interface : Interface where
  Op := Op
  Reply
    | .get _ => Option (Bytes × Int64)
    | .nextVersion => Int64
    | .insert _ _ => Unit
    | .cas _ _ _ => CasResult

@[reducible] def machine : Machine interface where
  World := LocalStore
  Choice := Unit
  Change := Empty
  perform
    | .get key, _, store => (store.get key, store)
    | .nextVersion, _, store => store.nextVersion
    | .insert key entry, _, store => ((), store.insert key entry)
    | .cas key expected value, _, store => store.cas key expected value
  evolve change := nomatch change

def stateStore : StateStore interface where
  get key := Program.perform (I := interface) (.get key)
  put key value := do
    let version ← Program.perform (I := interface) .nextVersion
    Program.perform (I := interface) (.insert key (value, version))
    pure version
  cas key expected value :=
    Program.perform (I := interface) (.cas key expected value)

end LocalStore

end RateLimiting
