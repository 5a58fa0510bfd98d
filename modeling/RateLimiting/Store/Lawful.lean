import RateLimiting.Store.Etcd
import RateLimiting.Store.Local

/-! # What a sequential check needs of a store

With nothing else running, a read returns what is stored and a compare-and-swap
that expects what is stored succeeds. Both stores do this, etcd as long as its
RPCs are answered. -/

namespace RateLimiting

structure LawfulStore (I : Interface) where
  machine : Machine I
  choice : machine.Choice
  store : StateStore I
  lookup : machine.World → String → Option (Bytes × Int64)
  get_run : ∀ world key,
    (store.get key).run machine choice world = (lookup world key, world)
  cas_success : ∀ world key value,
    ((store.cas key ((lookup world key).map Prod.snd) value).run machine choice
      world).1.success = true
  cas_lookup : ∀ world key value, ∃ version,
    lookup ((store.cas key ((lookup world key).map Prod.snd) value).run machine
      choice world).2 = Function.update (lookup world) key (some (value, version))

namespace LawfulStore

variable {I : Interface} (backend : LawfulStore I)

def contents (world : backend.machine.World) (key : String) : Option Bytes :=
  (backend.lookup world key).map Prod.fst

theorem cas_contents (world : backend.machine.World) (key : String)
    (value : Bytes) :
    backend.contents ((backend.store.cas key ((backend.lookup world key).map
      Prod.snd) value).run backend.machine backend.choice world).2 =
        Function.update (backend.contents world) key (some value) := by
  rcases backend.cas_lookup world key value with ⟨version, updated⟩
  funext other
  rw [contents, updated]
  by_cases same : other = key
  · subst same
    simp
  · simp [same, contents]

end LawfulStore

namespace LocalStore

@[reducible] def lawful : LawfulStore interface where
  machine := machine
  choice := ()
  store := stateStore
  lookup := state
  get_run _ _ := rfl
  cas_success store key value := by
    change (store.cas key _ value).1.success = true
    rw [cas_success, accepts_iff]
  cas_lookup store key value := by
    have accepted : store.accepts key ((store.state key).map Prod.snd) = true :=
      (accepts_iff ..).mpr rfl
    refine ⟨store.counter, ?_⟩
    change (store.cas key _ value).2.state = _
    rw [cas_of_accepts _ _ _ _ accepted]

end LocalStore

namespace EtcdStore

theorem fullKey_injective (store : EtcdStore) :
    Function.Injective store.fullKey := by
  intro left right same
  simpa [fullKey, toString] using same

def lookup (store : EtcdStore) (server : Etcd) (key : String) :
    Option (Bytes × Int64) :=
  (server.kvs (store.fullKey key)).map fun kv => (kv.value, kv.modRevision)

theorem lookup_put (store : EtcdStore) (server : Etcd) (key : String)
    (value : Bytes) :
    store.lookup (server.put (store.fullKey key) value) =
      Function.update (store.lookup server) key
        (some (value, server.revision + 1)) := by
  funext other
  by_cases same : other = key
  · subst same
    simp [lookup, Etcd.put]
  · simp [lookup, Etcd.put, same, store.fullKey_injective.eq_iff]

theorem compare_condition (store : EtcdStore) (server : Etcd) (key : String) :
    server.compare (condition (store.fullKey key)
      ((store.lookup server key).map Prod.snd)) = true := by
  unfold lookup
  cases stored : server.kvs (store.fullKey key) <;>
    simp [condition, Etcd.compare, stored]

theorem cas_run_of_holds (store : EtcdStore) (server : Etcd) (key : String)
    (expected : Option Int64) (value : Bytes)
    (holds : server.compare (condition (store.fullKey key) expected) = true) :
    (store.cas key expected value).run Etcd.machine .ok server =
      (⟨true, server.revision + 1⟩, server.put (store.fullKey key) value) := by
  simp [cas, Program.perform, Etcd.perform, Etcd.txn, holds, Etcd.put]

theorem cas_run_of_fails (store : EtcdStore) (server : Etcd) (key : String)
    (expected : Option Int64) (value : Bytes)
    (fails : server.compare (condition (store.fullKey key) expected) = false) :
    (store.cas key expected value).run Etcd.machine .ok server =
      (⟨false, ((store.lookup server key).map Prod.snd).getD 0⟩, server) := by
  cases stored : server.kvs (store.fullKey key) <;>
    simp [cas, conflict, lookup, Program.perform, Etcd.perform, Etcd.txn, fails, stored]

@[reducible] def lawful (store : EtcdStore) : LawfulStore Etcd.interface where
  machine := Etcd.machine
  choice := .ok
  store := store.stateStore
  lookup := store.lookup
  get_run server key := by
    cases stored : server.kvs (store.fullKey key) <;>
      simp [stateStore, get, entry, lookup, Program.perform, Etcd.perform, stored]
  cas_success server key value := by
    rw [stateStore, cas_run_of_holds _ _ _ _ _ (store.compare_condition server key)]
  cas_lookup server key value := by
    rw [stateStore, cas_run_of_holds _ _ _ _ _ (store.compare_condition server key)]
    exact ⟨_, store.lookup_put server key value⟩

end EtcdStore

end RateLimiting
