import RateLimiting.Foundation.MachineNumber
import RateLimiting.Store.Etcd

/-! # Revisions

etcd numbers its writes, so a modification revision tells which write a key
holds. A comparison with a revision read earlier, or with none, succeeds only if
the key still holds what was read. -/

namespace RateLimiting

namespace Etcd

/-- Every key was written at a revision that the server has given out. -/
structure Numbered (server : Etcd) : Prop where
  nonneg : 0 ≤ server.revision.toInt
  created : ∀ key kv, server.kvs key = some kv → kv.createRevision ≠ 0
  modified : ∀ key kv, server.kvs key = some kv →
    0 < kv.modRevision.toInt ∧ kv.modRevision.toInt ≤ server.revision.toInt

theorem Numbered.empty {revision : Int64} (nonneg : 0 ≤ revision.toInt) :
    Numbered ⟨fun _ => none, revision⟩ where
  nonneg := nonneg
  created key kv found := by simp at found
  modified key kv found := by simp at found

/-- What an RPC writes, if it takes effect. -/
def written? (server : Etcd) : Op → RpcOutcome → Option (String × Bytes)
  | .get _, _ => none
  | .put _ _, .failed => none
  | .put key value, _ => some (key, value)
  | .txn _, .failed => none
  | .txn request, _ =>
      if server.compare request.condition then some (request.key, request.value)
      else none

theorem perform_server (server : Etcd) (op : Op) (choice : RpcOutcome) :
    (perform op choice server).2 =
      (server.written? op choice).elim server fun write =>
        server.put write.1 write.2 := by
  cases op with
  | get key => cases choice <;> rfl
  | put key value => cases choice <;> rfl
  | txn request =>
      cases holds : server.compare request.condition <;> cases choice <;>
        simp [perform, written?, txn, holds]

theorem toInt_put_revision {server : Etcd} (numbered : server.Numbered)
    (fits : server.revision.toInt + 1 < 2 ^ 63) (key : String) (value : Bytes) :
    (server.put key value).revision.toInt = server.revision.toInt + 1 :=
  toInt_succ_of_lt numbered.nonneg fits

theorem put_kvs_self (server : Etcd) (key : String) (value : Bytes) :
    (server.put key value).kvs key = some {
      value := value
      createRevision :=
        ((server.kvs key).map KeyValue.createRevision).getD (server.revision + 1)
      modRevision := server.revision + 1 } :=
  Function.update_self ..

theorem put_kvs_of_ne {server : Etcd} {written key : String} (other : key ≠ written)
    (value : Bytes) : (server.put written value).kvs key = server.kvs key :=
  Function.update_of_ne other _ _

theorem put_kvs_value (server : Etcd) (written key : String) (value : Bytes) :
    ((server.put written value).kvs key).map KeyValue.value =
      if written = key then some value else (server.kvs key).map KeyValue.value := by
  by_cases same : written = key
  · subst same
    simp [put]
  · rw [put_kvs_of_ne (Ne.symm same), if_neg same]

theorem Numbered.put {server : Etcd} (numbered : server.Numbered)
    (fits : server.revision.toInt + 1 < 2 ^ 63) (written : String) (value : Bytes) :
    (server.put written value).Numbered := by
  have revision := toInt_put_revision numbered fits written value
  have nonneg := numbered.nonneg
  refine ⟨by omega, ?_, ?_⟩
  · intro key kv found
    by_cases same : key = written
    · subst same
      rw [put_kvs_self, Option.some.injEq] at found
      subst found
      cases existing : server.kvs key with
      | none =>
          intro zero
          have vanished : (server.revision + 1).toInt = 0 := congrArg Int64.toInt zero
          rw [toInt_succ_of_lt nonneg fits] at vanished
          omega
      | some kv => exact numbered.created key kv existing
    · rw [put_kvs_of_ne same] at found
      exact numbered.created key kv found
  · intro key kv found
    by_cases same : key = written
    · subst same
      rw [put_kvs_self, Option.some.injEq] at found
      subst found
      have given := toInt_succ_of_lt nonneg fits
      exact ⟨by simp only [given]; omega, le_of_eq rfl⟩
    · rw [put_kvs_of_ne same] at found
      have bounds := numbered.modified key kv found
      omega

/-- A state of a server and a later one: a key at the revision that it had then
has the value that it had then. -/
structure Precedes (past present : Etcd) : Prop where
  numbered : past.Numbered
  revision : past.revision.toInt ≤ present.revision.toInt
  value : ∀ key old new, past.kvs key = some old → present.kvs key = some new →
    old.modRevision = new.modRevision → old.value = new.value

theorem Precedes.refl {server : Etcd} (numbered : server.Numbered) :
    server.Precedes server where
  numbered := numbered
  revision := le_refl _
  value key old new foundOld foundNew _ := by
    rw [foundOld] at foundNew
    cases foundNew
    rfl

/-- What one RPC can make of a server: every key that is left is as it was, or has the new
revision. -/
structure Follows (server after : Etcd) : Prop where
  numbered : after.Numbered
  ordered : server.revision.toInt ≤ after.revision.toInt
  revision : after.revision.toInt ≤ server.revision.toInt + 1
  kept : ∀ key kv, after.kvs key = some kv →
    server.kvs key = some kv ∨ server.revision.toInt < kv.modRevision.toInt

theorem Numbered.follows_self {server : Etcd} (numbered : server.Numbered) :
    server.Follows server where
  numbered := numbered
  ordered := le_refl _
  revision := by omega
  kept _ _ found := .inl found

theorem Numbered.follows_put {server : Etcd} (numbered : server.Numbered)
    (fits : server.revision.toInt + 1 < 2 ^ 63) (written : String) (value : Bytes) :
    server.Follows (server.put written value) where
  numbered := numbered.put fits written value
  ordered := by
    rw [toInt_put_revision numbered fits]
    omega
  revision := (toInt_put_revision numbered fits written value).le
  kept key kv found := by
    by_cases same : key = written
    · subst same
      rw [put_kvs_self, Option.some.injEq] at found
      right
      rw [← found, toInt_succ_of_lt numbered.nonneg fits]
      omega
    · rw [put_kvs_of_ne same] at found
      exact .inl found

theorem Numbered.follows {server : Etcd} (numbered : server.Numbered)
    (fits : server.revision.toInt + 1 < 2 ^ 63) (op : Op) (outcome : RpcOutcome) :
    server.Follows (perform op outcome server).2 := by
  rw [perform_server]
  cases server.written? op outcome with
  | none => exact numbered.follows_self
  | some write => exact numbered.follows_put fits write.1 write.2

theorem Precedes.follow {past present after : Etcd} (precedes : past.Precedes present)
    (follows : present.Follows after) : past.Precedes after where
  numbered := precedes.numbered
  revision := precedes.revision.trans follows.ordered
  value key old new foundOld foundNew same := by
    rcases follows.kept key new foundNew with before | later
    · exact precedes.value key old new foundOld before same
    · have known := (precedes.numbered.modified key old foundOld).2
      have ordered := precedes.revision
      rw [same] at known
      omega

/-- The comparison that a check makes with what it read succeeds only while the
key holds the value that was read. A read that failed stands for an absent key,
and then the comparison succeeds only while the key is absent. -/
theorem Precedes.value_of_compare {past present : Etcd} (precedes : past.Precedes present)
    (numbered : present.Numbered) (key : String) (choice : RpcOutcome)
    (holds : present.compare (EtcdStore.condition key
      ((EtcdStore.entry (perform (.get key) choice past).1).map Prod.snd)) = true) :
    (present.kvs key).map KeyValue.value =
      (EtcdStore.entry (perform (.get key) choice past).1).map Prod.fst := by
  cases read : EtcdStore.entry (perform (.get key) choice past).1 with
  | none =>
      rw [read] at holds
      cases current : present.kvs key with
      | none => rfl
      | some kv =>
          have created := numbered.created key kv current
          simp [EtcdStore.condition, compare, current, created] at holds
  | some entry =>
      rw [read] at holds
      have old : ∃ kv, past.kvs key = some kv ∧ entry = (kv.value, kv.modRevision) := by
        cases choice with
        | ok =>
            cases found : past.kvs key with
            | none => simp [EtcdStore.entry, perform, found] at read
            | some kv =>
                refine ⟨kv, rfl, ?_⟩
                simpa [EtcdStore.entry, perform, found] using read.symm
        | failed => simp [EtcdStore.entry, perform] at read
        | unacknowledged => simp [EtcdStore.entry, perform] at read
      rcases old with ⟨kv, found, rfl⟩
      have positive := (precedes.numbered.modified key kv found).1
      cases current : present.kvs key with
      | none =>
          have zero : 0 = kv.modRevision := by
            simpa [EtcdStore.condition, compare, current] using holds
          rw [← zero] at positive
          exact absurd positive (by decide)
      | some new =>
          have same : new.modRevision = kv.modRevision := by
            simpa [EtcdStore.condition, compare, current] using holds
          simp [precedes.value key kv new found current same.symm]

end Etcd

end RateLimiting
