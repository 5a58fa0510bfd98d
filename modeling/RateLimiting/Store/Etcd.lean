import Mathlib.Logic.Function.Basic
import RateLimiting.Store.Basic

/-! # The etcd store

etcd is a linearizable map whose writes are numbered by one revision counter.
Each RPC is one atomic step on it; the environment decides whether the RPC
reports an error and, if it does, whether it was applied first. -/

namespace RateLimiting

/-! ## The server -/

structure KeyValue where
  value : Bytes
  createRevision : Int64
  modRevision : Int64
deriving DecidableEq, Repr

structure Etcd where
  kvs : String → Option KeyValue
  revision : Int64

/-- What becomes of one RPC: answered, failed without effect, or applied with
the answer lost. -/
inductive RpcOutcome
  | ok
  | failed
  | unacknowledged
deriving DecidableEq, Repr

inductive Compare
  | createRevision (key : String) (revision : Int64)
  | modRevision (key : String) (revision : Int64)
deriving DecidableEq, Repr

structure Txn where
  condition : Compare
  key : String
  value : Bytes
deriving DecidableEq, Repr

structure GetResponse where
  kvs : List KeyValue

structure PutResponse where
  header : Option Int64

structure TxnResponse where
  succeeded : Bool
  header : Option Int64

namespace Etcd

/-- Both revisions of an absent key compare as zero. -/
def compare (server : Etcd) : Compare → Bool
  | .createRevision key revision =>
      ((server.kvs key).map KeyValue.createRevision).getD 0 == revision
  | .modRevision key revision =>
      ((server.kvs key).map KeyValue.modRevision).getD 0 == revision

def put (server : Etcd) (key : String) (value : Bytes) : Etcd where
  kvs := Function.update server.kvs key (some {
    value := value
    createRevision :=
      ((server.kvs key).map KeyValue.createRevision).getD (server.revision + 1)
    modRevision := server.revision + 1 })
  revision := server.revision + 1

def txn (server : Etcd) (request : Txn) : TxnResponse × Etcd :=
  if server.compare request.condition then
    let after := server.put request.key request.value
    (⟨true, some after.revision⟩, after)
  else
    (⟨false, some server.revision⟩, server)

inductive Op
  | get (key : String)
  | put (key : String) (value : Bytes)
  | txn (request : Txn)

@[reducible] def interface : Interface where
  Op := Op
  Reply
    | .get _ => Option GetResponse
    | .put _ _ => Option PutResponse
    | .txn _ => Option TxnResponse

/-- The reply is `none` when the RPC reports an error. -/
def perform : (op : Op) → RpcOutcome → Etcd → interface.Reply op × Etcd
  | .get key, .ok, server => (some ⟨(server.kvs key).toList⟩, server)
  | .get _, _, server => (none, server)
  | .put key value, .ok, server =>
      (some ⟨some (server.put key value).revision⟩, server.put key value)
  | .put _ _, .failed, server => (none, server)
  | .put key value, .unacknowledged, server => (none, server.put key value)
  | .txn request, .ok, server =>
      (some (server.txn request).1, (server.txn request).2)
  | .txn _, .failed, server => (none, server)
  | .txn request, .unacknowledged, server => (none, (server.txn request).2)

@[reducible] def machine : Machine interface where
  World := Etcd
  Choice := RpcOutcome
  Change := Empty
  perform := perform
  evolve change := nomatch change

end Etcd

/-! ## The client -/

structure EtcdStore where
  keyPrefix : String

namespace EtcdStore

def fullKey (store : EtcdStore) (key : String) : String :=
  s!"{store.keyPrefix}/{key}"

/-- What `get` makes of the answer; an error reads as an absent key. -/
def entry (response : Option GetResponse) : Option (Bytes × Int64) := do
  let answer ← response
  let kv ← answer.kvs.head?
  some (kv.value, kv.modRevision)

def get (store : EtcdStore) (key : String) :
    Program Etcd.interface (Option (Bytes × Int64)) := do
  let response ← Program.perform (I := Etcd.interface) (.get (store.fullKey key))
  pure (entry response)

def put (store : EtcdStore) (key : String) (value : Bytes) :
    Program Etcd.interface Int64 := do
  let response ←
    Program.perform (I := Etcd.interface) (.put (store.fullKey key) value)
  pure ((response.bind PutResponse.header).getD 0)

/-- `none` asks for an absent key, `some version` for that modification
revision. -/
def condition (fullKey : String) : Option Int64 → Compare
  | none => .createRevision fullKey 0
  | some version => .modRevision fullKey version

def conflict (fullKey : String) : Program Etcd.interface CasResult := do
  let response ← Program.perform (I := Etcd.interface) (.get fullKey)
  pure {
    success := false
    version := ((response.bind fun answer => answer.kvs.head?).map
      KeyValue.modRevision).getD 0 }

def cas (store : EtcdStore) (key : String) (expected : Option Int64)
    (value : Bytes) : Program Etcd.interface CasResult := do
  let fullKey := store.fullKey key
  let response ← Program.perform (I := Etcd.interface)
    (.txn ⟨condition fullKey expected, fullKey, value⟩)
  match response with
  | some answer =>
      if answer.succeeded then pure ⟨true, answer.header.getD 0⟩
      else conflict fullKey
  -- An RPC error takes the same branch as a failed comparison.
  | none => conflict fullKey

def stateStore (store : EtcdStore) : StateStore Etcd.interface where
  get := store.get
  put := store.put
  cas := store.cas

end EtcdStore

end RateLimiting
