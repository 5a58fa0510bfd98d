import RateLimiting.Deployment
import RateLimiting.Foundation.Sharing

/-! # Services that coexist

Any number of services keep their limiters in one etcd, each under a prefix of its own.
Unless what the keys of one start with begins what the keys of another start with, each
of them runs as a deployment that has the etcd for itself. -/

namespace RateLimiting

open ByteStream FlatBuffers HttpServer TcpServer

/-! ## Keys -/

structure Service where
  config : RateLimiterConfig
  json : SerdeJson config.limiter.State
  store : EtcdStore
  hmacSecret : Option String

namespace Service

abbrev loop (service : Service) : CheckLoop :=
  service.config.limiter

def fullKey (service : Service) (request : CheckRequest) : String :=
  service.store.fullKey (request.key service.loop)

def root (service : Service) : String :=
  s!"{service.store.keyPrefix}/{service.loop.name}/"

/-- No key of one service can be a key of the other, whoever asks. -/
def Apart (first second : Service) : Prop :=
  ¬ first.root.toList <+: second.root.toList ∧ ¬ second.root.toList <+: first.root.toList

instance (first second : Service) : Decidable (first.Apart second) :=
  inferInstanceAs (Decidable (_ ∧ _))

theorem fullKey_toList (service : Service) (request : CheckRequest) :
    (service.fullKey request).toList =
      service.root.toList ++ request.clientId.toList ++ '/' :: request.resource.toList := by
  simp [fullKey, root, EtcdStore.fullKey, CheckRequest.key, CheckLoop.key, toString]

theorem exists_common_key {first second : Service}
    (starts : first.root.toList <+: second.root.toList) :
    ∃ request other, first.fullKey request = second.fullKey other := by
  rcases starts with ⟨rest, isRoot⟩
  refine ⟨⟨String.ofList rest, "", 1⟩, ⟨"", "", 1⟩, ?_⟩
  apply String.toList_injective
  rw [fullKey_toList, fullKey_toList, ← isRoot]
  simp

/-- Two services never use the same key just if they are apart. -/
theorem apart_iff (first second : Service) :
    first.Apart second ↔ ∀ request other, first.fullKey request ≠ second.fullKey other := by
  constructor
  · intro apart request other same
    have letters := congrArg String.toList same
    rw [fullKey_toList, fullKey_toList] at letters
    have startsFirst : first.root.toList <+: (first.fullKey request).toList := by
      rw [fullKey_toList, List.append_assoc]
      exact List.prefix_append _ _
    have startsSecond : second.root.toList <+: (first.fullKey request).toList := by
      rw [same, fullKey_toList, List.append_assoc]
      exact List.prefix_append _ _
    rcases List.prefix_or_prefix_of_prefix startsFirst startsSecond with starts | starts
    · exact apart.1 starts
    · exact apart.2 starts
  · intro different
    constructor
    · intro starts
      rcases exists_common_key starts with ⟨request, other, same⟩
      exact different request other same
    · intro starts
      rcases exists_common_key starts with ⟨other, request, same⟩
      exact different request other same.symm

end Service

/-! ## What a service asks of etcd -/

section Asks

variable {loop : CheckLoop} {json : SerdeJson loop.State} {store : EtcdStore}

/-- What the tasks of a service may do: of the keys in etcd they write their own. -/
def OwnKeys (loop : CheckLoop) (store : EtcdStore) (κ : Type) :
    ((checkInterface loop.Time Etcd.interface).sum (networkInterface κ)).Op → Prop
  | .inl (.store op) => ∀ key, op.target? = some key →
      ∃ request : CheckRequest, key = store.fullKey (request.key loop)
  | _ => True

theorem retry_only (κ : Type) (request : CheckRequest) (attempts : Nat) :
    (loop.retry json store.stateStore (request.key loop) request.cost attempts).Only
      fun op => OwnKeys loop store κ (.inl op) := by
  induction attempts with
  | zero => exact .pure _
  | succ attempts induction =>
      rw [CheckLoop.retry_etcd]
      apply Program.Only.request trivial
      intro now
      apply Program.Only.request (fun key isTarget => nomatch isTarget)
      intro response
      apply Program.Only.request
      · rintro key ⟨⟩
        exact ⟨request, rfl⟩
      · intro answer
        rw [CheckLoop.etcdAnswered]
        split
        · exact .pure _
        · exact .request (fun key isTarget => nomatch isTarget) fun _ => induction

theorem Program.Only.onLeft {I J : Interface} {α : Type} {Allowed : (I.sum J).Op → Prop}
    {program : Program I α} (only : program.Only fun op => Allowed (.inl op)) :
    (program.onLeft J).Only Allowed := by
  induction only with
  | pure value => exact .pure value
  | request allowed _ induction => exact .request allowed induction

theorem Program.only_implement {I J : Interface} {Request Response α : Type}
    {Allowed : (I.sum J).Op → Prop} {implementation : Request → Program I Response}
    (calls : ∀ request, (implementation request).Only fun op => Allowed (.inl op))
    (others : ∀ op, Allowed (.inr op))
    (program : Program ((callInterface Request Response).sum J) α) :
    (program.implement implementation).Only Allowed := by
  induction program with
  | pure value => exact .pure value
  | request op next induction =>
      cases op with
      | inl request => exact (calls request).onLeft.bind induction
      | inr op => exact .request (others op) induction

end Asks

/-! ## One etcd -/

section Sharing

variable {σ : Type} (services : σ → Service) (κ : σ → Type) [∀ s, DecidableEq (κ s)]

/-- Each service has clocks and peers of its own; etcd they share. -/
def serviceSharing : Sharing fun s =>
    (sharedMachine (services s).loop.Time).sum (network (κ s)) where
  Shared := Etcd
  Private s := (services s).loop.Time × (κ s → Bytes)
  Choice := RpcOutcome × Circumstances
  Move s := (services s).loop.Time
  choice _ decided := decided
  world _ own server := (⟨own.1, server⟩, own.2)
  mine _ whole := (whole.1.clock, whole.2)
  common _ whole := whole.1.store
  move _ now := .inl (.clock now)
  seen _ _ op decided :=
    match op with
    | .inl (.store op) => some (.inl (.rpc fun server => (Etcd.perform op decided.1 server).2))
    | _ => none
  world_mine _ _ := rfl
  common_move _ _ _ _ := rfl
  seen_perform s t op decided own other server := by
    rcases op with (op | op) | op <;> rfl

variable {κ} (rust : Library) (hmacSha256 : (key message : Bytes) → Bytes)
  (tasks : ∀ s, κ s → ServerTask) (start : ∀ s, (services s).loop.Time) (server : Etcd)

def Service.deployment (service : Service) {ι : Type} [DecidableEq ι]
    (tasks : ι → ServerTask) (start : service.loop.Time) :
    Config ((sharedMachine service.loop.Time).sum (network ι)) ι TaskResult :=
  deploymentSystem service.loop service.json service.store rust hmacSha256
    service.hmacSecret tasks start server

def servicesSystem [DecidableEq σ] :
    Config (serviceSharing services κ).machine (Σ s, κ s) TaskResult where
  world := (fun s => (start s, fun _ => []), server)
  threads task := (((services task.1).deployment rust hmacSha256 server (tasks task.1)
    (start task.1)).threads task.2).inject task.1
  trace := []

variable {services}

theorem Service.Apart.keepsAway {s t : σ} (apart : (services t).Apart (services s))
    {op : ((checkInterface (services t).loop.Time Etcd.interface).sum
      (networkInterface (κ t))).Op}
    (own : OwnKeys (services t).loop (services t).store (κ t) op)
    {decided : RpcOutcome × Circumstances} {change : EtcdChange (services s).loop.Time}
    (seen : (serviceSharing services κ).seen s t op decided = some (.inl change)) :
    KeepsAway (services s).loop (services s).store change := by
  intro effect isRpc server numbered fits
  subst isRpc
  rcases op with (op | op) | op
  · cases seen
  · cases seen
    refine ⟨numbered.follows fits op decided.1, fun request => ?_⟩
    apply server.perform_kvs_of_ne
    intro isTarget
    rcases own _ isTarget with ⟨other, same⟩
    exact ((services t).apart_iff (services s)).mp apart other request same.symm
  · cases seen

end Sharing

end RateLimiting
