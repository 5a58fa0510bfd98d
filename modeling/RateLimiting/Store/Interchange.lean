import RateLimiting.Foundation.MachineNumber
import RateLimiting.Store.Lawful

/-! # The two stores side by side

The same calls are made to an in-process store and to etcd. A caller passes to
each store the versions that this store handed out; a call names a version by
its position among those handed out so far. -/

namespace RateLimiting

inductive StoreCall (Version : Type)
  | get (key : String)
  | put (key : String) (value : Bytes)
  | cas (key : String) (expected : Option Version) (value : Bytes)
deriving DecidableEq

inductive Observation
  | found (value : Option Bytes)
  | written
  | swapped (success : Bool)
deriving DecidableEq

def StateStore.serve {I : Interface} (store : StateStore I) (m : Machine I)
    (choice : m.Choice) (world : m.World) :
    StoreCall Int64 → (Observation × Option Int64) × m.World
  | .get key =>
      let (entry, after) := (store.get key).run m choice world
      ((.found (entry.map Prod.fst), entry.map Prod.snd), after)
  | .put key value =>
      let (version, after) := (store.put key value).run m choice world
      ((.written, some version), after)
  | .cas key expected value =>
      let (result, after) := (store.cas key expected value).run m choice world
      ((.swapped result.success, some result.version), after)

/-- The two stores and the pairs of corresponding versions that they have handed
out. -/
structure Parallel where
  left : LocalStore
  right : Etcd
  versions : List (Int64 × Int64)

namespace Parallel

/-- The versions that a call expects; a position that is not there is `None`. -/
def expected (state : Parallel) (position : Option Nat) : Option (Int64 × Int64) :=
  position.bind fun index => state.versions[index]?

def resolve (state : Parallel) (side : Int64 × Int64 → Int64) :
    StoreCall Nat → StoreCall Int64
  | .get key => .get key
  | .put key value => .put key value
  | .cas key position value => .cas key ((state.expected position).map side) value

def step (store : EtcdStore) (state : Parallel) (call : StoreCall Nat) :
    (Observation × Observation) × Parallel :=
  let ((leftSeen, leftVersion), left) := LocalStore.stateStore.serve
    LocalStore.machine () state.left (state.resolve Prod.fst call)
  let ((rightSeen, rightVersion), right) := store.stateStore.serve
    Etcd.machine .ok state.right (state.resolve Prod.snd call)
  let handedOut := match leftVersion, rightVersion with
    | some leftVersion, some rightVersion => [(leftVersion, rightVersion)]
    | _, _ => []
  ((leftSeen, rightSeen),
    { left := left, right := right, versions := state.versions ++ handedOut })

def run (store : EtcdStore) : Parallel → List (StoreCall Nat) →
    List (Observation × Observation)
  | _, [] => []
  | state, call :: rest =>
      (step store state call).1 :: run store (step store state call).2 rest

def start (server : Etcd) : Parallel where
  left := .new
  right := server
  versions := []

/-- A call that expects version zero of an absent key: the version that a failed
compare-and-swap hands out when there is none. -/
def ExpectsZeroOfAbsent (state : Parallel) : StoreCall Nat → Prop
  | .cas key position _ =>
      (state.expected position).map Prod.fst = some 0 ∧ state.left.state key = none
  | _ => False

def Avoids (store : EtcdStore) : Parallel → List (StoreCall Nat) → Prop
  | _, [] => True
  | state, call :: rest =>
      ¬ state.ExpectsZeroOfAbsent call ∧ Avoids store (step store state call).2 rest

/-! ## What a call does to both stores -/

def wrote (store : EtcdStore) (state : Parallel) (key : String) (value : Bytes) :
    Parallel where
  left := ⟨Function.update state.left.state key (some (value, state.left.counter)),
    state.left.counter + 1⟩
  right := state.right.put (store.fullKey key) value
  versions := state.versions ++ [(state.left.counter, state.right.revision + 1)]

section Step

variable (store : EtcdStore) (state : Parallel) (key : String) (value : Bytes)
  (position : Option Nat)

theorem step_get : step store state (.get key) =
    ((.found ((state.left.state key).map Prod.fst),
        .found ((store.lookup state.right key).map Prod.fst)),
      { state with versions := state.versions ++
          match (state.left.state key).map Prod.snd,
            (store.lookup state.right key).map Prod.snd with
          | some left, some right => [(left, right)]
          | _, _ => [] }) := by
  have read := store.lawful.get_run state.right key
  simp only [step, resolve, StateStore.serve]
  rw [read]
  rfl

theorem step_put : step store state (.put key value) =
    ((.written, .written), state.wrote store key value) := rfl

theorem step_cas : step store state (.cas key position value) =
    let left := state.left.cas key ((state.expected position).map Prod.fst) value
    let right := (store.cas key ((state.expected position).map Prod.snd) value).run
      Etcd.machine .ok state.right
    ((.swapped left.1.success, .swapped right.1.success),
      { left := left.2
        right := right.2
        versions := state.versions ++ [(left.1.version, right.1.version)] }) := rfl

variable {position}

theorem step_cas_accepted
    (left : state.left.accepts key ((state.expected position).map Prod.fst) = true)
    (right : state.right.compare (EtcdStore.condition (store.fullKey key)
      ((state.expected position).map Prod.snd)) = true) :
    step store state (.cas key position value) =
      ((.swapped true, .swapped true), state.wrote store key value) := by
  rw [step_cas, LocalStore.cas_of_accepts _ _ _ _ left,
    store.cas_run_of_holds _ _ _ _ right]
  rfl

theorem step_cas_rejected
    (left : state.left.accepts key ((state.expected position).map Prod.fst) = false)
    (right : state.right.compare (EtcdStore.condition (store.fullKey key)
      ((state.expected position).map Prod.snd)) = false) :
    step store state (.cas key position value) =
      ((.swapped false, .swapped false),
        { state with versions := state.versions ++
            [(((state.left.state key).map Prod.snd).getD 0,
              ((store.lookup state.right key).map Prod.snd).getD 0)] }) := by
  rw [step_cas, LocalStore.cas_of_not_accepts _ _ _ _ left,
    store.cas_run_of_fails _ _ _ _ right]

end Step

/-! ## Matching states -/

inductive Corresponds (versions : List (Int64 × Int64)) :
    Option (Bytes × Int64) → Option KeyValue → Prop
  | absent : Corresponds versions none none
  | present (value : Bytes) (version : Int64) (kv : KeyValue)
      (sameValue : kv.value = value) (created : 0 < kv.createRevision.toInt)
      (issued : (version, kv.modRevision) ∈ versions) :
      Corresponds versions (some (value, version)) (some kv)

theorem Corresponds.mono {versions more : List (Int64 × Int64)}
    (included : ∀ pair ∈ versions, pair ∈ more) {left : Option (Bytes × Int64)}
    {right : Option KeyValue} (same : Corresponds versions left right) :
    Corresponds more left right := by
  cases same with
  | absent => exact .absent
  | present value version kv sameValue created issued =>
      exact .present value version kv sameValue created (included _ issued)

theorem Corresponds.eq_none {versions : List (Int64 × Int64)} {right : Option KeyValue}
    (same : Corresponds versions none right) : right = none := by
  cases same
  rfl

theorem Corresponds.eq_some {versions : List (Int64 × Int64)}
    {found : Bytes × Int64} {right : Option KeyValue}
    (same : Corresponds versions (some found) right) :
    ∃ kv, right = some kv ∧ kv.value = found.1 ∧ 0 < kv.createRevision.toInt ∧
      (found.2, kv.modRevision) ∈ versions := by
  cases same with
  | present value version kv sameValue created issued =>
      exact ⟨kv, rfl, sameValue, created, issued⟩

/-- The versions that were handed out name the same writes on both sides, with
zero for no write, and both counters are ahead of them. -/
structure Matched (store : EtcdStore) (remaining : Nat) (state : Parallel) : Prop where
  counter : 0 < state.left.counter.toInt
  counterFits : state.left.counter.toInt + remaining < 2 ^ 63
  revision : 0 < state.right.revision.toInt
  revisionFits : state.right.revision.toInt + remaining < 2 ^ 63
  entries : ∀ key, Corresponds state.versions (state.left.state key)
    (state.right.kvs (store.fullKey key))
  issued : ∀ pair ∈ state.versions, pair = (0, 0) ∨
    (0 < pair.1.toInt ∧ pair.1.toInt < state.left.counter.toInt ∧
      0 < pair.2.toInt ∧ pair.2.toInt ≤ state.right.revision.toInt)
  unique : ∀ first ∈ state.versions, ∀ second ∈ state.versions,
    first.1 = second.1 ↔ first.2 = second.2

namespace Matched

variable {store : EtcdStore} {remaining : Nat} {state : Parallel}

theorem start {server : Etcd}
    (absent : ∀ key, server.kvs (store.fullKey key) = none)
    (revision : 0 < server.revision.toInt)
    (fits : server.revision.toInt + remaining < 2 ^ 63) :
    Matched store remaining (Parallel.start server) where
  counter := (by decide : 0 < (1 : Int64).toInt)
  counterFits := by
    have one : (Parallel.start server).left.counter.toInt = 1 := rfl
    omega
  revision := revision
  revisionFits := fits
  entries key := by
    rw [Parallel.start, absent key]
    exact .absent
  issued := by simp [Parallel.start]
  unique := by simp [Parallel.start]

theorem lookup_corresponds (matched : Matched store remaining state) (key : String) :
    (store.lookup state.right key).map Prod.fst =
        (state.left.state key).map Prod.fst ∧
      ((state.left.state key).map Prod.snd = none ∧
          (store.lookup state.right key).map Prod.snd = none ∨
        ∃ pair ∈ state.versions, (state.left.state key).map Prod.snd = some pair.1 ∧
          (store.lookup state.right key).map Prod.snd = some pair.2) := by
  have entry := matched.entries key
  unfold EtcdStore.lookup
  cases left : state.left.state key with
  | none =>
      rw [left] at entry
      simp [entry.eq_none]
  | some found =>
      rw [left] at entry
      rcases entry.eq_some with ⟨kv, right, sameValue, _, issued⟩
      rw [right]
      exact ⟨by simp [sameValue], .inr ⟨_, issued, rfl, rfl⟩⟩

theorem created (matched : Matched store remaining state) {key : String}
    {kv : KeyValue} (stored : state.right.kvs (store.fullKey key) = some kv) :
    0 < kv.createRevision.toInt := by
  have entry := matched.entries key
  rw [stored] at entry
  generalize state.left.state key = left at entry
  cases entry with
  | present _ _ _ _ created => exact created

theorem expected_mem {position : Option Nat} {pair : Int64 × Int64}
    (known : state.expected position = some pair) : pair ∈ state.versions := by
  rcases Option.bind_eq_some_iff.mp known with ⟨index, _, found⟩
  exact List.mem_of_getElem? found

theorem fst_eq_zero_iff (matched : Matched store remaining state)
    {pair : Int64 × Int64} (member : pair ∈ state.versions) :
    pair.1 = 0 ↔ pair.2 = 0 := by
  rcases matched.issued pair member with rfl | ⟨leftPositive, _, rightPositive, _⟩
  · simp
  · have zero : (0 : Int64).toInt = 0 := rfl
    constructor
    · intro isZero
      rw [isZero, zero] at leftPositive
      omega
    · intro isZero
      rw [isZero, zero] at rightPositive
      omega

theorem accepts_iff_compare (matched : Matched store remaining state) (key : String)
    (position : Option Nat)
    (avoids : ¬ ((state.expected position).map Prod.fst = some 0 ∧
      state.left.state key = none)) :
    state.left.accepts key ((state.expected position).map Prod.fst) = true ↔
      state.right.compare (EtcdStore.condition (store.fullKey key)
        ((state.expected position).map Prod.snd)) = true := by
  have entry := matched.entries key
  rw [LocalStore.accepts_iff]
  cases left : state.left.state key with
  | none =>
      rw [left] at entry avoids
      have right := entry.eq_none
      cases known : state.expected position with
      | none => simp [EtcdStore.condition, Etcd.compare, right]
      | some pair =>
          have nonzero : pair.2 ≠ 0 := by
            rw [← (matched.fst_eq_zero_iff (expected_mem known)).ne]
            intro isZero
            exact avoids ⟨by simp [known, isZero], rfl⟩
          simpa [EtcdStore.condition, Etcd.compare, right] using Ne.symm nonzero
  | some found =>
      rw [left] at entry
      rcases entry.eq_some with ⟨kv, right, _, created, issued⟩
      cases known : state.expected position with
      | none =>
          have nonzero : kv.createRevision ≠ 0 := by
            intro isZero
            simp [isZero] at created
          simpa [EtcdStore.condition, Etcd.compare, right] using nonzero
      | some pair =>
          have same := matched.unique pair (expected_mem known) _ issued
          simp only [EtcdStore.condition, Etcd.compare, right, Option.map_some,
            Option.getD_some, Option.some.injEq, beq_iff_eq]
          exact same.trans eq_comm

theorem handOut (matched : Matched store (remaining + 1) state)
    {versions : List (Int64 × Int64)}
    (known : ∀ pair ∈ versions, pair ∈ state.versions ∨ pair = (0, 0)) :
    Matched store remaining { state with versions := state.versions ++ versions } := by
  have zero : ∀ pair ∈ state.versions ++ versions,
      pair ∈ state.versions ∨ pair = (0, 0) := by
    intro pair member
    rcases List.mem_append.mp member with member | member
    · exact .inl member
    · exact known pair member
  have counterFits := matched.counterFits
  have revisionFits := matched.revisionFits
  refine ⟨matched.counter, ?_, matched.revision, ?_, ?_, ?_, ?_⟩
  · change state.left.counter.toInt + remaining < 2 ^ 63
    omega
  · change state.right.revision.toInt + remaining < 2 ^ 63
    omega
  · exact fun key => (matched.entries key).mono fun _ => List.mem_append_left _
  · intro pair member
    rcases zero pair member with member | rfl
    · exact matched.issued pair member
    · exact .inl rfl
  · intro first firstMember second secondMember
    rcases zero first firstMember with firstKnown | rfl <;>
      rcases zero second secondMember with secondKnown | rfl
    · exact matched.unique first firstKnown second secondKnown
    · exact matched.fst_eq_zero_iff firstKnown
    · simpa [eq_comm] using matched.fst_eq_zero_iff secondKnown
    · simp

theorem toInt_next_counter (matched : Matched store (remaining + 1) state) :
    (state.left.counter + 1).toInt = state.left.counter.toInt + 1 := by
  have positive := matched.counter
  have fits := matched.counterFits
  exact toInt_succ_of_lt (by omega) (by omega)

theorem toInt_next_revision (matched : Matched store (remaining + 1) state) :
    (state.right.revision + 1).toInt = state.right.revision.toInt + 1 := by
  have positive := matched.revision
  have fits := matched.revisionFits
  exact toInt_succ_of_lt (by omega) (by omega)

theorem next_fresh (matched : Matched store (remaining + 1) state)
    {pair : Int64 × Int64} (member : pair ∈ state.versions) :
    pair.1 ≠ state.left.counter ∧ pair.2 ≠ state.right.revision + 1 := by
  have counter := matched.counter
  have revision := matched.revision
  have next := matched.toInt_next_revision
  rcases matched.issued pair member with rfl | ⟨_, below, _, upTo⟩
  · constructor
    · intro same
      simp [← same] at counter
    · intro same
      simp [← same] at next
      omega
  · constructor
    · intro same
      rw [same] at below
      exact lt_irrefl _ below
    · intro same
      rw [same] at upTo
      omega

theorem wrote_entries (matched : Matched store (remaining + 1) state) (key : String)
    (value : Bytes) (other : String) :
    Corresponds (state.wrote store key value).versions
      ((state.wrote store key value).left.state other)
      ((state.wrote store key value).right.kvs (store.fullKey other)) := by
  by_cases same : other = key
  · subst same
    have created : 0 < (((state.right.kvs (store.fullKey other)).map
        KeyValue.createRevision).getD (state.right.revision + 1)).toInt := by
      cases stored : state.right.kvs (store.fullKey other) with
      | none =>
          have revision := matched.revision
          rw [Option.map_none, Option.getD_none, matched.toInt_next_revision]
          omega
      | some kv => exact matched.created stored
    simp only [Parallel.wrote, Etcd.put, Function.update_self]
    exact .present value state.left.counter _ rfl created (by simp)
  · have entry := (matched.entries other).mono fun _ =>
      List.mem_append_left [(state.left.counter, state.right.revision + 1)]
    simpa [Parallel.wrote, Etcd.put, same, store.fullKey_injective.eq_iff] using entry

theorem wrote_unique (matched : Matched store (remaining + 1) state) (key : String)
    (value : Bytes) : ∀ first ∈ (state.wrote store key value).versions,
    ∀ second ∈ (state.wrote store key value).versions,
      first.1 = second.1 ↔ first.2 = second.2 := by
  intro first firstMember second secondMember
  rcases List.mem_append.mp firstMember with firstKnown | firstNew <;>
    rcases List.mem_append.mp secondMember with secondKnown | secondNew
  · exact matched.unique first firstKnown second secondKnown
  · have fresh := matched.next_fresh firstKnown
    rw [List.mem_singleton.mp secondNew]
    exact iff_of_false fresh.1 fresh.2
  · have fresh := matched.next_fresh secondKnown
    rw [List.mem_singleton.mp firstNew]
    exact iff_of_false fresh.1.symm fresh.2.symm
  · rw [List.mem_singleton.mp firstNew, List.mem_singleton.mp secondNew]
    simp

theorem wrote (matched : Matched store (remaining + 1) state) (key : String)
    (value : Bytes) : Matched store remaining (state.wrote store key value) := by
  have counter := matched.counter
  have revision := matched.revision
  have counterFits := matched.counterFits
  have revisionFits := matched.revisionFits
  have nextCounter : (state.wrote store key value).left.counter.toInt =
      state.left.counter.toInt + 1 := matched.toInt_next_counter
  have nextRevision : (state.wrote store key value).right.revision.toInt =
      state.right.revision.toInt + 1 := matched.toInt_next_revision
  refine ⟨by omega, by omega, by omega, by omega, matched.wrote_entries key value, ?_,
    matched.wrote_unique key value⟩
  intro pair member
  rw [nextCounter, nextRevision]
  rcases List.mem_append.mp member with member | member
  · rcases matched.issued pair member with zero | ⟨positive, below, rightPositive, upTo⟩
    · exact .inl zero
    · exact .inr ⟨positive, by omega, rightPositive, by omega⟩
  · have version := matched.toInt_next_revision
    rw [List.mem_singleton.mp member, version]
    exact .inr ⟨counter, lt_add_one _, by omega, le_refl _⟩

theorem step (matched : Matched store (remaining + 1) state) {call : StoreCall Nat}
    (avoids : ¬ state.ExpectsZeroOfAbsent call) :
    (Parallel.step store state call).1.1 = (Parallel.step store state call).1.2 ∧
      Matched store remaining (Parallel.step store state call).2 := by
  cases call with
  | get key =>
      rcases matched.lookup_corresponds key with ⟨sameValue, versions⟩
      rw [step_get]
      refine ⟨by rw [sameValue], matched.handOut ?_⟩
      intro pair member
      rcases versions with ⟨left, right⟩ | ⟨known, isKnown, left, right⟩
      · simp [left, right] at member
      · rw [left, right] at member
        exact .inl (List.mem_singleton.mp member ▸ isKnown)
  | put key value =>
      rw [step_put]
      exact ⟨rfl, matched.wrote key value⟩
  | cas key position value =>
      have agree := matched.accepts_iff_compare key position avoids
      cases left : state.left.accepts key ((state.expected position).map Prod.fst) with
      | true =>
          rw [step_cas_accepted store state key value left (agree.mp left)]
          exact ⟨rfl, matched.wrote key value⟩
      | false =>
          have right : state.right.compare (EtcdStore.condition (store.fullKey key)
              ((state.expected position).map Prod.snd)) = false := by
            rw [← Bool.not_eq_true, ← agree, left]
            exact Bool.false_ne_true
          rw [step_cas_rejected store state key value left right]
          refine ⟨rfl, matched.handOut ?_⟩
          intro pair member
          rw [List.mem_singleton.mp member]
          rcases (matched.lookup_corresponds key).2 with
            ⟨left, right⟩ | ⟨known, isKnown, left, right⟩
          · simp [left, right]
          · rw [left, right]
            exact .inl isKnown

theorem step_differs (matched : Matched store remaining state) {call : StoreCall Nat}
    (zero : state.ExpectsZeroOfAbsent call) :
    (Parallel.step store state call).1.1 ≠ (Parallel.step store state call).1.2 := by
  cases call with
  | get key => exact zero.elim
  | put key value => exact zero.elim
  | cas key position value =>
      rcases zero with ⟨isZero, absent⟩
      rcases Option.map_eq_some_iff.mp isZero with ⟨pair, known, leftZero⟩
      have rightZero := (matched.fst_eq_zero_iff (expected_mem known)).mp leftZero
      have entry := matched.entries key
      rw [absent] at entry
      have stored := entry.eq_none
      have left : state.left.accepts key ((state.expected position).map Prod.fst) =
          false := by
        simp [LocalStore.accepts, known, absent]
      have right : state.right.compare (EtcdStore.condition (store.fullKey key)
          ((state.expected position).map Prod.snd)) = true := by
        simp [known, EtcdStore.condition, Etcd.compare, stored, rightZero]
      rw [step_cas, LocalStore.cas_of_not_accepts _ _ _ _ left,
        store.cas_run_of_holds _ _ _ _ right]
      simp

end Matched

/-- From matching states the runs agree exactly as long as no call expects version
zero of an absent key. -/
theorem agree_iff_avoids {store : EtcdStore} {state : Parallel}
    (calls : List (StoreCall Nat)) (matched : Matched store calls.length state) :
    (∀ pair ∈ run store state calls, pair.1 = pair.2) ↔ Avoids store state calls := by
  induction calls generalizing state with
  | nil => simp [run, Avoids]
  | cons call rest induction =>
      rw [run, List.forall_mem_cons, Avoids]
      by_cases zero : state.ExpectsZeroOfAbsent call
      · exact iff_of_false (fun agree => matched.step_differs zero agree.1)
          (fun avoids => avoids.1 zero)
      · rcases matched.step zero with ⟨same, after⟩
        rw [induction after]
        exact ⟨fun agree => ⟨zero, agree.2⟩, fun avoids => ⟨same, avoids.2⟩⟩

end Parallel

/-- A fresh in-process store and an etcd with nothing under its prefix answer
every run alike exactly when no compare-and-swap in it expects version zero of an
absent key. -/
theorem stores_interchangeable_iff (store : EtcdStore) (server : Etcd)
    (absent : ∀ key, server.kvs (store.fullKey key) = none)
    (started : 0 < server.revision.toInt) (calls : List (StoreCall Nat))
    (bounded : server.revision.toInt + calls.length < 2 ^ 63) :
    (∀ pair ∈ Parallel.run store (Parallel.start server) calls, pair.1 = pair.2) ↔
      Parallel.Avoids store (Parallel.start server) calls :=
  Parallel.agree_iff_avoids calls (.start absent started bounded)

theorem stores_interchangeable_retry :
    let calls : List (StoreCall Nat) :=
      [.put "k" [1], .cas "k" none [2], .cas "k" (some 1) [3], .get "k"]
    (∀ pair ∈ Parallel.run ⟨"/p"⟩ (Parallel.start ⟨fun _ => none, 1⟩) calls,
        pair.1 = pair.2) ↔
      Parallel.Avoids ⟨"/p"⟩ (Parallel.start ⟨fun _ => none, 1⟩) calls :=
  stores_interchangeable_iff ⟨"/p"⟩ ⟨fun _ => none, 1⟩ (fun _ => rfl) (by decide) _
    (by decide)

/-- The version of another key conflicts with an absent one and hands out zero,
with which etcd creates the key. -/
theorem zero_version_creates_in_etcd_only :
    let observations := Parallel.run ⟨"/p"⟩ (Parallel.start ⟨fun _ => none, 1⟩)
      [.put "a" [1], .cas "b" (some 0) [2], .cas "b" (some 1) [3]]
    observations = [(.written, .written), (.swapped false, .swapped false),
        (.swapped false, .swapped true)] ∧
      ¬ ∀ pair ∈ observations, pair.1 = pair.2 := by
  decide +kernel

end RateLimiting
