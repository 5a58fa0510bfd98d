import RateLimiting.Sequential
import RateLimiting.Store.Json

/-! # Isolation of clients and resources

Calls share a state exactly when they share a key. The key joins its parts with
a separator that the parts may contain, so two different clients can meet. -/

namespace RateLimiting

def Arrival.subject {loop : CheckLoop} (arrival : Arrival loop) : String × String :=
  (arrival.request.clientId, arrival.request.resource)

namespace CheckLoop

variable {loop : CheckLoop} (json : SerdeJson loop.State) {I : Interface}
  (backend : LawfulStore I)

/-- The decisions that the calls of one client and resource get in a run. -/
def decisionsFor (subject : String × String) (calls : List (Arrival loop))
    (world : backend.machine.World) : List Decision :=
  ((calls.zip (loop.runCalls json backend calls world).1).filter
    fun served => served.1.subject = subject).map Prod.snd

end CheckLoop

namespace Table

variable {loop : CheckLoop} (json : SerdeJson loop.State)

def decisionsFor (subject : String × String) (calls : List (Arrival loop))
    (table : Table) : List Decision :=
  ((calls.zip (table.serveAll json calls).1).filter
    fun served => served.1.subject = subject).map Prod.snd

@[simp] theorem decisionsFor_nil (subject : String × String) (table : Table) :
    decisionsFor json subject [] table = [] := rfl

theorem decisionsFor_cons (subject : String × String) (arrival : Arrival loop)
    (rest : List (Arrival loop)) (table : Table) :
    decisionsFor json subject (arrival :: rest) table =
      (if arrival.subject = subject then [(table.serve json arrival).1] else []) ++
        decisionsFor json subject rest (table.serve json arrival).2 := by
  by_cases same : arrival.subject = subject <;> simp [decisionsFor, same]

theorem decisionsFor_filter {subject other : String × String}
    (apart : loop.key subject.1 subject.2 ≠ loop.key other.1 other.2)
    (calls : List (Arrival loop)) {left right : Table}
    (same : left (loop.key subject.1 subject.2) =
      right (loop.key subject.1 subject.2)) :
    decisionsFor json subject calls left =
      decisionsFor json subject (calls.filter (·.subject ≠ other)) right := by
  induction calls generalizing left right with
  | nil => rfl
  | cons arrival rest induction =>
      by_cases isOther : arrival.subject = other
      · have elsewhere : loop.key subject.1 subject.2 ≠ arrival.key := by
          rw [← isOther] at apart
          exact apart
        have notSubject : arrival.subject ≠ subject := by
          rintro rfl
          exact elsewhere rfl
        rw [decisionsFor_cons, if_neg notSubject, List.nil_append,
          List.filter_cons_of_neg (by simpa using isOther)]
        exact induction ((left.serve_other json arrival elsewhere).trans same)
      · have after : (left.serve json arrival).2 (loop.key subject.1 subject.2) =
            (right.serve json arrival).2 (loop.key subject.1 subject.2) := by
          by_cases shared : loop.key subject.1 subject.2 = arrival.key
          · rw [shared] at same ⊢
            exact serve_key_congr json same
          · rw [serve_other json _ _ shared, serve_other json _ _ shared, same]
        rw [List.filter_cons_of_pos (by simpa using isOther), decisionsFor_cons,
          decisionsFor_cons, induction after]
        by_cases isSubject : arrival.subject = subject
        · subst isSubject
          rw [serve_decision_congr json same]
        · simp [isSubject]

end Table

theorem CheckLoop.decisionsFor_eq {loop : CheckLoop} (json : SerdeJson loop.State)
    {I : Interface} (backend : LawfulStore I) (subject : String × String)
    (calls : List (Arrival loop)) (world : backend.machine.World) :
    decisionsFor json backend subject calls world =
      Table.decisionsFor json subject calls (backend.contents world) := by
  rw [decisionsFor, (runCalls_refines json backend calls world).1]
  rfl

/-- Two sequential runs from the same store that differ only in the calls for
`other` give the calls for `subject` the same decisions. -/
def Isolated (algorithm : Algorithm) (subject other : String × String) : Prop :=
  ∀ config : RateLimiterConfig, config.algorithm = algorithm →
  ∀ (json : SerdeJson config.limiter.State) {I : Interface}
    (backend : LawfulStore I) (world : backend.machine.World)
    (left right : List (Arrival config.limiter)),
    left.filter (·.subject ≠ other) = right.filter (·.subject ≠ other) →
    CheckLoop.decisionsFor json backend subject left world =
      CheckLoop.decisionsFor json backend subject right world

theorem isolated_of_apart (algorithm : Algorithm) {subject other : String × String}
    (apart : s!"{subject.1}/{subject.2}" ≠ s!"{other.1}/{other.2}") :
    Isolated algorithm subject other := by
  intro config _ json I backend world left right same
  have keys : config.limiter.key subject.1 subject.2 ≠
      config.limiter.key other.1 other.2 :=
    mt (config.limiter.key_eq_iff subject other).mp apart
  rw [CheckLoop.decisionsFor_eq, CheckLoop.decisionsFor_eq,
    Table.decisionsFor_filter json keys left rfl,
    Table.decisionsFor_filter json keys right rfl, same]

theorem not_isolated_of_shared (config : RateLimiterConfig)
    (json : SerdeJson config.limiter.State) (now : config.limiter.Time)
    {subject other : String × String}
    (shared : s!"{subject.1}/{subject.2}" = s!"{other.1}/{other.2}")
    (changes : (config.limiter.step now (config.limiter.fresh now) 1).2 ≠
      (config.limiter.step now
        (config.limiter.step now (config.limiter.fresh now) 1).1 1).2) :
    ¬ Isolated config.algorithm subject other := by
  intro isolated
  let call : String × String → Arrival config.limiter := fun caller =>
    ⟨now, ⟨caller.1, caller.2, 1⟩⟩
  have keys : (call subject).key = (call other).key :=
    (config.limiter.key_eq_iff subject other).mpr shared
  have callSubject : ∀ caller, (call caller).subject = caller := fun _ => rfl
  have same := isolated config rfl json LocalStore.lawful LocalStore.new
    [call subject] [call other, call subject]
    (by simp [callSubject])
  rw [CheckLoop.decisionsFor_eq, CheckLoop.decisionsFor_eq] at same
  have empty : LocalStore.lawful.contents LocalStore.new = fun _ => none := rfl
  by_cases equal : other = subject
  · have lengths := congrArg List.length same
    simp [Table.decisionsFor_cons, callSubject, equal] at lengths
  · rw [empty, Table.decisionsFor_cons, Table.decisionsFor_cons,
      Table.decisionsFor_cons, callSubject, callSubject, if_pos rfl, if_neg equal]
      at same
    simp [Table.serve, Table.state, keys, call] at same
    exact changes same

/-- The calls for two pairs are isolated from each other exactly when the pairs
do not run together around the separator. -/
theorem isolated_iff (algorithm : Algorithm) (subject other : String × String) :
    Isolated algorithm subject other ↔
      s!"{subject.1}/{subject.2}" ≠ s!"{other.1}/{other.2}" := by
  refine ⟨fun isolated shared => ?_, isolated_of_apart algorithm⟩
  cases algorithm with
  | fixedWindow =>
      exact not_isolated_of_shared ⟨.fixedWindow, 1, 1, 1, 1, 1, 1⟩
        Json.fixedWindow (0 : UInt64) shared (by decide +kernel) isolated
  | slidingWindowLog =>
      exact not_isolated_of_shared ⟨.slidingWindowLog, 1, 1, 1, 1, 1, 1⟩
        Json.slidingWindowLog (⟨0, by decide⟩ : Millis) shared (by decide +kernel)
        isolated
  | slidingWindowCounter =>
      exact not_isolated_of_shared ⟨.slidingWindowCounter, 1, 1, 1, 1, 1, 1⟩
        Json.slidingWindowCounter (0 : UInt64) shared (by decide +kernel) isolated
  | tokenBucket =>
      exact not_isolated_of_shared ⟨.tokenBucket, 1, 1, 1, 1, 1, 1⟩
        Json.tokenBucket (⟨0, by decide⟩ : Millis) shared (by decide +kernel)
        isolated
  | leakyBucket =>
      exact not_isolated_of_shared ⟨.leakyBucket, 1, 1, 1, 1, 1, 1⟩
        Json.leakyBucket (⟨0, by decide⟩ : Millis) shared (by decide +kernel)
        isolated

/-- A check of one pair is denied after a check of another. -/
theorem slash_in_client_not_isolated :
    ("alice", "/admin") ≠ ("alice/", "admin") ∧
      ¬ Isolated .fixedWindow ("alice", "/admin") ("alice/", "admin") := by
  refine ⟨by decide, fun isolated => ?_⟩
  have same := isolated ⟨.fixedWindow, 1, 1, 1, 1, 1, 1⟩ rfl Json.fixedWindow
    LocalStore.lawful LocalStore.new
    [⟨(0 : UInt64), ⟨"alice", "/admin", 1⟩⟩]
    [⟨(0 : UInt64), ⟨"alice/", "admin", 1⟩⟩, ⟨(0 : UInt64), ⟨"alice", "/admin", 1⟩⟩]
    rfl
  revert same
  decide +kernel

end RateLimiting
