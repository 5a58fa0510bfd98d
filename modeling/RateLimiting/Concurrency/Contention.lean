import Mathlib.Data.Finset.Card
import RateLimiting.Concurrency.Serializability
import RateLimiting.Config

/-! # Giving up needs contention

A compare-and-swap of a check fails only if the entry that it read has been
replaced, and only another check can have done that. A check writes once, so the
five failures of a check that gives up are due to five others. -/

namespace RateLimiting

namespace LocalTrace

variable {loop : CheckLoop} {ι : Type} [DecidableEq ι]

def isGet (event : Event (localMachine loop) ι) : Bool :=
  match event.op with
  | .store (.get _) => true
  | _ => false

def isCas (event : Event (localMachine loop) ι) : Bool :=
  match event.op with
  | .store (.cas _ _ _) => true
  | _ => false

def hasRead (call : ι) (trace : LocalTrace loop ι) : Bool :=
  trace.any fun event => event.thread = call ∧ isGet event

def SameKey (loop : CheckLoop) (request : ι → CheckRequest) (call other : ι) : Prop :=
  other ≠ call ∧ (request other).key loop = (request call).key loop

instance (request : ι → CheckRequest) (call other : ι) :
    Decidable (SameKey loop request call other) :=
  inferInstanceAs (Decidable (_ ∧ _))

variable (request : ι → CheckRequest)

/-- A successful compare-and-swap by another call on the key of a call. -/
def isRival (call : ι) (event : Event (localMachine loop) ι) : Bool :=
  SameKey loop request call event.thread ∧
    (write? event).any fun write => write.2.1 = (request call).key loop

/-- The other calls that have written since the first read of a call. -/
def rivals (call : ι) : LocalTrace loop ι → List ι
  | [] => []
  | event :: older =>
      if hasRead call older ∧ isRival request call event
      then event.thread :: rivals call older else rivals call older

/-- Those of them that wrote before the last compare-and-swap of the call. -/
def contenders (call : ι) : LocalTrace loop ι → List ι
  | [] => []
  | event :: older =>
      if event.thread = call ∧ isCas event then rivals request call older
      else contenders call older

/-- The other calls on the key that have performed an operation since the first
operation of a call. -/
def companions (call : ι) : LocalTrace loop ι → List ι
  | [] => []
  | event :: older =>
      if (older.any fun earlier => earlier.thread = call) ∧
          SameKey loop request call event.thread
      then event.thread :: companions call older else companions call older

/-- Those of them that did so before the last operation of the call. -/
def overlapping (call : ι) : LocalTrace loop ι → List ι
  | [] => []
  | event :: older =>
      if event.thread = call then companions request call older
      else overlapping call older

variable {request} {call : ι}

variable (request call) in
theorem contenders_suffix (trace : LocalTrace loop ι) :
    contenders request call trace <:+ rivals request call trace := by
  induction trace with
  | nil => exact List.suffix_rfl
  | cons event older induction =>
      have grown : rivals request call older <:+
          rivals request call (event :: older) := by
        rw [rivals]
        split
        · exact List.suffix_cons _ _
        · exact List.suffix_rfl
      rw [contenders]
      split
      · exact grown
      · exact induction.trans grown

theorem sameKey_of_mem_rivals {trace : LocalTrace loop ι} {other : ι}
    (member : other ∈ rivals request call trace) :
    SameKey loop request call other := by
  induction trace with
  | nil => exact absurd member List.not_mem_nil
  | cons event older induction =>
      rw [rivals] at member
      split at member
      · next rival =>
          rcases List.mem_cons.mp member with rfl | earlier
          · exact (of_decide_eq_true rival.2).1
          · exact induction earlier
      · exact induction member

theorem companions_subset_cons (event : Event (localMachine loop) ι)
    (older : LocalTrace loop ι) :
    companions request call older ⊆ companions request call (event :: older) := by
  rw [companions]
  split
  · exact List.subset_cons_self _ _
  · exact List.Subset.refl _

theorem rivals_subset (trace : LocalTrace loop ι) :
    rivals request call trace ⊆ companions request call trace := by
  induction trace with
  | nil => exact List.Subset.refl _
  | cons event older induction =>
      rw [rivals]
      split
      · next rival =>
          rcases rival with ⟨read, isRival⟩
          have started : older.any (fun earlier => earlier.thread = call) = true := by
            rcases List.any_eq_true.mp read with ⟨earlier, member, isRead⟩
            exact List.any_eq_true.mpr
              ⟨earlier, member, decide_eq_true (of_decide_eq_true isRead).1⟩
          rw [companions, if_pos ⟨started, (of_decide_eq_true isRival).1⟩]
          exact List.cons_subset_cons _ induction
      · exact List.Subset.trans induction (companions_subset_cons event older)

theorem overlapping_subset (trace : LocalTrace loop ι) :
    overlapping request call trace ⊆ companions request call trace := by
  induction trace with
  | nil => exact List.Subset.refl _
  | cons event older induction =>
      rw [overlapping]
      split
      · exact companions_subset_cons event older
      · exact List.Subset.trans induction (companions_subset_cons event older)

theorem contenders_subset (trace : LocalTrace loop ι) :
    contenders request call trace ⊆ overlapping request call trace := by
  induction trace with
  | nil => exact List.Subset.refl _
  | cons event older induction =>
      rw [contenders, overlapping]
      by_cases own : event.thread = call
      · rw [if_pos own]
        split
        · exact rivals_subset older
        · exact List.Subset.trans induction (overlapping_subset older)
      · rw [if_neg own, if_neg fun both => own both.1]
        exact induction

theorem rivals_cons_of_not {event : Event (localMachine loop) ι}
    (other : isRival request call event = false) (older : LocalTrace loop ι) :
    rivals request call (event :: older) = rivals request call older :=
  if_neg fun both => by simp [other] at both

variable (request call) in
theorem rivals_cons_cases (event : Event (localMachine loop) ι)
    (older : LocalTrace loop ι) :
    rivals request call (event :: older) = rivals request call older ∨
      isRival request call event = true ∧
        rivals request call (event :: older) =
          event.thread :: rivals request call older := by
  by_cases rival : hasRead call older = true ∧ isRival request call event = true
  · exact .inr ⟨rival.2, if_pos rival⟩
  · exact .inl (if_neg rival)

theorem not_isRival_of_quiet {event : Event (localMachine loop) ι}
    (quiet : write? event = none) : isRival request call event = false := by
  simp [isRival, quiet]

theorem contenders_cons_of_not {event : Event (localMachine loop) ι}
    (other : ¬ (event.thread = call ∧ isCas event = true)) (older : LocalTrace loop ι) :
    contenders request call (event :: older) = contenders request call older :=
  if_neg other

theorem hasRead_cons {trace : LocalTrace loop ι} (read : hasRead call trace = true)
    (event : Event (localMachine loop) ι) : hasRead call (event :: trace) = true := by
  rw [hasRead, List.any_cons, Bool.or_eq_true]
  exact .inr read

end LocalTrace

/-! ## The invariant -/

open LocalTrace

section Invariant

variable {loop : CheckLoop} (json : SerdeJson loop.State) {ι : Type} [DecidableEq ι]
  (request : ι → CheckRequest)

/-- What is known of a call, with the writes that its failed passes are due to. A
loaded call fails next only if one more call has written. -/
def contention (config : Config (localMachine loop) ι Decision) (call : ι) :
    PassFacts loop where
  ready attempts := 5 ≤ attempts + (contenders request call config.trace).length
  clocked attempts _ := 4 ≤ attempts + (contenders request call config.trace).length
  loaded attempts _ entry := hasRead call config.trace = true ∧
    4 ≤ attempts + (rivals request call config.trace).length ∧
    (config.world.store.state ((request call).key loop) = entry ∨
      5 ≤ attempts + (rivals request call config.trace).length)
  returned decision := decision ≠ loop.fallback

structure Contended (config : Config (localMachine loop) ι Decision) (call : ι) :
    Prop where
  phase : LocalPhase json (contention request config call) (request call)
    (config.threads call)
  distinct : (rivals request call config.trace).Nodup
  done : ∀ other ∈ rivals request call config.trace,
    ∃ decision, config.threads other = .pure decision

/-- What an operation of a call does to the others: it writes nothing, or it
writes under its key and returns. -/
structure Performed (config after : Config (localMachine loop) ι Decision)
    (event : Event (localMachine loop) ι) : Prop where
  trace : after.trace = event :: config.trace
  running : ∀ decision, config.threads event.thread ≠ .pure decision
  others : ∀ other, other ≠ event.thread →
    after.threads other = config.threads other
  effect : (write? event = none ∧
      after.world.store.state = config.world.store.state) ∨
    ∃ value version, write? event =
        some (event.thread, (request event.thread).key loop, value) ∧
      after.world.store.state = Function.update config.world.store.state
        ((request event.thread).key loop) (some (value, version)) ∧
      ∃ decision, after.threads event.thread = .pure decision

variable {json request}

theorem Contended.initial (start : loop.Time) (call : ι) :
    Contended json request (localSystem loop json request start) call where
  phase := .ready 5 (Nat.le_add_right _ _) rfl
  distinct := List.nodup_nil
  done _ member := absurd member List.not_mem_nil

theorem Contended.not_mem_rivals {config after : Config (localMachine loop) ι Decision}
    {call : ι} (contended : Contended json request config call)
    {event : Event (localMachine loop) ι}
    (performed : Performed request config after event) :
    event.thread ∉ rivals request call config.trace := by
  intro member
  rcases contended.done event.thread member with ⟨decision, returned⟩
  exact performed.running decision returned

theorem Contended.grow {config after : Config (localMachine loop) ι Decision} {call : ι}
    (contended : Contended json request config call)
    {event : Event (localMachine loop) ι}
    (performed : Performed request config after event)
    (phase : LocalPhase json (contention request after call) (request call)
      (after.threads call)) :
    Contended json request after call := by
  have fresh := contended.not_mem_rivals performed
  have earlier : ∀ other ∈ rivals request call config.trace,
      ∃ decision, after.threads other = .pure decision := by
    intro other member
    have different : other ≠ event.thread := by
      rintro rfl
      exact fresh member
    rw [performed.others other different]
    exact contended.done other member
  rcases rivals_cons_cases request call event config.trace with
    same | ⟨rival, grown⟩
  · rw [← performed.trace] at same
    exact ⟨phase, same ▸ contended.distinct, same ▸ earlier⟩
  · rw [← performed.trace] at grown
    refine ⟨phase, grown ▸ List.nodup_cons.mpr ⟨fresh, contended.distinct⟩, ?_⟩
    rw [grown]
    intro other member
    rcases List.mem_cons.mp member with rfl | member
    · rcases performed.effect with ⟨quiet, -⟩ | ⟨_, _, _, _, returned⟩
      · rw [not_isRival_of_quiet quiet] at rival
        exact absurd rival Bool.false_ne_true
      · exact returned
    · exact earlier other member

theorem Performed.state_of_not_rival
    {config after : Config (localMachine loop) ι Decision}
    {event : Event (localMachine loop) ι}
    (performed : Performed request config after event) {call : ι}
    (other : event.thread ≠ call) (harmless : isRival request call event = false) :
    after.world.store.state ((request call).key loop) =
      config.world.store.state ((request call).key loop) := by
  rcases performed.effect with ⟨-, state⟩ | ⟨value, version, write, state, -⟩
  · rw [state]
  · rw [state]
    apply Function.update_of_ne
    intro sameKey
    have rival : isRival request call event = true := by
      simp [isRival, SameKey, write, other, sameKey]
    rw [harmless] at rival
    exact Bool.false_ne_true rival

theorem Contended.other {config after : Config (localMachine loop) ι Decision}
    {call : ι} (contended : Contended json request config call)
    {event : Event (localMachine loop) ι}
    (performed : Performed request config after event)
    (other : event.thread ≠ call) : Contended json request after call := by
  have program : after.threads call = config.threads call :=
    performed.others call (Ne.symm other)
  have sameContenders : contenders request call after.trace =
      contenders request call config.trace := by
    rw [performed.trace, contenders_cons_of_not fun both => other both.1]
  apply contended.grow performed
  rw [program]
  apply contended.phase.mono
  · intro attempts charged
    rw [contention, sameContenders]
    exact charged
  · intro attempts now charged
    rw [contention, sameContenders]
    exact charged
  · rintro attempts now entry ⟨read, charged, replaced⟩
    have readAfter : hasRead call after.trace = true :=
      performed.trace ▸ hasRead_cons read event
    cases rival : isRival request call event with
    | false =>
        have same : rivals request call after.trace =
            rivals request call config.trace := by
          rw [performed.trace, rivals_cons_of_not rival]
        refine ⟨readAfter, same ▸ charged, ?_⟩
        rw [performed.state_of_not_rival other rival, same]
        exact replaced
    | true =>
        have grown : rivals request call after.trace =
            event.thread :: rivals request call config.trace := by
          rw [performed.trace, rivals, if_pos ⟨read, rival⟩]
        have oneMore : 5 ≤ attempts + (rivals request call after.trace).length := by
          rw [grown, List.length_cons]
          omega
        exact ⟨readAfter, by omega, .inr oneMore⟩
  · exact fun _ ordinary => ordinary

section Own

variable {config : Config (localMachine loop) ι Decision} {call : ι}
  {op : (checkInterface loop.Time LocalStore.interface).Op}
  {next : (checkInterface loop.Time LocalStore.interface).Reply op →
    Program (checkInterface loop.Time LocalStore.interface) Decision}
  (asks : config.threads call = .request op next)

include asks

theorem Performed.of_move {facts : PassFacts loop}
    (move : LocalMove json facts (request call) op next) :
    Performed request config (config.advance (.step call ()))
      ⟨call, op, (), config.world⟩ where
  trace := by rw [Config.advance_of_request asks]
  running decision returned := by
    rw [asks] at returned
    cases returned
  others other different := by
    rw [Config.advance_of_request asks]
    exact Function.update_of_ne different _ _
  effect := by
    rw [Config.advance_of_request asks]
    cases move with
    | clock attempts known => exact .inl ⟨rfl, rfl⟩
    | read attempts now known => exact .inl ⟨rfl, rfl⟩
    | swap attempts now entry known =>
        cases accepted : config.world.store.accepts ((request call).key loop)
            (entry.map Prod.snd) with
        | true =>
            refine .inr ⟨json.toVec (loop.outcomeOf json (request call).cost now entry).1,
              config.world.store.counter, by simp [write?, accepted],
              by simp [LocalStore.cas_of_accepts _ _ _ _ accepted],
              (loop.outcomeOf json (request call).cost now entry).2, ?_⟩
            simp [LocalStore.cas_of_accepts _ _ _ _ accepted, CheckLoop.swapped]
        | false =>
            exact .inl ⟨by simp [write?, accepted],
              by simp [LocalStore.cas_of_not_accepts _ _ _ _ accepted]⟩

theorem Contended.own (contended : Contended json request config call) :
    Performed request config (config.advance (.step call ()))
        ⟨call, op, (), config.world⟩ ∧
      Contended json request (config.advance (.step call ())) call := by
  have phase := contended.phase
  rw [asks] at phase
  have performed := Performed.of_move asks phase.move
  have continued : (config.advance (.step call ())).threads call =
      next ((localMachine loop).perform op () config.world).1 := by
    rw [Config.advance_of_request asks]
    exact Function.update_self ..
  have world : (config.advance (.step call ())).world =
      ((localMachine loop).perform op () config.world).2 := by
    rw [Config.advance_of_request asks]
  refine ⟨performed, contended.grow performed ?_⟩
  rw [continued]
  apply phase.move.phase () config.world
  · rintro attempts charged rfl
    change 4 ≤ attempts + (contenders _ _ _).length
    change 5 ≤ attempts + 1 + (contenders _ _ _).length at charged
    rw [performed.trace, contenders_cons_of_not (by simp [isCas])]
    omega
  · rintro attempts now charged rfl
    have sameRivals : rivals request call (config.advance (.step call ())).trace =
        rivals request call config.trace := by
      rw [performed.trace, rivals_cons_of_not (not_isRival_of_quiet rfl)]
    have suffix := (contenders_suffix request call config.trace).length_le
    refine ⟨?_, ?_, .inl ?_⟩
    · rw [performed.trace]
      simp [hasRead, isGet]
    · rw [sameRivals]
      exact Nat.le_trans charged (Nat.add_le_add_left suffix attempts)
    · rw [world]
  · rintro attempts now entry ⟨read, charged, replaced⟩ rfl
    split
    · exact loop.step_ordinary _ _ _
    · next refused =>
        change 5 ≤ attempts + (contenders _ _ _).length
        rw [performed.trace, contenders, if_pos ⟨rfl, rfl⟩]
        rcases replaced with same | enough
        · exact absurd ((LocalStore.accepts_iff _ _ _).mpr (by rw [same])) refused
        · exact enough

end Own

theorem Contended.advance {config : Config (localMachine loop) ι Decision}
    (contended : ∀ call, Contended json request config call)
    (action : Action (localMachine loop) ι) (call : ι) :
    Contended json request (config.advance action) call := by
  cases action with
  | evolve clock =>
      exact ⟨(contended call).phase, (contended call).distinct, (contended call).done⟩
  | step thread choice =>
      cases asks : config.threads thread with
      | pure decision =>
          rw [Config.advance_of_pure asks]
          exact contended call
      | request op next =>
          rcases (contended thread).own asks with ⟨performed, own⟩
          by_cases same : thread = call
          · exact same ▸ own
          · exact (contended call).other performed same

theorem contended_run (start : loop.Time)
    (actions : List (Action (localMachine loop) ι)) (call : ι) :
    Contended json request ((localSystem loop json request start).run actions) call :=
  Config.invariant_run (fun config => ∀ call, Contended json request config call)
    (fun _ action contended => Contended.advance contended action) _
    (Contended.initial start) actions call

theorem Contended.five_of_fallback {config : Config (localMachine loop) ι Decision}
    {call : ι} (contended : Contended json request config call)
    (gaveUp : config.result call = some loop.fallback) :
    5 ≤ (contenders request call config.trace).length := by
  unfold Config.result at gaveUp
  cases contended.phase with
  | ready attempts charged program =>
      cases attempts with
      | zero => simpa [contention] using charged
      | succ attempts =>
          rw [program, CheckLoop.retry_local] at gaveUp
          cases gaveUp
  | clocked attempts now charged program =>
      rw [program] at gaveUp
      cases gaveUp
  | loaded attempts now entry known program =>
      rw [program] at gaveUp
      cases gaveUp
  | returned decision ordinary program =>
      rw [program] at gaveUp
      exact absurd (Option.some.inj gaveUp) ordinary

end Invariant

/-- A call that gives up was overtaken by five other calls on its key: each of
them wrote between the first read and the last compare-and-swap of the call. A
call that overlaps with at most four others on its key does not give up. -/
theorem RateLimiterConfig.fallback_contended (config : RateLimiterConfig)
    (json : SerdeJson config.limiter.State) {ι : Type} [DecidableEq ι]
    (request : ι → CheckRequest) (start : config.limiter.Time)
    (actions : List (Action (localMachine config.limiter) ι)) (call : ι) :
    let state := (localSystem config.limiter json request start).run actions
    (state.result call = some config.limiter.fallback →
        5 ≤ (contenders request call state.trace).toFinset.card ∧
        ∀ other ∈ contenders request call state.trace,
          SameKey config.limiter request call other) ∧
      ((overlapping request call state.trace).toFinset.card ≤ 4 →
        state.result call ≠ some config.limiter.fallback) := by
  intro state
  have contended : Contended json request state call :=
    contended_run start actions call
  have suffix := contenders_suffix request call state.trace
  have distinct := contended.distinct.sublist suffix.sublist
  have overtaken : state.result call = some config.limiter.fallback →
      5 ≤ (contenders request call state.trace).toFinset.card := by
    intro gaveUp
    rw [List.toFinset_card_of_nodup distinct]
    exact contended.five_of_fallback gaveUp
  refine ⟨fun gaveUp => ⟨overtaken gaveUp, fun other member =>
    sameKey_of_mem_rivals (suffix.subset member)⟩, ?_⟩
  intro few gaveUp
  have among : (contenders request call state.trace).toFinset ⊆
      (overlapping request call state.trace).toFinset := by
    intro other member
    rw [List.mem_toFinset] at member ⊢
    exact contenders_subset state.trace member
  have five := (overtaken gaveUp).trans (Finset.card_le_card among)
  omega

theorem fallback_contended_by_five :
    let config : RateLimiterConfig := ⟨.fixedWindow, 10, 1, 0, 1, 1, 0⟩
    let request : Fin 6 → CheckRequest := fun _ => ⟨"alice", "/", 1⟩
    let read (call : Fin 6) : List (Action (localMachine config.limiter) (Fin 6)) :=
      [.step call (), .step call ()]
    let overtaken (rival : Fin 6) :
        List (Action (localMachine config.limiter) (Fin 6)) :=
      read 0 ++ read rival ++ [.step rival (), .step 0 ()]
    let actions := [1, 2, 3, 4, 5].flatMap overtaken
    let state := (localSystem config.limiter Json.fixedWindow request 0).run actions
    state.result 0 = some config.limiter.fallback ∧
      5 ≤ (contenders request 0 state.trace).toFinset.card := by
  intro config request read overtaken actions state
  have gaveUp : state.result 0 = some config.limiter.fallback := by decide +kernel
  exact ⟨gaveUp, ((config.fallback_contended Json.fixedWindow request 0 actions 0).1
    gaveUp).1⟩

end RateLimiting
