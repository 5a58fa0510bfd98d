/-! # States that are brought up to date lazily

A stored state is worth what it becomes when it is next looked at. Bringing it
up to date in between, and storing the result, does not change what it is worth
later. -/

namespace RateLimiting

/-- How a stored state settles as time goes by. `before` orders the times and
`valid` says which states can be stored at a time; an absent state counts as a
fresh one. -/
structure Settling (Time State : Type) (before : Time → Time → Prop) where
  before_trans : ∀ {first second third}, before first second → before second third →
    before first third
  fresh : Time → State
  settle : Time → State → State
  valid : Time → State → Prop
  fresh_valid : ∀ time, valid time (fresh time)
  settle_valid : ∀ {time state}, valid time state → valid time (settle time state)
  valid_later : ∀ {earlier later state}, before earlier later → valid earlier state →
    valid later state
  settle_settle : ∀ {earlier later state}, before earlier later →
    valid earlier state → settle later (settle earlier state) = settle later state
  settle_fresh : ∀ {earlier later}, before earlier later →
    settle later (fresh earlier) = settle later (fresh later)

namespace Settling

variable {Time State : Type} {before : Time → Time → Prop}
  (settling : Settling Time State before)

def worth (time : Time) (stored : Option State) : State :=
  settling.settle time (stored.getD (settling.fresh time))

structure Agree (time : Time) (left right : Option State) : Prop where
  left_valid : ∀ state ∈ left, settling.valid time state
  right_valid : ∀ state ∈ right, settling.valid time state
  worth_eq : ∀ later, before time later →
    settling.worth later left = settling.worth later right

variable {settling}

theorem agree_none (time : Time) : settling.Agree time none none where
  left_valid _ member := nomatch member
  right_valid _ member := nomatch member
  worth_eq _ _ := rfl

theorem agree_stored {time : Time} {state : State} (valid : settling.valid time state) :
    settling.Agree time (some state) (some state) where
  left_valid _ member := Option.some.inj member ▸ valid
  right_valid _ member := Option.some.inj member ▸ valid
  worth_eq _ _ := rfl

theorem Agree.found_valid {earlier now : Time} {left right : Option State}
    (agree : settling.Agree earlier left right) (ordered : before earlier now) :
    settling.valid now (left.getD (settling.fresh now)) := by
  cases left with
  | none => exact settling.fresh_valid now
  | some state => exact settling.valid_later ordered (agree.left_valid state rfl)

theorem Agree.settled {earlier now : Time} {left right : Option State}
    (agree : settling.Agree earlier left right) (ordered : before earlier now) :
    settling.Agree now (some (settling.worth now left)) right where
  left_valid state member := by
    rw [← Option.some.inj member]
    exact settling.settle_valid (agree.found_valid ordered)
  right_valid state member :=
    settling.valid_later ordered (agree.right_valid state member)
  worth_eq later after := by
    rw [← agree.worth_eq later (settling.before_trans ordered after), worth, worth,
      worth, Option.getD_some,
      settling.settle_settle after (agree.found_valid ordered)]
    cases left with
    | none => exact settling.settle_fresh after
    | some state => rfl

end Settling

end RateLimiting
