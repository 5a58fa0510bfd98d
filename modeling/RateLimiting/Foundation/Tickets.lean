/-! # Tickets

Holders draw numbered tickets and redeem them later, in any order. A history is a
list of steps whose latest step comes first. -/

namespace RateLimiting

/-- Who makes a step, and whether the step draws a ticket, redeems one, or both. -/
structure Office (Step Holder : Type) where
  holder : Step → Holder
  draws : Step → Bool
  redeems : Step → Bool

namespace Office

variable {Step Holder : Type} [DecidableEq Holder] (office : Office Step Holder)

def drawn (steps : List Step) : Nat :=
  steps.countP office.draws

/-- The last ticket of a holder. Tickets are numbered from one. -/
def ticket (who : Holder) : List Step → Nat
  | [] => 0
  | step :: older =>
      if office.holder step = who ∧ office.draws step = true then office.drawn older + 1
      else ticket who older

def Holds (who : Holder) : List Step → Prop
  | [] => False
  | step :: older =>
      if office.holder step = who then
        office.redeems step = false ∧ (office.draws step = true ∨ Holds who older)
      else Holds who older

/-- A ticket is redeemed by the step that draws it or while it is held. -/
def Honest : List Step → Prop
  | [] => True
  | step :: older =>
      (office.redeems step = true →
        office.draws step = true ∨ office.Holds (office.holder step) older) ∧
      Honest older

/-- The redemptions, each with its ticket. -/
def redemptions : List Step → List (Step × Nat)
  | [] => []
  | step :: older =>
      if office.redeems step then
        (step, office.ticket (office.holder step) (step :: older)) :: redemptions older
      else redemptions older

variable {office} {step : Step} {steps : List Step} {who other : Holder}

section

omit [DecidableEq Holder]

theorem drawn_cons_of_draws (draws : office.draws step = true) :
    office.drawn (step :: steps) = office.drawn steps + 1 :=
  List.countP_cons_of_pos draws

theorem drawn_cons_of_not_draws (quiet : office.draws step = false) :
    office.drawn (step :: steps) = office.drawn steps :=
  List.countP_cons_of_neg (by rw [quiet]; decide)

theorem drawn_le_cons : office.drawn steps ≤ office.drawn (step :: steps) := by
  cases draws : office.draws step with
  | false => exact Nat.le_of_eq (drawn_cons_of_not_draws draws).symm
  | true =>
      rw [drawn_cons_of_draws draws]
      exact Nat.le_succ _

end

theorem ticket_cons_of_draws (draws : office.draws step = true) :
    office.ticket (office.holder step) (step :: steps) = office.drawn steps + 1 :=
  if_pos ⟨rfl, draws⟩

theorem ticket_cons_of_not_draws (quiet : office.draws step = false) :
    office.ticket who (step :: steps) = office.ticket who steps :=
  if_neg fun both => by simp [quiet] at both

theorem ticket_cons_of_ne (different : who ≠ office.holder step) :
    office.ticket who (step :: steps) = office.ticket who steps :=
  if_neg fun both => different both.1.symm

theorem holds_cons_of_ne (different : who ≠ office.holder step) :
    office.Holds who (step :: steps) ↔ office.Holds who steps := by
  rw [Holds, if_neg (Ne.symm different)]

theorem holds_cons_of_draws (draws : office.draws step = true)
    (kept : office.redeems step = false) :
    office.Holds (office.holder step) (step :: steps) := by
  rw [Holds, if_pos rfl]
  exact ⟨kept, .inl draws⟩

theorem ticket_le_drawn : office.ticket who steps ≤ office.drawn steps := by
  induction steps with
  | nil => exact Nat.le_refl 0
  | cons step older induction =>
      by_cases new : office.holder step = who ∧ office.draws step = true
      · apply Nat.le_of_eq
        rw [ticket, if_pos new, drawn_cons_of_draws new.2]
      · rw [ticket, if_neg new]
        exact Nat.le_trans induction drawn_le_cons

theorem ticket_pos_of_holds (holds : office.Holds who steps) :
    0 < office.ticket who steps := by
  induction steps with
  | nil => exact absurd holds id
  | cons step older induction =>
      rw [ticket]
      split
      · exact Nat.succ_pos _
      · rename_i old
        apply induction
        by_cases own : office.holder step = who
        · rw [Holds, if_pos own] at holds
          exact holds.2.resolve_left fun draws => old ⟨own, draws⟩
        · exact (holds_cons_of_ne (Ne.symm own)).mp holds

theorem eq_of_ticket_eq (positive : 0 < office.ticket who steps)
    (same : office.ticket who steps = office.ticket other steps) : who = other := by
  induction steps with
  | nil => exact absurd positive (Nat.lt_irrefl 0)
  | cons step older induction =>
      have left : office.ticket who older ≤ office.drawn older := office.ticket_le_drawn
      have right : office.ticket other older ≤ office.drawn older := office.ticket_le_drawn
      rw [ticket, ticket] at same
      rw [ticket] at positive
      by_cases first : office.holder step = who ∧ office.draws step = true
      · by_cases second : office.holder step = other ∧ office.draws step = true
        · exact first.1.symm.trans second.1
        · rw [if_pos first, if_neg second] at same
          omega
      · by_cases second : office.holder step = other ∧ office.draws step = true
        · rw [if_neg first, if_pos second] at same
          omega
        · rw [if_neg first] at positive
          rw [if_neg first, if_neg second] at same
          exact induction positive same

theorem redemptions_le {redemption : Step × Nat}
    (member : redemption ∈ office.redemptions steps) :
    redemption.2 ≤ office.drawn steps := by
  induction steps with
  | nil => cases member
  | cons step older induction =>
      rw [redemptions] at member
      split at member
      · rcases List.mem_cons.mp member with rfl | earlier
        · exact ticket_le_drawn
        · exact Nat.le_trans (induction earlier) drawn_le_cons
      · exact Nat.le_trans (induction member) drawn_le_cons

theorem redemptions_cons_of_redeems (redeems : office.redeems step = true) :
    office.redemptions (step :: steps) =
      (step, office.ticket (office.holder step) (step :: steps)) ::
        office.redemptions steps :=
  if_pos redeems

theorem redemptions_cons_of_not_redeems (quiet : office.redeems step = false) :
    office.redemptions (step :: steps) = office.redemptions steps :=
  if_neg (by simp [quiet])

theorem succ_drawn_not_redeemed :
    office.drawn steps + 1 ∉ (office.redemptions steps).map Prod.snd := by
  intro member
  rcases List.mem_map.mp member with ⟨redemption, among, same⟩
  have bound := redemptions_le among
  omega

theorem ticket_not_redeemed (honest : office.Honest steps)
    (holds : office.Holds who steps) :
    office.ticket who steps ∉ (office.redemptions steps).map Prod.snd := by
  induction steps with
  | nil => exact absurd holds id
  | cons step older induction =>
      by_cases own : office.holder step = who
      · rw [Holds, if_pos own] at holds
        rw [redemptions_cons_of_not_redeems holds.1]
        cases draws : office.draws step with
        | true =>
            rw [← own, ticket_cons_of_draws draws]
            exact succ_drawn_not_redeemed
        | false =>
            rw [ticket_cons_of_not_draws draws]
            exact induction honest.2 (holds.2.resolve_left (by simp [draws]))
      · have different : who ≠ office.holder step := Ne.symm own
        have held := (holds_cons_of_ne different).mp holds
        have earlier := induction honest.2 held
        rw [ticket_cons_of_ne different]
        cases redeems : office.redeems step with
        | false =>
            rw [redemptions_cons_of_not_redeems redeems]
            exact earlier
        | true =>
            rw [redemptions_cons_of_redeems redeems, List.map_cons, List.mem_cons, not_or]
            refine ⟨fun same => ?_, earlier⟩
            cases draws : office.draws step with
            | true =>
                rw [ticket_cons_of_draws draws] at same
                have bound : office.ticket who older ≤ office.drawn older :=
                  office.ticket_le_drawn
                omega
            | false =>
                rw [ticket_cons_of_not_draws draws] at same
                exact different (eq_of_ticket_eq (ticket_pos_of_holds held) same)

theorem redemptions_nodup (honest : office.Honest steps) :
    ((office.redemptions steps).map Prod.snd).Nodup := by
  induction steps with
  | nil => exact List.nodup_nil
  | cons step older induction =>
      cases redeems : office.redeems step with
      | false =>
          rw [redemptions_cons_of_not_redeems redeems]
          exact induction honest.2
      | true =>
          rw [redemptions_cons_of_redeems redeems, List.map_cons, List.nodup_cons]
          refine ⟨?_, induction honest.2⟩
          cases draws : office.draws step with
          | true =>
              rw [ticket_cons_of_draws draws]
              exact succ_drawn_not_redeemed
          | false =>
              rw [ticket_cons_of_not_draws draws]
              have held := (honest.1 redeems).resolve_left (by simp [draws])
              exact ticket_not_redeemed honest.2 held

theorem redemptions_append (newer older : List Step) :
    ∃ front, office.redemptions (newer ++ older) = front ++ office.redemptions older ∧
      front.map Prod.fst = newer.filter office.redeems := by
  induction newer with
  | nil => exact ⟨[], rfl, rfl⟩
  | cons step newer induction =>
      rcases induction with ⟨front, shape, steps⟩
      cases redeems : office.redeems step with
      | false =>
          refine ⟨front, ?_, ?_⟩
          · rw [List.cons_append, redemptions_cons_of_not_redeems redeems, shape]
          · rw [steps, List.filter_cons_of_neg (by simp [redeems])]
      | true =>
          refine ⟨(step, office.ticket (office.holder step) (step :: (newer ++ older))) ::
            front, ?_, ?_⟩
          · rw [List.cons_append, redemptions_cons_of_redeems redeems, shape]
            rfl
          · rw [List.map_cons, steps, List.filter_cons_of_pos redeems]

/-- Two redemptions of an honest history have different tickets. -/
theorem tickets_apart {newer older : List Step} {later earlier : Step}
    (honest : office.Honest (newer ++ older)) (new : later ∈ newer) (old : earlier ∈ older)
    (laterRedeems : office.redeems later = true)
    (earlierRedeems : office.redeems earlier = true) :
    ∃ first second, (later, second) ∈ office.redemptions (newer ++ older) ∧
      (earlier, first) ∈ office.redemptions (newer ++ older) ∧ first ≠ second := by
  have distinct := redemptions_nodup honest
  rcases office.redemptions_append newer older with ⟨front, shape, newSteps⟩
  rcases office.redemptions_append older [] with ⟨back, same, oldSteps⟩
  have whole : back = office.redemptions older := by
    rw [← List.append_nil older, same]
    exact (List.append_nil back).symm
  rw [whole] at oldSteps
  have laterMember : later ∈ front.map Prod.fst := by
    rw [newSteps]
    exact List.mem_filter.mpr ⟨new, laterRedeems⟩
  have earlierMember : earlier ∈ (office.redemptions older).map Prod.fst := by
    rw [oldSteps]
    exact List.mem_filter.mpr ⟨old, earlierRedeems⟩
  rcases List.mem_map.mp laterMember with ⟨⟨_, second⟩, atFront, rfl⟩
  rcases List.mem_map.mp earlierMember with ⟨⟨_, first⟩, atBack, rfl⟩
  rw [shape, List.map_append, List.nodup_append] at distinct
  refine ⟨first, second, ?_, ?_, ?_⟩
  · rw [shape]
    exact List.mem_append_left _ atFront
  · rw [shape]
    exact List.mem_append_right _ atBack
  · intro equal
    exact distinct.2.2 second (List.mem_map_of_mem atFront) first
      (List.mem_map_of_mem atBack) equal.symm

end Office

end RateLimiting
