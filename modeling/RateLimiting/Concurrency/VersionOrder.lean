import RateLimiting.Concurrency.StoreClients

/-! # The versions of a key in order

A `put` may insert long after it drew its version. The versions that a key holds one
after the other increase exactly when the writes on it take effect in the order in
which they drew. -/

namespace RateLimiting

variable {ι α : Type}

def versionsOn (key : String) (trace : List (StoreEvent ι)) : List Int64 :=
  (trace.filterMap fun event => (event.writeOn? key).map Prod.snd).reverse

/-- The writes on a key in the order in which they took effect, each by its number
among the draws. -/
def drawsOn [DecidableEq ι] (key : String) (trace : List (StoreEvent ι)) : List Nat :=
  (((versionOffice ι).redemptions trace).filterMap fun redemption =>
    (redemption.1.writeOn? key).map fun _ => redemption.2).reverse

/-- No write on the key has overtaken one that drew its version earlier. -/
def InDrawOrder [DecidableEq ι] (key : String) (trace : List (StoreEvent ι)) : Prop :=
  (drawsOn key trace).Pairwise (· < ·)

variable [DecidableEq ι]

theorem versionsOn_eq {trace : List (StoreEvent ι)} (key : String)
    (versions : ∀ redemption ∈ (versionOffice ι).redemptions trace,
      redemption.1.write?.map (·.2.2) = some (Int64.ofNat redemption.2)) :
    versionsOn key trace = (drawsOn key trace).map Int64.ofNat := by
  rw [versionsOn, drawsOn, List.map_reverse]
  apply congrArg List.reverse
  induction trace with
  | nil => rfl
  | cons event older induction =>
      cases stored : event.write? with
      | none =>
          have quiet : (versionOffice ι).redeems event = false := by
            simp [versionOffice, stored]
          rw [Office.redemptions_cons_of_not_redeems quiet] at versions ⊢
          rw [List.filterMap_cons_none (by simp [StoreEvent.writeOn?, stored])]
          exact induction versions
      | some write =>
          have redeems : (versionOffice ι).redeems event = true := by
            simp [versionOffice, stored]
          rw [Office.redemptions_cons_of_redeems redeems] at versions ⊢
          rcases List.forall_mem_cons.mp versions with ⟨version, others⟩
          rw [stored] at version
          by_cases onKey : write.1 = key
          · have isWrite : event.writeOn? key = some write.2 := by
              simp [StoreEvent.writeOn?, stored, onKey]
            rw [List.filterMap_cons_some (by rw [isWrite]; rfl),
              List.filterMap_cons_some (by rw [isWrite]; rfl), List.map_cons,
              induction others, ← Option.some.inj version]
          · have isOther : event.writeOn? key = none := by
              simp [StoreEvent.writeOn?, stored, onKey]
            rw [List.filterMap_cons_none (by rw [isOther]; rfl),
              List.filterMap_cons_none (by rw [isOther]; rfl)]
            exact induction others

theorem drawsOn_le {key : String} {trace : List (StoreEvent ι)} {number : Nat}
    (member : number ∈ drawsOn key trace) : number ≤ writesBegun trace := by
  rcases List.mem_filterMap.mp (List.mem_reverse.mp member) with ⟨redemption, among, same⟩
  rcases Option.map_eq_some_iff.mp same with ⟨entry, -, rfl⟩
  exact Office.redemptions_le among

/-- In every run of fewer than `2 ^ 63` writes, the versions of the keys increase if
and only if no write overtakes another on its key. -/
theorem versions_increase_iff (clients : ι → Program StateStore.calls α)
    (actions : List (Action LocalStore.machine ι))
    (bounded : writesBegun ((localClients clients).run actions).trace < 2 ^ 63) :
    (∀ key, (versionsOn key ((localClients clients).run actions).trace).Pairwise
        (· < ·)) ↔
      ∀ key, InDrawOrder key ((localClients clients).run actions).trace := by
  have invariant := clientInvariant_run clients actions
  apply forall_congr'
  intro key
  rw [versionsOn_eq key invariant.versions, InDrawOrder, List.pairwise_map]
  apply List.Pairwise.iff_of_mem
  intro left right leftMember rightMember
  exact int64_ofNat_lt_iff ((drawsOn_le leftMember).trans_lt bounded)
    ((drawsOn_le rightMember).trans_lt bounded)

theorem versions_increase_iff_in_turn :
    let clients : Fin 2 → Program StateStore.calls Unit := fun client =>
      .request (.put "alice" [UInt8.ofNat client]) fun _ => .pure ()
    let trace := ((localClients clients).run
      [.step 0 (), .step 0 (), .step 1 (), .step 1 ()]).trace
    (∀ key, (versionsOn key trace).Pairwise (· < ·)) ↔ ∀ key, InDrawOrder key trace :=
  versions_increase_iff (fun client : Fin 2 =>
      .request (.put "alice" [UInt8.ofNat client]) fun _ => .pure ())
    [.step 0 (), .step 0 (), .step 1 (), .step 1 ()] (by decide)

/-- Two calls of `put` on one key, the later draw inserted first: the key goes back to
the earlier version. -/
theorem put_overtaken :
    let clients : Fin 2 → Program StateStore.calls Unit := fun client =>
      .request (.put "alice" [UInt8.ofNat client]) fun _ => .pure ()
    let trace := ((localClients clients).run
      [.step 0 (), .step 1 (), .step 1 (), .step 0 ()]).trace
    writesBegun trace < 2 ^ 63 ∧ versionsOn "alice" trace = [2, 1] ∧
      ¬(versionsOn "alice" trace).Pairwise (· < ·) := by
  intro clients trace
  have run : writesBegun trace < 2 ^ 63 ∧ versionsOn "alice" trace = [2, 1] ∧
      ¬((2 : Int64) < 1) := by
    decide +kernel
  refine ⟨run.1, run.2.1, ?_⟩
  rw [run.2.1]
  exact fun ordered => run.2.2 (List.rel_of_pairwise_cons ordered (List.mem_singleton_self 1))

end RateLimiting
