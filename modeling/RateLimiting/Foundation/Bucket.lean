import Mathlib.Algebra.Order.Ring.Defs
import Mathlib.Algebra.BigOperators.Group.List.Basic
import Mathlib.Data.List.Induction
import Mathlib.Tactic.Linarith

/-! # Refilled buckets

A bucket of bounded capacity that refills at a constant rate and was full before
its first grant. The amount it holds is one lazily updated number; it is also
the least slack over all starting points of the grants that were made. -/

namespace RateLimiting

structure Grant (K : Type) where
  time : K
  amount : K

namespace Bucket

variable {K : Type} [CommRing K]

def total (grants : List (Grant K)) : K :=
  (grants.map Grant.amount).sum

@[simp] theorem total_nil : total ([] : List (Grant K)) = 0 := rfl

@[simp] theorem total_cons (grant : Grant K) (older : List (Grant K)) :
    total (grant :: older) = grant.amount + total older := by
  simp [total]

@[simp] theorem total_append (left right : List (Grant K)) :
    total (left ++ right) = total left + total right := by
  simp [total]

variable [LinearOrder K] (capacity rate : K)

/-- What the bucket holds at a time, after grants listed most recent first. -/
def available : List (Grant K) → K → K
  | [], _ => capacity
  | grant :: older, now =>
      min (available older grant.time - grant.amount + (now - grant.time) * rate)
        capacity

def Sorted (grants : List (Grant K)) : Prop :=
  grants.Pairwise fun later earlier => earlier.time ≤ later.time

/-- No grant exceeds what the bucket held. -/
def Conforming : List (Grant K) → Prop
  | [] => True
  | grant :: older =>
      0 ≤ grant.amount ∧ grant.amount ≤ available capacity rate older grant.time ∧
        Conforming older

variable {capacity rate}

theorem available_le_capacity (grants : List (Grant K)) (now : K) :
    available capacity rate grants now ≤ capacity := by
  cases grants with
  | nil => exact le_refl _
  | cons grant older => exact min_le_right _ _

variable [IsStrictOrderedRing K]

theorem available_nonneg (capacityNonneg : 0 ≤ capacity) (rateNonneg : 0 ≤ rate)
    {grants : List (Grant K)} (conforming : Conforming capacity rate grants)
    {now : K} (latest : ∀ grant ∈ grants, grant.time ≤ now) :
    0 ≤ available capacity rate grants now := by
  cases grants with
  | nil => exact capacityNonneg
  | cons grant older =>
      have enough := conforming.2.1
      have refilled := mul_nonneg (sub_nonneg.mpr (latest grant (by simp))) rateNonneg
      exact le_min (by linarith) capacityNonneg

/-- An amount is available exactly when no interval that ends now would be
overdrawn by it. The grants are listed oldest first here. -/
theorem le_available_reverse_iff (grants : List (Grant K)) (amount now : K) :
    amount ≤ available capacity rate grants.reverse now ↔
      amount ≤ capacity ∧ ∀ index (bound : index < grants.length),
        amount + total (grants.drop index) ≤
          capacity + (now - grants[index].time) * rate := by
  induction grants using List.reverseRecOn generalizing amount now with
  | nil => simp [available]
  | append_singleton older grant induction =>
      have shifted : amount ≤ available capacity rate older.reverse grant.time -
            grant.amount + (now - grant.time) * rate ↔
          amount + grant.amount - (now - grant.time) * rate ≤
            available capacity rate older.reverse grant.time := by
        constructor <;> intro <;> linarith
      have last : ∀ index, index ≤ older.length →
          total ((older ++ [grant]).drop index) =
            total (older.drop index) + grant.amount := by
        intro index inside
        rw [List.drop_append_of_le_length inside, total_append, total_cons, total_nil,
          add_zero]
      rw [List.reverse_append, List.reverse_singleton, List.singleton_append,
        available, le_min_iff, shifted, induction]
      constructor
      · rintro ⟨⟨first, rest⟩, capped⟩
        refine ⟨capped, fun index bound => ?_⟩
        rw [List.length_append, List.length_singleton] at bound
        rw [last index (by omega)]
        rcases Nat.lt_succ_iff_lt_or_eq.mp bound with earlier | rfl
        · have interval := rest index earlier
          rw [List.getElem_append_left earlier]
          linarith
        · rw [List.drop_length, total_nil, List.getElem_concat_length rfl]
          linarith
      · rintro ⟨capped, intervals⟩
        refine ⟨⟨?_, fun index bound => ?_⟩, capped⟩
        · have interval := intervals older.length (by simp)
          rw [last older.length le_rfl, List.drop_length, total_nil,
            List.getElem_concat_length rfl] at interval
          linarith
        · have interval := intervals index (by simp; omega)
          rw [last index bound.le, List.getElem_append_left bound] at interval
          linarith

theorem total_since_add_available_le (rateNonneg : 0 ≤ rate)
    {grants : List (Grant K)} (sorted : Sorted grants) {first now : K} (ordered : first ≤ now) :
    total (grants.filter fun grant => first ≤ grant.time) +
        available capacity rate grants now ≤
      capacity + (now - first) * rate := by
  induction grants generalizing now with
  | nil =>
      have refilled := mul_nonneg (sub_nonneg.mpr ordered) rateNonneg
      simpa [available] using refilled
  | cons grant older induction =>
      rcases List.pairwise_cons.mp sorted with ⟨earlier, rest⟩
      by_cases counted : first ≤ grant.time
      · have before := induction rest counted
        have refilled : available capacity rate (grant :: older) now ≤
            available capacity rate older grant.time - grant.amount +
              (now - grant.time) * rate := min_le_left _ _
        simp only [counted, decide_true, List.filter_cons_of_pos, total_cons]
        linarith
      · have none : (grant :: older).filter (fun grant => first ≤ grant.time) = [] := by
          rw [List.filter_eq_nil_iff]
          intro other member
          rw [decide_eq_true_eq, not_le]
          rcases List.mem_cons.mp member with rfl | member
          · exact not_le.mp counted
          · exact (earlier other member).trans_lt (not_le.mp counted)
        have refilled := mul_nonneg (sub_nonneg.mpr ordered) rateNonneg
        have capped : available capacity rate (grant :: older) now ≤ capacity :=
          available_le_capacity (grant :: older) now
        rw [none, total_nil]
        linarith

/-- Conforming grants in any interval are within the envelope. -/
theorem total_between_le (capacityNonneg : 0 ≤ capacity)
    (rateNonneg : 0 ≤ rate) {grants : List (Grant K)}
    (conforming : Conforming capacity rate grants) (sorted : Sorted grants)
    {first last : K} (ordered : first ≤ last) :
    total (grants.filter fun grant => first ≤ grant.time ∧ grant.time ≤ last) ≤
      capacity + (last - first) * rate := by
  induction grants with
  | nil =>
      have refilled := mul_nonneg (sub_nonneg.mpr ordered) rateNonneg
      simp only [List.filter_nil, total_nil]
      linarith
  | cons grant older induction =>
      rcases List.pairwise_cons.mp sorted with ⟨earlier, rest⟩
      rcases conforming with ⟨_, enough, conformingOlder⟩
      by_cases counted : first ≤ grant.time ∧ grant.time ≤ last
      · have same : older.filter (fun other => first ≤ other.time ∧ other.time ≤ last) =
            older.filter fun other => first ≤ other.time := by
          apply List.filter_congr
          intro other member
          have before := (earlier other member).trans counted.2
          simp [before]
        have since : total (older.filter fun other => first ≤ other.time) +
            available capacity rate older grant.time ≤
              capacity + (grant.time - first) * rate :=
          total_since_add_available_le rateNonneg rest counted.1
        have longer := mul_le_mul_of_nonneg_right
          (sub_le_sub_right counted.2 first) rateNonneg
        simp only [counted, and_self, decide_true, List.filter_cons_of_pos,
          total_cons, same]
        linarith
      · simpa [List.filter_cons, counted] using induction conformingOlder rest

end Bucket

end RateLimiting
