import Mathlib.Algebra.Order.Field.Rat
import Mathlib.Data.Rat.Floor
import Mathlib.Tactic.Linarith

/-! # Machine numbers

Wrapping 64-bit integers are Lean's own fixed-width types. Floating-point
values are read as exact rationals; the two places where that reading meets
integers again, a truncating cast and a fixed-precision rendering, are here. -/

namespace RateLimiting

/-! ## Integers -/

/-- Subtraction that stops at zero instead of wrapping. -/
def saturatingSub (left right : UInt64) : UInt64 :=
  if right ≤ left then left - right else 0

@[simp] theorem toNat_saturatingSub (left right : UInt64) :
    (saturatingSub left right).toNat = left.toNat - right.toNat := by
  unfold saturatingSub
  split
  · next ordered => exact UInt64.toNat_sub_of_le left right ordered
  · next unordered =>
      rw [UInt64.le_iff_toNat_le] at unordered
      simp only [UInt64.toNat_zero]
      omega

theorem saturatingSub_eq_ofNat (left right : UInt64) :
    saturatingSub left right = UInt64.ofNat (left.toNat - right.toNat) := by
  apply UInt64.toNat_inj.mp
  have bound := left.toNat_lt
  rw [toNat_saturatingSub, UInt64.toNat_ofNat', Nat.mod_eq_of_lt (by omega)]

theorem toNat_pos_iff {value : UInt64} : 0 < value.toNat ↔ value ≠ 0 := by
  rw [Nat.pos_iff_ne_zero, Ne, Ne, ← UInt64.toNat_inj, UInt64.toNat_zero]

theorem toNat_add_of_lt {left right : UInt64}
    (fits : left.toNat + right.toNat < 2 ^ 64) :
    (left + right).toNat = left.toNat + right.toNat := by
  rw [UInt64.toNat_add, Nat.mod_eq_of_lt fits]

theorem toNat_div_mono {left right : UInt64} (ordered : left.toNat ≤ right.toNat)
    (divisor : UInt64) : (left / divisor).toNat ≤ (right / divisor).toNat := by
  rw [UInt64.toNat_div, UInt64.toNat_div]
  exact Nat.div_le_div_right ordered

theorem toInt_sub_of_nonneg {left right : Int64} (leftNonneg : 0 ≤ left.toInt)
    (rightNonneg : 0 ≤ right.toInt) :
    (left - right).toInt = left.toInt - right.toInt := by
  have leftBound := left.toInt_lt
  have rightBound := right.toInt_lt
  rw [Int64.toInt_sub, Int.bmod_eq_of_le] <;> omega

@[simp] theorem toInt_max (left right : Int64) :
    (max left right).toInt = max left.toInt right.toInt := by
  change (if left ≤ right then right else left).toInt = _
  split
  · next ordered =>
      rw [max_eq_right (Int64.le_iff_toInt_le.mp ordered)]
  · next unordered =>
      rw [Int64.le_iff_toInt_le] at unordered
      rw [max_eq_left (by omega)]

theorem int64_ofNat_injective {left right : Nat} (leftFits : left < 2 ^ 63)
    (rightFits : right < 2 ^ 63)
    (equal : Int64.ofNat left = Int64.ofNat right) : left = right := by
  have sameInt := congrArg Int64.toInt equal
  rw [Int64.toInt_ofNat_of_lt leftFits, Int64.toInt_ofNat_of_lt rightFits]
    at sameInt
  exact Int.ofNat_inj.mp sameInt

theorem int64_ofNat_lt_iff {left right : Nat} (leftFits : left < 2 ^ 63)
    (rightFits : right < 2 ^ 63) : Int64.ofNat left < Int64.ofNat right ↔ left < right := by
  rw [Int64.lt_iff_toInt_lt, Int64.toInt_ofNat_of_lt leftFits,
    Int64.toInt_ofNat_of_lt rightFits]
  exact Int.ofNat_lt

theorem toInt_succ_of_lt {value : Int64} (nonneg : 0 ≤ value.toInt)
    (fits : value.toInt + 1 < 2 ^ 63) : (value + 1).toInt = value.toInt + 1 := by
  have one : (1 : Int64).toInt = 1 := rfl
  rw [Int64.toInt_add, one, Int.bmod_eq_of_le] <;> omega

theorem toInt_toInt64_of_lt {value : UInt64} (fits : value.toNat < 2 ^ 63) :
    value.toInt64.toInt = value.toNat := by
  rw [← UInt64.ofNat_toNat (x := value), UInt64.toInt64_ofNat',
    UInt64.ofNat_toNat, Int64.toInt_ofNat_of_lt fits]

theorem toInt_toInt64_iff {value : UInt64} :
    value.toInt64.toInt = value.toNat ↔ value.toNat < 2 ^ 63 := by
  refine ⟨fun kept => ?_, toInt_toInt64_of_lt⟩
  have bound := value.toInt64.toInt_lt
  omega

/-! ## Rationals -/

def truncate (value : ℚ) : Int :=
  value.num.tdiv value.den

@[simp] theorem truncate_neg (value : ℚ) : truncate (-value) = -truncate value := by
  simp [truncate, Int.neg_tdiv]

theorem truncate_of_nonneg {value : ℚ} (nonneg : 0 ≤ value) :
    truncate value = ⌊value⌋ := by
  rw [truncate, Int.tdiv_eq_ediv_of_nonneg (Rat.num_nonneg.mpr nonneg), Rat.floor_def']

theorem truncate_pos_iff {value : ℚ} : 0 < truncate value ↔ 1 ≤ value := by
  rcases le_total 0 value with nonneg | nonpos
  · rw [truncate_of_nonneg nonneg, Int.floor_pos]
  · have opposite := truncate_of_nonneg (neg_nonneg.mpr nonpos)
    have floorNonneg : 0 ≤ ⌊-value⌋ := Int.floor_nonneg.mpr (neg_nonneg.mpr nonpos)
    rw [truncate_neg] at opposite
    exact iff_of_false (by omega) (by linarith)

theorem truncate_nonneg_iff {value : ℚ} : 0 ≤ truncate value ↔ -1 < value := by
  have opposite := @truncate_pos_iff (-value)
  rw [truncate_neg, neg_pos, ← not_le] at opposite
  rw [← not_iff_not, opposite, not_lt]
  exact le_neg

theorem truncate_mono {left right : ℚ} (ordered : left ≤ right) :
    truncate left ≤ truncate right := by
  rcases le_total 0 left with nonneg | nonpos
  · rw [truncate_of_nonneg nonneg, truncate_of_nonneg (nonneg.trans ordered)]
    exact Int.floor_mono ordered
  · rcases le_total 0 right with rightNonneg | rightNonpos
    · have below := truncate_of_nonneg (neg_nonneg.mpr nonpos)
      have floorNonneg : 0 ≤ ⌊-left⌋ := Int.floor_nonneg.mpr (neg_nonneg.mpr nonpos)
      have above : 0 ≤ truncate right := truncate_nonneg_iff.mpr (by linarith)
      rw [truncate_neg] at below
      omega
    · have opposite := Int.floor_mono (neg_le_neg ordered)
      rw [← truncate_of_nonneg (neg_nonneg.mpr rightNonpos),
        ← truncate_of_nonneg (neg_nonneg.mpr nonpos), truncate_neg, truncate_neg]
        at opposite
      omega

@[simp] theorem truncate_natCast (number : Nat) : truncate number = number := by
  simp [truncate]

/-- The saturating cast of a floating-point value to a signed integer. -/
def asI64 (value : ℚ) : Int64 :=
  Int64.ofIntClamp (truncate value)

theorem toInt_asI64 (value : ℚ) :
    (asI64 value).toInt = max (-2 ^ 63) (min (truncate value) (2 ^ 63 - 1)) := by
  have least : Int64.minValue.toInt = -2 ^ 63 := rfl
  have greatest : Int64.maxValue.toInt = 2 ^ 63 - 1 := rfl
  unfold asI64 Int64.ofIntClamp
  split
  · split
    · rw [Int64.toInt_ofIntLE]
      omega
    · omega
  · omega

theorem toInt_asI64_of_nonneg {value : ℚ} (nonneg : 0 ≤ value) :
    (asI64 value).toInt = min ⌊value⌋ (2 ^ 63 - 1) := by
  have floorNonneg : 0 ≤ ⌊value⌋ := Int.floor_nonneg.mpr nonneg
  rw [toInt_asI64, truncate_of_nonneg nonneg]
  omega

theorem natCast_le_iff_asI64 {value : ℚ} (nonneg : 0 ≤ value) (exact : value < 2 ^ 53)
    (number : Nat) : (number : ℚ) ≤ value ↔ (number : Int) ≤ (asI64 value).toInt := by
  have floor : ⌊value⌋ < 2 ^ 53 := Int.floor_lt.mpr (by exact_mod_cast exact)
  rw [toInt_asI64_of_nonneg nonneg, min_eq_left (by omega), Int.le_floor, Int.cast_natCast]

theorem asI64_mono {left right : ℚ} (ordered : left ≤ right) :
    (asI64 left).toInt ≤ (asI64 right).toInt := by
  have truncated := truncate_mono ordered
  rw [toInt_asI64, toInt_asI64]
  omega

theorem asI64_nonneg_iff {value : ℚ} : 0 ≤ (asI64 value).toInt ↔ -1 < value := by
  rw [toInt_asI64, ← truncate_nonneg_iff]
  omega

theorem asI64_pos_iff {value : ℚ} : 0 < (asI64 value).toInt ↔ 1 ≤ value := by
  rw [toInt_asI64, ← truncate_pos_iff]
  omega

theorem asI64_toNat {number : UInt64} (fits : number.toNat < 2 ^ 63) :
    asI64 number.toNat = number.toInt64 := by
  apply Int64.toInt_inj.mp
  rw [toInt_asI64, truncate_natCast, toInt_toInt64_of_lt fits]
  omega

def roundHalfEven (value : ℚ) : Nat :=
  let quotient := value.num.toNat / value.den
  let remainder := value.num.toNat % value.den
  if 2 * remainder < value.den then quotient
  else if value.den < 2 * remainder then quotient + 1
  else quotient + quotient % 2

/-- Decimal rendering with a fixed number of fractional digits. -/
def fixed (digits : Nat) (value : ℚ) : String :=
  let scaled := roundHalfEven (|value| * 10 ^ digits)
  let fraction := (scaled % 10 ^ digits).repr
  let padding := String.ofList (List.replicate (digits - fraction.length) '0')
  (if value < 0 then "-" else "") ++ (scaled / 10 ^ digits).repr ++
    if digits = 0 then "" else "." ++ padding ++ fraction

example : fixed 1 (5 / 4) = "1.2" := by decide +kernel

end RateLimiting
