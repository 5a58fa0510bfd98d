import RateLimiting.Foundation.MachineNumber

/-! # Checked operations

The operations of the 64-bit integers that give nothing where the exact result does
not exist or does not fit. -/

namespace RateLimiting

namespace Checked

def add (left right : UInt64) : Option UInt64 :=
  if left.toNat + right.toNat < 2 ^ 64 then some (left + right) else none

def mul (left right : UInt64) : Option UInt64 :=
  if left.toNat * right.toNat < 2 ^ 64 then some (left * right) else none

def div (left right : UInt64) : Option UInt64 :=
  if right = 0 then none else some (left / right)

def rem (left right : UInt64) : Option UInt64 :=
  if right = 0 then none else some (left % right)

def ofLength (length : Nat) : Option UInt64 :=
  if length < 2 ^ 64 then some (UInt64.ofNat length) else none

def toI64 (value : UInt64) : Option Int64 :=
  if value.toNat < 2 ^ 63 then some value.toInt64 else none

def addI64 (left right : Int64) : Option Int64 :=
  if -2 ^ 63 ≤ left.toInt + right.toInt ∧ left.toInt + right.toInt < 2 ^ 63 then
    some (left + right)
  else none

def subI64 (left right : Int64) : Option Int64 :=
  if -2 ^ 63 ≤ left.toInt - right.toInt ∧ left.toInt - right.toInt < 2 ^ 63 then
    some (left - right)
  else none

section

variable {left right value : UInt64}

theorem add_of_lt (fits : left.toNat + right.toNat < 2 ^ 64) :
    add left right = some (left + right) :=
  if_pos fits

theorem mul_of_lt (fits : left.toNat * right.toNat < 2 ^ 64) :
    mul left right = some (left * right) :=
  if_pos fits

theorem div_of_ne (nonzero : right ≠ 0) : div left right = some (left / right) :=
  if_neg nonzero

theorem rem_of_ne (nonzero : right ≠ 0) : rem left right = some (left % right) :=
  if_neg nonzero

theorem ofLength_of_lt {length : Nat} (fits : length < 2 ^ 64) :
    ofLength length = some (UInt64.ofNat length) :=
  if_pos fits

theorem toI64_of_lt (fits : value.toNat < 2 ^ 63) : toI64 value = some value.toInt64 :=
  if_pos fits

theorem toI64_saturatingSub (fits : left.toNat < 2 ^ 63) (right : UInt64) :
    toI64 (saturatingSub left right) = some (saturatingSub left right).toInt64 := by
  apply toI64_of_lt
  rw [toNat_saturatingSub]
  exact (Nat.sub_le _ _).trans_lt fits

theorem ne_zero_of_div (exact : (div left right).isSome = true) : right ≠ 0 := by
  intro zero
  rw [div, if_pos zero] at exact
  cases exact

theorem lt_of_mul (exact : (mul left right).isSome = true) :
    left.toNat * right.toNat < 2 ^ 64 := by
  by_contra wraps
  rw [mul, if_neg wraps] at exact
  cases exact

theorem lt_of_toI64 (exact : (toI64 value).isSome = true) : value.toNat < 2 ^ 63 := by
  by_contra changes
  rw [toI64, if_neg changes] at exact
  cases exact

theorem toNat_mul_of_lt (fits : left.toNat * right.toNat < 2 ^ 64) :
    (left * right).toNat = left.toNat * right.toNat := by
  rw [UInt64.toNat_mul, Nat.mod_eq_of_lt fits]

end

section

variable {left right : Int64}

theorem addI64_of_within (low : -2 ^ 63 ≤ left.toInt + right.toInt)
    (high : left.toInt + right.toInt < 2 ^ 63) :
    addI64 left right = some (left + right) :=
  if_pos ⟨low, high⟩

theorem subI64_of_within (low : -2 ^ 63 ≤ left.toInt - right.toInt)
    (high : left.toInt - right.toInt < 2 ^ 63) :
    subI64 left right = some (left - right) :=
  if_pos ⟨low, high⟩

theorem lt_of_addI64 (exact : (addI64 left right).isSome = true) :
    left.toInt + right.toInt < 2 ^ 63 := by
  by_contra wraps
  rw [addI64, if_neg fun within => wraps within.2] at exact
  cases exact

theorem toInt_add_of_within (low : -2 ^ 63 ≤ left.toInt + right.toInt)
    (high : left.toInt + right.toInt < 2 ^ 63) :
    (left + right).toInt = left.toInt + right.toInt := by
  rw [Int64.toInt_add, Int.bmod_eq_of_le] <;> omega

end

end Checked

end RateLimiting
