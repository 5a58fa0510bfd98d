import Mathlib.Algebra.Group.Nat.Defs
import RateLimiting.Foundation.Numerals
import RateLimiting.Http.Server

/-! # The Python verifier

`verify_rate_hmac` with the built-ins that it uses. An exception that the
function catches is an error of the parsing; one that it does not catch is an
error of the verification. -/

namespace RateLimiting

namespace HmacUtils

/-! ## Built-ins -/

inductive Caught
  | keyError
  | valueError
deriving DecidableEq, Repr

inductive Uncaught
  | typeError
  | valueError
deriving DecidableEq, Repr

def str (value : Bool) : String :=
  if value then "True" else "False"

/-- `text.split("=", 1)`. -/
def splitOnce (text : List Char) : List (List Char) :=
  match text.span (· ≠ '=') with
  | (before, _ :: after) => [before, after]
  | (before, []) => [before]

/-- `dict` of the parts of a text: every part must be a pair. -/
def dict (text : List Char) : Except Caught (List (List Char × List Char)) :=
  (text.splitOn ',').mapM fun part =>
    match splitOnce part with
    | [key, value] => .ok (key, value)
    | _ => .error .valueError

/-- Subscription; a later pair replaces an earlier one of the same key. -/
def subscript (parts : List (List Char × List Char)) (key : List Char) :
    Except Caught (List Char) :=
  match parts.reverse.lookup key with
  | some value => .ok value
  | none => .error .keyError

def isSpace (c : Char) : Bool :=
  (9 ≤ c.toNat ∧ c.toNat ≤ 13) ∨ (0x2000 ≤ c.toNat ∧ c.toNat ≤ 0x200a) ∨
    c.toNat ∈ [0x20, 0x85, 0xa0, 0x1680, 0x2028, 0x2029, 0x202f, 0x205f, 0x3000]

/-- The zeros of the decimal digits of Unicode, each followed by its nine
successors. -/
def decimalZeros : List Nat :=
  [0x30, 0x660, 0x6f0, 0x7c0, 0x966, 0x9e6, 0xa66, 0xae6, 0xb66, 0xbe6, 0xc66,
    0xce6, 0xd66, 0xde6, 0xe50, 0xed0, 0xf20, 0x1040, 0x1090, 0x17e0, 0x1810,
    0x1946, 0x19d0, 0x1a80, 0x1a90, 0x1b50, 0x1bb0, 0x1c40, 0x1c50, 0xa620,
    0xa8d0, 0xa900, 0xa9d0, 0xa9f0, 0xaa50, 0xabf0, 0xff10, 0x104a0, 0x10d30,
    0x11066, 0x110f0, 0x11136, 0x111d0, 0x112f0, 0x11450, 0x114d0, 0x11650,
    0x116c0, 0x11730, 0x118e0, 0x11950, 0x11c50, 0x11d50, 0x11da0, 0x11f50,
    0x16a60, 0x16ac0, 0x16b50, 0x1d7ce, 0x1d7d8, 0x1d7e2, 0x1d7ec, 0x1d7f6,
    0x1e140, 0x1e2f0, 0x1e4f0, 0x1e950, 0x1fbf0]

def decimal (c : Char) : Option Nat :=
  (decimalZeros.find? fun first => first ≤ c.toNat ∧ c.toNat < first + 10).map
    (c.toNat - ·)

/-- `int` of a string: a sign and groups of digits joined by single underscores,
at most 4300 digits. -/
def int (text : List Char) : Except Caught Int :=
  let stripped := ((text.dropWhile isSpace).reverse.dropWhile isSpace).reverse
  let (sign, body) : Int × List Char := match stripped with
    | '-' :: rest => (-1, rest)
    | '+' :: rest => (1, rest)
    | _ => (1, stripped)
  let groups := (body.splitOn '_').mapM fun group =>
    if group = [] then none else group.mapM decimal
  match groups with
  | some groups =>
      if groups.flatten.length ≤ 4300 then
        .ok (sign * (groups.flatten.foldl (fun value digit => 10 * value + digit) 0 : Nat))
      else .error .valueError
  | none => .error .valueError

/-- The integers that `str` converts have at most 4300 digits too. -/
def convertible (number : Int) : Bool :=
  (toString number.natAbs).length ≤ 4300

theorem convertible_of_lt {number : Int} {digits : Nat} (few : digits ≤ 4300)
    (below : number.natAbs < 10 ^ digits) : convertible number = true := by
  apply decide_eq_true
  cases digits with
  | zero =>
      rw [Nat.lt_one_iff.mp below]
      decide
  | succ digits =>
      have short := (Nat.length_repr_le_iff (Nat.succ_pos digits)).mpr below
      exact Nat.le_trans short few

theorem decimal_lt {c : Char} {digit : Nat} (read : decimal c = some digit) :
    digit < 10 := by
  rcases Option.map_eq_some_iff.mp read with ⟨first, found, rfl⟩
  have bounds : first ≤ c.toNat ∧ c.toNat < first + 10 := by
    simpa using List.find?_some found
  omega

theorem forall_mem_of_mapM {α β : Type} {f : α → Option β} {P : β → Prop}
    (each : ∀ x y, f x = some y → P y) {values : List α} {results : List β}
    (collected : values.mapM f = some results) : ∀ y ∈ results, P y := by
  induction values generalizing results with
  | nil =>
      cases collected
      simp
  | cons value values induction =>
      rw [List.mapM_cons] at collected
      rcases Option.bind_eq_some_iff.mp collected with ⟨first, evaluated, rest⟩
      rcases Option.bind_eq_some_iff.mp rest with ⟨others, remaining, same⟩
      cases same
      intro y member
      rcases List.mem_cons.mp member with rfl | later
      · exact each value y evaluated
      · exact induction remaining y later

theorem foldl_digits_lt {digits : List Nat} (decimal : ∀ digit ∈ digits, digit < 10)
    (start : Nat) :
    digits.foldl (fun value digit => 10 * value + digit) start <
      (start + 1) * 10 ^ digits.length := by
  induction digits generalizing start with
  | nil => simp
  | cons digit digits induction =>
      have small := decimal digit List.mem_cons_self
      have rest := induction (fun digit member =>
        decimal digit (List.mem_cons_of_mem _ member)) (10 * start + digit)
      apply Nat.lt_of_lt_of_le rest
      rw [List.length_cons, Nat.pow_succ', ← Nat.mul_assoc]
      exact Nat.mul_le_mul_right _ (by omega)

theorem convertible_of_int {text : List Char} {number : Int}
    (read : int text = .ok number) : convertible number = true := by
  dsimp only [int] at read
  generalize ((text.dropWhile isSpace).reverse.dropWhile isSpace).reverse = stripped at read
  have magnitude : ∃ groups : List (List Nat),
      (∀ group ∈ groups, ∀ digit ∈ group, digit < 10) ∧
      groups.flatten.length ≤ 4300 ∧
      number.natAbs =
        groups.flatten.foldl (fun value digit => 10 * value + digit) 0 := by
    split at read
    · rename_i groups collected
      split at read
      · rename_i length
        cases read
        refine ⟨groups, ?_, length, ?_⟩
        · refine forall_mem_of_mapM (fun part group read => ?_) collected
          split at read
          · cases read
          · exact forall_mem_of_mapM (fun _ _ => decimal_lt) read
        · rw [Int.natAbs_mul, Int.natAbs_natCast]
          split <;> simp
      · cases read
    · cases read
  rcases magnitude with ⟨groups, decimals, length, same⟩
  apply convertible_of_lt length
  have decimalDigits : ∀ digit ∈ groups.flatten, digit < 10 := by
    intro digit member
    rcases List.mem_flatten.mp member with ⟨group, among, inside⟩
    exact decimals group among digit inside
  calc
    number.natAbs = groups.flatten.foldl (fun value digit => 10 * value + digit) 0 := same
    _ < (0 + 1) * 10 ^ groups.flatten.length := foldl_digits_lt decimalDigits 0
    _ = 10 ^ groups.flatten.length := by rw [Nat.zero_add, Nat.one_mul]

/-- `hmac.compare_digest` of two strings, which must be ASCII. -/
def compareDigest (left right : List Char) : Except Uncaught Bool :=
  if left.all (·.toNat < 128) && right.all (·.toNat < 128) then .ok (left = right)
  else .error .typeError

/-! ## The verifier -/

def parse (headerValue : String) : Except Caught (Int × List Char) := do
  let parts ← dict headerValue.toList
  let ts ← int (← subscript parts ['t'])
  let receivedSig ← subscript parts ['v']
  pure (ts, receivedSig)

variable (hmacSha256 : (key message : Bytes) → Bytes)

def hexdigest (secret message : String) : List Char :=
  Numerals.hex (hmacSha256 (asBytes secret) (asBytes message))

def message (clientId resource : String) (allowed : Bool)
    (remaining retryAfterMs ts : Int) : String :=
  s!"{clientId}|{resource}|{str allowed}|{remaining}|{retryAfterMs}|{ts}"

/-- The message as the f-string that it is, which converts its numbers. -/
def formatted (clientId resource : String) (allowed : Bool)
    (remaining retryAfterMs ts : Int) : Except Uncaught String :=
  if [remaining, retryAfterMs, ts].all convertible then
    .ok (message clientId resource allowed remaining retryAfterMs ts)
  else .error .valueError

def verifyRateHmac (headerValue secret clientId resource : String) (allowed : Bool)
    (remaining retryAfterMs maxAgeMs nowMs : Int) : Except Uncaught Bool :=
  match parse headerValue with
  | .error _ => .ok false
  | .ok (ts, receivedSig) =>
      if maxAgeMs < (nowMs - ts).natAbs then .ok false
      else do
        let msg ← formatted clientId resource allowed remaining retryAfterMs ts
        compareDigest (hexdigest hmacSha256 secret msg) receivedSig

end HmacUtils

end RateLimiting
