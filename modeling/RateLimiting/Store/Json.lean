import Mathlib.Data.Rat.Lemmas
import RateLimiting.Config
import RateLimiting.Foundation.Numerals

/-! # JSON texts of the stored states

One instance of `SerdeJson` for each type of state, with the texts that
`serde_json` writes: an object with the fields in declaration order. A number
that is not an integer is written as a fraction, since a rational need not have
a shortest decimal. The development is about every `SerdeJson`; runs are
evaluated with these. -/

namespace RateLimiting

namespace Json

open Numerals

def utf8 (text : List Char) : Bytes :=
  (String.ofList text).toByteArray.data.toList

def ofUtf8 (bytes : Bytes) : Option (List Char) :=
  (String.fromUTF8? ⟨⟨bytes⟩⟩).map String.toList

theorem ofUtf8_utf8 (text : List Char) : ofUtf8 (utf8 text) = some text := by
  have valid : (String.ofList text).toByteArray.IsValidUTF8 :=
    (String.ofList text).isValidUTF8
  have decoded : String.fromUTF8? ⟨⟨utf8 text⟩⟩ = some (String.ofList text) :=
    dif_pos valid
  rw [ofUtf8, decoded, Option.map_some, String.toList_ofList]

/-- A writer and a reader of the numbers that it writes. What is not exactly a
written text is not read. -/
def codec {State : Type} [DecidableEq State] (write : State → List Char)
    (read : List Int → Option State)
    (read_write : ∀ state, read (numbers (write state)) = some state) :
    SerdeJson State where
  toVec state := utf8 (write state)
  fromSlice bytes := do
    let text ← ofUtf8 bytes
    let state ← read (numbers text)
    if write state = text then some state else none
  fromSlice_toVec state := by simp [ofUtf8_utf8, read_write]

/-! ## Fields -/

def nat (number : UInt64) : List Char :=
  digits number.toNat

def int (number : Int64) : List Char :=
  digits number.toInt

def rational (number : ℚ) : List Char :=
  digits number.num ++
    if number.den = 1 then '.' :: digits 0 else '/' :: digits number.den

def ofRational (num den : Int) : ℚ :=
  if den = 0 then num else num / den

def ints : List Int64 → List Char
  | [] => []
  | [number] => int number
  | number :: rest => int number ++ ',' :: ints rest

theorem numbers_nat_append (number : UInt64) {c : Char}
    (separator : isNumeral c = false) (rest : List Char) :
    numbers (nat number ++ c :: rest) = (number.toNat : Int) :: numbers rest :=
  numbers_digits_append _ separator rest

theorem numbers_int_append (number : Int64) {c : Char}
    (separator : isNumeral c = false) (rest : List Char) :
    numbers (int number ++ c :: rest) = number.toInt :: numbers rest :=
  numbers_digits_append _ separator rest

theorem numbers_rational_append (number : ℚ) {c : Char}
    (separator : isNumeral c = false) (rest : List Char) :
    ∃ den, numbers (rational number ++ c :: rest) =
        number.num :: den :: numbers rest ∧
      ofRational number.num den = number := by
  unfold rational
  split
  · next whole =>
      refine ⟨0, ?_, ?_⟩
      · rw [List.append_assoc, List.cons_append,
          numbers_digits_append _ (by decide), numbers_digits_append _ separator]
      · rw [ofRational, if_pos rfl]
        exact Rat.coe_int_num_of_den_eq_one whole
  · refine ⟨number.den, ?_, ?_⟩
    · rw [List.append_assoc, List.cons_append,
        numbers_digits_append _ (by decide), numbers_digits_append _ separator]
    · rw [ofRational, if_neg (by exact_mod_cast number.den_nz)]
      exact_mod_cast Rat.num_div_den number

theorem numbers_ints_append (timestamps : List Int64) {c : Char}
    (separator : isNumeral c = false) (rest : List Char) :
    numbers (ints timestamps ++ c :: rest) =
      timestamps.map Int64.toInt ++ numbers rest := by
  induction timestamps with
  | nil => exact numbers_cons_separator separator rest
  | cons number timestamps induction =>
      cases timestamps with
      | nil => exact numbers_int_append number separator rest
      | cons next others =>
          have split : ints (number :: next :: others) ++ c :: rest =
              int number ++ ',' :: (ints (next :: others) ++ c :: rest) := by
            simp [ints]
          rw [split, numbers_int_append number (by decide), induction]
          rfl

/-! ## States -/

def fixedWindow : SerdeJson FixedWindow.State :=
  codec
    (fun state => "\x7b\"count\":".toList ++ (nat state.count ++
      ',' :: ("\"window_id\":".toList ++ (nat state.windowId ++ ['\x7d']))))
    (fun
      | [count, windowId] =>
          some ⟨UInt64.ofNat count.toNat, UInt64.ofNat windowId.toNat⟩
      | _ => none)
    (by
      intro state
      rw [numbers_append_plain (by decide), numbers_nat_append _ (by decide),
        numbers_append_plain (by decide), numbers_nat_append _ (by decide)]
      simp)

def slidingWindowCounter : SerdeJson SlidingWindowCounter.State :=
  codec
    (fun state => "\x7b\"prev_count\":".toList ++ (nat state.prevCount ++
      ',' :: ("\"curr_count\":".toList ++ (nat state.currCount ++
      ',' :: ("\"curr_window_id\":".toList ++
        (nat state.currWindowId ++ ['\x7d']))))))
    (fun
      | [prevCount, currCount, currWindowId] =>
          some ⟨UInt64.ofNat prevCount.toNat, UInt64.ofNat currCount.toNat,
            UInt64.ofNat currWindowId.toNat⟩
      | _ => none)
    (by
      intro state
      rw [numbers_append_plain (by decide), numbers_nat_append _ (by decide),
        numbers_append_plain (by decide), numbers_nat_append _ (by decide),
        numbers_append_plain (by decide), numbers_nat_append _ (by decide)]
      simp)

def slidingWindowLog : SerdeJson SlidingWindowLog.State :=
  codec
    (fun state => "\x7b\"timestamps_ms\":[".toList ++
      (ints state.timestampsMs ++ ']' :: ['\x7d']))
    (fun timestamps => some ⟨timestamps.map Int64.ofInt⟩)
    (by
      intro state
      rw [numbers_append_plain (by decide), numbers_ints_append _ (by decide),
        numbers_cons_separator (by decide)]
      simp [Function.comp_def])

def bucket {State : Type} [DecidableEq State] (level time : String)
    (levelPlain : Plain level.toList) (timePlain : Plain time.toList)
    (fields : State → ℚ × Int64) (build : ℚ × Int64 → State)
    (build_fields : ∀ state, build (fields state) = state) : SerdeJson State :=
  codec
    (fun state => level.toList ++ (rational (fields state).1 ++
      ',' :: (time.toList ++ (int (fields state).2 ++ ['\x7d']))))
    (fun
      | [num, den, last] => some (build (ofRational num den, Int64.ofInt last))
      | _ => none)
    (by
      intro state
      rcases numbers_rational_append (fields state).1
        (c := ',') (by decide) (time.toList ++ (int (fields state).2 ++ ['\x7d'])) with
          ⟨den, read, exact⟩
      rw [numbers_append_plain levelPlain, read,
        numbers_append_plain timePlain, numbers_int_append _ (by decide)]
      simp [exact, build_fields])

def tokenBucket : SerdeJson TokenBucket.State :=
  bucket "\x7b\"tokens\":" "\"last_refill_ms\":" (by decide) (by decide)
    (fun state => (state.tokens, state.lastRefillMs))
    (fun fields => ⟨fields.1, fields.2⟩) (fun _ => rfl)

def leakyBucket : SerdeJson LeakyBucket.State :=
  bucket "\x7b\"queue\":" "\"last_leak_ms\":" (by decide) (by decide)
    (fun state => (state.queue, state.lastLeakMs))
    (fun fields => ⟨fields.1, fields.2⟩) (fun _ => rfl)

example : tokenBucket.toVec ⟨1, 250⟩ =
    "\x7b\"tokens\":1.0,\"last_refill_ms\":250\x7d".toByteArray.data.toList := by
  decide +kernel

end Json

end RateLimiting
