import Mathlib.Tactic.SplitIfs
import RateLimiting.Http.HmacUtils

/-! # The authentication code between server and client

Both sides join the same fields, but the server renders the decision as `true`
or `false` and the client as `True` or `False`. No header that the server emits
passes the client's check. -/

namespace RateLimiting

open HttpServer HmacUtils

theorem toList_toString (number : Int) :
    (toString number).toList = Numerals.digits number := by
  cases number with
  | ofNat magnitude => simp [toString, Int.repr, Numerals.digits]
  | negSucc magnitude => simp [toString, Int.repr, Numerals.digits]

def macHeader (ts : Int64) (sig : List Char) : String :=
  s!"t={ts},v={String.ofList sig}"

theorem toList_macHeader (ts : Int64) (sig : List Char) :
    (macHeader ts sig).toList =
      ('t' :: '=' :: Numerals.digits ts.toInt) ++ ',' :: 'v' :: '=' :: sig := by
  simp [macHeader, ← toList_toString, toString]

theorem isHeaderChar_of_isNumeral {c : Char} (numeral : Numerals.isNumeral c = true) :
    isHeaderChar c = true ∧ c ≠ ',' ∧ c ≠ '=' := by
  rcases Bool.or_eq_true_iff.mp numeral with digit | minus
  · rcases Bool.and_eq_true_iff.mp digit with ⟨low, high⟩
    have atLeast : 48 ≤ c.toNat := UInt32.le_iff_toNat_le.mp (of_decide_eq_true low)
    have atMost : c.toNat ≤ 57 := UInt32.le_iff_toNat_le.mp (of_decide_eq_true high)
    refine ⟨decide_eq_true (.inl ⟨by omega, by omega⟩), ?_, ?_⟩
    · rintro rfl
      exact absurd atLeast (by decide)
    · rintro rfl
      exact absurd atMost (by decide)
  · rw [beq_iff_eq.mp minus]
    decide

theorem isHeaderChar_of_mem_hex {bytes : List UInt8} {c : Char}
    (member : c ∈ Numerals.hex bytes) :
    isHeaderChar c = true ∧ c ≠ ',' ∧ c ≠ '=' ∧ c.toNat < 128 := by
  have digits : ("0123456789abcdef".toList.all fun c =>
      isHeaderChar c = true ∧ c ≠ ',' ∧ c ≠ '=' ∧ c.toNat < 128) = true := by decide
  simpa using List.all_eq_true.mp digits c (Numerals.mem_hex member)

theorem headerValue_macHeader (ts : Int64) (bytes : List UInt8) :
    headerValue (macHeader ts (Numerals.hex bytes)) =
      macHeader ts (Numerals.hex bytes) := by
  refine if_pos (List.all_eq_true.mpr ?_)
  intro c member
  rw [toList_macHeader] at member
  simp only [List.mem_append, List.mem_cons] at member
  rcases member with (rfl | rfl | digit) | rfl | rfl | rfl | digit
  · decide
  · decide
  · exact (isHeaderChar_of_isNumeral (Numerals.digits_numeral _ c digit)).1
  · decide
  · decide
  · decide
  · exact (isHeaderChar_of_mem_hex digit).1

theorem dict_macHeader (ts : Int64) (bytes : List UInt8) :
    dict (macHeader ts (Numerals.hex bytes)).toList =
      .ok [(['t'], Numerals.digits ts.toInt), (['v'], Numerals.hex bytes)] := by
  have first : ',' ∉ 't' :: '=' :: Numerals.digits ts.toInt := by
    simp only [List.mem_cons, not_or]
    refine ⟨by decide, by decide, fun member => ?_⟩
    exact (isHeaderChar_of_isNumeral (Numerals.digits_numeral _ _ member)).2.1 rfl
  have second : ',' ∉ 'v' :: '=' :: Numerals.hex bytes := by
    simp only [List.mem_cons, not_or]
    refine ⟨by decide, by decide, fun member => ?_⟩
    exact (isHeaderChar_of_mem_hex member).2.1 rfl
  rw [dict, toList_macHeader, List.splitOn_append_cons_self_of_not_mem first,
    List.splitOn_eq_singleton second]
  rfl

theorem parse_macHeader (ts : Int64) (bytes : List UInt8) :
    parse (macHeader ts (Numerals.hex bytes)) =
      (int (Numerals.digits ts.toInt)).map fun time => (time, Numerals.hex bytes) := by
  rw [parse, dict_macHeader]
  change (int (Numerals.digits ts.toInt)).bind (fun time =>
    .ok (time, Numerals.hex bytes)) = _
  cases int (Numerals.digits ts.toInt) <;> rfl

theorem hex_ascii (bytes : List UInt8) :
    (Numerals.hex bytes).all (·.toNat < 128) = true := by
  rw [List.all_eq_true]
  exact fun c member => decide_eq_true (isHeaderChar_of_mem_hex member).2.2.2

theorem compareDigest_hex (left right : List UInt8) :
    compareDigest (Numerals.hex left) (Numerals.hex right) =
      .ok (Numerals.hex left = Numerals.hex right) := by
  rw [compareDigest, hex_ascii, hex_ascii]
  rfl

theorem convertible_int64 (number : Int64) : convertible number.toInt = true := by
  have low := number.le_toInt
  have high := number.toInt_lt
  have powers : 2 ^ 63 < 10 ^ 63 := by decide
  apply convertible_of_lt (by omega : 63 ≤ 4300)
  omega

variable (hmacSha256 : (key message : Bytes) → Bytes)

theorem header_checkHandler (name secret : String) (request : CheckRequest)
    (d : Decision) (ts : Int64) :
    (checkHandler hmacSha256 name (some secret) request d ts).header
        "x-ratelimit-mac" =
      some (macHeader ts (Numerals.hex (hmacSha256 (asBytes secret)
        (asBytes (macPayload request d ts))))) := by
  rw [← headerValue_macHeader]
  cases retried : !d.allowed && decide (0 < d.retryAfterMs) <;>
    simp [checkHandler, Response.header, List.lookup_cons, retried, macHeader,
      hmacSha256Hex]

theorem macPayload_ne_message (request : CheckRequest) (d : Decision) (ts : Int64)
    (time : Int) :
    macPayload request d ts ≠ message request.clientId request.resource d.allowed
      d.remaining.toInt d.retryAfterMs.toInt time := by
  intro same
  have texts := congrArg String.toList same
  cases allowed : d.allowed <;>
    simp [macPayload, message, str, allowed, toString, String.append_assoc] at texts

/-- Whatever the keyed hash, as long as it is injective: the header that the
server emits is rejected by the client, for every secret, request, decision and
pair of times. -/
theorem emitted_mac_rejected
    (injective : ∀ key, Function.Injective (hmacSha256 key)) (name secret : String)
    (request : CheckRequest) (d : Decision) (ts : Int64) (maxAgeMs nowMs : Int) :
    ((checkHandler hmacSha256 name (some secret) request d ts).header
        "x-ratelimit-mac").map (fun headerValue =>
          verifyRateHmac hmacSha256 headerValue secret request.clientId
            request.resource d.allowed d.remaining.toInt d.retryAfterMs.toInt
            maxAgeMs nowMs) =
      some (.ok false) := by
  rw [header_checkHandler, Option.map_some, verifyRateHmac, parse_macHeader]
  congr 1
  cases read : int (Numerals.digits ts.toInt) with
  | error caught => rfl
  | ok time =>
      have different : hexdigest hmacSha256 secret (message request.clientId
            request.resource d.allowed d.remaining.toInt d.retryAfterMs.toInt time) ≠
          Numerals.hex (hmacSha256 (asBytes secret)
            (asBytes (macPayload request d ts))) := by
        intro same
        have sameMessage := asBytes_injective (injective _ (Numerals.hex_injective same))
        exact macPayload_ne_message request d ts time sameMessage.symm
      simp only [Except.map]
      split
      · rfl
      · have converted := convertible_of_int read
        simp only [formatted, List.all_cons, List.all_nil, convertible_int64, converted,
          Bool.and_true, if_true]
        change compareDigest (Numerals.hex _) _ = _
        rw [compareDigest_hex]
        exact congrArg Except.ok (decide_eq_false different)

/-- An injective hash that is HMAC-SHA256 on the payloads of the two sides for one
request. -/
def sampleHmac (key message : Bytes) : Bytes :=
  if key = asBytes "change-me" ∧
      message = asBytes "alice|/api/orders|true|9|0|1700000000000" then
    [241, 41, 121, 231, 172, 69, 144, 230, 21, 223, 255, 46, 94, 192, 124, 22,
      125, 183, 50, 33, 5, 188, 37, 13, 174, 141, 202, 7, 79, 48, 184, 68]
  else if key = asBytes "change-me" ∧
      message = asBytes "alice|/api/orders|True|9|0|1700000000000" then
    [239, 148, 155, 254, 123, 194, 36, 3, 140, 0, 214, 132, 2, 239, 118, 12,
      90, 116, 80, 106, 74, 132, 176, 237, 4, 21, 197, 22, 232, 86, 227, 174]
  else List.replicate 33 0 ++ message

theorem sampleHmac_injective (key : Bytes) : Function.Injective (sampleHmac key) := by
  intro left right same
  have padded : ∀ digest message : Bytes, digest.length = 32 →
      digest ≠ List.replicate 33 0 ++ message := by
    rintro _ message short rfl
    simp at short
  unfold sampleHmac at same
  split_ifs at same with leftServer rightServer rightClient leftClient rightServer
    rightClient rightServer rightClient
  · exact leftServer.2.trans rightServer.2.symm
  · exact absurd same (by decide)
  · exact absurd same (padded _ _ rfl)
  · exact absurd same (by decide)
  · exact leftClient.2.trans rightClient.2.symm
  · exact absurd same (padded _ _ rfl)
  · exact absurd same.symm (padded _ _ rfl)
  · exact absurd same.symm (padded _ _ rfl)
  · exact List.append_cancel_left same

theorem emitted_mac_rejected_admission :
    let request : CheckRequest := ⟨"alice", "/api/orders", 1⟩
    let d : Decision := ⟨true, 10, 9, 0, "ok — 1/10 used"⟩
    ((checkHandler sampleHmac "fixed_window" (some "change-me") request d
        1700000000000).header "x-ratelimit-mac").map (fun headerValue =>
          verifyRateHmac sampleHmac headerValue "change-me" request.clientId
            request.resource d.allowed d.remaining.toInt d.retryAfterMs.toInt
            60000 1700000000000) =
      some (.ok false) := by
  intro request d
  exact emitted_mac_rejected sampleHmac sampleHmac_injective "fixed_window"
    "change-me" request d 1700000000000 60000 1700000000000

/-- The client rejects the header of the server and accepts the one that it would
have made itself. -/
theorem decision_rendered_otherwise :
    let request : CheckRequest := ⟨"alice", "/api/orders", 1⟩
    let d : Decision := ⟨true, 10, 9, 0, "ok — 1/10 used"⟩
    let emitted := "t=1700000000000," ++
      "v=f12979e7ac4590e615dfff2e5ec07c167db7322105bc250dae8dca074f30b844"
    let expected := "t=1700000000000," ++
      "v=ef949bfe7bc224038c00d68402ef760c5a74506a4a84b0ed0415c516e856e3ae"
    (checkHandler sampleHmac "fixed_window" (some "change-me") request d
        1700000000000).header "x-ratelimit-mac" = some emitted ∧
      (verifyRateHmac sampleHmac emitted "change-me" "alice" "/api/orders" true 9 0
        60000 1700000000000).toOption = some false ∧
      (verifyRateHmac sampleHmac expected "change-me" "alice" "/api/orders" true 9 0
        60000 1700000000000).toOption = some true := by
  decide +kernel

end RateLimiting
