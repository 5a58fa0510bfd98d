import Mathlib.Tactic.Tauto
import RateLimiting.Foundation.Delimited
import RateLimiting.Http.MacRoundTrip

/-! # What the signature binds

The signed payload joins its fields with a delimiter that the first two of them,
which come from the caller, may hold. The other four never hold it, so the only
boundary that can move is the one between the client and the resource. -/

namespace RateLimiting

open HttpServer

structure SignedFields where
  clientId : String
  resource : String
  allowed : Bool
  remaining : Int64
  retryAfterMs : Int64
  ts : Int64
deriving DecidableEq

def signedFields (request : CheckRequest) (d : Decision) (ts : Int64) :
    SignedFields where
  clientId := request.clientId
  resource := request.resource
  allowed := d.allowed
  remaining := d.remaining
  retryAfterMs := d.retryAfterMs
  ts := ts

/-- The client id of `right` goes on where that of `left` ends, with a part that
the resource of `left` begins with. -/
def DelimiterMoved (left right : CheckRequest) : Prop :=
  ∃ middle : String, right.clientId = left.clientId ++ "|" ++ middle ∧
    left.resource = middle ++ "|" ++ right.resource

def SameRest (left right : SignedFields) : Prop :=
  left.allowed = right.allowed ∧ left.remaining = right.remaining ∧
    left.retryAfterMs = right.retryAfterMs ∧ left.ts = right.ts

theorem toList_macPayload (request : CheckRequest) (d : Decision) (ts : Int64) :
    (macPayload request d ts).toList =
      ((((request.clientId.toList ++ '|' :: request.resource.toList) ++
          '|' :: (toString d.allowed).toList) ++
        '|' :: Numerals.digits d.remaining.toInt) ++
          '|' :: Numerals.digits d.retryAfterMs.toInt) ++
            '|' :: Numerals.digits ts.toInt := by
  simp [macPayload, ← toList_toString, toString]

theorem delimiter_not_mem_digits (number : Int) : '|' ∉ Numerals.digits number := by
  intro member
  exact absurd (Numerals.digits_numeral number _ member) (by decide)

theorem delimiter_not_mem_bool (value : Bool) : '|' ∉ (toString value).toList := by
  cases value <;> decide

theorem digits_toInt_inj {left right : Int64} :
    Numerals.digits left.toInt = Numerals.digits right.toInt ↔ left = right := by
  constructor
  · intro same
    have values := congrArg Numerals.value same
    rw [Numerals.value_digits, Numerals.value_digits] at values
    exact Int64.toInt_inj.mp values
  · rintro rfl
    rfl

theorem toString_bool_inj {left right : Bool} :
    (toString left).toList = (toString right).toList ↔ left = right := by
  cases left <;> cases right <;> decide

theorem delimiterMoved_iff (left right : CheckRequest) :
    DelimiterMoved left right ↔
      ∃ middle, right.clientId.toList = left.clientId.toList ++ '|' :: middle ∧
        left.resource.toList = middle ++ '|' :: right.resource.toList := by
  constructor
  · rintro ⟨middle, client, resource⟩
    exact ⟨middle.toList, by simp [client], by simp [resource]⟩
  · rintro ⟨middle, client, resource⟩
    refine ⟨String.ofList middle, String.toList_inj.mp ?_, String.toList_inj.mp ?_⟩
    · simp [client]
    · simp [resource]

theorem macPayload_eq_iff (left right : CheckRequest) (d d' : Decision)
    (ts ts' : Int64) :
    macPayload left d ts = macPayload right d' ts' ↔
      SameRest (signedFields left d ts) (signedFields right d' ts') ∧
        ((left.clientId = right.clientId ∧ left.resource = right.resource) ∨
          DelimiterMoved left right ∨ DelimiterMoved right left) := by
  rw [← String.toList_inj, toList_macPayload, toList_macPayload,
    Delimited.join_inj (delimiter_not_mem_digits _) (delimiter_not_mem_digits _),
    Delimited.join_inj (delimiter_not_mem_digits _) (delimiter_not_mem_digits _),
    Delimited.join_inj (delimiter_not_mem_digits _) (delimiter_not_mem_digits _),
    Delimited.join_inj (delimiter_not_mem_bool _) (delimiter_not_mem_bool _),
    Delimited.join_eq_iff, digits_toInt_inj, digits_toInt_inj, digits_toInt_inj,
    toString_bool_inj, String.toList_inj, String.toList_inj, delimiterMoved_iff,
    delimiterMoved_iff]
  constructor
  · rintro ⟨⟨⟨⟨callers, allowed⟩, remaining⟩, retryAfterMs⟩, ts⟩
    exact ⟨⟨allowed, remaining, retryAfterMs, ts⟩, callers⟩
  · rintro ⟨⟨allowed, remaining, retryAfterMs, ts⟩, callers⟩
    exact ⟨⟨⟨⟨callers, allowed⟩, remaining⟩, retryAfterMs⟩, ts⟩

theorem DelimiterMoved.clientId_ne {left right : CheckRequest}
    (moved : DelimiterMoved left right) : left.clientId ≠ right.clientId := by
  rcases moved with ⟨middle, client, _⟩
  intro same
  have lengths := congrArg String.length (same.trans client)
  have delimiter : "|".length = 1 := rfl
  rw [String.length_append, String.length_append, delimiter] at lengths
  omega

theorem signedFields_eq_iff (left right : CheckRequest) (d d' : Decision)
    (ts ts' : Int64) :
    signedFields left d ts = signedFields right d' ts' ↔
      SameRest (signedFields left d ts) (signedFields right d' ts') ∧
        left.clientId = right.clientId ∧ left.resource = right.resource := by
  simp only [SameRest, signedFields, SignedFields.mk.injEq]
  tauto

/-- Two payloads that are equal are of the same fields. -/
def Binds (left right : CheckRequest) (d d' : Decision) (ts ts' : Int64) : Prop :=
  macPayload left d ts = macPayload right d' ts' →
    signedFields left d ts = signedFields right d' ts'

theorem binds_iff (left right : CheckRequest) (d d' : Decision) (ts ts' : Int64) :
    Binds left right d d' ts ts' ↔
      ¬ (SameRest (signedFields left d ts) (signedFields right d' ts') ∧
        (DelimiterMoved left right ∨ DelimiterMoved right left)) := by
  rw [Binds, macPayload_eq_iff, signedFields_eq_iff]
  constructor
  · rintro binds ⟨rest, moved⟩
    have same := (binds ⟨rest, .inr moved⟩).2.1
    rcases moved with moved | moved
    · exact moved.clientId_ne same
    · exact moved.clientId_ne same.symm
  · rintro still ⟨rest, same | moved⟩
    · exact ⟨rest, same⟩
    · exact absurd ⟨rest, moved⟩ still

/-- The payload, and with an injective keyed hash the signature, binds the six
fields exactly when the other four differ or the first delimiter has not moved. -/
theorem signature_binds_iff (hmacSha256 : (key message : Bytes) → Bytes)
    (injective : ∀ key, Function.Injective (hmacSha256 key)) (secret : String)
    (left right : CheckRequest) (d d' : Decision) (ts ts' : Int64) :
    (Binds left right d d' ts ts' ↔
      ¬ (SameRest (signedFields left d ts) (signedFields right d' ts') ∧
        (DelimiterMoved left right ∨ DelimiterMoved right left))) ∧
    ((hmacSha256Hex hmacSha256 secret (macPayload left d ts) =
        hmacSha256Hex hmacSha256 secret (macPayload right d' ts') →
          signedFields left d ts = signedFields right d' ts') ↔
      ¬ (SameRest (signedFields left d ts) (signedFields right d' ts') ∧
        (DelimiterMoved left right ∨ DelimiterMoved right left))) := by
  have samePayload : hmacSha256Hex hmacSha256 secret (macPayload left d ts) =
      hmacSha256Hex hmacSha256 secret (macPayload right d' ts') ↔
        macPayload left d ts = macPayload right d' ts' := by
    constructor
    · intro same
      apply asBytes_injective
      apply injective (asBytes secret)
      apply Numerals.hex_injective
      exact String.ofList_inj.mp same
    · intro same
      rw [same]
  rw [samePayload]
  exact ⟨binds_iff left right d d' ts ts', binds_iff left right d d' ts ts'⟩

def denialDigest : Bytes :=
  [86, 21, 161, 56, 63, 169, 27, 40, 17, 204, 109, 155, 216, 165, 242, 14, 130, 247,
    203, 17, 112, 208, 221, 7, 246, 19, 172, 47, 72, 248, 170, 59]

/-- An injective hash that is HMAC-SHA256 on the two payloads below. -/
def denialHmac (key message : Bytes) : Bytes :=
  if key = asBytes "change-me" ∧
      message = asBytes "alice|/api/orders|false|9|0|1700000000000" then denialDigest
  else sampleHmac key message

theorem sampleHmac_ne_denialDigest (key message : Bytes) :
    sampleHmac key message ≠ denialDigest := by
  unfold sampleHmac
  split_ifs
  · decide
  · decide
  · intro same
    have lengths := congrArg List.length same
    simp [denialDigest] at lengths

theorem denialHmac_injective (key : Bytes) : Function.Injective (denialHmac key) := by
  intro left right same
  unfold denialHmac at same
  split_ifs at same with isLeft isRight isRight
  · exact isLeft.2.trans isRight.2.symm
  · exact absurd same.symm (sampleHmac_ne_denialDigest key right)
  · exact absurd same (sampleHmac_ne_denialDigest key left)
  · exact sampleHmac_injective key same

theorem signature_binds_iff_denial :
    let request : CheckRequest := ⟨"alice", "/api/orders", 1⟩
    let d : Decision := ⟨true, 10, 9, 0, "ok — 1/10 used"⟩
    let d' : Decision := ⟨false, 10, 9, 0, "ok — 1/10 used"⟩
    (Binds request request d d' 1700000000000 1700000000000 ↔
      ¬ (SameRest (signedFields request d 1700000000000)
          (signedFields request d' 1700000000000) ∧
        (DelimiterMoved request request ∨ DelimiterMoved request request))) ∧
    ((hmacSha256Hex denialHmac "change-me" (macPayload request d 1700000000000) =
        hmacSha256Hex denialHmac "change-me" (macPayload request d' 1700000000000) →
          signedFields request d 1700000000000 =
            signedFields request d' 1700000000000) ↔
      ¬ (SameRest (signedFields request d 1700000000000)
          (signedFields request d' 1700000000000) ∧
        (DelimiterMoved request request ∨ DelimiterMoved request request))) := by
  intro request d d'
  exact signature_binds_iff denialHmac denialHmac_injective "change-me" request
    request d d' 1700000000000 1700000000000

/-- A delimiter in the client id of one caller and in the resource of another. -/
theorem delimiter_in_client_shares_payload :
    let d : Decision := ⟨true, 10, 9, 0, "ok — 1/10 used"⟩
    let left : CheckRequest := ⟨"alice|/admin", "/", 1⟩
    let right : CheckRequest := ⟨"alice", "/admin|/", 1⟩
    macPayload left d 1700000000000 = macPayload right d 1700000000000 ∧
      signedFields left d 1700000000000 ≠ signedFields right d 1700000000000 := by
  decide +kernel

end RateLimiting
