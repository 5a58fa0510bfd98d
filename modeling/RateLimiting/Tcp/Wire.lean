import Mathlib.Logic.Equiv.List
import Mathlib.Tactic.DeriveEncodable
import RateLimiting.Foundation.ByteStream
import RateLimiting.Limiter
import RateLimiting.Store.Basic

/-! # The FlatBuffers tables of the TCP protocol

The two tables of the protocol, as the Rust server and the Python client write
and read them. The libraries themselves are a parameter: a table is the list of
the slots that were pushed, each under its position in the vtable. -/

namespace RateLimiting

namespace FlatBuffers

inductive FieldValue where
  | string (text : String)
  | uint32 (value : UInt32)
  | int64 (value : Int64)
  | bool (value : Bool)
deriving DecidableEq, Repr

abbrev Slot := Nat × FieldValue

inductive InvalidFlatbuffer where
  | missingRequiredField (required : String)
  | malformed
deriving DecidableEq, Repr

/-- A table in a buffer. At a position there is no slot, or bytes that may or may
not be a value of the type that is asked for. -/
structure Table where
  string : Nat → Option (Except InvalidFlatbuffer String)
  uint32 : Nat → Option (Except InvalidFlatbuffer UInt32)
  int64 : Nat → Option (Except InvalidFlatbuffer Int64)
  bool : Nat → Option (Except InvalidFlatbuffer Bool)

namespace Table

/-- What a table shows at a position where a value, or nothing, was pushed. -/
def Shows (table : Table) (position : Nat) : Option FieldValue → Prop
  | some (.string text) => table.string position = some (.ok text)
  | some (.uint32 value) => table.uint32 position = some (.ok value)
  | some (.int64 value) => table.int64 position = some (.ok value)
  | some (.bool value) => table.bool position = some (.ok value)
  | none => table.string position = none ∧ table.uint32 position = none ∧
      table.int64 position = none ∧ table.bool position = none

section Scalars

variable {table : Table} {position : Nat}

theorem Shows.scalar {α : Type} [DecidableEq α] {wrap : α → FieldValue}
    {read : Option (Except InvalidFlatbuffer α)} {value default : α}
    (shows : table.Shows position (if value = default then none else some (wrap value)))
    (absent : table.Shows position none → read = none)
    (present : table.Shows position (some (wrap value)) → read = some (.ok value)) :
    read = if value = default then none else some (.ok value) := by
  by_cases isDefault : value = default
  · rw [if_pos isDefault] at shows ⊢
    exact absent shows
  · rw [if_neg isDefault] at shows ⊢
    exact present shows

theorem Shows.uint32 {value default : UInt32}
    (shows : table.Shows position
      (if value = default then none else some (.uint32 value))) :
    table.uint32 position = if value = default then none else some (.ok value) :=
  shows.scalar (fun absent => absent.2.1) id

theorem Shows.int64 {value default : Int64}
    (shows : table.Shows position
      (if value = default then none else some (.int64 value))) :
    table.int64 position = if value = default then none else some (.ok value) :=
  shows.scalar (fun absent => absent.2.2.1) id

theorem Shows.bool {value default : Bool}
    (shows : table.Shows position
      (if value = default then none else some (.bool value))) :
    table.bool position = if value = default then none else some (.ok value) :=
  shows.scalar (fun absent => absent.2.2.2) id

end Scalars

def Holds (table : Table) (slots : List Slot) : Prop :=
  ∀ position, table.Shows position (slots.lookup position)

end Table

/-- One implementation of the format. A finished buffer starts with the four
bytes of the offset of its root. -/
structure Library where
  finish : List Slot → Bytes
  root : Bytes → Except InvalidFlatbuffer Table
  rootOffset : ∀ slots, 4 ≤ (finish slots).length

def maxBufferSize : Nat := 2 ^ 31

/-- A builder makes no buffer of more than two gigabytes; it panics. -/
def Library.Makes (library : Library) (slots : List Slot) : Prop :=
  (library.finish slots).length ≤ maxBufferSize

/-- Tables that `writer` finishes are found by `reader` as they were pushed. -/
def Library.Reads (reader writer : Library) : Prop :=
  ∀ slots : List Slot, (slots.map Prod.fst).Nodup → writer.Makes slots →
    ∃ table, reader.root (writer.finish slots) = .ok table ∧ table.Holds slots

def Library.Finds (reader : Library) (buf : Bytes) (slots : List Slot) : Prop :=
  ∃ table, reader.root buf = .ok table ∧ table.Holds slots

def Library.Understands (reader writer : Library) : Prop :=
  ∀ slots : List Slot, (slots.map Prod.fst).Nodup →
    reader.Finds (writer.finish slots) slots

/-- `push_slot`, which leaves a default out. -/
def pushSlot {α : Type} [DecidableEq α] (wrap : α → FieldValue) (position : Nat)
    (value default : α) : List Slot :=
  if value = default then [] else [(position, wrap value)]

theorem pushSlot_positions {α : Type} [DecidableEq α] (wrap : α → FieldValue)
    (position : Nat) (value default : α) :
    ((pushSlot wrap position value default).map Prod.fst).Sublist [position] := by
  unfold pushSlot
  split
  · exact List.nil_sublist _
  · exact List.Sublist.refl _

theorem lookup_pushSlot {α : Type} [DecidableEq α] (wrap : α → FieldValue)
    (position other : Nat) (value default : α) :
    (pushSlot wrap position value default).lookup other =
      if other = position ∧ value ≠ default then some (wrap value) else none := by
  by_cases isDefault : value = default
  · simp [pushSlot, isDefault]
  · by_cases same : other = position
    · simp [pushSlot, isDefault, same]
    · have different : (other == position) = false := beq_eq_false_iff_ne.mpr same
      simp [pushSlot, isDefault, same, different, List.lookup_cons]

end FlatBuffers

open FlatBuffers

structure Libraries where
  rust : Library
  python : Library
  rust_reads : rust.Reads python
  python_reads : python.Reads rust

/-! ## The request -/

/-- A request that passed the verifier. -/
structure RateLimitRequest where
  tab : FlatBuffers.Table

namespace RateLimitRequest

def vtClientId : Nat := 4
def vtResource : Nat := 6
def vtCost : Nat := 8

variable (self : RateLimitRequest)

def clientId : Option String :=
  (self.tab.string vtClientId).bind Except.toOption

def resource : Option String :=
  (self.tab.string vtResource).bind Except.toOption

def cost : UInt32 :=
  ((self.tab.uint32 vtCost).bind Except.toOption).getD 1

/-- `visit_field` of the verifier. -/
def visitField {α : Type} (fieldName : String) (required : Bool) :
    Option (Except InvalidFlatbuffer α) → Except InvalidFlatbuffer Unit
  | some (.ok _) => .ok ()
  | some (.error invalid) => .error invalid
  | none => if required then .error (.missingRequiredField fieldName) else .ok ()

def runVerifier (table : FlatBuffers.Table) : Except InvalidFlatbuffer Unit := do
  visitField "client_id" true (table.string vtClientId)
  visitField "resource" false (table.string vtResource)
  visitField "cost" false (table.uint32 vtCost)

def arguments : CheckRequest where
  clientId := self.clientId.getD "unknown"
  resource := self.resource.getD "/"
  cost := self.cost

end RateLimitRequest

def rootAsRateLimitRequest (rust : Library) (buf : Bytes) :
    Except InvalidFlatbuffer RateLimitRequest := do
  let table ← rust.root buf
  RateLimitRequest.runVerifier table
  return ⟨table⟩

namespace RateLimitClient

/-- The vtable position of a slot number of the Python builder. -/
def slotPosition (slotnum : Nat) : Nat :=
  4 + 2 * slotnum

/-- The offset of a created string is never the default `0`. -/
def prependUOffsetTRelativeSlot (slotnum : Nat) (text : String) : List Slot :=
  [(slotPosition slotnum, .string text)]

def prependUint32Slot (slotnum : Nat) (value default : UInt32) : List Slot :=
  pushSlot .uint32 (slotPosition slotnum) value default

def requestSlots (request : CheckRequest) : List Slot :=
  prependUOffsetTRelativeSlot 0 request.clientId ++
    prependUOffsetTRelativeSlot 1 request.resource ++
    prependUint32Slot 2 request.cost 1

def buildRequest (python : Library) (request : CheckRequest) : Bytes :=
  python.finish (requestSlots request)

end RateLimitClient

namespace RateLimitClient

theorem requestSlots_distinct (request : CheckRequest) :
    ((requestSlots request).map Prod.fst).Nodup := by
  have within : ((requestSlots request).map Prod.fst).Sublist [4, 6, 8] := by
    rw [requestSlots, List.map_append]
    exact (List.Sublist.refl [4, 6]).append (pushSlot_positions ..)
  exact within.nodup (by decide)

theorem requestSlots_clientId (request : CheckRequest) :
    (requestSlots request).lookup RateLimitRequest.vtClientId =
      some (.string request.clientId) := rfl

theorem requestSlots_resource (request : CheckRequest) :
    (requestSlots request).lookup RateLimitRequest.vtResource =
      some (.string request.resource) := rfl

theorem requestSlots_cost (request : CheckRequest) :
    (requestSlots request).lookup RateLimitRequest.vtCost =
      if request.cost = 1 then none else some (.uint32 request.cost) := by
  simp [requestSlots, prependUOffsetTRelativeSlot, prependUint32Slot, slotPosition,
    RateLimitRequest.vtCost, lookup_pushSlot, List.lookup_cons]

end RateLimitClient

theorem rootAsRateLimitRequest_of_finds {rust : Library} {buf : Bytes}
    {request : CheckRequest} (finds : rust.Finds buf (RateLimitClient.requestSlots request)) :
    ∃ view, rootAsRateLimitRequest rust buf = .ok view ∧
      view.clientId = some request.clientId ∧ view.resource = some request.resource ∧
      view.cost = request.cost := by
  rcases finds with ⟨table, isRoot, holds⟩
  have clientId := holds RateLimitRequest.vtClientId
  have resource := holds RateLimitRequest.vtResource
  have cost := holds RateLimitRequest.vtCost
  rw [RateLimitClient.requestSlots_clientId, FlatBuffers.Table.Shows] at clientId
  rw [RateLimitClient.requestSlots_resource, FlatBuffers.Table.Shows] at resource
  rw [RateLimitClient.requestSlots_cost] at cost
  have verified : RateLimitRequest.runVerifier table = .ok () := by
    rw [RateLimitRequest.runVerifier, clientId, resource, cost.uint32]
    split <;> rfl
  refine ⟨⟨table⟩, ?_, ?_, ?_, ?_⟩
  · rw [rootAsRateLimitRequest, isRoot]
    simp only [bind, Except.bind, verified]
    rfl
  · rw [RateLimitRequest.clientId, clientId]
    rfl
  · rw [RateLimitRequest.resource, resource]
    rfl
  · rw [RateLimitRequest.cost, cost.uint32]
    split
    · rename_i isDefault
      exact isDefault.symm
    · rfl

theorem rootAsRateLimitRequest_buildRequest (libraries : Libraries)
    (request : CheckRequest)
    (makes : libraries.python.Makes (RateLimitClient.requestSlots request)) :
    ∃ view, rootAsRateLimitRequest libraries.rust
        (RateLimitClient.buildRequest libraries.python request) = .ok view ∧
      view.arguments = request := by
  have finds := libraries.rust_reads _ (RateLimitClient.requestSlots_distinct request) makes
  rcases rootAsRateLimitRequest_of_finds finds with ⟨view, read, clientId, resource, cost⟩
  refine ⟨view, read, ?_⟩
  rw [RateLimitRequest.arguments, clientId, resource, cost]
  rfl

/-! ## The response -/

namespace RateLimitResponseBuilder

def vtAllowed : Nat := 4
def vtRemaining : Nat := 6
def vtRetryAfterMs : Nat := 8
def vtReason : Nat := 10

def addAllowed (allowed : Bool) : List Slot :=
  pushSlot .bool vtAllowed allowed false

def addRemaining (remaining : Int64) : List Slot :=
  pushSlot .int64 vtRemaining remaining 0

def addRetryAfterMs (retryAfterMs : Int64) : List Slot :=
  pushSlot .int64 vtRetryAfterMs retryAfterMs 0

def addReason (reason : String) : List Slot :=
  [(vtReason, .string reason)]

end RateLimitResponseBuilder

open RateLimitResponseBuilder in
def responseSlots (d : Decision) : List Slot :=
  addAllowed d.allowed ++ addRemaining d.remaining ++
    addRetryAfterMs d.retryAfterMs ++ addReason d.reason

def encodeResponse (rust : Library) (d : Decision) : Bytes :=
  rust.finish (responseSlots d)

/-- The model of the client, whose validation refuses negative numbers. -/
structure RateLimitResponse where
  allowed : Bool
  remaining : Int
  retryAfterMs : Int
  reason : String
  remaining_nonneg : 0 ≤ remaining
  retryAfterMs_nonneg : 0 ≤ retryAfterMs
deriving DecidableEq, Repr

inductive ResponseError where
  | malformed (invalid : InvalidFlatbuffer)
  | validation (fields : List String)
deriving DecidableEq, Repr

namespace RateLimitResponse

/-- The fields that fail the check `ge=0`. -/
def negativeFields (remaining retryAfterMs : Int) : List String :=
  (if 0 ≤ remaining then [] else ["remaining"]) ++
    (if 0 ≤ retryAfterMs then [] else ["retry_after_ms"])

def validate (allowed : Bool) (remaining retryAfterMs : Int) (reason : String) :
    Except ResponseError RateLimitResponse :=
  if nonneg : 0 ≤ remaining ∧ 0 ≤ retryAfterMs then
    .ok ⟨allowed, remaining, retryAfterMs, reason, nonneg.1, nonneg.2⟩
  else .error (.validation (negativeFields remaining retryAfterMs))

end RateLimitResponse

namespace RateLimitClient

def respVtAllowed : Nat := 4
def respVtRemaining : Nat := 6
def respVtRetryAfterMs : Nat := 8
def respVtReason : Nat := 10

/-- The readers `_bool`, `_i64` and `_str`, with their default for an absent
slot. -/
def readOr {α : Type} (default : α) :
    Option (Except InvalidFlatbuffer α) → Except ResponseError α
  | none => .ok default
  | some (.ok value) => .ok value
  | some (.error invalid) => .error (.malformed invalid)

def parseResponse (python : Library) (buf : Bytes) :
    Except ResponseError RateLimitResponse := do
  let tab ← (python.root buf).mapError .malformed
  let allowed ← readOr false (tab.bool respVtAllowed)
  let remaining ← readOr 0 (tab.int64 respVtRemaining)
  let retryAfterMs ← readOr 0 (tab.int64 respVtRetryAfterMs)
  let reason ← readOr "" (tab.string respVtReason)
  RateLimitResponse.validate allowed remaining.toInt retryAfterMs.toInt reason

theorem readOr_of_omitted {α : Type} [DecidableEq α] (value default : α) :
    readOr default (if value = default then none else some (.ok value)) =
      .ok value := by
  split
  · rename_i isDefault
    rw [isDefault, readOr]
  · rfl

end RateLimitClient

theorem responseSlots_distinct (d : Decision) :
    ((responseSlots d).map Prod.fst).Nodup := by
  have within : ((responseSlots d).map Prod.fst).Sublist ([4] ++ [6] ++ [8] ++ [10]) := by
    rw [responseSlots, List.map_append, List.map_append, List.map_append]
    exact (((pushSlot_positions ..).append (pushSlot_positions ..)).append
      (pushSlot_positions ..)).append (List.Sublist.refl _)
  exact within.nodup (by decide)

section Lookups

open RateLimitResponseBuilder

variable (d : Decision)

theorem lookup_responseSlots (position : Nat) :
    (responseSlots d).lookup position =
      (((if position = vtAllowed ∧ d.allowed ≠ false then
            some (.bool d.allowed) else none).or
          (if position = vtRemaining ∧ d.remaining ≠ 0 then
            some (.int64 d.remaining) else none)).or
        (if position = vtRetryAfterMs ∧ d.retryAfterMs ≠ 0 then
          some (.int64 d.retryAfterMs) else none)).or
      ([(vtReason, FieldValue.string d.reason)].lookup position) := by
  rw [responseSlots, List.lookup_append, List.lookup_append, List.lookup_append,
    addAllowed, lookup_pushSlot, addRemaining, lookup_pushSlot, addRetryAfterMs,
    lookup_pushSlot, addReason]

theorem responseSlots_allowed :
    (responseSlots d).lookup vtAllowed =
      if d.allowed = false then none else some (.bool d.allowed) := by
  rw [lookup_responseSlots]
  cases d.allowed <;> rfl

theorem responseSlots_remaining :
    (responseSlots d).lookup vtRemaining =
      if d.remaining = 0 then none else some (.int64 d.remaining) := by
  rw [lookup_responseSlots]
  by_cases isZero : d.remaining = 0 <;>
    simp [isZero, vtAllowed, vtRemaining, vtRetryAfterMs, vtReason, List.lookup_cons]

theorem responseSlots_retryAfterMs :
    (responseSlots d).lookup vtRetryAfterMs =
      if d.retryAfterMs = 0 then none else some (.int64 d.retryAfterMs) := by
  rw [lookup_responseSlots]
  by_cases isZero : d.retryAfterMs = 0 <;>
    simp [isZero, vtAllowed, vtRemaining, vtRetryAfterMs, vtReason, List.lookup_cons]

theorem responseSlots_reason :
    (responseSlots d).lookup vtReason = some (.string d.reason) := by
  rw [lookup_responseSlots]
  simp [vtAllowed, vtRemaining, vtRetryAfterMs, vtReason]

end Lookups

open RateLimitClient in
theorem parseResponse_of_finds {python : Library} {buf : Bytes} {d : Decision}
    (finds : python.Finds buf (responseSlots d)) :
    parseResponse python buf =
      RateLimitResponse.validate d.allowed d.remaining.toInt d.retryAfterMs.toInt
        d.reason := by
  rcases finds with ⟨table, isRoot, holds⟩
  -- Both sides number the fields alike.
  have allowed : readOr false (table.bool respVtAllowed) = .ok d.allowed := by
    have shows := holds RateLimitResponseBuilder.vtAllowed
    rw [responseSlots_allowed] at shows
    exact (congrArg _ shows.bool).trans (readOr_of_omitted ..)
  have remaining : readOr 0 (table.int64 respVtRemaining) = .ok d.remaining := by
    have shows := holds RateLimitResponseBuilder.vtRemaining
    rw [responseSlots_remaining] at shows
    exact (congrArg _ shows.int64).trans (readOr_of_omitted ..)
  have retryAfterMs :
      readOr 0 (table.int64 respVtRetryAfterMs) = .ok d.retryAfterMs := by
    have shows := holds RateLimitResponseBuilder.vtRetryAfterMs
    rw [responseSlots_retryAfterMs] at shows
    exact (congrArg _ shows.int64).trans (readOr_of_omitted ..)
  have reason : readOr "" (table.string respVtReason) = .ok d.reason := by
    have shows := holds RateLimitResponseBuilder.vtReason
    rw [responseSlots_reason, FlatBuffers.Table.Shows] at shows
    exact congrArg (readOr "") shows
  simp only [parseResponse, isRoot, Except.mapError, bind, Except.bind, allowed,
    remaining, retryAfterMs, reason]

theorem parseResponse_encodeResponse (libraries : Libraries) (d : Decision)
    (makes : libraries.rust.Makes (responseSlots d)) :
    RateLimitClient.parseResponse libraries.python (encodeResponse libraries.rust d) =
      RateLimitResponse.validate d.allowed d.remaining.toInt d.retryAfterMs.toInt
        d.reason :=
  parseResponse_of_finds (libraries.python_reads _ (responseSlots_distinct d) makes)

/-- Between libraries that understand each other, the server reads the fields of every
request and the client those of every response without a negative number. -/
theorem wire_round_trip (rust python : Library) (requests : rust.Understands python)
    (responses : python.Understands rust) (clientId resource : String) (cost : UInt32)
    (d : Decision) (remaining : 0 ≤ d.remaining) (retryAfterMs : 0 ≤ d.retryAfterMs) :
    (∃ view, rootAsRateLimitRequest rust
        (RateLimitClient.buildRequest python ⟨clientId, resource, cost⟩) = .ok view ∧
      view.clientId = some clientId ∧ view.resource = some resource ∧
      view.cost = cost) ∧
    ∃ response, RateLimitClient.parseResponse python (encodeResponse rust d) =
        .ok response ∧
      response.allowed = d.allowed ∧ response.remaining = d.remaining.toInt ∧
      response.retryAfterMs = d.retryAfterMs.toInt ∧ response.reason = d.reason := by
  constructor
  · exact rootAsRateLimitRequest_of_finds
      (requests _ (RateLimitClient.requestSlots_distinct ⟨clientId, resource, cost⟩))
  · have nonneg : 0 ≤ d.remaining.toInt ∧ 0 ≤ d.retryAfterMs.toInt :=
      ⟨Int64.le_iff_toInt_le.mp remaining, Int64.le_iff_toInt_le.mp retryAfterMs⟩
    refine ⟨⟨d.allowed, d.remaining.toInt, d.retryAfterMs.toInt, d.reason, nonneg.1,
      nonneg.2⟩, ?_, rfl, rfl, rfl, rfl⟩
    apply (parseResponse_of_finds (responses _ (responseSlots_distinct d))).trans
    exact dif_pos nonneg

/-! ## Concrete buffers

A library that makes the buffers of FlatBuffers for some requests and responses,
and buffers of its own for the other tables. -/

namespace FlatBuffers

instance encodableChar : Encodable Char :=
  .ofLeftInverse Char.toNat Char.ofNat Char.ofNat_toNat

instance encodableString : Encodable String :=
  .ofLeftInverse String.toList String.ofList fun _ => String.ofList_toList

instance encodableUInt32 : Encodable UInt32 :=
  .ofLeftInverse UInt32.toNat UInt32.ofNat fun _ => UInt32.ofNat_toNat

instance encodableInt64 : Encodable Int64 :=
  .ofLeftInverse Int64.toInt Int64.ofInt fun _ => Int64.ofInt_toInt _

deriving instance Encodable for FieldValue

def Table.ofSlots (slots : List Slot) : Table where
  string position := (slots.lookup position).map fun
    | .string text => .ok text
    | _ => .error .malformed
  uint32 position := (slots.lookup position).map fun
    | .uint32 value => .ok value
    | _ => .error .malformed
  int64 position := (slots.lookup position).map fun
    | .int64 value => .ok value
    | _ => .error .malformed
  bool position := (slots.lookup position).map fun
    | .bool value => .ok value
    | _ => .error .malformed

theorem Table.holds_ofSlots (slots : List Slot) : (Table.ofSlots slots).Holds slots := by
  intro position
  cases pushed : slots.lookup position with
  | none => simp [Shows, ofSlots, pushed]
  | some value => cases value <;> simp [Shows, ofSlots, pushed]

def knownBuffers : List (List Slot × Bytes) :=
  [
    ([(4, .string "alice"), (6, .string "/")],
      [12, 0, 0, 0, 8, 0, 12, 0, 8, 0, 4, 0, 8, 0, 0, 0, 8, 0, 0, 0, 12, 0, 0, 0, 1, 0, 0,
      0, 47, 0, 0, 0, 5, 0, 0, 0, 97, 108, 105, 99, 101, 0, 0, 0]),
    ([(4, .string "alice"), (6, .string "/"), (8, .uint32 5)],
      [16, 0, 0, 0, 0, 0, 10, 0, 16, 0, 12, 0, 8, 0, 4, 0, 10, 0, 0, 0, 5, 0, 0, 0, 8, 0,
      0, 0, 12, 0, 0, 0, 1, 0, 0, 0, 47, 0, 0, 0, 5, 0, 0, 0, 97, 108, 105, 99, 101,
      0, 0, 0]),
    ([(4, .bool true), (10, .string "ok — 1/1 used")],
      [16, 0, 0, 0, 12, 0, 12, 0, 11, 0, 0, 0, 0, 0, 4, 0, 12, 0, 0, 0, 8, 0, 0, 0, 0, 0,
      0, 1, 15, 0, 0, 0, 111, 107, 32, 226, 128, 148, 32, 49, 47, 49, 32, 117, 115,
      101, 100, 0]),
    ([(8, .int64 60000), (10, .string
        "fixed-window limit 1/1 exceeded, resets in 60000ms")],
      [16, 0, 0, 0, 12, 0, 16, 0, 0, 0, 0, 0, 8, 0, 4, 0, 12, 0, 0, 0, 12, 0, 0, 0, 96,
      234, 0, 0, 0, 0, 0, 0, 50, 0, 0, 0, 102, 105, 120, 101, 100, 45, 119, 105,
      110, 100, 111, 119, 32, 108, 105, 109, 105, 116, 32, 49, 47, 49, 32, 101, 120,
      99, 101, 101, 100, 101, 100, 44, 32, 114, 101, 115, 101, 116, 115, 32, 105,
      110, 32, 54, 48, 48, 48, 48, 109, 115, 0, 0]),
    ([(4, .bool true), (6, .int64 (-2)), (10, .string
        "ok — 1/18446744073709551615 used")],
      [16, 0, 0, 0, 12, 0, 24, 0, 23, 0, 8, 0, 0, 0, 4, 0, 12, 0, 0, 0, 20, 0, 0, 0, 254,
      255, 255, 255, 255, 255, 255, 255, 0, 0, 0, 0, 0, 0, 0, 1, 34, 0, 0, 0, 111,
      107, 32, 226, 128, 148, 32, 49, 47, 49, 56, 52, 52, 54, 55, 52, 52, 48, 55,
      51, 55, 48, 57, 53, 53, 49, 54, 49, 53, 32, 117, 115, 101, 100, 0, 0])
  ]

def otherBuffer (slots : List Slot) : Bytes :=
  255 :: 255 :: 255 :: 255 :: List.replicate (Encodable.encode slots) 0

def Library.sample : Library where
  finish slots :=
    match knownBuffers.find? fun known => known.1 = slots with
    | some known => known.2
    | none => otherBuffer slots
  root buf :=
    match knownBuffers.find? fun known => known.2 = buf with
    | some known => .ok (Table.ofSlots known.1)
    | none =>
        match Encodable.decode (buf.length - 4) with
        | some slots => .ok (Table.ofSlots slots)
        | none => .error .malformed
  rootOffset slots := by
    split
    · rename_i known found
      have long : ∀ known ∈ knownBuffers, 4 ≤ known.2.length := by decide +kernel
      exact long known (List.mem_of_find?_eq_some found)
    · simp [otherBuffer]

theorem Library.root_finish_sample (slots : List Slot) :
    sample.root (sample.finish slots) = .ok (Table.ofSlots slots) := by
  have distinct : ∀ known ∈ knownBuffers,
      knownBuffers.find? (fun other => other.2 = known.2) = some known := by
    decide +kernel
  have others : ∀ known ∈ knownBuffers, known.2.head? ≠ some 255 := by
    decide +kernel
  simp only [sample]
  cases found : knownBuffers.find? fun known => known.1 = slots with
  | some known =>
      have isSlots : known.1 = slots := by simpa using List.find?_some found
      simp only [distinct known (List.mem_of_find?_eq_some found), isSlots]
  | none =>
      have unknown :
          knownBuffers.find? (fun known => known.2 = otherBuffer slots) = none := by
        rw [List.find?_eq_none]
        intro known member same
        apply others known member
        rw [of_decide_eq_true same]
        rfl
      have encoded : (otherBuffer slots).length - 4 = Encodable.encode slots := by
        simp [otherBuffer]
      simp only [unknown, encoded, Encodable.encodek]

theorem Library.sample_understands : Library.sample.Understands Library.sample := by
  intro slots _
  exact ⟨Table.ofSlots slots, root_finish_sample slots, Table.holds_ofSlots slots⟩

theorem Library.sample_reads : Library.sample.Reads Library.sample :=
  fun slots distinct _ => sample_understands slots distinct

end FlatBuffers

def Libraries.sample : Libraries where
  rust := .sample
  python := .sample
  rust_reads := Library.sample_reads
  python_reads := Library.sample_reads

theorem wire_round_trip_defaults :
    let d : Decision :=
      ⟨false, 1, 0, 60000, "fixed-window limit 1/1 exceeded, resets in 60000ms"⟩
    (∃ view, rootAsRateLimitRequest Library.sample
        (RateLimitClient.buildRequest Library.sample ⟨"alice", "/", 1⟩) = .ok view ∧
      view.clientId = some "alice" ∧ view.resource = some "/" ∧ view.cost = 1) ∧
    ∃ response, RateLimitClient.parseResponse Library.sample
        (encodeResponse Library.sample d) = .ok response ∧
      response.allowed = false ∧ response.remaining = 0 ∧
      response.retryAfterMs = 60000 ∧ response.reason = d.reason :=
  wire_round_trip Library.sample Library.sample Library.sample_understands
    Library.sample_understands "alice" "/" 1
    ⟨false, 1, 0, 60000, "fixed-window limit 1/1 exceeded, resets in 60000ms"⟩
    (by decide) (by decide)

end RateLimiting
