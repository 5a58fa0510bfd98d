import Mathlib.Algebra.Group.Nat.Defs
import Mathlib.Data.List.Basic

/-! # Bytes that arrive in chunks

A stream socket hands over its bytes in pieces of its own choice. A reader that
collects a fixed number of bytes gets the same ones however they are cut. -/

namespace RateLimiting

namespace ByteStream

/-! ## Little-endian numbers -/

/-- The low `width` bytes of a number, least significant first. -/
def toLE : (width : Nat) → Nat → List UInt8
  | 0, _ => []
  | width + 1, value => UInt8.ofNat value :: toLE width (value / 256)

def fromLE : List UInt8 → Nat
  | [] => 0
  | byte :: bytes => byte.toNat + 256 * fromLE bytes

@[simp] theorem length_toLE (width value : Nat) :
    (toLE width value).length = width := by
  induction width generalizing value with
  | zero => rfl
  | succ width induction => simp [toLE, induction]

theorem fromLE_toLE (width : Nat) {value : Nat} (fits : value < 256 ^ width) :
    fromLE (toLE width value) = value := by
  induction width generalizing value with
  | zero =>
      have isZero : value = 0 := by simpa using fits
      simp [toLE, fromLE, isZero]
  | succ width induction =>
      have quotient : value / 256 < 256 ^ width := by
        apply Nat.div_lt_of_lt_mul
        rwa [Nat.mul_comm, ← Nat.pow_succ]
      rw [toLE, fromLE, induction quotient, UInt8.toNat_ofNat']
      omega

theorem toLE_fromLE (bytes : List UInt8) :
    toLE bytes.length (fromLE bytes) = bytes := by
  induction bytes with
  | nil => rfl
  | cons byte bytes induction =>
      have bound := byte.toNat_lt
      have head : UInt8.ofNat (byte.toNat + 256 * fromLE bytes) = byte := by
        apply UInt8.toNat_inj.mp
        rw [UInt8.toNat_ofNat']
        omega
      have tail : (byte.toNat + 256 * fromLE bytes) / 256 = fromLE bytes := by
        omega
      rw [List.length_cons, fromLE, toLE, head, tail, induction]

/-! ## Streams -/

/-- What follows the last chunk: the peer closes, the transport fails, or
nothing comes and the connection stays open. -/
inductive Ending where
  | closed
  | failed
  | silent
deriving DecidableEq, Repr

/-- The bytes of one delivery. No bytes at all would read as a closed stream. -/
structure Chunk where
  bytes : List UInt8
  nonempty : bytes ≠ []
deriving DecidableEq

structure Inbound where
  chunks : List Chunk
  ending : Ending
deriving DecidableEq

namespace Inbound

def bytes (stream : Inbound) : List UInt8 :=
  stream.chunks.flatMap Chunk.bytes

def ofPieces (pieces : List (List UInt8)) (ending : Ending) : Inbound where
  chunks := pieces.filterMap fun piece =>
    if nonempty : piece ≠ [] then some ⟨piece, nonempty⟩ else none
  ending := ending

@[simp] theorem bytes_ofPieces (pieces : List (List UInt8)) (ending : Ending) :
    (ofPieces pieces ending).bytes = pieces.flatten := by
  induction pieces with
  | nil => rfl
  | cons piece pieces induction =>
      rw [List.flatten_cons, ← induction]
      cases piece <;> rfl

def rest (limit : Nat) (chunk : Chunk) (chunks : List Chunk) : List Chunk :=
  if left : chunk.bytes.drop limit = [] then chunks
  else ⟨chunk.bytes.drop limit, left⟩ :: chunks

theorem rest_bytes (limit : Nat) (chunk : Chunk) (chunks : List Chunk) :
    (rest limit chunk chunks).flatMap Chunk.bytes =
      chunk.bytes.drop limit ++ chunks.flatMap Chunk.bytes := by
  unfold rest
  split
  · rename_i left
    rw [left, List.nil_append]
  · rw [List.flatMap_cons]

/-- One read of at most `limit` bytes: of the next chunk, or none when there is
no further one. -/
def recv (limit : Nat) : Inbound → Option (List UInt8 × Inbound)
  | ⟨[], _⟩ => none
  | ⟨chunk :: chunks, ending⟩ =>
      some (chunk.bytes.take limit, ⟨rest limit chunk chunks, ending⟩)

theorem recv_eq_none {limit : Nat} {stream : Inbound}
    (nothing : stream.recv limit = none) : stream = ⟨[], stream.ending⟩ := by
  rcases stream with ⟨_ | ⟨chunk, chunks⟩, ending⟩
  · rfl
  · exact absurd nothing (by simp [recv])

theorem recv_eq_some {limit : Nat} {stream after : Inbound} {taken : List UInt8}
    (positive : 0 < limit) (received : stream.recv limit = some (taken, after)) :
    stream.bytes = taken ++ after.bytes ∧ taken ≠ [] ∧ taken.length ≤ limit ∧
      after.ending = stream.ending := by
  rcases stream with ⟨_ | ⟨chunk, chunks⟩, ending⟩
  · exact absurd received (by simp [recv])
  · simp only [recv, Option.some.injEq, Prod.mk.injEq] at received
    rcases received with ⟨rfl, rfl⟩
    refine ⟨?_, ?_, List.length_take_le .., rfl⟩
    · rw [bytes, bytes, rest_bytes, ← List.append_assoc, List.take_append_drop,
        List.flatMap_cons]
    · rw [Ne, List.take_eq_nil_iff]
      rintro (isZero | isNil)
      · omega
      · exact chunk.nonempty isNil

/-- Reads until `count` bytes are collected, or something stops them. -/
def recvExact (count : Nat) (collected : List UInt8) (stream : Inbound) :
    Except Ending (List UInt8) × Inbound :=
  if collected.length < count then
    match _ : stream.recv (count - collected.length) with
    | none => (.error stream.ending, stream)
    | some (taken, after) => recvExact count (collected ++ taken) after
  else (.ok collected, stream)
termination_by count - collected.length
decreasing_by
  rename_i short received
  rcases recv_eq_some (by omega) received with ⟨_, nonempty, _⟩
  have positive := List.length_pos_of_ne_nil nonempty
  rw [List.length_append]
  omega

theorem recvExact_of_enough {count : Nat} {collected missing last : List UInt8}
    {stream : Inbound} (arriving : stream.bytes = missing ++ last)
    (wanted : collected.length + missing.length = count) :
    ∃ after : Inbound, after.bytes = last ∧ after.ending = stream.ending ∧
      recvExact count collected stream = (.ok (collected ++ missing), after) := by
  induction collected, stream using recvExact.induct count generalizing missing with
  | case1 collected stream short nothing =>
      have isEmpty : stream.bytes = [] := by
        rw [recv_eq_none nothing]
        rfl
      have noneMissing : missing = [] := by
        rw [isEmpty] at arriving
        exact (List.append_eq_nil_iff.mp arriving.symm).1
      rw [noneMissing, List.length_nil] at wanted
      omega
  | case2 collected stream short taken after received induction =>
      rcases recv_eq_some (by omega) received with
        ⟨split, _, bounded, sameEnding⟩
      have within : taken.length ≤ missing.length := by omega
      rcases List.prefix_of_prefix_length_le ⟨after.bytes, split.symm⟩
        ⟨last, arriving.symm⟩ within with ⟨left, rfl⟩
      have isAfter : after.bytes = left ++ last := by
        apply List.append_cancel_left
        rw [← split, arriving, List.append_assoc]
      have stillWanted : (collected ++ taken).length + left.length = count := by
        rw [List.length_append, ← wanted, List.length_append]
        omega
      rcases induction isAfter stillWanted with ⟨final, isLast, finalEnding, result⟩
      refine ⟨final, isLast, finalEnding.trans sameEnding, ?_⟩
      rw [recvExact, if_pos short, received]
      simp only [result]
      rw [List.append_assoc]
  | case3 collected stream long =>
      have noneMissing : missing = [] := by
        apply List.eq_nil_of_length_eq_zero
        omega
      subst noneMissing
      refine ⟨stream, arriving, rfl, ?_⟩
      rw [recvExact, if_neg long, List.append_nil]

theorem recvExact_of_short {count : Nat} {collected : List UInt8} {stream : Inbound}
    (short : collected.length + stream.bytes.length < count) :
    recvExact count collected stream =
      (.error stream.ending, ⟨[], stream.ending⟩) := by
  induction collected, stream using recvExact.induct count with
  | case1 collected stream wanting nothing =>
      rw [recvExact, if_pos wanting, nothing, ← recv_eq_none nothing]
  | case2 collected stream wanting taken after received induction =>
      rcases recv_eq_some (by omega) received with ⟨split, _, _, sameEnding⟩
      have stillShort : (collected ++ taken).length + after.bytes.length < count := by
        rw [split, List.length_append] at short
        rw [List.length_append]
        omega
      rw [recvExact, if_pos wanting, received]
      simp only [induction stillShort, sameEnding]
  | case3 collected stream long =>
      omega

theorem recvExact_append {count : Nat} {stream : Inbound} {bytes last : List UInt8}
    (arriving : stream.bytes = bytes ++ last) (wanted : bytes.length = count) :
    ∃ after : Inbound, after.bytes = last ∧ after.ending = stream.ending ∧
      recvExact count [] stream = (.ok bytes, after) := by
  have total : ([] : List UInt8).length + bytes.length = count := by
    rw [List.length_nil, Nat.zero_add, wanted]
  exact recvExact_of_enough arriving total

theorem recvExact_eq_ok {count : Nat} {stream after : Inbound} {bytes : List UInt8}
    (received : recvExact count [] stream = (.ok bytes, after)) :
    stream.bytes = bytes ++ after.bytes ∧ bytes.length = count := by
  by_cases short : stream.bytes.length < count
  · rw [recvExact_of_short (by simpa using short)] at received
    exact absurd (congrArg Prod.fst received) (by simp)
  · have wanted : (stream.bytes.take count).length = count := by
      rw [List.length_take, Nat.min_eq_left (Nat.le_of_not_lt short)]
    rcases recvExact_append (List.take_append_drop count stream.bytes).symm wanted
      with ⟨final, isLast, _, result⟩
    rw [result, Prod.mk.injEq, Except.ok.injEq] at received
    rcases received with ⟨rfl, rfl⟩
    refine ⟨?_, wanted⟩
    rw [isLast, List.take_append_drop]

end Inbound

end ByteStream

end RateLimiting
