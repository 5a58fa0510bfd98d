import Mathlib.Data.List.TakeDrop
import Mathlib.Data.List.TakeWhile
import RateLimiting.Http.MacRoundTrip

/-! # Which headers the verifier decides

The header is text that anyone may send. What it says is stated here on the text
itself: the parts between the commas, each with a key before its first equality
sign. -/

namespace RateLimiting

namespace HmacUtils

def LastField (text : List Char) (key : Char) (value : List Char) : Prop :=
  ∃ before after, text.splitOn ',' = before ++ (key :: '=' :: value) :: after ∧
    ∀ part ∈ after, ¬[key, '='] <+: part

structure Reads (headerValue : String) (ts : Int) (signature : List Char) : Prop where
  parted : ∀ part ∈ headerValue.toList.splitOn ',', '=' ∈ part
  timed : ∃ text, LastField headerValue.toList 't' text ∧ int text = .ok ts
  signed : LastField headerValue.toList 'v' signature

/-! ## Parsing -/

def pair (part : List Char) : List Char × List Char :=
  (part.takeWhile (· ≠ '='), (part.dropWhile (· ≠ '=')).tail)

theorem dropWhile_of_mem {part : List Char} (equality : '=' ∈ part) :
    part.dropWhile (· ≠ '=') = '=' :: (pair part).2 := by
  induction part with
  | nil => cases equality
  | cons c rest induction =>
      by_cases sign : c = '='
      · subst c
        rfl
      · have later : '=' ∈ rest := List.mem_of_ne_of_mem (Ne.symm sign) equality
        simpa [pair, sign] using induction later

theorem splitOnce_of_mem {part : List Char} (equality : '=' ∈ part) :
    splitOnce part = [(pair part).1, (pair part).2] := by
  rw [splitOnce, List.span_eq_takeWhile_dropWhile, dropWhile_of_mem equality]
  rfl

theorem splitOnce_of_not_mem {part : List Char} (missing : '=' ∉ part) :
    splitOnce part = [part] := by
  have all : ∀ c ∈ part, decide (c ≠ '=') = true := by
    intro c member
    apply decide_eq_true
    rintro rfl
    exact missing member
  rw [splitOnce, List.span_eq_takeWhile_dropWhile, List.dropWhile_eq_nil_iff.mpr all,
    List.takeWhile_eq_self_iff.mpr all]

theorem bind_eq_ok {ε α β : Type} {computation : Except ε α} {next : α → Except ε β}
    {result : β} :
    computation >>= next = .ok result ↔
      ∃ value, computation = .ok value ∧ next value = .ok result := by
  cases computation with
  | error caught => simp [bind, Except.bind]
  | ok value => simp [bind, Except.bind]

theorem mapM_eq_ok {ε α β : Type} {f : α → Except ε β} {holds : α → Prop} {g : α → β}
    (each : ∀ x y, f x = .ok y ↔ holds x ∧ y = g x) {values : List α}
    {results : List β} :
    values.mapM f = .ok results ↔ (∀ x ∈ values, holds x) ∧ results = values.map g := by
  induction values generalizing results with
  | nil => simp [pure, Except.pure, eq_comm]
  | cons value values induction =>
      rw [List.mapM_cons, bind_eq_ok, List.forall_mem_cons]
      constructor
      · rintro ⟨first, evaluated, rest⟩
        rcases bind_eq_ok.mp rest with ⟨others, remaining, same⟩
        rcases (each value first).mp evaluated with ⟨holdsFirst, rfl⟩
        rcases induction.mp remaining with ⟨holdsOthers, rfl⟩
        cases same
        exact ⟨⟨holdsFirst, holdsOthers⟩, rfl⟩
      · rintro ⟨⟨holdsFirst, holdsOthers⟩, rfl⟩
        have remaining := induction.mpr ⟨holdsOthers, rfl⟩
        exact ⟨g value, (each value _).mpr ⟨holdsFirst, rfl⟩,
          bind_eq_ok.mpr ⟨_, remaining, rfl⟩⟩

theorem dict_eq_ok {text : List Char} {fields : List (List Char × List Char)} :
    dict text = .ok fields ↔
      (∀ part ∈ text.splitOn ',', '=' ∈ part) ∧
        fields = (text.splitOn ',').map pair := by
  apply mapM_eq_ok
  intro part field
  by_cases equality : '=' ∈ part
  · rw [splitOnce_of_mem equality]
    simp [equality, eq_comm]
  · rw [splitOnce_of_not_mem equality]
    simp [equality]

theorem pair_eq_iff {part : List Char} {key : Char} {value : List Char}
    (equality : '=' ∈ part) (letter : key ≠ '=') :
    pair part = ([key], value) ↔ part = key :: '=' :: value := by
  constructor
  · intro same
    have whole := List.takeWhile_append_dropWhile (p := (· ≠ '=')) (l := part)
    rw [dropWhile_of_mem equality] at whole
    change (pair part).1 ++ '=' :: (pair part).2 = part at whole
    rw [same] at whole
    exact whole.symm
  · rintro rfl
    simp [pair, letter]

theorem pair_fst_eq_iff {part : List Char} {key : Char} (equality : '=' ∈ part)
    (letter : key ≠ '=') : (pair part).1 = [key] ↔ [key, '='] <+: part := by
  constructor
  · intro same
    have whole : part = key :: '=' :: (pair part).2 :=
      (pair_eq_iff equality letter).mp (Prod.ext same rfl)
    exact ⟨(pair part).2, whole.symm⟩
  · rintro ⟨value, rfl⟩
    rw [(pair_eq_iff equality letter).mpr rfl]

theorem subscript_eq_ok {fields : List (List Char × List Char)} {key value : List Char} :
    subscript fields key = .ok value ↔ fields.reverse.lookup key = some value := by
  unfold subscript
  cases fields.reverse.lookup key <;> simp

theorem lookup_pairs {text : List Char} {key : Char} {value : List Char}
    (parted : ∀ part ∈ text.splitOn ',', '=' ∈ part) (letter : key ≠ '=') :
    ((text.splitOn ',').map pair).reverse.lookup [key] = some value ↔
      LastField text key value := by
  rw [List.lookup_eq_some_iff]
  constructor
  · rintro ⟨later, earlier, shape, others⟩
    rw [List.reverse_eq_iff, List.reverse_append, List.reverse_cons,
      List.append_assoc] at shape
    rcases List.map_eq_append_iff.mp shape with ⟨before, rest, parts, -, tail⟩
    rcases List.map_eq_cons_iff.mp tail with ⟨part, after, rfl, found, last⟩
    rw [parts] at parted
    have whole := (pair_eq_iff (parted part (by simp)) letter).mp found
    refine ⟨before, after, by rw [parts, whole], ?_⟩
    intro other among starts
    have equality := parted other (by simp [among])
    have member : pair other ∈ later := by
      apply List.mem_reverse.mp
      change after.map pair = later.reverse at last
      rw [← last]
      exact List.mem_map_of_mem among
    have named := (pair_fst_eq_iff equality letter).mpr starts
    exact bne_iff_ne.mp (others _ member) named.symm
  · rintro ⟨before, after, shape, others⟩
    rw [shape] at parted ⊢
    refine ⟨(after.map pair).reverse, (before.map pair).reverse, ?_, ?_⟩
    · have found := (pair_eq_iff (parted (key :: '=' :: value) (by simp)) letter).mpr rfl
      simp [found]
    · intro field member
      rcases List.mem_map.mp (List.mem_reverse.mp member) with ⟨part, among, rfl⟩
      have equality := parted part (by simp [among])
      apply bne_iff_ne.mpr
      intro same
      exact others part among ((pair_fst_eq_iff equality letter).mp same.symm)

theorem parse_eq_ok {headerValue : String} {ts : Int} {signature : List Char} :
    parse headerValue = .ok (ts, signature) ↔ Reads headerValue ts signature := by
  constructor
  · intro parsed
    rcases bind_eq_ok.mp parsed with ⟨fields, divided, parsed⟩
    rcases bind_eq_ok.mp parsed with ⟨text, time, parsed⟩
    rcases bind_eq_ok.mp parsed with ⟨number, read, parsed⟩
    rcases bind_eq_ok.mp parsed with ⟨received, sign, same⟩
    cases same
    rcases dict_eq_ok.mp divided with ⟨parted, rfl⟩
    have timed := (lookup_pairs parted (by decide)).mp (subscript_eq_ok.mp time)
    have signed := (lookup_pairs parted (by decide)).mp (subscript_eq_ok.mp sign)
    exact ⟨parted, ⟨text, timed, read⟩, signed⟩
  · rintro ⟨parted, ⟨text, timed, read⟩, signed⟩
    have divided := dict_eq_ok.mpr ⟨parted, rfl⟩
    have time := subscript_eq_ok.mpr ((lookup_pairs parted (by decide)).mpr timed)
    have sign := subscript_eq_ok.mpr ((lookup_pairs parted (by decide)).mpr signed)
    exact bind_eq_ok.mpr ⟨_, divided, bind_eq_ok.mpr ⟨_, time,
      bind_eq_ok.mpr ⟨_, read, bind_eq_ok.mpr ⟨_, sign, rfl⟩⟩⟩⟩

/-! ## The verdict -/

variable (hmacSha256 : (key message : Bytes) → Bytes)

/-- The header carries a recent timestamp and the code of the fields. -/
def Authentic (headerValue secret clientId resource : String) (allowed : Bool)
    (remaining retryAfterMs maxAgeMs nowMs : Int) : Prop :=
  ∃ ts, (nowMs - ts).natAbs ≤ maxAgeMs ∧
    Reads headerValue ts (hexdigest hmacSha256 secret
      (message clientId resource allowed remaining retryAfterMs ts))

/-- What a recent header must be for the comparison to take place: its signature
is ASCII, and the numbers of the payload are short enough to be written. -/
def Comparable (headerValue : String) (remaining retryAfterMs maxAgeMs nowMs : Int) :
    Prop :=
  ∀ ts signature, Reads headerValue ts signature → (nowMs - ts).natAbs ≤ maxAgeMs →
    (∀ c ∈ signature, c.toNat < 128) ∧
      convertible remaining = true ∧ convertible retryAfterMs = true

theorem Reads.unique {headerValue : String} {ts other : Int}
    {signature received : List Char} (first : Reads headerValue ts signature)
    (second : Reads headerValue other received) : ts = other ∧ signature = received := by
  have same := (parse_eq_ok.mpr first).symm.trans (parse_eq_ok.mpr second)
  injection same with same
  exact Prod.mk.inj same

theorem Reads.convertible {headerValue : String} {ts : Int} {signature : List Char}
    (reads : Reads headerValue ts signature) : HmacUtils.convertible ts = true := by
  rcases reads.timed with ⟨text, -, read⟩
  exact convertible_of_int read

theorem formatted_eq_ok (clientId resource : String) (allowed : Bool)
    {remaining retryAfterMs ts : Int} {msg : String} (short : convertible ts = true) :
    formatted clientId resource allowed remaining retryAfterMs ts = .ok msg ↔
      (convertible remaining = true ∧ convertible retryAfterMs = true) ∧
        msg = message clientId resource allowed remaining retryAfterMs ts := by
  have all : [remaining, retryAfterMs, ts].all convertible = true ↔
      convertible remaining = true ∧ convertible retryAfterMs = true := by
    simp [short]
  unfold formatted
  rw [← all]
  constructor
  · intro written
    split at written
    · rename_i numbers
      cases written
      exact ⟨numbers, rfl⟩
    · cases written
  · rintro ⟨numbers, rfl⟩
    exact if_pos numbers

theorem compareDigest_eq_ok {bytes : Bytes} {received : List Char} {verdict : Bool} :
    compareDigest (Numerals.hex bytes) received = .ok verdict ↔
      (∀ c ∈ received, c.toNat < 128) ∧
        verdict = decide (Numerals.hex bytes = received) := by
  rw [compareDigest, hex_ascii, Bool.true_and]
  by_cases ascii : received.all (·.toNat < 128) = true
  · have each : ∀ c ∈ received, c.toNat < 128 := by simpa using ascii
    rw [if_pos ascii]
    simp only [Except.ok.injEq, and_iff_right each]
    exact eq_comm
  · have some : ¬∀ c ∈ received, c.toNat < 128 := by simpa using ascii
    simp [ascii, some]

section

variable (headerValue secret clientId resource : String) (allowed : Bool)
variable (remaining retryAfterMs maxAgeMs nowMs : Int)

theorem verifyRateHmac_of_not_recent
    (none : ∀ ts signature, Reads headerValue ts signature →
      ¬(nowMs - ts).natAbs ≤ maxAgeMs) :
    verifyRateHmac hmacSha256 headerValue secret clientId resource allowed remaining
      retryAfterMs maxAgeMs nowMs = .ok false := by
  unfold verifyRateHmac
  cases parsed : parse headerValue with
  | error caught => rfl
  | ok content =>
      have stale := none content.1 content.2 (parse_eq_ok.mp parsed)
      exact if_pos (Int.not_le.mp stale)

theorem verifyRateHmac_of_recent {ts : Int} {receivedSig : List Char}
    (reads : Reads headerValue ts receivedSig)
    (recent : (nowMs - ts).natAbs ≤ maxAgeMs) :
    verifyRateHmac hmacSha256 headerValue secret clientId resource allowed remaining
        retryAfterMs maxAgeMs nowMs =
      (formatted clientId resource allowed remaining retryAfterMs ts).bind fun msg =>
        compareDigest (hexdigest hmacSha256 secret msg) receivedSig := by
  rw [verifyRateHmac, parse_eq_ok.mpr reads]
  exact if_neg (Int.not_lt.mpr recent)

/-- The verifier decides a header if and only if the header is one that can be
compared. -/
theorem verifyRateHmac_decides :
    (∃ verdict, verifyRateHmac hmacSha256 headerValue secret clientId resource allowed
        remaining retryAfterMs maxAgeMs nowMs = .ok verdict ∧
      (verdict = true ↔ Authentic hmacSha256 headerValue secret clientId resource
        allowed remaining retryAfterMs maxAgeMs nowMs)) ↔
      Comparable headerValue remaining retryAfterMs maxAgeMs nowMs := by
  by_cases found : ∃ ts signature, Reads headerValue ts signature ∧
      (nowMs - ts).natAbs ≤ maxAgeMs
  · rcases found with ⟨ts, receivedSig, reads, recent⟩
    rw [verifyRateHmac_of_recent hmacSha256 _ _ _ _ _ _ _ _ _ reads recent]
    have written := @formatted_eq_ok clientId resource allowed remaining retryAfterMs ts
    constructor
    · rintro ⟨verdict, decided, -⟩ other signature otherReads -
      rcases reads.unique otherReads with ⟨rfl, rfl⟩
      rcases bind_eq_ok.mp decided with ⟨msg, converted, compared⟩
      have numbers := (written reads.convertible).mp converted
      exact ⟨(compareDigest_eq_ok.mp compared).1, numbers.1⟩
    · intro comparable
      rcases comparable ts receivedSig reads recent with ⟨ascii, numbers⟩
      have converted := (written reads.convertible).mpr ⟨numbers, rfl⟩
      refine ⟨_, bind_eq_ok.mpr ⟨_, converted, compareDigest_eq_ok.mpr ⟨ascii, rfl⟩⟩, ?_⟩
      rw [decide_eq_true_iff]
      constructor
      · rintro rfl
        exact ⟨ts, recent, reads⟩
      · rintro ⟨other, -, authentic⟩
        rcases reads.unique authentic with ⟨rfl, same⟩
        exact same.symm
  · have none : ∀ ts signature, Reads headerValue ts signature →
        ¬(nowMs - ts).natAbs ≤ maxAgeMs :=
      fun ts signature reads recent => found ⟨ts, signature, reads, recent⟩
    refine iff_of_true ⟨false, verifyRateHmac_of_not_recent hmacSha256 _ _ _ _ _ _ _ _ _
      none, ?_⟩ ?_
    · refine iff_of_false Bool.false_ne_true ?_
      rintro ⟨ts, recent, reads⟩
      exact none ts _ reads recent
    · exact fun ts signature reads recent => absurd recent (none ts signature reads)

end

/-- A recent header whose signature has a letter outside ASCII is neither accepted
nor rejected: the comparison raises. -/
theorem signature_outside_ascii_undecided :
    ¬∃ verdict, verifyRateHmac sampleHmac "t=1700000000000,v=é" "change-me" "alice"
        "/api/orders" true 9 0 60000 1700000000000 = .ok verdict ∧
      (verdict = true ↔ Authentic sampleHmac "t=1700000000000,v=é" "change-me" "alice"
        "/api/orders" true 9 0 60000 1700000000000) := by
  have raised : (verifyRateHmac sampleHmac "t=1700000000000,v=é" "change-me" "alice"
      "/api/orders" true 9 0 60000 1700000000000).toOption = none := by
    decide +kernel
  rintro ⟨verdict, decided, -⟩
  rw [decided] at raised
  cases raised

end HmacUtils

end RateLimiting
