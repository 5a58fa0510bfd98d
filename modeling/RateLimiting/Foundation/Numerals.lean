
/-! # Numbers inside a text

Reading back the signed decimal numbers of a text, in order, whatever stands
between them. -/

namespace RateLimiting

namespace Numerals

def isNumeral (c : Char) : Bool :=
  c.isDigit || c == '-'

def value : List Char → Int
  | '-' :: digits => -(Nat.ofDigitChars 10 digits 0 : Int)
  | digits => (Nat.ofDigitChars 10 digits 0 : Int)

/-- The number at the front of a text, and the complete numbers after it. -/
def scan : List Char → List Char × List Int
  | [] => ([], [])
  | c :: rest =>
      let (pending, found) := scan rest
      if isNumeral c then (c :: pending, found)
      else ([], if pending = [] then found else value pending :: found)

def numbers (text : List Char) : List Int :=
  let (pending, found) := scan text
  if pending = [] then found else value pending :: found

def digits (number : Int) : List Char :=
  match number with
  | .ofNat magnitude => Nat.toDigits 10 magnitude
  | .negSucc magnitude => '-' :: Nat.toDigits 10 (magnitude + 1)

@[simp] theorem numbers_nil : numbers [] = [] := rfl

theorem scan_cons_separator {c : Char} (separator : isNumeral c = false)
    (rest : List Char) : scan (c :: rest) = ([], numbers rest) := by
  simp [scan, separator, numbers]

@[simp] theorem numbers_cons_separator {c : Char} (separator : isNumeral c = false)
    (rest : List Char) : numbers (c :: rest) = numbers rest := by
  simp [numbers, scan_cons_separator separator]

def Plain (text : List Char) : Prop :=
  (text.any isNumeral) = false

instance (text : List Char) : Decidable (Plain text) :=
  inferInstanceAs (Decidable ((text.any isNumeral) = false))

theorem numbers_append_plain {name : List Char} (plain : Plain name)
    (rest : List Char) : numbers (name ++ rest) = numbers rest := by
  induction name with
  | nil => rfl
  | cons c name induction =>
      rw [Plain, List.any_cons, Bool.or_eq_false_iff] at plain
      rw [List.cons_append, numbers_cons_separator plain.1]
      exact induction plain.2

theorem scan_append_numeral {token : List Char}
    (numeral : ∀ c ∈ token, isNumeral c = true) (rest : List Char) :
    scan (token ++ rest) = (token ++ (scan rest).1, (scan rest).2) := by
  induction token with
  | nil => rfl
  | cons c token induction =>
      have shorter := induction fun other member => numeral other (by simp [member])
      simp [scan, shorter, numeral c (by simp)]

theorem digits_ne_nil (number : Int) : digits number ≠ [] := by
  cases number <;> simp [digits]

theorem digits_numeral (number : Int) :
    ∀ c ∈ digits number, isNumeral c = true := by
  have numeral : ∀ magnitude, ∀ c ∈ Nat.toDigits 10 magnitude,
      isNumeral c = true := by
    intro magnitude c member
    simp [isNumeral, Nat.isDigit_of_mem_toDigits (by decide) (by decide) member]
  cases number with
  | ofNat magnitude => exact numeral magnitude
  | negSucc magnitude =>
      intro c member
      rcases List.mem_cons.mp member with rfl | member
      · rfl
      · exact numeral _ c member

theorem value_digits (number : Int) : value (digits number) = number := by
  cases number with
  | ofNat magnitude =>
      have unsigned : ∀ c rest, Nat.toDigits 10 magnitude = c :: rest → c ≠ '-' := by
        rintro c rest equal rfl
        have digit := Nat.isDigit_of_mem_toDigits (b := 10) (n := magnitude)
          (by decide) (by decide) (equal ▸ List.mem_cons_self)
        simp at digit
      have plain : value (Nat.toDigits 10 magnitude) =
          (Nat.ofDigitChars 10 (Nat.toDigits 10 magnitude) 0 : Int) := by
        unfold value
        split
        · next equal => exact absurd rfl (unsigned _ _ equal)
        · rfl
      rw [digits, plain, Nat.ofDigitChars_ten_toDigits]
      rfl
  | negSucc magnitude =>
      rw [digits, value, Nat.ofDigitChars_ten_toDigits]
      rfl

theorem numbers_digits_append (number : Int) {c : Char}
    (separator : isNumeral c = false) (rest : List Char) :
    numbers (digits number ++ c :: rest) = number :: numbers rest := by
  rw [numbers, scan_append_numeral (digits_numeral number),
    scan_cons_separator separator]
  simp [digits_ne_nil, value_digits]

/-! ## Hexadecimal -/

def hexDigit (nibble : Nat) : Char :=
  "0123456789abcdef".toList.getD nibble '0'

/-- Lowercase hexadecimal, two digits a byte. -/
def hex : List UInt8 → List Char
  | [] => []
  | byte :: rest =>
      hexDigit (byte.toNat / 16) :: hexDigit (byte.toNat % 16) :: hex rest

theorem hexDigit_injective : ∀ left < 16, ∀ right < 16,
    hexDigit left = hexDigit right → left = right := by decide

theorem hex_injective : Function.Injective hex := by
  intro left right same
  induction left generalizing right with
  | nil =>
      cases right with
      | nil => rfl
      | cons byte rest => cases same
  | cons byte rest induction =>
      cases right with
      | nil => cases same
      | cons other others =>
          simp only [hex, List.cons.injEq] at same
          rcases same with ⟨high, low, after⟩
          have byteBound := byte.toNat_lt
          have otherBound := other.toNat_lt
          have sameHigh := hexDigit_injective _ (by omega) _ (by omega) high
          have sameLow := hexDigit_injective _ (by omega) _ (by omega) low
          have sameByte : byte = other := UInt8.toNat_inj.mp (by omega)
          rw [sameByte, induction after]

theorem hexDigit_mem (nibble : Nat) : hexDigit nibble ∈ "0123456789abcdef".toList := by
  rw [hexDigit, List.getD_eq_getElem?_getD]
  cases found : "0123456789abcdef".toList[nibble]? with
  | none => decide
  | some c => exact List.mem_of_getElem? found

theorem mem_hex {bytes : List UInt8} {c : Char} (member : c ∈ hex bytes) :
    c ∈ "0123456789abcdef".toList := by
  induction bytes with
  | nil => cases member
  | cons byte rest induction =>
      rcases List.mem_cons.mp member with rfl | member
      · exact hexDigit_mem _
      rcases List.mem_cons.mp member with rfl | member
      · exact hexDigit_mem _
      · exact induction member

end Numerals

end RateLimiting
