/-!
# Decimal digits and unsigned numerals

A **decimal digit** is a character of the Unicode category `Nd`.  They come in
blocks of ten consecutive code points, zero first, so the class is given by the
list of zeros (`decimalZeros`).  A search for "a number" in a text looks for a run
of these.

Reading such a run as a number is stricter: `readUnsigned` accepts ASCII digits
only, an optional leading plus sign, and values below two to the sixty-fourth.  Its
three ways to fail are the constructors of `NumeralError`.
-/

namespace SkillLint.Text

/-- The digit zero of every block of ten decimal digits, in code point order. -/
def decimalZeros : List Nat :=
  [0x0030, 0x0660, 0x06F0, 0x07C0, 0x0966, 0x09E6, 0x0A66, 0x0AE6, 0x0B66, 0x0BE6, 0x0C66, 0x0CE6,
   0x0D66, 0x0DE6, 0x0E50, 0x0ED0, 0x0F20, 0x1040, 0x1090, 0x17E0, 0x1810, 0x1946, 0x19D0, 0x1A80,
   0x1A90, 0x1B50, 0x1BB0, 0x1C40, 0x1C50, 0xA620, 0xA8D0, 0xA900, 0xA9D0, 0xA9F0, 0xAA50, 0xABF0,
   0xFF10, 0x104A0, 0x10D30, 0x10D40, 0x11066, 0x110F0, 0x11136, 0x111D0, 0x112F0, 0x11450,
   0x114D0, 0x11650, 0x116C0, 0x116D0, 0x116DA, 0x11730, 0x118E0, 0x11950, 0x11BF0, 0x11C50,
   0x11D50, 0x11DA0, 0x11F50, 0x16130, 0x16A60, 0x16AC0, 0x16B50, 0x16D70, 0x1CCF0, 0x1D7CE,
   0x1D7D8, 0x1D7E2, 0x1D7EC, 0x1D7F6, 0x1E140, 0x1E2F0, 0x1E4F0, 0x1E5F1, 0x1E950, 0x1FBF0]

/-- The characters of the Unicode category `Nd`. -/
def isDecimalDigit (c : Char) : Bool :=
  decimalZeros.any fun z => z ≤ c.toNat && c.toNat < z + 10

/-- Every ASCII digit is a decimal digit. -/
theorem isDecimalDigit_of_isDigit {c : Char} (h : c.isDigit = true) :
    isDecimalDigit c = true := by
  have hc : 0x30 ≤ c.toNat ∧ c.toNat < 0x30 + 10 := by
    simp only [Char.isDigit, Bool.and_eq_true, decide_eq_true_eq, UInt32.le_iff_toNat_le] at h
    have h1 : ('0'.val).toNat = 0x30 := rfl
    have h2 : ('9'.val).toNat = 0x39 := rfl
    have h3 : c.toNat = c.val.toNat := rfl
    omega
  simp [isDecimalDigit, decimalZeros, hc]

/-- Why a text is no unsigned numeral of sixty-four bits. -/
inductive NumeralError where
  | empty
  | invalidDigit
  | tooLarge
  deriving Repr, DecidableEq

/-- The wording of the failure. -/
def NumeralError.message : NumeralError → String
  | .empty => "cannot parse integer from empty string"
  | .invalidDigit => "invalid digit found in string"
  | .tooLarge => "number too large to fit in target type"

/-- The largest value of sixty-four bits. -/
def maxUnsigned : Nat := Nat.pow 2 64 - 1

/-- The value of an ASCII digit. -/
def digitValue? (c : Char) : Option Nat :=
  if c.isDigit then some (c.toNat - '0'.toNat) else none

/-- Reads digits from the left onto the value of those already read.  A character
that is no digit is reported before an overflow that it would cause, and an overflow
before any character after it. -/
def readDigits (value : Nat) : List Char → Except NumeralError Nat
  | [] => .ok value
  | c :: rest =>
    match digitValue? c with
    | none => .error .invalidDigit
    | some d =>
      if value * 10 + d ≤ maxUnsigned then readDigits (value * 10 + d) rest
      else .error .tooLarge

/-- Reads an unsigned numeral of sixty-four bits, with an optional plus sign. -/
def readUnsigned : List Char → Except NumeralError Nat
  | [] => .error .empty
  | ['+'] => .error .invalidDigit
  | '+' :: rest => readDigits 0 rest
  | s => readDigits 0 s

end SkillLint.Text
