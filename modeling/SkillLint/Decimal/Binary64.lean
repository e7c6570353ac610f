/-!
# Binary floating point numbers of sixty-four bits

A `Binary64` is a number of the IEEE 754 format with a significand of 53 bits, or an
infinity, or the one not-a-number that this library needs.  A finite number is kept
as the integers of `significand · 2 ^ exponent`, so that every question about it is
one of integer arithmetic.

`ofDecimal` rounds a decimal numeral to the nearest of these numbers, halves to the
even significand.
-/

namespace SkillLint

/-- A number of the format.  The functions of this module build finite numbers with
a significand below `2 ^ 53` and, unless the exponent is the least one, of at least
`2 ^ 52`. -/
inductive Binary64 where
  | finite (negative : Bool) (significand : Nat) (exponent : Int)
  | infinite (negative : Bool)
  | nan
  deriving Repr, DecidableEq, Inhabited

namespace Binary64

/-- The least exponent of a finite number. -/
def leastExponent : Int := -1074

/-- The greatest exponent of a finite number. -/
def greatestExponent : Int := 971

/-- The number of bits of a significand. -/
def precision : Nat := 53

/-- The zero with the sign. -/
def zero (negative : Bool) : Binary64 := .finite negative 0 leastExponent

/-- The number is neither infinite nor not-a-number. -/
def isFinite : Binary64 → Bool
  | .finite .. => true
  | _ => false

/-- Equality of numbers: zeros of both signs are equal, and not-a-number differs from
every number, itself included. -/
def numEq : Binary64 → Binary64 → Bool
  | .finite n s e, .finite n' s' e' => (s == 0 && s' == 0) || (n == n' && s == s' && e == e')
  | .infinite n, .infinite n' => n == n'
  | _, _ => false

/-- The integer nearest to `num / den`; a half goes to the even neighbour. -/
def roundHalfEven (num den : Nat) : Nat :=
  let quotient := num / den
  let twice := 2 * (num % den)
  if twice < den ∨ (twice = den ∧ quotient % 2 = 0) then quotient else quotient + 1

/-- `num / den` in units of `2 ^ exponent`, as a fraction. -/
def scaled (num den : Nat) (exponent : Int) : Nat × Nat :=
  let factor := Nat.pow 2 exponent.natAbs
  if exponent < 0 then (num * factor, den) else (num, den * factor)

/-- The exponent of the number nearest to `num / den`, before rounding: the one that
gives the significand its full precision, but not below the least exponent. -/
def exponentOf (num den : Nat) : Int :=
  let estimate : Int := (num.log2 : Int) - (den.log2 : Int)
  let (n, d) := scaled num den estimate
  let top := if d ≤ n then estimate else estimate - 1
  max leastExponent (top - (precision - 1 : Nat))

/-- The number nearest to `num / den`. -/
def ofFraction (negative : Bool) (num den : Nat) : Binary64 :=
  if num = 0 then zero negative
  else
    let exponent := exponentOf num den
    let (n, d) := scaled num den exponent
    let rounded := roundHalfEven n d
    let (significand, exponent) :=
      if rounded = Nat.pow 2 precision then (Nat.pow 2 (precision - 1), exponent + 1)
      else (rounded, exponent)
    if exponent > greatestExponent then .infinite negative
    else .finite negative significand exponent

/-- The number nearest to `digits · 10 ^ exponent`.  Numerals far outside the range
of the format are answered from their length alone. -/
def ofDecimal (negative : Bool) (digits : Nat) (exponent : Int) : Binary64 :=
  if digits = 0 then zero negative
  else
    let length : Int := (Nat.toDigits 10 digits).length
    if length + exponent > 310 then .infinite negative
    else if length + exponent < -325 then zero negative
    else if exponent < 0 then ofFraction negative digits (Nat.pow 10 exponent.natAbs)
    else ofFraction negative (digits * Nat.pow 10 exponent.natAbs) 1

end Binary64

end SkillLint
