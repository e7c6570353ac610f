import SkillLint.Decimal.Binary64

/-!
# The shortest decimal that reads back

Every finite number of the format is the nearest one for a whole interval of reals
around it.  `shortest` finds the decimal with the fewest digits in that interval, and
of several such decimals the one nearest to the number; of two at equal distance, the
greater.  `toText` writes this decimal positionally, without an exponent.
-/

namespace SkillLint.Binary64

/-- The reals that round to a number, in quarters of its unit: from `lower` to
`upper`, the ends included when `closed`.  Below a power of two the neighbours lie
twice as close. -/
structure Rounding where
  lower : Nat
  value : Nat
  upper : Nat
  closed : Bool

/-- The interval of a positive number. -/
def Rounding.of (significand : Nat) (exponent : Int) : Rounding where
  lower :=
    if significand = Nat.pow 2 (precision - 1) ∧ exponent > leastExponent then 4 * significand - 1
    else 4 * significand - 2
  value := 4 * significand
  upper := 4 * significand + 2
  closed := significand % 2 = 0

/-- A quarter of a unit of `2 ^ exponent`, in units of `10 ^ power`, as a fraction. -/
def quarterIn (exponent power : Int) : Nat × Nat :=
  let twos := exponent - 2
  let two := Nat.pow 2 twos.natAbs
  let ten := Nat.pow 10 power.natAbs
  let num := (if twos < 0 then 1 else two) * (if power < 0 then ten else 1)
  let den := (if twos < 0 then two else 1) * (if power < 0 then 1 else ten)
  (num, den)

/-- The multiple of `10 ^ power` nearest to the number among those in its interval.
Only the two neighbours of the number on this grid can be the nearest. -/
def onGrid? (significand : Nat) (exponent power : Int) : Option Nat :=
  let interval := Rounding.of significand exponent
  let (num, den) := quarterIn exponent power
  let inside (digits : Nat) : Bool :=
    if interval.closed then
      interval.lower * num ≤ digits * den && digits * den ≤ interval.upper * num
    else interval.lower * num < digits * den && digits * den < interval.upper * num
  let below := interval.value * num / den
  let distanceBelow := interval.value * num - below * den
  let distanceAbove := (below + 1) * den - interval.value * num
  match inside below, inside (below + 1) with
  | true, true => if distanceBelow < distanceAbove then some below else some (below + 1)
  | true, false => some below
  | false, true => some (below + 1)
  | false, false => none

/-- Tries the grids from `10 ^ power` downwards, `tries` of them. -/
def firstOnGrid (significand : Nat) (exponent power : Int) : Nat → Nat × Int
  | 0 => (significand, exponent)
  | tries + 1 =>
    match onGrid? significand exponent power with
    | some digits => (digits, power)
    | none => firstOnGrid significand exponent (power - 1) tries

/-- The digits and the power of ten of the shortest decimal of a positive number.
The first grid is coarser than the number itself, and twenty grids reach the
seventeen digits that always suffice. -/
def shortest (significand : Nat) (exponent : Int) : Nat × Int :=
  let bits : Int := (significand.log2 : Int) + exponent
  firstOnGrid significand exponent ((bits * 30103).fdiv 100000 + 1) 20

/-- `digits · 10 ^ power`, written without an exponent. -/
def positional (digits : Nat) (power : Int) : List Char :=
  let text := Nat.toDigits 10 digits
  if 0 ≤ power then text ++ List.replicate power.natAbs '0'
  else
    let places := power.natAbs
    if places < text.length then
      text.take (text.length - places) ++ '.' :: text.drop (text.length - places)
    else '0' :: '.' :: (List.replicate (places - text.length) '0' ++ text)

/-- The text of a number: its shortest decimal, with a minus sign where the number
has one. -/
def toText : Binary64 → String
  | .nan => "NaN"
  | .infinite negative => if negative then "-inf" else "inf"
  | .finite negative significand exponent =>
    let digits :=
      if significand = 0 then ['0']
      else
        let (digits, power) := shortest significand exponent
        positional digits power
    String.ofList (if negative then '-' :: digits else digits)

end SkillLint.Binary64
