import SkillLint.Decimal.Binary64
import SkillLint.Yaml.Cursor

/-!
# The data of YAML scalars

What a scalar stands for is decided by its tag or, without one, by its text: null, a
truth value, an integer, a number, and otherwise the text itself (`Data.ofPlain?`).
Integers have signs and the bases ten, sixteen, eight and two; a numeral of ten with a
needless leading zero is a text.

Integers from `-2^63` to `2^64 - 1` can be held.  One outside that range which would
still fit 128 bits is an error, and a longer numeral of ten is a floating point number.
-/

namespace SkillLint.Yaml

/-- Data as a YAML stream gives it: any data may be a key, and tags of the application
stay on what they mark. -/
inductive Data where
  | null
  | bool (value : Bool)
  | int (value : Int)
  | float (value : Binary64)
  | string (value : List Char)
  | sequence (items : List Data)
  | mapping (pairs : List (Data × Data))
  | tagged (tag : List UInt8) (value : Data)
  deriving Inhabited

/-- The value of a digit in a base up to sixteen. -/
def digitIn? (base : Nat) (c : Char) : Option Nat :=
  (hexValue? c).filter (· < base)

/-- The number that digits spell in a base; there has to be one. -/
def numeral? (base : Nat) (digits : List Char) : Option Nat :=
  if digits.isEmpty then none
  else digits.foldlM (fun n c => (digitIn? base c).map (n * base + ·)) 0

/-- The text starts with a plus or a minus. -/
def startsSigned (s : List Char) : Bool := s.head? == some '+' || s.head? == some '-'

/-- A numeral of ten with a needless leading zero, after an optional sign. -/
def hasNeedlessZero (s : List Char) : Bool :=
  match (if startsSigned s then s.drop 1 else s) with
  | '0' :: rest => !rest.isEmpty && rest.all Char.isDigit
  | _ => false

/-- The base that a mark after the sign announces, and the digits after it. -/
def based? : List Char → Option (Nat × List Char)
  | '0' :: 'x' :: digits => some (16, digits)
  | '0' :: 'o' :: digits => some (8, digits)
  | '0' :: 'b' :: digits => some (2, digits)
  | _ => none

/-- The absolute value of a numeral without its sign. -/
def magnitude? (s : List Char) : Option Nat :=
  match based? s with
  | some (base, digits) => numeral? base digits
  | none => numeral? 10 s

/-- The integer that a text spells, without regard to its size. -/
def integer? (s : List Char) : Option Int :=
  if hasNeedlessZero s then none
  else
    match s with
    | '-' :: rest => (magnitude? rest).map fun n => -(n : Int)
    | '+' :: rest => (magnitude? rest).map fun n => (n : Int)
    | _ => (magnitude? s).map fun n => (n : Int)

/-- How an integer fits the ranges: it is held, it is an error, or it is too long to
count as an integer. -/
inductive Fit where
  | held (value : Int)
  | tooLarge
  | beyond

/-- The fit of an integer. -/
def Fit.of (n : Int) : Fit :=
  if -(Nat.pow 2 63 : Int) ≤ n ∧ n < Nat.pow 2 64 then .held n
  else if -(Nat.pow 2 127 : Int) ≤ n ∧ n < Nat.pow 2 128 then .tooLarge
  else .beyond

/-- The number that a numeral of ten with an optional fraction and exponent spells. -/
def decimal? (s : List Char) : Option Binary64 := do
  let negative := s.head? == some '-'
  let s := if startsSigned s then s.drop 1 else s
  let whole := s.takeWhile Char.isDigit
  let s := s.dropWhile Char.isDigit
  let (fraction, s) := match s with
    | '.' :: rest => (rest.takeWhile Char.isDigit, rest.dropWhile Char.isDigit)
    | _ => ([], s)
  let digits ← numeral? 10 (whole ++ fraction)
  let exponent ← match s with
    | [] => some 0
    | e :: rest =>
      if e == 'e' || e == 'E' then
        match rest with
        | '-' :: digits => (numeral? 10 digits).map fun n => -(n : Int)
        | '+' :: digits => (numeral? 10 digits).map fun n => (n : Int)
        | digits => (numeral? 10 digits).map fun n => (n : Int)
      else none
  some (.ofDecimal negative digits (exponent - fraction.length))

/-- The floating point number that a text spells.  A numeral outside the range of the
format spells none. -/
def number? (s : List Char) : Option Binary64 :=
  let unsigned := if s.head? == some '+' then s.drop 1 else s
  if s.head? == some '+' && startsSigned unsigned then none
  else if unsigned = ".inf".toList || unsigned = ".Inf".toList || unsigned = ".INF".toList then
    some (.infinite false)
  else if s = "-.inf".toList || s = "-.Inf".toList || s = "-.INF".toList then
    some (.infinite true)
  else if s = ".nan".toList || s = ".NaN".toList || s = ".NAN".toList then some .nan
  else (decimal? unsigned).filter Binary64.isFinite

/-- The text is a word for null. -/
def isNullWord (s : List Char) : Bool :=
  s = "null".toList || s = "Null".toList || s = "NULL".toList || s = "~".toList

/-- The truth value that a text is a word for. -/
def truth? (s : List Char) : Option Bool :=
  if s = "true".toList || s = "True".toList || s = "TRUE".toList then some true
  else if s = "false".toList || s = "False".toList || s = "FALSE".toList then some false
  else none

namespace Data

/-- The data of a scalar without quotes and without tag; an integer that is too large
is an error. -/
def ofPlain? (s : List Char) : Option Data :=
  if s.isEmpty || isNullWord s then some .null
  else
    match truth? s with
    | some b => some (.bool b)
    | none =>
      match (integer? s).map Fit.of with
      | some (.held n) => some (.int n)
      | some .tooLarge => none
      | _ =>
        match (if hasNeedlessZero s then none else number? s) with
        | some x => some (.float x)
        | none => some (.string s)

/-- The bytes of an ASCII text. -/
def asciiBytes (s : String) : List UInt8 := s.toList.map (·.toNat.toUInt8)

/-- The data of a scalar with a tag.  The core tags for truth values, integers, numbers
and null force the text to be one; other tags that are none of the application's make
it a text, and so do quotes under a tag of the application. -/
def ofTagged? (tag : List UInt8) (plain : Bool) (s : List Char) : Option Data :=
  let core (name : String) : Bool := tag == asciiBytes ("tag:yaml.org,2002:" ++ name)
  if core "bool" then (truth? s).map .bool
  else if core "int" then
    match (integer? s).map Fit.of with
    | some (.held n) => some (.int n)
    | _ => none
  else if core "float" then (number? s).map .float
  else if core "null" then (if isNullWord s then some .null else none)
  else if tag.head? == some 33 && plain then ofPlain? s
  else some (.string s)

end Data

end SkillLint.Yaml
