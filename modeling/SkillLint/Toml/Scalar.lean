import SkillLint.Decimal.Binary64
import SkillLint.Toml.Table
import SkillLint.Toml.Text

/-!
# TOML scalars without quotes

Truth values, integers, floating point numbers and dates.  They are read as words, up to
a blank or a mark of the document, and a word is then judged as a whole (`word?`).
-/

namespace SkillLint.Toml

/-- The character does not end a word. -/
def isWordChar (c : Char) : Bool :=
  !(isSpace c || c == '\n' || c == '\r' || c == ',' || c == ']' || c == '}' || c == '#')

/-- The digits without their underscores, each of which has to stand between digits. -/
def digits? (isDigit : Char → Bool) : List Char → Option (List Char)
  | [] => none
  | [c] => if isDigit c then some [c] else none
  | c :: '_' :: rest => if isDigit c then (digits? isDigit rest).map (c :: ·) else none
  | c :: rest => if isDigit c then (digits? isDigit rest).map (c :: ·) else none

/-- The number that digits spell in a base up to sixteen. -/
def numeral? (base : Nat) (s : List Char) : Option Nat := do
  let digits ← digits? (fun c => (hexValue? c).any (· < base)) s
  digits.foldlM (fun n c => (hexValue? c).map (n * base + ·)) 0

/-- A numeral of ten without needless leading zero. -/
def plainNumeral? (s : List Char) : Option Nat :=
  match s with
  | '0' :: _ :: _ => none
  | _ => numeral? 10 s

/-- The sign of a word, negative or not, and what follows it. -/
def splitSign : List Char → Bool × List Char
  | '+' :: rest => (false, rest)
  | '-' :: rest => (true, rest)
  | s => (false, s)

/-- The integer that a word spells. -/
def integer? (word : List Char) : Option Int :=
  match word with
  | '0' :: 'x' :: digits => (numeral? 16 digits).map fun n => (n : Int)
  | '0' :: 'o' :: digits => (numeral? 8 digits).map fun n => (n : Int)
  | '0' :: 'b' :: digits => (numeral? 2 digits).map fun n => (n : Int)
  | _ =>
    let (negative, digits) := splitSign word
    (plainNumeral? digits).map fun n => if negative then -(n : Int) else (n : Int)

/-- The floating point number that a word spells. -/
def float? (word : List Char) : Option Value :=
  let (_, s) := splitSign word
  if s = "inf".toList || s = "nan".toList then some .float
  else
    let (mantissa, exponent) := s.span fun c => c != 'e' && c != 'E'
    let (whole, fraction) := mantissa.span (· != '.')
    let value? : Option Binary64 := do
      let power : Int ← match exponent with
        | [] => if fraction.isEmpty then none else some 0
        | _ :: e =>
          let (negative, digits) := splitSign e
          (numeral? 10 digits).map fun n => if negative then -(n : Int) else (n : Int)
      let n ← plainNumeral? whole
      match fraction with
      | [] => some (.ofDecimal false n power)
      | _ :: places =>
        let digits ← digits? Char.isDigit places
        let value ← numeral? 10 places
        some (.ofDecimal false (n * Nat.pow 10 digits.length + value) (power - digits.length))
    value?.map fun x => if x.isFinite then .float else .outOfRange

/-- A number of exactly `n` digits. -/
def fixed? (n : Nat) (s : List Char) : Option (Nat × List Char) :=
  let digits := s.take n
  if digits.length = n && digits.all Char.isDigit then
    some (digits.foldl (fun v c => v * 10 + (c.toNat - '0'.toNat)) 0, s.drop n)
  else none

/-- The number of days of a month. -/
def daysIn (year month : Nat) : Nat :=
  if month = 2 then
    (if year % 4 = 0 && (year % 100 ≠ 0 || year % 400 = 0) then 29 else 28)
  else if month = 4 || month = 6 || month = 9 || month = 11 then 30
  else 31

/-- The rest after a day of the calendar. -/
def dropDay? (s : List Char) : Option (List Char) := do
  match ← fixed? 4 s with
  | (year, '-' :: s) =>
    match ← fixed? 2 s with
    | (month, '-' :: s) =>
      let (day, s) ← fixed? 2 s
      if 1 ≤ month && month ≤ 12 && 1 ≤ day && day ≤ daysIn year month then some s else none
    | _ => none
  | _ => none

/-- The rest after seconds and their fraction, which may both be missing. -/
def dropSeconds? : List Char → Option (List Char)
  | ':' :: s => do
    let (second, s) ← fixed? 2 s
    if second > 60 then none
    match s with
    | '.' :: fraction =>
      match fraction.span Char.isDigit with
      | ([], _) => none
      | (_, s) => some s
    | s => some s
  | s => some s

/-- The rest after an hour and a minute. -/
def dropHourMinute? (s : List Char) : Option (List Char) := do
  match ← fixed? 2 s with
  | (hour, ':' :: s) =>
    let (minute, s) ← fixed? 2 s
    if hour ≤ 23 && minute ≤ 59 then some s else none
  | _ => none

/-- The rest after a time of day. -/
def dropTime? (s : List Char) : Option (List Char) := do dropSeconds? (← dropHourMinute? s)

/-- An offset from universal time, or nothing. -/
def isOffset : List Char → Bool
  | [] | ['Z'] | ['z'] => true
  | '+' :: s | '-' :: s => dropHourMinute? s == some []
  | _ => false

/-- A day, a time of day, or both with an offset or without. -/
def isDate (word : List Char) : Bool :=
  match dropDay? word with
  | none => dropTime? word == some []
  | some [] => true
  | some (mark :: s) =>
    (mark == 'T' || mark == 't' || mark == ' ') && (dropTime? s).any isOffset

/-- The value that a word spells. -/
def word? (word : List Char) : Option Value :=
  if word = "true".toList then some (.boolean true)
  else if word = "false".toList then some (.boolean false)
  else
    match integer? word with
    | some n =>
      if -(Nat.pow 2 127 : Int) ≤ n ∧ n < Nat.pow 2 128 then some (.integer n)
      else some .outOfRange
    | none => (float? word).or (if isDate word then some .date else none)

/-- Reads a scalar without quotes.  A day may be followed by a space and a time. -/
def scalar? (s : List Char) : Option (Value × List Char) :=
  let (word, rest) := s.span isWordChar
  match rest with
  | ' ' :: more =>
    let (time, after) := more.span isWordChar
    if dropDay? word == some [] && (dropHourMinute? time).isSome then
      (word? (word ++ ' ' :: time)).map (·, after)
    else (word? word).map (·, rest)
  | _ => (word? word).map (·, rest)

end SkillLint.Toml
