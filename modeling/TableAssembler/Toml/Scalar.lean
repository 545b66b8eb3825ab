/-
**The numbers, dates and times of TOML.**

Numbers and dates are cut out of a document by their characters alone and then checked as a whole:
underscores stand between digits, leading zeros are refused, integers have to fit in 64 bits and
floats in the range of a double, and a date has to be in the calendar.

Main definitions:

* `Toml.integer?` — the value of the text of an integer;
* `Toml.isFloat` — whether a text is a float;
* `Toml.isDatetime` — whether a text is a date, a time, or both;
* `Toml.Scalar`, `Toml.scalar?` — the scalar at the start of a text.
-/

import TableAssembler.Text.Basic

set_option relaxedAutoImplicit false
set_option autoImplicit false

namespace TableAssembler

namespace Toml

/-! ### Characters -/

/-- Hexadecimal digits of either case. -/
def isHex (c : Char) : Bool := c.isDigit || ('a' ≤ c && c ≤ 'f') || ('A' ≤ c && c ≤ 'F')

/-- Octal digits. -/
def isOctal (c : Char) : Bool := '0' ≤ c && c ≤ '7'

/-- Binary digits. -/
def isBinary (c : Char) : Bool := c = '0' || c = '1'

/-- The value of a hexadecimal digit. -/
def hexValue (c : Char) : Nat :=
  if c.isDigit then c.toNat - 48 else if c ≤ 'F' then c.toNat - 55 else c.toNat - 87

/-- The number that digits of a base make, most significant first. -/
def numberOf (base : Nat) (digits : List Char) : Nat :=
  digits.foldl (fun n c => n * base + hexValue c) 0

/-! ### Integers -/

/-- Whether every underscore follows a digit and the text ends in one; `afterDigit` says whether
the text so far does. -/
def underscoresAllowed (afterDigit : Bool) : List Char → Bool
  | [] => afterDigit
  | c :: rest => (c ≠ '_' || afterDigit) && underscoresAllowed (isHex c) rest

/-- Whether a number starts with a zero that is neither its only digit nor part of a base mark. -/
def hasLeadingZero : List Char → Bool
  | '0' :: c :: _ => !(c = 'b' || c = 'o' || c = 'x')
  | sign :: '0' :: _ :: _ => sign = '-' || sign = '+'
  | _ => false

/-- The digits of a number without underscores. -/
def bareDigits (cs : List Char) : List Char := cs.filter (· ≠ '_')

/-- The value of an integer, not regarding its range. -/
def integerValue (cs : List Char) : Int :=
  match bareDigits cs with
  | '0' :: 'x' :: digits => numberOf 16 digits
  | '0' :: 'o' :: digits => numberOf 8 digits
  | '0' :: 'b' :: digits => numberOf 2 digits
  | '-' :: digits => -(numberOf 10 digits : Int)
  | '+' :: digits => numberOf 10 digits
  | digits => numberOf 10 digits

/-- The value of the text of an integer, if it is well formed and fits in 64 bits. -/
def integer? (cs : List Char) : Option Int :=
  let value := integerValue cs
  if underscoresAllowed false cs = false ∨ hasLeadingZero cs = true then none
  else if value < -0x8000000000000000 ∨ 0x8000000000000000 ≤ value then none
  else some value

/-! ### Floats -/

/-- The parts of a float between its point and its exponent mark. -/
def floatParts (cs : List Char) : List (List Char) :=
  (cs.splitOnP fun c => c = '.' || c = 'e' || c = 'E').filter (· ≠ [])

/-- Whether a digit follows every point. -/
def pointsAllowed (afterPoint : Bool) : List Char → Bool
  | [] => !afterPoint
  | c :: rest => (!afterPoint || c.isDigit) && pointsAllowed (c = '.') rest

/-- A text without its sign. -/
def dropSign : List Char → List Char
  | '+' :: rest => rest
  | '-' :: rest => rest
  | cs => cs

/-- The exponent that an exponent mark introduces; zero if there is none. -/
def exponent? : List Char → Option Int
  | [] => some 0
  | mark :: rest =>
      let digits := dropSign rest
      if mark ≠ 'e' ∧ mark ≠ 'E' then none
      else if digits = [] ∨ digits.all Char.isDigit = false then none
      else some (if rest.head? = some '-' then -(numberOf 10 digits : Int) else numberOf 10 digits)

/-- Whether the decimal `digits · 10 ^ scale` rounds to a finite double: it lies below the midpoint
between the greatest one and its successor. -/
def isFinite (digits : List Char) (scale : Int) : Bool :=
  let significant := digits.dropWhile (· = '0')
  let magnitude := (significant.length : Int) + scale
  if significant = [] ∨ magnitude < 0 then true
  else if 400 < magnitude then false
  else
    let number := numberOf 10 significant
    let limit := Nat.pow 2 1024 - Nat.pow 2 970
    if 0 ≤ scale then number * Nat.pow 10 scale.toNat < limit
    else number < limit * Nat.pow 10 scale.natAbs

/-- Whether a text without sign and underscores is a finite decimal. -/
def isDecimal (cs : List Char) : Bool :=
  let whole := cs.takeWhile Char.isDigit
  let rest := cs.dropWhile Char.isDigit
  let fraction := if rest.head? = some '.' then rest.tail.takeWhile Char.isDigit else []
  let tail := if rest.head? = some '.' then rest.tail.dropWhile Char.isDigit else rest
  match exponent? tail with
  | none => false
  | some exponent =>
      (whole ≠ [] || fraction ≠ []) && isFinite (whole ++ fraction) (exponent - fraction.length)

/-- Whether a text is a float, the special ones apart. -/
def isFloat (cs : List Char) : Bool :=
  let parts := floatParts cs
  parts.all (underscoresAllowed false) && !((parts.head?.map hasLeadingZero).getD false) &&
    pointsAllowed false cs && isDecimal (dropSign (bareDigits cs))

/-! ### Dates and times -/

/-- The number of exactly `count` digits at the start of a text, and the rest. -/
def digits? (count : Nat) (cs : List Char) : Option (Nat × List Char) :=
  let taken := cs.take count
  if taken.length = count ∧ taken.all Char.isDigit then some (numberOf 10 taken, cs.drop count)
  else none

/-- The rest of a text after a character. -/
def after? (c : Char) : List Char → Option (List Char)
  | [] => none
  | d :: rest => if c = d then some rest else none

/-- Whether a year has a 29th of February. -/
def isLeapYear (year : Nat) : Bool := year % 4 = 0 && (year % 100 ≠ 0 || year % 400 = 0)

/-- The number of days of a month. -/
def daysIn (year month : Nat) : Nat :=
  if month = 2 then if isLeapYear year then 29 else 28
  else if month = 4 ∨ month = 6 ∨ month = 9 ∨ month = 11 then 30
  else 31

/-- The rest of a text after a date of the calendar. -/
def date? (cs : List Char) : Option (List Char) := do
  let (year, cs) ← digits? 4 cs
  let (month, cs) ← digits? 2 (← after? '-' cs)
  let (day, cs) ← digits? 2 (← after? '-' cs)
  if 1 ≤ month ∧ month ≤ 12 ∧ 1 ≤ day ∧ day ≤ daysIn year month then some cs else none

/-- The rest of a text after the fraction of a second, which may be missing. -/
def afterFraction : List Char → List Char
  | '.' :: d :: rest => if d.isDigit then rest.dropWhile Char.isDigit else '.' :: d :: rest
  | cs => cs

/-- The rest of a text after a time of day. -/
def time? (cs : List Char) : Option (List Char) := do
  let (hour, cs) ← digits? 2 cs
  let (minute, cs) ← digits? 2 (← after? ':' cs)
  let (second, cs) ← digits? 2 (← after? ':' cs)
  if hour < 24 ∧ minute < 60 ∧ second < 60 then some (afterFraction cs) else none

/-- The rest of a text after the offset of a time zone. -/
def zone? : List Char → Option (List Char)
  | 'Z' :: rest => some rest
  | sign :: cs => do
      let (hour, cs) ← digits? 2 cs
      let (minute, cs) ← digits? 2 (← after? ':' cs)
      if (sign = '+' ∨ sign = '-') ∧ hour ≤ 24 ∧ minute ≤ 60 then some cs else none
  | [] => none

/-- The normal spelling of a character of a date: capital letters, and a `T` for the blank. -/
def datetimeChar (c : Char) : Char :=
  if c = 'z' then 'Z' else if c = 't' ∨ c = ' ' then 'T' else c

/-- Whether a text is a date, a time, or both, the latter with or without a time zone. -/
def isDatetime (cs : List Char) : Bool :=
  let cs := cs.map datetimeChar
  let joined? := do time? (← after? 'T' (← date? cs))
  date? cs = some [] || time? cs = some [] || joined? = some [] ||
    joined?.bind zone? = some []

/-! ### Scalars -/

/-- A scalar that is not a string. -/
inductive Scalar where
  | integer (value : Int)
  | float
  | boolean (value : Bool)
  | datetime
  deriving DecidableEq, Repr

/-- An integer in a base with a mark: at least one digit, then digits and underscores. -/
def markedInteger? (isDigit : Char → Bool) (mark : Char) (cs : List Char) :
    Option (Scalar × List Char) :=
  let body := cs.takeWhile fun c => isDigit c || c = '_'
  if cs.head?.any isDigit then
    (integer? ('0' :: mark :: body)).map fun value => (.integer value, cs.drop body.length)
  else none

/-- A float that starts with `start`, which the rest of its characters follow. -/
def floatFrom? (start cs : List Char) : Option (Scalar × List Char) :=
  let isPart (c : Char) : Bool :=
    c.isDigit || c = '_' || c = '.' || c = '-' || c = '+' || c = 'e' || c = 'E'
  if isFloat (start ++ cs.takeWhile isPart) then some (.float, cs.dropWhile isPart) else none

/-- A decimal number that starts with `start`. -/
def decimalFrom? (start cs : List Char) : Option (Scalar × List Char) :=
  let isPart (c : Char) : Bool := c.isDigit || c = '_'
  let whole := start ++ cs.takeWhile isPart
  let rest := cs.dropWhile isPart
  match rest with
  | c :: more =>
      if c = '.' ∨ c = 'e' ∨ c = 'E' then floatFrom? (whole ++ [c]) more
      else (integer? whole).map fun value => (.integer value, rest)
  | [] => (integer? whole).map fun value => (.integer value, rest)

/-- A date or time that starts with `start`; blanks at its end do not count. -/
def datetimeFrom? (start cs : List Char) : Option (Scalar × List Char) :=
  let isPart (c : Char) : Bool :=
    c.isDigit || c = '-' || c = ':' || c = 'T' || c = 't' || c = ' ' || c = '.' || c = 'Z' ||
      c = 'z' || c = '+'
  let body := start ++ cs.takeWhile isPart
  if isDatetime (body.reverse.dropWhile (· = ' ')).reverse then
    some (.datetime, cs.dropWhile isPart)
  else none

/-- A number, date or time that starts with the digits `start`. -/
def numberOrDate? (start cs : List Char) : Option (Scalar × List Char) :=
  let whole := start ++ cs.takeWhile Char.isDigit
  let rest := cs.dropWhile Char.isDigit
  match rest with
  | c :: more =>
      if c = '-' ∨ c = ':' then datetimeFrom? (whole ++ [c]) more
      else decimalFrom? whole rest
  | [] => decimalFrom? whole rest

/-- The rest of a text after a word. -/
def afterWord? (word : String) (cs : List Char) : Option (List Char) :=
  if word.toList.isPrefixOf cs then some (cs.drop word.length) else none

/-- A signed number. -/
def signed? (sign : Char) (cs : List Char) : Option (Scalar × List Char) :=
  match cs with
  | 'i' :: _ => (afterWord? "inf" cs).map fun rest => (.float, rest)
  | 'n' :: _ => (afterWord? "nan" cs).map fun rest => (.float, rest)
  | d :: rest =>
      let marked := d = '0' && rest.head?.any fun c => c = 'b' || c = 'o' || c = 'x'
      if d.isDigit && !marked then decimalFrom? [sign, d] rest else none
  | [] => none

/-- **The scalar at the start of a text**, and the rest. -/
def scalar? : List Char → Option (Scalar × List Char)
  | '0' :: 'b' :: rest => markedInteger? isBinary 'b' rest
  | '0' :: 'o' :: rest => markedInteger? isOctal 'o' rest
  | '0' :: 'x' :: rest => markedInteger? isHex 'x' rest
  | '0' :: c :: rest =>
      -- a date starts with two digits, so that a mark right after the zero ends the number
      if c.isDigit then numberOrDate? ['0', c] rest else decimalFrom? ['0'] (c :: rest)
  | '+' :: rest => signed? '+' rest
  | '-' :: rest => signed? '-' rest
  | 't' :: rest => (afterWord? "true" ('t' :: rest)).map fun rest => (.boolean true, rest)
  | 'f' :: rest => (afterWord? "false" ('f' :: rest)).map fun rest => (.boolean false, rest)
  | 'i' :: rest => (afterWord? "inf" ('i' :: rest)).map fun rest => (.float, rest)
  | 'n' :: rest => (afterWord? "nan" ('n' :: rest)).map fun rest => (.float, rest)
  | c :: rest => if c.isDigit then numberOrDate? [c] rest else none
  | [] => none

end Toml

end TableAssembler
