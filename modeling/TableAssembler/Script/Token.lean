/-
**The tokens of a script.**

Main definitions:

* `Script.Token` — a token;
* `Script.keywords`, `Script.reservedWords` — the words that are no names;
* `Script.number?`, `Script.stringLiteral?` — the literals at the start of a text.
-/

import TableAssembler.Binary64.Basic
import TableAssembler.Text.Letter
import TableAssembler.Token.Number

set_option relaxedAutoImplicit false
set_option autoImplicit false

namespace TableAssembler

namespace Script

/-- A token.  Lines and blocks are tokens too; the end of the text is the end of the list. -/
inductive Token where
  | newline
  | indent
  | outdent
  | name (value : Text)
  | int (value : Nat)
  | float (value : Float)
  | string (value : Text)
  | bytes (value : Text)
  | keyword (word : String)
  | mark (symbol : String)

/-! ### Words -/

/-- The words with a meaning of their own. -/
def keywords : List String :=
  ["and", "break", "continue", "def", "elif", "else", "for", "if", "in", "lambda", "load", "not",
    "or", "pass", "return", "while"]

/-- The words that have no meaning and may not be used as names. -/
def reservedWords : List String :=
  ["as", "class", "del", "except", "finally", "from", "global", "import", "is", "nonlocal", "raise",
    "try", "with", "yield"]

/-- The characters that start a name. -/
def isNameStart (c : Char) : Bool := c = '_' || Text.isLetter c

/-- The characters of a name. -/
def isNamePart (c : Char) : Bool := isNameStart c || c.isDigit

/-- The token of a word, unless it is reserved. -/
def word? (cs : List Char) : Option Token :=
  let word := String.ofList cs
  if reservedWords.contains word then none
  else if keywords.contains word then some (.keyword word)
  else some (.name (Text.ofChars cs))

/-! ### Numbers -/

/-- The value of a digit, in any base up to sixteen. -/
def digitOf? (base : Nat) (c : Char) : Option Nat :=
  if c.toNat < 0x80 then (digitValue? c.toUInt8).filter (· < base) else none

/-- Whether a character is a digit of a base. -/
def isDigitOf (base : Nat) (c : Char) : Bool := (digitOf? base c).isSome

/-- The number that some digits make. -/
def numberOf (base : Nat) (cs : List Char) : Nat :=
  cs.foldl (fun n c => n * base + (digitOf? base c).getD 0) 0

/-- An integer with a base mark, of which `cs` are the digits and what follows; numbers in base
eight and base two stay below two to the sixty-third. -/
def basedNumber? (base : Nat) (cs : List Char) : Option (Token × List Char) :=
  let digits := cs.takeWhile (isDigitOf base)
  let n := numberOf base digits
  if digits = [] ∨ (base ≠ 16 ∧ 0x8000000000000000 ≤ n) then none
  else some (.int n, cs.drop digits.length)

/-- The exponent at the start of a text, if there is one, and the rest.  An exponent without digits
is an error. -/
def exponent? (cs : List Char) : Option (Int × List Char) :=
  match cs with
  | c :: rest =>
      if c = 'e' ∨ c = 'E' then
        let negative := rest.head? = some '-'
        let rest := if negative ∨ rest.head? = some '+' then rest.drop 1 else rest
        let digits := rest.takeWhile Char.isDigit
        let n : Int := numberOf 10 digits
        if digits = [] then none
        else some (if negative then -n else n, rest.drop digits.length)
      else some (0, cs)
  | [] => some (0, [])

/-- A floating-point literal from its digits; it must be finite. -/
def floatToken? (whole fraction : List Char) (exponent : Int) : Option Token :=
  let digits := numberOf 10 (whole ++ fraction)
  let power := exponent - fraction.length
  -- Beyond these powers the number is zero or infinite whatever its digits are.
  let x :=
    if digits = 0 ∨ power + (whole ++ fraction).length < -400 then 0.0
    else if 400 < power then 1.0 / 0.0
    else Binary64.ofDecimal false digits power
  if x.isFinite then some (.float x) else none

/-- The number at the start of a text, and the rest.  Whole numbers other than zero do not start
with a zero. -/
def decimalNumber? (cs : List Char) : Option (Token × List Char) := do
  let whole := cs.takeWhile Char.isDigit
  let rest := cs.drop whole.length
  let hasPoint := rest.head? = some '.'
  let rest := if hasPoint then rest.drop 1 else rest
  let fraction := if hasPoint then rest.takeWhile Char.isDigit else []
  let rest := rest.drop fraction.length
  let hasExponent := rest.head? = some 'e' || rest.head? = some 'E'
  if hasPoint || hasExponent then
    let (exponent, rest) ← exponent? rest
    let token ← floatToken? whole fraction exponent
    some (token, rest)
  else if 1 < whole.length ∧ whole.head? = some '0' ∧ whole.any (· ≠ '0') then none
  else some (.int (numberOf 10 whole), rest)

/-- **The number at the start of a text**, and the rest. -/
def number? : List Char → Option (Token × List Char)
  | '0' :: c :: rest =>
      if c = 'x' ∨ c = 'X' then basedNumber? 16 rest
      else if c = 'o' ∨ c = 'O' then basedNumber? 8 rest
      else if c = 'b' ∨ c = 'B' then basedNumber? 2 rest
      else decimalNumber? ('0' :: c :: rest)
  | cs => decimalNumber? cs

/-! ### Strings -/

/-- The mark of strings that hold double quotation marks. -/
def apostrophe : Char := Char.ofNat 39

/-- The character that a one-letter escape stands for. -/
def shortEscape? (c : Char) : Option Char :=
  if c = 'a' then some (Char.ofNat 7)
  else if c = 'b' then some (Char.ofNat 8)
  else if c = 'f' then some (Char.ofNat 12)
  else if c = 'n' then some '\n'
  else if c = 'r' then some '\r'
  else if c = 't' then some '\t'
  else if c = 'v' then some (Char.ofNat 11)
  else if c = '\\' ∨ c = apostrophe ∨ c = '"' then some c
  else none

/-- The byte of a numeric escape; in a string it must be ASCII. -/
def escapedByte? (isBytes : Bool) (n : Nat) : Option Text :=
  if n < 0x80 ∨ (isBytes = true ∧ n < 0x100) then some [UInt8.ofNat n] else none

/-- The character of a code point, surrogates and numbers beyond Unicode excepted. -/
def codePoint? (n : Nat) : Option Text :=
  if n.isValidChar then some (Text.ofChar (Char.ofNat n)) else none

/-- Exactly `count` hexadecimal digits, as a number. -/
def hexNumber? (count : Nat) (cs : List Char) : Option Nat :=
  let digits := cs.take count
  if digits.length = count ∧ digits.all (isDigitOf 16) then some (numberOf 16 digits) else none

/-- What an escape stands for, and how many characters it takes after the backslash. -/
def escape? (isBytes : Bool) (cs : List Char) : Option (Text × Nat) :=
  match cs with
  | [] => none
  | c :: rest =>
      if c = '\n' then some ([], 1)
      else if c = 'x' then do some (← escapedByte? isBytes (← hexNumber? 2 rest), 3)
      else if c = 'u' then do some (← codePoint? (← hexNumber? 4 rest), 5)
      else if c = 'U' then do some (← codePoint? (← hexNumber? 8 rest), 9)
      else if isDigitOf 8 c then do
        let digits := (cs.take 3).takeWhile (isDigitOf 8)
        some (← escapedByte? isBytes (numberOf 8 digits), digits.length)
      else (shortEscape? c).map fun d => (Text.ofChar d, 1)

/-- The text of the body of a literal; `skip` characters have been read already. -/
def unescape? (isRaw isBytes : Bool) : Nat → List Char → Option Text
  | _, [] => some []
  | skip + 1, _ :: rest => unescape? isRaw isBytes skip rest
  | 0, c :: rest =>
      if c = '\\' ∧ isRaw = false then do
        let (t, length) ← escape? isBytes rest
        (unescape? isRaw isBytes length rest).map (t ++ ·)
      else (unescape? isRaw isBytes 0 rest).map (Text.ofChar c ++ ·)

/-- The body of a literal up to its closing mark, and the rest.  In a literal of three marks,
`marks` of them have just been read, and line breaks are allowed. -/
def literalBody? (mark : Char) (isLong : Bool) : Nat → List Char → List Char →
    Option (List Char × List Char)
  | _, _, [] => none
  | marks, read, c :: rest =>
      if c = mark then
        if isLong = false then some (read.reverse, rest)
        else if marks = 2 then some ((read.drop 2).reverse, rest)
        else literalBody? mark isLong (marks + 1) (c :: read) rest
      else if c = '\n' ∧ isLong = false then none
      else if c = '\\' then
        match rest with
        | [] => none
        | d :: rest => literalBody? mark isLong 0 (d :: c :: read) rest
      else literalBody? mark isLong 0 (c :: read) rest

/-- **The string literal at the start of a text**, its prefix excepted, and the rest. -/
def stringLiteral? (isRaw isBytes : Bool) (cs : List Char) : Option (Token × List Char) := do
  match cs with
  | [] => none
  | mark :: rest =>
      let isLong := rest.take 2 = [mark, mark]
      let (body, rest) ← literalBody? mark isLong 0 [] (if isLong then rest.drop 2 else rest)
      let t ← unescape? isRaw isBytes 0 body
      some (if isBytes then .bytes t else .string t, rest)

end Script

end TableAssembler
