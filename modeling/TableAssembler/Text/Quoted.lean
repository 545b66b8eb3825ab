/-
**Quoted texts.**

Messages quote single characters, and texts that may hold anything.  Printable characters stand for
themselves; the quotation mark and the backslash get a backslash; control characters have their
usual short escapes; all else is written by its code point, and a stray byte by its value.

Main definitions:

* `Text.escaped` — the escape of one rune inside a given kind of quotation marks;
* `Text.quoted` — a text in double quotation marks;
* `Text.quotedChar` — a code point in single quotation marks.
-/

import TableAssembler.Text.Numeral
import TableAssembler.Text.Printable

set_option relaxedAutoImplicit false
set_option autoImplicit false

namespace TableAssembler

namespace Text

/-- The short escapes of control characters. -/
def shortEscape? : Nat → Option Text
  | 7 => some (utf8 "\\a")
  | 8 => some (utf8 "\\b")
  | 9 => some (utf8 "\\t")
  | 10 => some (utf8 "\\n")
  | 11 => some (utf8 "\\v")
  | 12 => some (utf8 "\\f")
  | 13 => some (utf8 "\\r")
  | _ => none

/-- A code point that is not shown as it is, written by its number. -/
def numberEscape (n : Nat) : Text :=
  if n < 0x20 ∨ n = 0x7F then utf8 "\\x" ++ hex 2 n
  else if n < 0x10000 then utf8 "\\u" ++ hex 4 n
  else utf8 "\\U" ++ hex 8 n

/-- The character `c` as it stands between quotation marks `mark`. -/
def escapedChar (mark c : Char) : Text :=
  if c = mark ∨ c = Char.ofNat 92 then byte (Char.ofNat 92) :: ofChar c
  else if isPrintable c.toNat then ofChar c
  else (shortEscape? c.toNat).getD (numberEscape c.toNat)

/-- A rune as it stands between quotation marks `mark`. -/
def escaped (mark : Char) : Rune → Text
  | .scalar c => escapedChar mark c
  | .stray b => utf8 "\\x" ++ hex 2 b.toNat

/-- A text between double quotation marks. -/
def quoted (t : Text) : Text :=
  utf8 "\"" ++ (runes t).flatMap (escaped '"') ++ utf8 "\""

/-- The character of a code point, U+FFFD for a surrogate. -/
def charOfCode (n : Nat) : Char :=
  if 0xD800 ≤ n ∧ n ≤ 0xDFFF then Char.ofNat 0xFFFD else Char.ofNat n

/-- A code point between single quotation marks; a number that is no code point is reported as
such. -/
def quotedChar (n : Int) : Text :=
  if n < 0 ∨ 0x10FFFF < n then utf8 "%!q(int32=" ++ grouped n ++ utf8 ")"
  else utf8 "'" ++ escapedChar (Char.ofNat 39) (charOfCode n.toNat) ++ utf8 "'"

end Text

end TableAssembler
