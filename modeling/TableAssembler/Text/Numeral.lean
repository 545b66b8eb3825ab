/-
**Numerals.**

How numbers are written: digits of a base, padding with zeros, and the grouping of thousands that
messages use for counts.

Main definitions:

* `Text.numeral` — the digits of a natural number in a base, lower case;
* `Text.decimal` — an integer in base ten;
* `Text.grouped` — an integer in base ten, with a comma between groups of three digits;
* `Text.hex` — a natural number in base sixteen, padded with zeros;
* `Text.hexBytes` — the bytes of a text as pairs of hexadecimal digits.
-/

import TableAssembler.Text.Basic

set_option relaxedAutoImplicit false
set_option autoImplicit false

namespace TableAssembler

namespace Text

/-! ### Digits -/

/-- The digits of `n` in base `base`, most significant first. -/
def numeral (base n : Nat) : Text := (Nat.toDigits base n).map Char.toUInt8

/-- The sign of an integer: a minus sign for a negative one. -/
def sign (n : Int) : Text := if n < 0 then utf8 "-" else []

/-- An integer in base ten. -/
def decimal (n : Int) : Text := sign n ++ numeral 10 n.natAbs

/-- The number `n` in base sixteen with at least `width` digits. -/
def hex (width n : Nat) : Text := (numeral 16 n).leftpad width (byte '0')

/-! ### Thousands -/

/-- Puts a comma after every third digit of a numeral that is written backwards, unless it would
come last. -/
def groupBackwards : Text → Text
  | a :: b :: c :: d :: rest => a :: b :: c :: byte ',' :: groupBackwards (d :: rest)
  | short => short

/-- An integer in base ten with its digits in groups of three. -/
def grouped (n : Int) : Text := sign n ++ (groupBackwards (numeral 10 n.natAbs).reverse).reverse

/-! ### Bytes -/

/-- The bytes of a text as pairs of hexadecimal digits, with `separator` between neighbours. -/
def hexBytes (separator : Text) (t : Text) : Text := join separator (t.map fun b => hex 2 b.toNat)

end Text

end TableAssembler
