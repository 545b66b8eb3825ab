/-
**Floating-point numbers in decimal.**

A number is written with the fewest digits that read back as it, or with a fixed number of digits.
Both come from exact arithmetic on its numerator and denominator.

Main definitions:

* `Decimal` — a decimal number `0.d₁d₂… · 10 ^ point`;
* `Binary64.shortest` — **the fewest digits that read back**, the nearest of those;
* `Binary64.rounded`, `Binary64.roundedAt` — a number of digits in all, or after the point;
* `Decimal.scientific`, `Decimal.positional` — the two ways of writing a decimal;
* `Binary64.render`, `Binary64.renderScientific`, `Binary64.renderPositional` — numbers in print.
-/

import TableAssembler.Binary64.Basic
import TableAssembler.Text.Numeral

set_option relaxedAutoImplicit false
set_option autoImplicit false

namespace TableAssembler

open Text (utf8 byte)

/-- A decimal number `0.d₁d₂… · 10 ^ point`. -/
structure Decimal where
  digits : Text
  point : Int
  deriving DecidableEq, Repr, Inhabited

namespace Decimal

/-- The decimal `n · 10 ^ power`, with `width` digits. -/
def ofNat (width : Nat) (n : Nat) (power : Int) : Decimal :=
  let digits := (Text.numeral 10 n).leftpad width (byte '0')
  ⟨digits, digits.length + power⟩

/-- A decimal without zeros at its end. -/
def trim (d : Decimal) : Decimal :=
  { d with digits := (d.digits.reverse.dropWhile (· = byte '0')).reverse }

/-- The digits from a place on, with zeros where there are none. -/
def digitsFrom (d : Decimal) (start : Int) (count : Nat) : Text :=
  (List.range count).map fun (i : Nat) =>
    let place : Int := start + i
    if place < 0 then byte '0' else (d.digits[place.toNat]?).getD (byte '0')

/-- A fraction after its point, if there is one. -/
def fraction (digits : Text) : Text := if digits.isEmpty then [] else byte '.' :: digits

/-- A decimal as `d.ddde±dd`, with `places` digits after the point. -/
def scientific (mark : Char) (places : Nat) (d : Decimal) : Text :=
  let exponent := if d.digits.all (· = byte '0') then 0 else d.point - 1
  let shown := Text.numeral 10 exponent.natAbs
  d.digitsFrom 0 1 ++ fraction (d.digitsFrom 1 places) ++
    [byte mark, if exponent < 0 then byte '-' else byte '+'] ++ shown.leftpad 2 (byte '0')

/-- A decimal as `ddd.ddd`, with `places` digits after the point. -/
def positional (places : Nat) (d : Decimal) : Text :=
  (if d.point ≤ 0 then utf8 "0" else d.digitsFrom 0 d.point.toNat) ++
    fraction (d.digitsFrom d.point places)

end Decimal

namespace Binary64

/-- A quotient rounded to the nearest whole number, a half to the even one. -/
def roundDiv (a b : Nat) : Nat :=
  let q := a / b
  let twice := 2 * (a % b)
  if b < twice ∨ (twice = b ∧ q % 2 = 1) then q + 1 else q

/-- The quotient `a / b` scaled by a power of ten, as a new numerator and denominator. -/
def scale (a b : Nat) (power : Int) : Nat × Nat :=
  (a * Nat.pow 10 power.toNat, b * Nat.pow 10 (-power).toNat)

/-- The place of the decimal point: the number `p` with `10 ^ (p - 1) ≤ a / b < 10 ^ p`. -/
def pointOf (a b : Nat) : Int :=
  let guess : Int := (Text.numeral 10 a).length - (Text.numeral 10 b).length
  let (c, d) := scale a b (-guess)
  if d ≤ c then guess + 1 else guess

/-- The decimals with `count` digits on both sides of a number, of those that read back as it; the
nearer one comes first. -/
def candidates (x : Exact) (count : Nat) : List Nat :=
  let (a, b) := x.ratio
  let power : Int := count - pointOf a b
  -- The numbers that read back as `x` are those between its two neighbours' halfway points.
  let below := if x.mantissa = 0x10000000000000 ∧ -1074 < x.exponent then 1 else 2
  let unit := Nat.pow 2 x.exponent.toNat
  let (middle, whole) := scale (4 * a) (4 * b) power
  let (low, _) := scale (4 * a - below * unit) (4 * b) power
  let (high, _) := scale (4 * a + 2 * unit) (4 * b) power
  let readsBack (n : Nat) : Bool :=
    if x.mantissa % 2 = 0 then low ≤ n * whole && n * whole ≤ high
    else low < n * whole && n * whole < high
  let nearest := roundDiv middle whole
  let floor := middle / whole
  let other := if nearest = floor then floor + 1 else floor
  [nearest, other].filter readsBack

/-- **The fewest digits that read back as a number.**  Seventeen always do. -/
def shortest (x : Exact) : Decimal :=
  if x.mantissa = 0 then ⟨utf8 "0", 1⟩
  else
    let (a, b) := x.ratio
    let found := ((List.range 17).map (· + 1)).findSome? fun count =>
      (candidates x count).head?.map fun n => (Decimal.ofNat count n (pointOf a b - count)).trim
    found.getD ⟨utf8 "0", 1⟩

/-- A number rounded to `count` digits. -/
def rounded (count : Nat) (x : Exact) : Decimal :=
  if x.mantissa = 0 then ⟨utf8 "0", 1⟩
  else
    let (a, b) := x.ratio
    let power : Int := count - pointOf a b
    let (c, d) := scale a b power
    Decimal.ofNat count (roundDiv c d) (-power)

/-- A number rounded to `places` digits after the point. -/
def roundedAt (places : Nat) (x : Exact) : Decimal :=
  let (a, b) := x.ratio
  let (c, d) := scale a b places
  Decimal.ofNat 1 (roundDiv c d) (-places)

/-- The sign of a number in print. -/
def signOf (x : Exact) : Text := if x.negative then utf8 "-" else []

/-- A number that is not finite, in print. -/
def renderSpecial (x : Float) : Text :=
  if x.isNaN then utf8 "nan" else if x < 0 then utf8 "-inf" else utf8 "+inf"

/-- **A number in print**, with the fewest digits that read back: as a positional decimal if its
exponent is from -4 to 5, and never without a point or an exponent. -/
def render (mark : Char) (x : Float) : Text :=
  match decode? x with
  | none => renderSpecial x
  | some exact =>
      let d := shortest exact
      let exponent := if exact.mantissa = 0 then 0 else d.point - 1
      if exponent < -4 ∨ 6 ≤ exponent then
        signOf exact ++ d.scientific mark (d.digits.length - 1)
      else
        let places := (d.digits.length - d.point).toNat
        signOf exact ++ d.positional places ++ if places = 0 then utf8 ".0" else []

/-- A number with six digits after the point and an exponent. -/
def renderScientific (mark : Char) (x : Float) : Text :=
  match decode? x with
  | none => renderSpecial x
  | some exact => signOf exact ++ (rounded 7 exact).scientific mark 6

/-- A number with six digits after the point. -/
def renderPositional (x : Float) : Text :=
  match decode? x with
  | none => renderSpecial x
  | some exact => signOf exact ++ (roundedAt 6 exact).positional 6

end Binary64

end TableAssembler
