/-
**Floating-point numbers as exact values.**

A finite floating-point number is a whole number times a power of two.  Comparing it with a whole
number, cutting off its fraction and writing it down are exact operations on that form.

Main definitions:

* `Binary64.Exact`, `Binary64.decode?` — the form `±m·2^q` of a number, if it is finite;
* `Binary64.truncate?` — the whole part;
* `Binary64.compare`, `Binary64.compareInt` — the order, in which NaN is the greatest;
* `Binary64.ofInt`, `Binary64.ofInt?` — the nearest number to a whole number;
* `Binary64.remainder` — the exact remainder of a division.
-/

set_option relaxedAutoImplicit false
set_option autoImplicit false

namespace TableAssembler

namespace Binary64

/-- A finite number: `mantissa · 2 ^ exponent`, negative if `negative`. -/
structure Exact where
  negative : Bool
  mantissa : Nat
  exponent : Int
  deriving DecidableEq, Repr, Inhabited

/-- The exact value of a number, if it is finite. -/
def decode? (x : Float) : Option Exact :=
  let bits : Nat := x.toBits.toNat
  let fraction : Nat := bits % 0x10000000000000
  let power : Nat := bits / 0x10000000000000 % 0x800
  let negative := decide (0x8000000000000000 ≤ bits)
  if power = 0x7FF then none
  else if power = 0 then some ⟨negative, fraction, -1074⟩
  else some ⟨negative, fraction + 0x10000000000000, (power : Int) - 1075⟩

namespace Exact

/-- The numerator and the denominator of the absolute value. -/
def ratio (x : Exact) : Nat × Nat :=
  (x.mantissa * Nat.pow 2 x.exponent.toNat, Nat.pow 2 (-x.exponent).toNat)

/-- A magnitude with the sign of a number. -/
def signed (x : Exact) (magnitude : Nat) : Int := if x.negative then -magnitude else magnitude

/-- The number without its fraction. -/
def truncate (x : Exact) : Int := x.signed (x.ratio.1 / x.ratio.2)

/-- The order of two numbers. -/
def compare (x y : Exact) : Ordering :=
  Ord.compare (x.signed (x.ratio.1 * y.ratio.2)) (y.signed (y.ratio.1 * x.ratio.2))

/-- The exact value of a whole number. -/
def ofInt (n : Int) : Exact := ⟨decide (n < 0), n.natAbs, 0⟩

end Exact

/-- The whole part of a finite number. -/
def truncate? (x : Float) : Option Int := (decode? x).map Exact.truncate

/-- The place of a number that is not finite: below all finite numbers, above them, or, for NaN, at
the very end. -/
def rank (x : Float) : Int :=
  if x.isNaN then 2 else if x.isInf then if x < 0 then -1 else 1 else 0

/-- The order of numbers, in which NaN is equal to itself and greater than all others. -/
def compare (x y : Float) : Ordering :=
  match decode? x, decode? y with
  | some x, some y => x.compare y
  | _, _ => Ord.compare (rank x) (rank y)

/-- The order of a whole number and a floating-point number. -/
def compareInt (n : Int) (y : Float) : Ordering :=
  match decode? y with
  | some y => (Exact.ofInt n).compare y
  | none => Ord.compare 0 (rank y)

/-- A decimal number `±digits · 10 ^ power`, rounded. -/
def ofDecimal (negative : Bool) (digits : Nat) (power : Int) : Float :=
  let magnitude := Float.ofScientific digits (decide (power < 0)) power.natAbs
  if negative then -magnitude else magnitude

/-- The nearest number to a whole number; an infinite one if that is beyond all finite ones. -/
def ofInt (n : Int) : Float := ofDecimal (n < 0) n.natAbs 0

/-- The nearest number to a whole number, unless that is beyond all finite ones. -/
def ofInt? (n : Int) : Option Float := if (ofInt n).isFinite then some (ofInt n) else none

/-- The number `±m·2^q`, of which only the 53 leading bits of `m` count. -/
def ofExact (x : Exact) : Float :=
  let surplus := x.mantissa.log2 - 52
  (ofDecimal x.negative (x.mantissa / Nat.pow 2 surplus) 0).scaleB (x.exponent + surplus)

/-- The remainder of a division that is cut off at the point; it has the sign of the dividend. -/
def remainder (x y : Float) : Float :=
  match decode? x, decode? y with
  | some a, some b =>
      let exponent := min a.exponent b.exponent
      let scaled (c : Exact) : Nat := c.mantissa * Nat.pow 2 (c.exponent - exponent).toNat
      ofExact ⟨a.negative, scaled a % scaled b, exponent⟩
  | some _, none => if y.isNaN then y else x
  | none, _ => 0.0 / 0.0

end Binary64

end TableAssembler
