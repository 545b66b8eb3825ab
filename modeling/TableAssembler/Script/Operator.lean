/-
**Operators, indices and slices.**

Main definitions:

* `Script.bitwise`, `Script.shiftRight` — operations on the bits of whole numbers, of which
  negative ones have infinitely many ones on the left;
* `Script.isMember` — whether a value is in another;
* `Script.applyBinary`, `Script.applyUnary` — **the operators**;
* `Script.indexed`, `Script.sliced`, `Script.setIndexed` — items and parts of sequences;
* `Script.updateInPlace` — an operator that changes its left operand.
-/

import TableAssembler.Script.Compare
import TableAssembler.Script.Format

set_option relaxedAutoImplicit false
set_option autoImplicit false

namespace TableAssembler

namespace Script

/-! ### Numbers -/

/-- The whole number whose lowest bits are those of `n`, the highest of `width` being its sign. -/
def signedOf (width n : Nat) : Int :=
  if n < Nat.pow 2 (width - 1) then n else (n : Int) - Nat.pow 2 width

/-- An operation on the bits of two numbers. -/
def bitwise (operation : Nat → Nat → Nat) (m n : Int) : Int :=
  let width := max m.natAbs.log2 n.natAbs.log2 + 2
  let bits (k : Int) : Nat := (k % Nat.pow 2 width).toNat
  signedOf width (operation (bits m) (bits n) % Nat.pow 2 width)

/-- A number without its lowest bits. -/
def shiftRight (m : Int) (count : Nat) : Int :=
  if m.natAbs.log2 < count then if m < 0 then -1 else 0 else m.fdiv (Nat.pow 2 count)

/-- The largest number of places that a number is shifted to the left. -/
def shiftLimit : Int := 512

/-- A number as a floating-point number. -/
def floatOf (value : Value) : Step Float := do
  match value with
  | .float x => return x
  | .int n => orFail (Binary64.ofInt? n)
  | _ => fail

/-- The remainder with the sign of the divisor. -/
def floatModulo (x y : Float) : Float :=
  let r := Binary64.remainder x y
  if r != 0 && (x < 0) != (y < 0) then r + y else r

/-- An operation on two numbers that gives a floating-point number. -/
def onFloats (operation : Float → Float → Float) (x y : Value) : Step Value := do
  return .float (operation (← floatOf x) (← floatOf y))

/-- A division, whose divisor must not be zero. -/
def divided (operation : Float → Float → Float) (x y : Value) : Step Value := do
  let divisor ← floatOf y
  let dividend ← floatOf x
  require (divisor != 0)
  return .float (operation dividend divisor)

/-! ### Sequences -/

/-- The size that a repeated sequence stays below. -/
def repeatLimit : Int := 0x40000000

/-- A sequence, a number of times. -/
def repeated {α : Type} (items : List α) (count : Int) : Step (List α) := do
  if items.isEmpty then return []
  let count ← smallInt (.int count)
  if count < 1 then return []
  require (items.length * count < repeatLimit)
  return (List.replicate count.toNat items).flatten

/-- A sequence of any type, a number of times. -/
def multiplied (value : Value) (count : Int) : Step Value := do
  match value with
  | .string t => return .string (← repeated t count)
  | .bytes t => return .bytes (← repeated t count)
  | .tuple items => return .tuple (← repeated items count)
  | .list address => do newList (← repeated (← listItems address).toList count)
  | _ => fail

/-- Whether a text occurs in another. -/
def occursIn (part : Text) : Text → Bool
  | [] => part.isEmpty
  | t@(_ :: rest) => part.isPrefixOf t || occursIn part rest

/-- Whether a number is in a range.  Only numbers of 32 bits are looked for. -/
def isInRange (start stop step n : Int) : Bool :=
  let distance := wrap (n - start)
  let place := wrap (distance.tdiv step)
  decide (n < 0x80000000 ∧ -0x80000000 ≤ n ∧ distance.tmod step = 0 ∧ 0 ≤ place ∧
    place < rangeLength start stop step)

/-- Whether a value is in another. -/
def isMember (item collection : Value) : Step Bool := do
  match collection, item with
  | .string t, .string part => return occursIn part t
  | .bytes t, .bytes part => return occursIn part t
  | .bytes t, .int n => do
      require (0 ≤ n && n < 256)
      return t.contains (UInt8.ofNat n.toNat)
  | .tuple items, _ => containsValue item items
  | .list address, _ => do containsValue item (← listItems address).toList
  | .dict address, _ => do return isKey item && (lookup? (← dictEntries address) item).isSome
  | .range start stop step, _ => do return isInRange start stop step (← orFail (wholeNumber? item))
  | _, _ => fail

/-! ### Operators -/

/-- **The value of two operands.** -/
def applyBinary (operator : Operator) (x y : Value) : Step Value := do
  match operator, x, y with
  | .equal, _, _ => return .bool (← equal x y)
  | .unequal, _, _ => return .bool (!(← equal x y))
  | .less, _, _ => return .bool ((← order x y) = .lt)
  | .greater, _, _ => return .bool ((← order x y) = .gt)
  | .atMost, _, _ => return .bool ((← order x y) ≠ .gt)
  | .atLeast, _, _ => return .bool ((← order x y) ≠ .lt)
  | .isIn, _, _ => return .bool (← isMember x y)
  | .notIn, _, _ => return .bool (!(← isMember x y))
  | .add, .int m, .int n => return .int (m + n)
  | .add, .string t, .string u => return .string (t ++ u)
  | .add, .bytes t, .bytes u => return .bytes (t ++ u)
  | .add, .tuple xs, .tuple ys => return .tuple (xs ++ ys)
  | .add, .list a, .list b => do newList ((← listItems a) ++ (← listItems b)).toList
  | .add, _, _ => onFloats (· + ·) x y
  | .subtract, .int m, .int n => return .int (m - n)
  | .subtract, _, _ => onFloats (· - ·) x y
  | .multiply, .int m, .int n => return .int (m * n)
  | .multiply, .int _, .float _ => onFloats (· * ·) x y
  | .multiply, .float _, _ => onFloats (· * ·) x y
  | .multiply, .int n, _ => multiplied y n
  | .multiply, _, .int n => multiplied x n
  | .multiply, _, _ => fail
  | .divide, _, _ => divided (· / ·) x y
  | .floorDivide, .int m, .int n => do
      require (n ≠ 0)
      return .int (m.fdiv n)
  | .floorDivide, _, _ => divided (fun a b => (a / b).floor) x y
  | .modulo, .int m, .int n => do
      require (n ≠ 0)
      return .int (m.fmod n)
  | .modulo, .string t, _ => do return .string (← interpolated t y)
  | .modulo, _, _ => divided floatModulo x y
  | .and, .int m, .int n => return .int (bitwise Nat.land m n)
  | .or, .int m, .int n => return .int (bitwise Nat.lor m n)
  | .or, .dict a, .dict b => do
      newDict ((← dictEntries b).foldl (fun entries (key, value) => insertEntry entries key value)
        (← dictEntries a))
  | .xor, .int m, .int n => return .int (bitwise Nat.xor m n)
  | .shiftLeft, .int m, _ => do
      let count ← smallInt y
      require (0 ≤ count && count < shiftLimit)
      return .int (m * Nat.pow 2 count.toNat)
  | .shiftRight, .int m, _ => do
      let count ← smallInt y
      require (0 ≤ count)
      return .int (shiftRight m count.toNat)
  | _, _, _ => fail

/-- **The value of an operand with an operator in front.** -/
def applyUnary (operator : UnaryOperator) (x : Value) : Step Value := do
  match operator, x with
  | .not, _ => return .bool (!(← isTrue x))
  | .plus, .int n => return .int n
  | .plus, .float y => return .float y
  | .minus, .int n => return .int (-n)
  | .minus, .float y => return .float (-y)
  | .invert, .int n => return .int (-n - 1)
  | _, _ => fail

/-- The value of an assignment that updates its target: lists and dictionaries are changed in
place. -/
def updateInPlace (operator : Operator) (x y : Value) : Step Value := do
  match operator, x, y with
  | .add, .list address, _ => do
      match ← series? y with
      | some items =>
          changeList address (· ++ items.toList.toArray)
          return x
      | none => applyBinary operator x y
  | .or, .dict address, .dict other => do
      let entries ← dictEntries other
      changeDict address fun own =>
        entries.foldl (fun entries (key, value) => insertEntry entries key value) own
      return x
  | _, _, _ => applyBinary operator x y

/-! ### Indices and slices -/

/-- The place in a sequence that an index stands for, negative ones counting from the end. -/
def placeOf (length : Nat) (index : Value) : Step Nat := do
  let i ← smallInt index
  let place := if i < 0 then i + length else i
  require (0 ≤ place && place < length)
  return place.toNat

/-- The item of a value at an index or with a key. -/
def indexed (x key : Value) : Step Value := do
  match x with
  | .dict address =>
      require (isKey key)
      orFail (lookup? (← dictEntries address) key)
  | .list address =>
      let items ← listItems address
      orFail items[← placeOf items.size key]?
  | .tuple items => orFail items[← placeOf items.length key]?
  | .string t => do
      let b ← orFail t[← placeOf t.length key]?
      return .string [b]
  | .bytes t => do
      let b ← orFail t[← placeOf t.length key]?
      return .bytes [b]
  | .range start stop step => do
      return rangeItem start step (← placeOf (rangeLength start stop step).toNat key)
  | .parts kind t => do
      require (kind = .elements || kind = .elementNumbers)
      let items := partItems kind t
      orFail items[← placeOf items.length key]?
  | _ => fail

/-- Sets the item of a value at an index or with a key. -/
def setIndexed (x key value : Value) : Step Unit := do
  match x with
  | .dict address => setKey address key value
  | .list address =>
      let place ← placeOf (← listItems address).size key
      changeList address (·.setIfInBounds place value)
  | _ => fail

/-- A bound of a slice, negative ones counting from the end. -/
def boundOf (length default : Int) (bound : Value) : Step Int := do
  match bound with
  | .none => return default
  | _ =>
      let i ← smallInt bound
      return if i < 0 then i + length else i

/-- The nearest of the numbers from zero to a limit. -/
def clamp (limit n : Int) : Int := if n < 0 then 0 else if limit < n then limit else n

/-- A slice of a sequence: the place it starts at, the place it ends before, and its step. -/
structure Slice where
  first : Int
  stop : Int
  step : Int

/-- The slice of a sequence with a given length.  An empty one ends where it starts. -/
def sliceOf (length : Int) (start stop step : Value) : Step Slice := do
  let step ← match step with
    | .none => pure 1
    | _ => smallInt step
  require (step ≠ 0)
  if 0 < step then
    let start := clamp length (← boundOf length 0 start)
    let stop := clamp length (← boundOf length length stop)
    return ⟨start, max start stop, step⟩
  else
    let start := min (length - 1) (← boundOf length (length - 1) start)
    let stop := max (-1) (← boundOf length (-1) stop)
    return ⟨max start stop, stop, step⟩

namespace Slice

/-- The items that a slice takes. -/
def take {α : Type} (slice : Slice) (items : List α) : List α :=
  let items := items.toArray
  (List.range (rangeLength slice.first slice.stop slice.step).toNat).filterMap fun (i : Nat) =>
    items[(slice.first + slice.step * i).toNat]?

/-- The range that a slice takes from a range.  Its step is not zero either, which only a step of
more than 64 bits would become. -/
def ofRange (slice : Slice) (start step : Int) : Step Value := do
  let place (i : Int) : Int := wrap (start + step * i)
  let newStep := wrap (step * slice.step)
  require (newStep ≠ 0)
  return .range (place slice.first) (place slice.stop) newStep

end Slice

/-- A slice of a sequence. -/
def sliced (x start stop step : Value) : Step Value := do
  match x with
  | .string t => do return .string ((← sliceOf t.length start stop step).take t)
  | .bytes t => do return .bytes ((← sliceOf t.length start stop step).take t)
  | .tuple items => do return .tuple ((← sliceOf items.length start stop step).take items)
  | .list address => do
      let items := (← listItems address).toList
      newList ((← sliceOf items.length start stop step).take items)
  | .range low high stride => do
      let slice ← sliceOf (rangeLength low high stride) start stop step
      slice.ofRange low stride
  | _ => fail

end Script

end TableAssembler
