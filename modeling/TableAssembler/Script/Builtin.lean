/-
**The functions that every script has.**

Main definitions:

* `Script.universalConstants`, `Script.universalFunctions` — the names that every script has;
* `Script.intOfText?`, `Script.floatOfText?` — numbers in texts;
* `Script.sortValues` — a sorted list, in which equal values keep their order;
* `Script.callPlain` — a call of a function that needs no other function;
* `Script.callUniversal` — **a call of such a function**.
-/

import TableAssembler.Script.Method
import TableAssembler.Script.Token

set_option relaxedAutoImplicit false
set_option autoImplicit false

namespace TableAssembler

namespace Script

open Text (utf8 byte)

/-- The values that every script has. -/
def universalConstants : List (String × Value) :=
  [("None", .none), ("True", .bool true), ("False", .bool false)]

/-- The functions that every script has. -/
def universalFunctions : List String :=
  ["abs", "all", "any", "bool", "bytes", "chr", "dict", "dir", "enumerate", "fail", "float",
    "getattr", "hasattr", "hash", "int", "len", "list", "max", "min", "ord", "print", "range",
    "repr", "reversed", "sorted", "str", "tuple", "type", "zip"]

/-! ### Numbers in texts -/

/-- The value of a digit or letter in bases up to 36. -/
def letterDigit? (base : Nat) (b : UInt8) : Option Nat :=
  let value :=
    if Text.isDigit b then some (b.toNat - 48)
    else if byte 'a' ≤ b ∧ b ≤ byte 'z' then some (b.toNat - 87)
    else if byte 'A' ≤ b ∧ b ≤ byte 'Z' then some (b.toNat - 55)
    else none
  value.filter (· < base)

/-- The number that digits of a base make; there must be one at least. -/
def digitsOf? (base : Nat) (t : Text) : Option Nat :=
  if t.isEmpty then none
  else (t.mapM (letterDigit? base)).map fun digits => digits.foldl (fun n d => n * base + d) 0

/-- The base that a mark in front of digits stands for. -/
def baseMark? : Text → Option Nat
  | zero :: mark :: _ :: _ =>
      if zero ≠ byte '0' then none
      else if mark = byte 'o' ∨ mark = byte 'O' then some 8
      else if mark = byte 'x' ∨ mark = byte 'X' then some 16
      else if mark = byte 'b' ∨ mark = byte 'B' then some 2
      else none
  | _ => none

/-- A number without a sign; in base zero its mark tells the base. -/
def magnitudeOf? (base : Nat) (t : Text) : Option Nat :=
  match baseMark? t with
  | some marked =>
      if base = 0 ∨ base = marked then digitsOf? marked (t.drop 2) else digitsOf? base t
  | none =>
      if base = 0 then
        if 1 < t.length ∧ t.head? = some (byte '0') then
          if t.all (· = byte '0') then some 0 else none
        else digitsOf? 10 t
      else digitsOf? base t

/-- The whole number that a text shows. -/
def intOfText? (base : Nat) (t : Text) : Option Int :=
  match t with
  | sign :: rest =>
      if sign = byte '-' then (magnitudeOf? base rest).map fun n => -(n : Int)
      else if sign = byte '+' then (magnitudeOf? base rest).map Int.ofNat
      else (magnitudeOf? base t).map Int.ofNat
  | [] => none

/-- Characters without the underscores between digits; other underscores are an error.
`afterDigit` says whether a digit comes before. -/
def dropUnderscores? (isDigit : Char → Bool) : (afterDigit : Bool) → List Char → Option (List Char)
  | _, [] => some []
  | afterDigit, '_' :: rest =>
      if afterDigit && rest.head?.any isDigit then dropUnderscores? isDigit false rest else none
  | _, c :: rest => (dropUnderscores? isDigit (isDigit c) rest).map (c :: ·)

/-- The number `digits · 2 ^ power`, rounded. -/
def ofBinary (digits : Nat) (power : Int) : Float :=
  -- Beyond these powers the number is zero or infinite whatever its digits are.
  if digits = 0 ∨ power + digits.log2 < -1100 then 0.0
  else if 1100 < power then 1.0 / 0.0
  else if 0 ≤ power then Binary64.ofDecimal false (digits * Nat.pow 2 power.toNat) 0
  else Binary64.ofDecimal false (digits * Nat.pow 5 power.natAbs) power

/-- The number that digits in base sixteen with a power of two show; the power must be there. -/
def hexFloat? (cs : List Char) : Option Float := do
  let cs ← dropUnderscores? (isDigitOf 16) true cs
  let whole := cs.takeWhile (isDigitOf 16)
  let rest := cs.drop whole.length
  let hasPoint := rest.head? = some '.'
  let rest := if hasPoint then rest.drop 1 else rest
  let fraction := if hasPoint then rest.takeWhile (isDigitOf 16) else []
  match rest.drop fraction.length with
  | c :: rest =>
      guard ((c = 'p' ∨ c = 'P') ∧ whole ++ fraction ≠ [])
      let (power, rest) ← exponent? ('e' :: rest)
      guard rest.isEmpty
      let x := ofBinary (numberOf 16 (whole ++ fraction)) (power - 4 * fraction.length)
      if x.isFinite then some x else none
  | [] => none

/-- The number that decimal digits show, with a point and an exponent if there are any. -/
def decimalFloat? (cs : List Char) : Option Float := do
  let cs ← dropUnderscores? Char.isDigit false cs
  guard (((cs.dropWhile (· = '.')).head?.any Char.isDigit))
  match ← decimalNumber? (if cs.all Char.isDigit then cs ++ ['.'] else cs) with
  | (.float x, []) => some x
  | _ => none

/-- The floating-point number that a text without a sign shows. -/
def floatMagnitude? (t : Text) : Option Float :=
  let cs := Text.chars t
  let word := String.ofList (cs.map Char.toLower)
  if word = "inf" ∨ word = "infinity" then some (1.0 / 0.0)
  else if word = "nan" then some (0.0 / 0.0)
  else
    match cs with
    | '0' :: c :: rest => if c = 'x' ∨ c = 'X' then hexFloat? rest else decimalFloat? cs
    | _ => decimalFloat? cs

/-- The floating-point number that a text shows. -/
def floatOfText? (t : Text) : Option Float :=
  match t with
  | sign :: rest =>
      if sign = byte '-' then (floatMagnitude? rest).map (-·)
      else if sign = byte '+' then floatMagnitude? rest
      else floatMagnitude? t
  | [] => none

/-! ### Order -/

/-- Two sorted lists of values with keys as one; of equal ones those of the first list come first.
`done` is what has been put in order so far, last first. -/
def merge (isBefore : Value → Value → Step Bool) :
    (fuel : Nat) → (xs ys done : List (Value × Value)) → Step (List (Value × Value))
  | 0, xs, ys, done => return done.reverse ++ xs ++ ys
  | fuel + 1, x :: xs, y :: ys, done => do
      if ← isBefore y.1 x.1 then merge isBefore fuel (x :: xs) ys (y :: done)
      else merge isBefore fuel xs (y :: ys) (x :: done)
  | _ + 1, xs, ys, done => return done.reverse ++ xs ++ ys

/-- Values sorted by their keys; equal ones keep their order.  `fuel` bounds the number of times
that the values are halved. -/
def sortValues (isBefore : Value → Value → Step Bool) : (fuel : Nat) → List (Value × Value) →
    Step (List (Value × Value))
  | 0, items => return items
  | fuel + 1, items => do
      if items.length < 2 then return items
      else
        let half := items.length / 2
        let first ← sortValues isBefore fuel (items.take half)
        let second ← sortValues isBefore fuel (items.drop half)
        merge isBefore items.length first second []

/-- The hash of a text: its characters as the digits of a number in base 31, of 32 bits. -/
def hashOf (t : Text) : Int :=
  signedOf 32 <| (Text.chars t).foldl (fun h c => (h * 31 + c.toNat) % 0x100000000) 0

/-- The hash of a string of bytes. -/
def hashOfBytes (t : Text) : Nat :=
  t.foldl (fun (h : Nat) b => Nat.xor h b.toNat * 16777619 % 0x100000000) 2166136261

/-! ### Calls -/

/-- The tuples of items at equal places of lists, as long as all have one. -/
def zipped : (fuel : Nat) → List (List Value) → List Value
  | 0, _ => []
  | fuel + 1, lists =>
      match lists.mapM List.head? with
      | some heads => .tuple heads :: zipped fuel (lists.map (List.drop 1))
      | none => []

/-- A whole number from a value. -/
def toInt (value : Value) (base : Option Value) : Step Int := do
  match value, base with
  | .string t, none => orFail (intOfText? 10 t)
  | .string t, some base =>
      let base ← smallInt base
      require (base = 0 || (2 ≤ base && base ≤ 36))
      orFail (intOfText? base.toNat t)
  | _, some _ => fail
  | .bool value, none => return if value then 1 else 0
  | value, none => orFail (wholeNumber? value)

/-- A floating-point number from a value. -/
def toFloat (value : Value) : Step Float := do
  match value with
  | .bool value => return if value then 1.0 else 0.0
  | .string t => orFail (floatOfText? t)
  | .int n => orFail (Binary64.ofInt? n)
  | .float x => return x
  | _ => fail

/-- A string of bytes from a value. -/
def toBytes (value : Value) : Step Text := do
  match value with
  | .bytes t => return t
  | .string t => return Text.ofChars (Text.chars t)
  | value =>
      (← series value).mapM fun item => do
        let n ← smallInt item
        require (0 ≤ n && n < 256)
        return UInt8.ofNat n.toNat

/-- The range of one, two or three numbers, which have 64 bits at most. -/
def toRange (values : List Value) : Step Value := do
  match ← values.mapM wordInt with
  | [stop] => return .range 0 stop 1
  | [start, stop] => return .range start stop 1
  | [start, stop, step] =>
      require (step ≠ 0)
      return .range start stop step
  | _ => fail

/-- A call of a function with a single argument. -/
def callSimple (name : String) (value : Value) : Step Value := do
  match name, value with
  | "abs", .int n => return .int n.natAbs
  | "abs", .float x => return .float x.abs
  | "any", _ => return .bool (← (← series value).anyM isTrue)
  | "all", _ =>
      let found ← (← series value).anyM fun item => do return !(← isTrue item)
      return .bool !found
  | "bool", _ => return .bool (← isTrue value)
  | "bytes", _ => return .bytes (← toBytes value)
  | "chr", .int _ => return .string (← orFail (characterOf? value))
  | "dir", _ => newList ((methodNames value).map fun name => .string (utf8 name))
  | "float", _ => return .float (← toFloat value)
  | "hash", .string t => return .int (hashOf t)
  | "hash", .bytes t => return .int (hashOfBytes t)
  | "len", _ => return .int (← orFail (← length? value))
  | "list", _ => do newList (← elements value)
  | "ord", .string t =>
      match Text.chars t with
      | [c] => return .int c.toNat
      | _ => fail
  | "ord", .bytes [b] => return .int b.toNat
  | "repr", _ => return .string (← render value)
  | "reversed", _ => do newList (← elements value).reverse
  | "str", .bytes t => return .string (Text.ofChars (Text.chars t))
  | "str", _ => return .string (← display value)
  | "tuple", .tuple _ => return value
  | "tuple", _ => return .tuple (← elements value)
  | "type", _ => return .string value.typeName
  | _, _ => fail

/-- The values of some functions that are called without an argument. -/
def callEmpty (name : String) : Step Value := do
  match name with
  | "bool" => return .bool false
  | "float" => return .float 0.0
  | "list" => newList []
  | "tuple" => return .tuple []
  | _ => fail

/-- Whether a value can be called. -/
def isCallable : Value → Bool
  | .function _ | .builtin _ | .method _ _ _ => true
  | _ => false

/-- A call of a function that needs no other function. -/
def callPlain (name : String) (arguments : Arguments) : Step Value := do
  match name with
  | "fail" => fail
  | "print" =>
      let separator ← ({ arguments with positional := [] } : Arguments).byName ["sep"] 0
      for value in separator.filterMap id do
        let _ ← textOf value
      return .none
  | "dict" =>
      let address ← allocate (.dict [] 0)
      updateDict address arguments
      return .dict address
  | "enumerate" =>
      match ← arguments.only 1 2 with
      | items :: start =>
          let start ← wordInt (start.head?.getD (.int 0))
          newList ((← elements items).mapIdx fun (i : Nat) item =>
            .tuple [rangeItem start 1 i, item])
      | _ => fail
  | "getattr" =>
      match ← arguments.only 2 3 with
      | object :: name :: default =>
          let name ← textOf name
          if hasMethod object name then methodOf object name else orFail default.head?
      | _ => fail
  | "hasattr" =>
      match ← arguments.only 2 2 with
      | [object, name] => return .bool (hasMethod object (← textOf name))
      | _ => fail
  | "int" =>
      match ← arguments.byName ["x", "base"] 1 with
      | [some value, base] => return .int (← toInt value base)
      | _ => fail
  | "range" => do toRange (← arguments.only 1 3)
  | "zip" =>
      require arguments.named.isEmpty
      let all ← arguments.positional.mapM series
      let count := ((all.map Series.length).min?).getD 0
      newList (zipped count (all.map (Series.take count)))
  | _ =>
      match ← arguments.only 0 1 with
      | [value] => callSimple name value
      | _ => callEmpty name

/-! ### Calls that call back -/

variable {σ ε : Type}

/-- Whether a value comes before another, in either direction. -/
def isOrdered (direction : Ordering) (x y : Value) : Step Bool := do
  return (← order x y) = direction

/-- The key by which a value is compared: what a function gives for it, or, without one, the value
itself. -/
def keyOf (apply : Value → Arguments → Run σ ε Value) (function : Option Value) (value : Value) :
    Run σ ε Value :=
  match function with
  | none => return value
  | some function => apply function ⟨[value], []⟩

/-- The first of some values that no other comes before, by their keys; `best` is that of the values
before them. -/
def extreme (direction : Ordering) (key : Value → Run σ ε Value) :
    (best : Value × Value) → List Value → Run σ ε Value
  | best, [] => return best.2
  | best, value :: values => do
      let item := (← key value, value)
      extreme direction key (if ← isOrdered direction item.1 best.1 then item else best) values

/-- The least or the greatest of the elements of a value, of those that there are. -/
def extremeOf (apply : Value → Arguments → Run σ ε Value) (direction : Ordering)
    (function : Option Value) (value : Value) : Run σ ε Value :=
  whileReading value do
    match ← elements value with
    | first :: rest =>
        let key ← keyOf apply function first
        extreme direction (keyOf apply function) (key, first) rest
    | [] => fail

/-- The elements of a value in order. -/
def sortedOf (apply : Value → Arguments → Run σ ε Value) (direction : Ordering)
    (function : Option Value) (value : Value) : Run σ ε (List Value) := do
  let keyed ← whileReading value do
    (← elements value).mapM fun item => do return (← keyOf apply function item, item)
  return (← sortValues (isOrdered direction) keyed.length keyed).map Prod.snd

/-- The value whose elements a call compares: its only argument, or all of them. -/
def compared? : List Value → Option Value
  | [] => none
  | [items] => some items
  | items => some (.tuple items)

/-- Whether a call asks for the opposite order; it does not if it does not say. -/
def isReversed? : Option Value → Option Bool
  | none => some false
  | some (.bool value) => some value
  | some _ => none

/-- **A call of a function that every script has**; `apply` calls the functions that it is given. -/
def callUniversal (apply : Value → Arguments → Run σ ε Value) (name : String)
    (arguments : Arguments) : Run σ ε Value := do
  match name with
  | "max" | "min" =>
      let key ← ({ arguments with positional := [] } : Arguments).byName ["key"] 0
      let key := key.head?.join
      require (key.all isCallable)
      let items ← orFail (compared? arguments.positional)
      extremeOf apply (if name = "max" then .gt else .lt) key items
  | "sorted" =>
      match ← arguments.byName ["iterable", "key", "reverse"] 1 with
      | [some items, key, reverse] =>
          let isReversed ← orFail (isReversed? reverse)
          require (key.all isCallable)
          newList (← sortedOf apply (if isReversed then .gt else .lt) key items)
      | _ => fail
  | _ => callPlain name arguments

end Script

end TableAssembler
