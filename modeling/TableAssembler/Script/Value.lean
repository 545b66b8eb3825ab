/-
**The values of a running script.**

Numbers, texts and tuples are values of their own.  Lists, dictionaries, functions and the variables
of functions can be shared and changed, so they are objects of a store and values hold their
addresses.

Main definitions:

* `Script.Value`, `Script.Object` — values and objects;
* `Script.Memory`, `Script.Step` — what a running script keeps, and its steps on that;
* `Script.Machine` — the state of a running script, with a part `σ` that belongs to its host;
* `Script.Stop`, `Script.Run` — the ways in which a script stops, and its steps;
* `Script.Value.typeName` — the name of a value's type;
* `Script.rangeLength` — the number of elements of a range, in the arithmetic of 64-bit words;
* `Script.Series` — the elements of a value, one after the other;
* `Script.isTrue`, `Script.length?`, `Script.series?` — truth, length and elements.
-/

import TableAssembler.Script.Tree

set_option relaxedAutoImplicit false
set_option autoImplicit false

namespace TableAssembler

namespace Script

open Text (utf8)

/-- The ways of going through a text part by part. -/
inductive Parts where
  /-- The bytes of a string, as strings or as numbers. -/
  | elements
  | elementNumbers
  /-- The characters of a string, as strings or as numbers. -/
  | characters
  | characterNumbers
  /-- The numbers of a string of bytes. -/
  | bytes
  deriving DecidableEq, Repr

/-- A value. -/
inductive Value where
  | none
  | bool (value : Bool)
  | int (value : Int)
  | float (value : Float)
  | string (value : Text)
  | bytes (value : Text)
  | tuple (items : List Value)
  /-- The numbers from `start` in steps, before `stop` is reached. -/
  | range (start stop step : Int)
  /-- The parts of a text. -/
  | parts (kind : Parts) (text : Text)
  | list (address : Nat)
  | dict (address : Nat)
  | function (address : Nat)
  /-- A function that is there before. -/
  | builtin (name : Text)
  /-- A method of an object.  Each time that a method is looked up it gets a number of its own. -/
  | method (number : Nat) (object : Value) (name : Text)

instance : Inhabited Value := ⟨.none⟩

/-- The body of a function. -/
inductive Body where
  | statements (statements : List Statement)
  | expression (value : Expression)

/-- A function: its parameters with the values of their defaults, its body, and the addresses of the
variables around it, innermost first. -/
structure Closure where
  code : Nat
  name : Text
  parameters : List (Parameter Value)
  body : Body
  scopes : List Nat

/-- A variable of a function that is being called: its name, and the comprehension that binds it, or
zero. -/
abbrev Variable := Nat × Text

/-- An object.  Lists and dictionaries count the loops that go through them. -/
inductive Object where
  | list (items : Array Value) (loops : Nat)
  | dict (entries : List (Value × Value)) (loops : Nat)
  | function (closure : Closure)
  /-- The variables of a function that have been set. -/
  | variables (values : List (Variable × Value))

/-- A list with other items; other objects stay as they are. -/
def Object.mapItems (change : Array Value → Array Value) : Object → Object
  | list items loops => list (change items) loops
  | object => object

/-- A dictionary with other entries; other objects stay as they are. -/
def Object.mapEntries (change : List (Value × Value) → List (Value × Value)) : Object → Object
  | dict entries loops => dict (change entries) loops
  | object => object

/-- What a running script keeps: its objects, and the values of its names outside of functions. -/
structure Memory where
  objects : Array Object := #[]
  globals : List (Text × Value) := []
  /-- The functions that are being called, by their codes. -/
  calls : List Nat := []
  /-- The number of methods that have been looked up. -/
  lookups : Nat := 0

/-- A step of a running script that its host has no part in: it may change the memory, or fail. -/
abbrev Step (α : Type) := StateT Memory Option α

/-- Stops a script. -/
def fail {α : Type} : Step α := fun _ => none

/-- The value of an option, without which the script stops. -/
def orFail {α : Type} : Option α → Step α
  | some a => pure a
  | none => fail

/-- Goes on only if a condition holds. -/
def require (condition : Bool) : Step Unit := if condition then pure () else fail

/-! ### Objects -/

/-- Makes an object and gives its address. -/
def allocate (object : Object) : Step Nat := do
  let memory ← get
  set { memory with objects := memory.objects.push object }
  return memory.objects.size

/-- The object at an address. -/
def object (address : Nat) : Step Object := do orFail (← get).objects[address]?

/-- Replaces the object at an address. -/
def store (address : Nat) (object : Object) : Step Unit :=
  modify fun memory => { memory with objects := memory.objects.setIfInBounds address object }

/-- A new list. -/
def newList (items : List Value) : Step Value := do
  return .list (← allocate (.list items.toArray 0))

/-- A new dictionary. -/
def newDict (entries : List (Value × Value)) : Step Value := do
  return .dict (← allocate (.dict entries 0))

/-- The items of a list. -/
def listItems (address : Nat) : Step (Array Value) := do
  match ← object address with
  | .list items _ => return items
  | _ => fail

/-- The entries of a dictionary. -/
def dictEntries (address : Nat) : Step (List (Value × Value)) := do
  match ← object address with
  | .dict entries _ => return entries
  | _ => fail

/-- Changes the items of a list, unless a loop goes through it. -/
def changeList (address : Nat) (change : Array Value → Array Value) : Step Unit := fun memory =>
  match memory.objects[address]? with
  | some (.list _ 0) =>
      some ((), { memory with objects := memory.objects.modify address (·.mapItems change) })
  | _ => none

/-- Changes the entries of a dictionary, unless a loop goes through it. -/
def changeDict (address : Nat) (change : List (Value × Value) → List (Value × Value)) :
    Step Unit := fun memory =>
  match memory.objects[address]? with
  | some (.dict _ 0) =>
      some ((), { memory with objects := memory.objects.modify address (·.mapEntries change) })
  | _ => none

/-- Notes that a loop starts or ends to go through a value. -/
def countLoop (value : Value) (change : Nat → Nat) : Step Unit := do
  match value with
  | .list address | .dict address =>
      match ← object address with
      | .list items loops => store address (.list items (change loops))
      | .dict entries loops => store address (.dict entries (change loops))
      | _ => fail
  | _ => pure ()

/-! ### Views of values -/

/-- The name of a value's type. -/
def Value.typeName : Value → Text
  | none => utf8 "NoneType"
  | bool _ => utf8 "bool"
  | int _ => utf8 "int"
  | float _ => utf8 "float"
  | string _ => utf8 "string"
  | bytes _ => utf8 "bytes"
  | tuple _ => utf8 "tuple"
  | range _ _ _ => utf8 "range"
  | parts kind _ =>
      match kind with
      | .elements | .elementNumbers => utf8 "string.elems"
      | .characters | .characterNumbers => utf8 "string.codepoints"
      | .bytes => utf8 "bytes.elems"
  | list _ => utf8 "list"
  | dict _ => utf8 "dict"
  | function _ => utf8 "function"
  | builtin _ | method _ _ _ => utf8 "builtin_function_or_method"

/-! ### Numbers of limited size -/

/-- A number that must be an integer of 32 bits. -/
def smallInt (value : Value) : Step Int := do
  match value with
  | .int n => if -0x80000000 ≤ n ∧ n < 0x80000000 then return n else fail
  | _ => fail

/-- A number that must be an integer of 64 bits. -/
def wordInt (value : Value) : Step Int := do
  match value with
  | .int n => if -0x8000000000000000 ≤ n ∧ n < 0x8000000000000000 then return n else fail
  | _ => fail

/-- The integer of 64 bits that is equal to a number, up to multiples of two to the sixty-fourth. -/
def wrap (n : Int) : Int := n.bmod 0x10000000000000000

/-! ### Ranges -/

/-- The number of elements of a range whose ends and step are integers of 64 bits.  It is one too,
so that it is wrong, and may be negative, where the ends are too far apart. -/
def rangeLength (start stop step : Int) : Int :=
  if 0 < step then
    if start < stop then wrap ((wrap (stop - 1 - start)).tdiv step + 1) else 0
  else
    if stop < start then wrap (wrap ((wrap (start - 1 - stop)).tdiv (wrap (-step))) + 1) else 0

/-- The element of a range at a place. -/
def rangeItem (start step place : Int) : Value := .int (wrap (start + place * step))

/-! ### Parts of texts -/

/-- The texts of the runes of a text; a stray byte is shown as U+FFFD. -/
def characterTexts (t : Text) : List Text := (Text.chars t).map Text.ofChar

/-- The parts of a text. -/
def partItems (kind : Parts) (t : Text) : List Value :=
  match kind with
  | .elements => t.map fun b => .string [b]
  | .elementNumbers | .bytes => t.map fun b => .int b.toNat
  | .characters => (characterTexts t).map .string
  | .characterNumbers => (Text.chars t).map fun c => .int c.toNat

/-! ### Lengths and elements -/

/-- The length of a value that has one. -/
def length? (value : Value) : Step (Option Nat) := do
  match value with
  | .string t | .bytes t => return some t.length
  | .tuple items => return some items.length
  | .range start stop step => return (rangeLength start stop step).toNat?
  | .parts .elements t | .parts .elementNumbers t => return some t.length
  | .list address => return some (← listItems address).size
  | .dict address => return some (← dictEntries address).length
  | _ => return none

/-- Whether a value counts as true. -/
def isTrue (value : Value) : Step Bool := do
  match value with
  | .none => return false
  | .bool value => return value
  | .int value => return value ≠ 0
  | .float value => return value != 0
  | .range start stop step => return 0 < rangeLength start stop step
  | .parts _ _ => return true
  | _ =>
      match ← length? value with
      | some n => return n ≠ 0
      | none => return true

/-- The elements of a value, one after the other: those of a list, or numbers in equal steps. -/
inductive Series where
  | items (items : List Value)
  | numbers (first step : Int) (count : Nat)

namespace Series

/-- The number of elements. -/
def length : Series → Nat
  | items values => values.length
  | numbers _ _ count => count

/-- The first element, and the series of the others. -/
def next? : Series → Option (Value × Series)
  | items (value :: values) => some (value, items values)
  | numbers first step (count + 1) => some (.int first, numbers (wrap (first + step)) step count)
  | _ => none

/-- The first elements, at most `count` of them. -/
def take (count : Nat) : Series → List Value
  | items values => values.take count
  | numbers first step length =>
      (List.range (min count length)).map fun (i : Nat) => rangeItem first step i

/-- All elements. -/
def toList : Series → List Value
  | items values => values
  | numbers first step count => (numbers first step count).take count

/-- Applies a function to some more elements, `done` being its results so far, last first. -/
def mapFrom {α : Type} (f : Value → Step α) : (count : Nat) → Series → (done : List α) →
    Step (List α)
  | 0, _, done => return done.reverse
  | count + 1, series, done =>
      match series.next? with
      | some (value, rest) => do mapFrom f count rest ((← f value) :: done)
      | none => return done.reverse

/-- Applies a function to each element; where it fails, no further element is looked at. -/
def mapM {α : Type} (f : Value → Step α) (series : Series) : Step (List α) :=
  mapFrom f series.length series []

/-- Whether one of `count` more elements passes a test. -/
def anyFrom (test : Value → Step Bool) : (count : Nat) → Series → Step Bool
  | 0, _ => return false
  | count + 1, series =>
      match series.next? with
      | some (value, rest) => do if ← test value then return true else anyFrom test count rest
      | none => return false

/-- Whether an element passes a test; no element after the first that does is looked at. -/
def anyM (test : Value → Step Bool) (series : Series) : Step Bool :=
  anyFrom test series.length series

end Series

/-- The elements of a value that can be gone through. -/
def series? (value : Value) : Step (Option Series) := do
  match value with
  | .tuple items => return some (.items items)
  | .range start stop step =>
      return some (.numbers start step (rangeLength start stop step).toNat)
  | .parts kind t => return some (.items (partItems kind t))
  | .list address => return some (.items (← listItems address).toList)
  | .dict address => return some (.items ((← dictEntries address).map Prod.fst))
  | _ => return none

/-- The elements of a value, which must be one that can be gone through. -/
def series (value : Value) : Step Series := do orFail (← series? value)

/-- The elements of a value, which must be one that can be gone through, as a list. -/
def elements (value : Value) : Step (List Value) := do return (← series value).toList

/-! ### Hosts -/

/-- Why a script stops before its end. -/
inductive Stop (ε : Type) where
  /-- The host has refused a call. -/
  | refused (error : ε)
  | failed
  deriving DecidableEq, Repr

/-- The state of a running script: what it keeps itself, and the state of its host. -/
structure Machine (σ : Type) where
  host : σ
  memory : Memory := {}

/-- A step of a running script. -/
abbrev Run (σ ε α : Type) := StateT (Machine σ) (Except (Stop ε)) α

variable {σ ε : Type}

/-- A step that the host has no part in leaves the state of the host alone. -/
def Step.beside {α : Type} (step : Step α) : Run σ ε α := fun ⟨host, memory⟩ =>
  match step memory with
  | some (a, memory) => .ok (a, ⟨host, memory⟩)
  | none => .error .failed

instance : MonadLift Step (Run σ ε) where
  monadLift := Step.beside

/-- Does something while a value may not be changed. -/
def whileReading {α : Type} (value : Value) (action : Run σ ε α) : Run σ ε α := do
  countLoop value (· + 1)
  let result ← action
  countLoop value (· - 1)
  return result

end Script

end TableAssembler
