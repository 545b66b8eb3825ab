/-
**Equality and order of values.**

Values of different types are unequal and not ordered, numbers excepted.  Sequences are compared
item by item; the nesting that is looked into is limited, which also settles values that contain
themselves.

Main definitions:

* `Script.isKey`, `Script.sameKey` — the keys of dictionaries;
* `Script.lookup?`, `Script.insertEntry`, `Script.removeEntry` — entries of dictionaries;
* `Script.equalIn?`, `Script.orderIn?` — equality and order, to a depth;
* `Script.equal`, `Script.order` — equality and order of the values of a running script.
-/

import TableAssembler.Binary64.Basic
import TableAssembler.Script.Value

set_option relaxedAutoImplicit false
set_option autoImplicit false

namespace TableAssembler

namespace Script

/-- The nesting that a comparison looks into. -/
def comparisonDepth : Nat := 10

/-- The items of a list or of a tuple. -/
def sequenceItems? (objects : Array Object) : Value → Option (List Value)
  | .tuple items => some items
  | .list address =>
      match objects[address]? with
      | some (.list items _) => some items.toList
      | _ => none
  | _ => none

/-- The entries of a dictionary. -/
def entriesIn (objects : Array Object) (address : Nat) : List (Value × Value) :=
  match objects[address]? with
  | some (.dict entries _) => entries
  | _ => []

/-- The order of two numbers. -/
def numberOrder? : Value → Value → Option Ordering
  | .int m, .int n => some (compare m n)
  | .int m, .float y => some (Binary64.compareInt m y)
  | .float x, .int n => some (Binary64.compareInt n x).swap
  | .float x, .float y => some (Binary64.compare x y)
  | _, _ => none

/-- Whether two ranges have the same numbers. -/
def sameRange (a b c a' b' c' : Int) : Bool :=
  let n := rangeLength a b c
  n = rangeLength a' b' c' && (n = 0 || (a = a' && (n = 1 || c = c')))

/-- The order of two texts, byte by byte. -/
def textOrder (t u : Text) : Ordering :=
  if t = u then .eq else if Text.le t u then .lt else .gt

/-- Whether two values without items are equal. -/
def sameAtom : Value → Value → Bool
  | .none, .none => true
  | .bool a, .bool b => a = b
  | .string t, .string u => t = u
  | .bytes t, .bytes u => t = u
  | .range a b c, .range a' b' c' => sameRange a b c a' b' c'
  | .parts kind t, .parts kind' u => kind = kind' && t = u
  | .function a, .function b => a = b
  | .builtin a, .builtin b => a = b
  | .method m _ _, .method n _ _ => m = n
  | x, y => numberOrder? x y = some .eq

/-! ### Keys -/

mutual

/-- Whether a value can be a key of a dictionary. -/
def isKey : Value → Bool
  | .tuple items => areKeys items
  | .list _ | .dict _ | .range _ _ _ | .parts _ _ => false
  | _ => true

/-- Whether values can be keys of a dictionary. -/
def areKeys : List Value → Bool
  | [] => true
  | item :: items => isKey item && areKeys items

end

mutual

/-- Whether two keys are the same. -/
def sameKey : Value → Value → Bool
  | .tuple xs, .tuple ys => sameKeys xs ys
  | x, y => sameAtom x y

/-- Whether two lists of keys are the same. -/
def sameKeys : List Value → List Value → Bool
  | [], [] => true
  | x :: xs, y :: ys => sameKey x y && sameKeys xs ys
  | _, _ => false

end

/-- The value of a key. -/
def lookup? (entries : List (Value × Value)) (key : Value) : Option Value :=
  (entries.find? fun entry => sameKey entry.1 key).map Prod.snd

/-- The entries with a key set: in its place if it is there, at the end otherwise. -/
def insertEntry (entries : List (Value × Value)) (key value : Value) : List (Value × Value) :=
  if (lookup? entries key).isSome then
    entries.map fun entry => if sameKey entry.1 key then (entry.1, value) else entry
  else entries ++ [(key, value)]

/-- The entries without a key. -/
def removeEntry (entries : List (Value × Value)) (key : Value) : List (Value × Value) :=
  entries.filter fun entry => !sameKey entry.1 key

/-! ### Equality and order -/

/-- Whether some pairs all satisfy a test that may fail; it is not made after the first that does
not. -/
def allPairs? (test : Value → Value → Option Bool) : List Value → List Value → Option Bool
  | x :: xs, y :: ys => do if ← test x y then allPairs? test xs ys else some false
  | _, _ => some true

/-- Whether two lists of the same length have equal items. -/
def sameItems? (same : Value → Value → Option Bool) (xs ys : List Value) : Option Bool :=
  if xs.length = ys.length then allPairs? same xs ys else some false

/-- Whether two dictionaries of the same size have equal values for equal keys. -/
def sameEntries? (same : Value → Value → Option Bool) (entries others : List (Value × Value)) :
    Option Bool :=
  if entries.length ≠ others.length then some false
  else
    entries.foldlM (fun soFar (key, value) =>
      if soFar then
        match lookup? others key with
        | some other => same value other
        | none => some false
      else some false) true

/-- **Whether two values are equal**, unless the comparison goes too deep. -/
def equalIn? (objects : Array Object) : (depth : Nat) → Value → Value → Option Bool
  | 0, _, _ => none
  | depth + 1, x, y =>
      match x, y with
      | .tuple xs, .tuple ys => sameItems? (equalIn? objects depth) xs ys
      | .list _, .list _ => do
          sameItems? (equalIn? objects depth) (← sequenceItems? objects x)
            (← sequenceItems? objects y)
      | .dict a, .dict b =>
          sameEntries? (equalIn? objects depth) (entriesIn objects a) (entriesIn objects b)
      | _, _ => some (sameAtom x y)

/-- The order of two sequences: that of their first unequal items, or of their lengths. -/
def sequenceOrder? (same : Value → Value → Option Bool)
    (order : Value → Value → Option Ordering) : List Value → List Value → Option Ordering
  | x :: xs, y :: ys => do if ← same x y then sequenceOrder? same order xs ys else order x y
  | [], [] => some .eq
  | [], _ :: _ => some .lt
  | _ :: _, [] => some .gt

/-- **The order of two values**, unless they are not ordered or the comparison goes too deep. -/
def orderIn? (objects : Array Object) : (depth : Nat) → Value → Value → Option Ordering
  | 0, _, _ => none
  | depth + 1, x, y =>
      match x, y with
      | .bool a, .bool b => some (compare a.toNat b.toNat)
      | .string t, .string u => some (textOrder t u)
      | .bytes t, .bytes u => some (textOrder t u)
      | .tuple xs, .tuple ys =>
          sequenceOrder? (equalIn? objects depth) (orderIn? objects depth) xs ys
      | .list _, .list _ => do
          sequenceOrder? (equalIn? objects depth) (orderIn? objects depth)
            (← sequenceItems? objects x) (← sequenceItems? objects y)
      | _, _ => numberOrder? x y

/-- Whether two values are equal. -/
def equal (x y : Value) : Step Bool := do
  orFail (equalIn? (← get).objects comparisonDepth x y)

/-- The order of two values. -/
def order (x y : Value) : Step Ordering := do
  orFail (orderIn? (← get).objects comparisonDepth x y)

/-- Whether one of some values is equal to a value. -/
def containsValue (value : Value) : List Value → Step Bool
  | [] => return false
  | item :: items => do if ← equal item value then return true else containsValue value items

/-- Sets a key of a dictionary. -/
def setKey (address : Nat) (key value : Value) : Step Unit := do
  require (isKey key)
  changeDict address fun entries => insertEntry entries key value

end Script

end TableAssembler
