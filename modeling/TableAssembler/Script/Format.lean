/-
**Texts with values filled in.**

Main definitions:

* `Script.interpolated` — a text in which `%s`, `%d` and their like stand for values;
* `Script.formatted` — a text in which names and numbers in braces stand for values.
-/

import TableAssembler.Script.Compare
import TableAssembler.Script.Show
import TableAssembler.Text.Name

set_option relaxedAutoImplicit false
set_option autoImplicit false

namespace TableAssembler

namespace Script

open Text (utf8 byte)

/-- A number without its fraction. -/
def wholeNumber? : Value → Option Int
  | .int n => some n
  | .float x => Binary64.truncate? x
  | _ => none

/-- A number as a floating-point number, which may be infinite. -/
def floatingNumber? : Value → Option Float
  | .int n => some (Binary64.ofInt n)
  | .float x => some x
  | _ => none

/-- A number in a base, its sign in front. -/
def inBase (base : Nat) (n : Int) : Text := Text.sign n ++ Text.numeral base n.natAbs

/-- The capital letters of a text. -/
def capitals (t : Text) : Text :=
  t.map fun b => if byte 'a' ≤ b && b ≤ byte 'z' then b - 32 else b

/-- The character of a number, or a string of a single character. -/
def characterOf? : Value → Option Text
  | .int n =>
      if n < 0 ∨ 0x10FFFF < n then none else some (Text.ofChar (Text.charOfCode n.toNat))
  | .string t =>
      match Text.runes t with
      | [rune] => some (Text.ofChar rune.char)
      | _ => none
  | _ => none

/-- **A value as a conversion writes it.** -/
def converted (conversion : UInt8) (value : Value) : Step Text := do
  let c := Char.ofNat conversion.toNat
  if c = 's' then display value
  else if c = 'r' then render value
  else if c = 'd' ∨ c = 'i' then return Text.decimal (← orFail (wholeNumber? value))
  else if c = 'o' then return inBase 8 (← orFail (wholeNumber? value))
  else if c = 'x' then return inBase 16 (← orFail (wholeNumber? value))
  else if c = 'X' then return capitals (inBase 16 (← orFail (wholeNumber? value)))
  else if c = 'g' then return Binary64.render 'e' (← orFail (floatingNumber? value))
  else if c = 'G' then return Binary64.render 'E' (← orFail (floatingNumber? value))
  else if c = 'e' then return Binary64.renderScientific 'e' (← orFail (floatingNumber? value))
  else if c = 'E' then return Binary64.renderScientific 'E' (← orFail (floatingNumber? value))
  else if c = 'f' then return Binary64.renderPositional (← orFail (floatingNumber? value))
  else if c = 'F' then do
    let x ← orFail (floatingNumber? value)
    return if x.isFinite then utf8 "%F" else Binary64.renderSpecial x
  else if c = 'c' then orFail (characterOf? value)
  else if c = '%' then return utf8 "%"
  else fail

/-- What follows a percent sign: the key of a value in parentheses, or nothing. -/
def formatKey? : Text → Option (Option Text × Text)
  | c :: rest =>
      if c = byte '(' then
        let key := rest.takeWhile (· ≠ byte ')')
        if key.length < rest.length then some (some key, rest.drop (key.length + 1)) else none
      else some (none, c :: rest)
  | [] => none

/-- The values that a text is filled with: those of a tuple, or a single one. -/
def fillings : Value → List Value
  | .tuple items => items
  | value => [value]

/-- Whether a value must be used up: a dictionary need not be. -/
def isUsedUp (value : Value) (index : Nat) : Bool :=
  match value with
  | .dict _ => true
  | _ => (fillings value).length ≤ index

/-- A text filled with values, of which `index` have been used; `read` is what has been written so
far, backwards. -/
def interpolatedFrom (value : Value) : (fuel index : Nat) → (read : Text) → Text → Step Text
  | 0, _, _, _ => fail
  | fuel + 1, index, read, t =>
      match t with
      | [] => do
          require (isUsedUp value index)
          return read.reverse
      | c :: rest =>
          if c ≠ byte '%' then interpolatedFrom value fuel index (c :: read) rest
          else if rest.head? = some (byte '%') then
            interpolatedFrom value fuel index (byte '%' :: read) (rest.drop 1)
          else do
            let (key, rest) ← orFail (formatKey? rest)
            let argument ← match key, value with
              | some key, .dict address => do
                  orFail (lookup? (← dictEntries address) (.string key))
              | some _, _ => fail
              | none, _ => orFail (fillings value)[index]?
            match rest with
            | [] => fail
            | conversion :: rest =>
                let shown ← converted conversion argument
                interpolatedFrom value fuel (index + 1) (shown.reverse ++ read) rest

/-- **A text in which percent signs are replaced by values.** -/
def interpolated (t : Text) (value : Value) : Step Text :=
  interpolatedFrom value (t.length + 1) 0 [] t

/-! ### Braces -/

/-- How the values of a text with braces have been chosen so far. -/
inductive Numbering where
  | undecided
  /-- In turn; the next one has the given number. -/
  | automatic (next : Nat)
  | manual

/-- The number that a text of digits stands for. -/
def fieldNumber? (t : Text) : Option Nat :=
  if t ≠ [] ∧ t.all Text.isDigit then
    some (t.foldl (fun n b => n * 10 + (b.toNat - 48)) 0)
  else none

/-- A text up to the first occurrence of a byte, and what follows it, if it occurs. -/
def cut (mark : UInt8) (t : Text) : Text × Option Text :=
  let head := t.takeWhile (· ≠ mark)
  (head, if head.length < t.length then some (t.drop (head.length + 1)) else none)

/-- The value of a field, and the numbering after it. -/
def fieldValue (positional : List Value) (named : List (Text × Value)) (numbering : Numbering)
    (name : Text) : Step (Value × Numbering) := do
  if name = [] then
    let next ← match numbering with
      | .undecided => pure 0
      | .automatic next => pure next
      | .manual => fail
    return (← orFail positional[next]?, .automatic (next + 1))
  else
    match fieldNumber? name, numbering with
    | some _, .automatic _ => fail
    | some number, _ => return (← orFail positional[number]?, .manual)
    | none, _ => return (← orFail (named.lookup name), numbering)

/-- A field as it is written, and the numbering after it. -/
def fieldText (positional : List Value) (named : List (Text × Value)) (numbering : Numbering)
    (field : Text) : Step (Text × Numbering) := do
  let (name, conversion, spec) := match cut (byte '!') field with
    | (_, none) =>
        let (name, spec) := cut (byte ':') field
        (name, utf8 "s", spec)
    | (name, some rest) =>
        let (conversion, spec) := cut (byte ':') rest
        (name, conversion, spec)
  let (value, numbering) ← fieldValue positional named numbering name
  require ((spec.getD []).isEmpty)
  if conversion = utf8 "s" then return (← display value, numbering)
  else if conversion = utf8 "r" then return (← render value, numbering)
  else fail

/-- The byte that opens a field. -/
def openBrace : UInt8 := byte '\x7b'

/-- The byte that closes a field. -/
def closeBrace : UInt8 := byte '\x7d'

/-- A text with its fields filled in; `read` is what has been written so far, backwards. -/
def formattedFrom (positional : List Value) (named : List (Text × Value)) :
    (fuel : Nat) → Numbering → (read : Text) → Text → Step Text
  | 0, _, _, _ => fail
  | fuel + 1, numbering, read, t =>
      match t with
      | [] => return read.reverse
      | c :: rest =>
          if c = closeBrace then do
            require (rest.head? = some closeBrace)
            formattedFrom positional named fuel numbering (c :: read) (rest.drop 1)
          else if c = openBrace then
            if rest.head? = some openBrace then
              formattedFrom positional named fuel numbering (c :: read) (rest.drop 1)
            else do
              let (field, rest) := cut closeBrace rest
              let rest ← orFail rest
              let (shown, numbering) ← fieldText positional named numbering field
              formattedFrom positional named fuel numbering (shown.reverse ++ read) rest
          else formattedFrom positional named fuel numbering (c :: read) rest

/-- **A text in which fields in braces are replaced by values.** -/
def formatted (t : Text) (positional : List Value) (named : List (Text × Value)) : Step Text :=
  formattedFrom positional named (t.length + 1) .undecided [] t

end Script

end TableAssembler
