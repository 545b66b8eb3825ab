/-
**Values in print.**

Main definitions:

* `Script.render` — a value as it is written in a script, as far as it can be;
* `Script.display` — a value as a text: a string is itself.
-/

import TableAssembler.Binary64.Decimal
import TableAssembler.Script.Value
import TableAssembler.Text.Quoted

set_option relaxedAutoImplicit false
set_option autoImplicit false

namespace TableAssembler

namespace Script

open Text (utf8)

/-- A range in print. -/
def renderRange (start stop step : Int) : Text :=
  let numbers :=
    if step ≠ 1 then [start, stop, step] else if start ≠ 0 then [start, stop] else [stop]
  utf8 "range(" ++ Text.join (utf8 ", ") (numbers.map Text.decimal) ++ utf8 ")"

/-- The call that gives the parts of a text, in print. -/
def renderParts (kind : Parts) (t : Text) : Text :=
  match kind with
  | .elements => Text.quoted t ++ utf8 ".elems()"
  | .elementNumbers => Text.quoted t ++ utf8 ".elem_ords()"
  | .characters => Text.quoted t ++ utf8 ".codepoints()"
  | .characterNumbers => Text.quoted t ++ utf8 ".codepoint_ords()"
  | .bytes => utf8 "b" ++ Text.quoted t ++ utf8 ".elems()"

mutual

/-- A value in print; `nested` prints the list or the dictionary at an address. -/
def renderWith (objects : Array Object) (nested : Nat → Text) : Value → Text
  | .none => utf8 "None"
  | .bool value => if value then utf8 "True" else utf8 "False"
  | .int value => Text.decimal value
  | .float value => Binary64.render 'e' value
  | .string t => Text.quoted t
  | .bytes t => utf8 "b" ++ Text.quoted t
  | .range start stop step => renderRange start stop step
  | .parts kind t => renderParts kind t
  | .builtin name => utf8 "<built-in function " ++ name ++ utf8 ">"
  | .method _ object name =>
      utf8 "<built-in method " ++ name ++ utf8 " of " ++ object.typeName ++ utf8 " value>"
  | .function address =>
      match objects[address]? with
      | some (.function closure) => utf8 "<function " ++ closure.name ++ utf8 ">"
      | _ => utf8 "<function>"
  | .tuple items =>
      utf8 "(" ++ Text.join (utf8 ", ") (renderAllWith objects nested items) ++
        (if items.length = 1 then utf8 ",)" else utf8 ")")
  | .list address => nested address
  | .dict address => nested address

/-- Values in print. -/
def renderAllWith (objects : Array Object) (nested : Nat → Text) : List Value → List Text
  | [] => []
  | value :: values => renderWith objects nested value :: renderAllWith objects nested values

end

/-- A list or a dictionary in print.  Those that it is part of, which `path` lists, are shown by
three dots; `fuel` bounds their number. -/
def renderObject (objects : Array Object) : (fuel : Nat) → (path : List Nat) → Nat → Text
  | 0, _, _ => utf8 "..."
  | fuel + 1, path, address =>
      let within := renderObject objects fuel (address :: path)
      match objects[address]? with
      | some (.list items _) =>
          let shown :=
            if path.contains address then utf8 "..."
            else Text.join (utf8 ", ") (renderAllWith objects within items.toList)
          utf8 "[" ++ shown ++ utf8 "]"
      | some (.dict entries _) =>
          let beside := renderObject objects fuel path
          let shown :=
            if path.contains address then utf8 "..."
            else Text.join (utf8 ", ") (entries.map fun (key, value) =>
              renderWith objects beside key ++ utf8 ": " ++ renderWith objects within value)
          utf8 "\x7b" ++ shown ++ utf8 "\x7d"
      | _ => utf8 "..."

/-- **A value in print.** -/
def render (value : Value) : Step Text := do
  let objects := (← get).objects
  return renderWith objects (renderObject objects (objects.size + 1) []) value

/-- A value as a text: a string is itself, and other values are as in print. -/
def display (value : Value) : Step Text :=
  match value with
  | .string t => pure t
  | _ => render value

end Script

end TableAssembler
