/-
**Reports in JSON.**

A report is written as a JSON object, indented by two blanks a level, with one member a line.
Members that are empty or zero are left out, the class and the text apart.  In strings, the
characters `<`, `>` and `&` and the line separators U+2028 and U+2029 are escaped.

Main definitions:

* `Json`, `Json.render` — JSON values, and their indented form;
* `Report.toJson` — the value of a report.
-/

import TableAssembler.Report.Basic

set_option relaxedAutoImplicit false
set_option autoImplicit false

namespace TableAssembler

open Text (utf8)

/-- The JSON values that reports are made of; the members of an object are in order. -/
inductive Json where
  | bool (value : Bool)
  | int (value : Int)
  | str (value : Text)
  | arr (items : List Json)
  | obj (members : List (String × Json))

namespace Json

/-- A code point written by its number. -/
def unicodeEscape (n : Nat) : Text := utf8 "\\u" ++ Text.hex 4 n

/-- A character inside a string. -/
def escapedChar (c : Char) : Text :=
  if c = '"' then utf8 "\\\""
  else if c = Char.ofNat 92 then utf8 "\\\\"
  else if c.toNat = 8 then utf8 "\\b"
  else if c.toNat = 9 then utf8 "\\t"
  else if c.toNat = 10 then utf8 "\\n"
  else if c.toNat = 12 then utf8 "\\f"
  else if c.toNat = 13 then utf8 "\\r"
  else if c.toNat < 0x20 ∨ c = '<' ∨ c = '>' ∨ c = '&' ∨ c.toNat = 0x2028 ∨ c.toNat = 0x2029 then
    unicodeEscape c.toNat
  else Text.ofChar c

/-- A string; a stray byte is shown as U+FFFD. -/
def quoted (t : Text) : Text := utf8 "\"" ++ (Text.chars t).flatMap escapedChar ++ utf8 "\""

/-- A new line with the indentation of a level. -/
def lineBreak (level : Nat) : Text :=
  Text.newline :: List.replicate (2 * level) (Text.byte ' ')

/-- Items on lines of their own between brackets. -/
def bracketed (level : Nat) (opening closing : String) : List Text → Text
  | [] => utf8 opening ++ utf8 closing
  | items =>
      utf8 opening ++ lineBreak (level + 1) ++
        Text.join (utf8 "," ++ lineBreak (level + 1)) items ++ lineBreak level ++ utf8 closing

mutual

/-- The indented form of a value at a level. -/
def renderAt (level : Nat) : Json → Text
  | bool value => if value then utf8 "true" else utf8 "false"
  | int value => Text.decimal value
  | str value => quoted value
  | arr items => bracketed level "[" "]" (renderItems (level + 1) items)
  | obj members => bracketed level "\x7b" "\x7d" (renderMembers (level + 1) members)

/-- The items of an array at a level. -/
def renderItems (level : Nat) : List Json → List Text
  | [] => []
  | item :: items => renderAt level item :: renderItems level items

/-- The members of an object at a level. -/
def renderMembers (level : Nat) : List (String × Json) → List Text
  | [] => []
  | (name, value) :: members =>
      (quoted (utf8 name) ++ utf8 ": " ++ renderAt level value) :: renderMembers level members

end

/-- The indented form of a value. -/
def render (value : Json) : Text := renderAt 0 value

/-- A span as an object. -/
def ofSpan (span : Span) : Json :=
  obj [("start", int span.start), ("end", int span.stop), ("line", int span.line),
    ("column", int span.column)]

end Json

namespace Report

/-- A member that is left out when its text is empty. -/
def textMember (name : String) (value : Text) : List (String × Json) :=
  if value = [] then [] else [(name, .str value)]

/-- A member that is left out when its number is zero. -/
def numberMember (name : String) (value : Int) : List (String × Json) :=
  if value = 0 then [] else [(name, .int value)]

/-- A member that is left out when there is no span. -/
def spanMember (name : String) : Option Span → List (String × Json)
  | none => []
  | some span => [(name, Json.ofSpan span)]

/-- **The JSON value of a report.** -/
def toJson (report : Report) : Json :=
  .obj <|
    [("code", .str report.code.name), ("message", .str report.message)] ++
      spanMember "location" report.location ++
      textMember "mnemonic" report.mnemonic ++
      textMember "name" report.name ++
      textMember "found" report.found ++
      (if report.expected = [] then [] else [("expected", .arr (report.expected.map .str))]) ++
      numberMember "expected_count" report.expectedCount ++
      numberMember "found_count" report.foundCount ++
      (if report.atLeast then [("at_least", .bool true)] else []) ++
      numberMember "index" report.index ++
      numberMember "previous" report.previous ++
      spanMember "defined" report.defined

end Report

end TableAssembler
