/-
**Outlines: the structure of a program in print.**

An outline shows every part of a program by name, one part on a line, nested parts indented.
Within a run of neighbouring parts the values stand in one column; a run ends with the first part
whose value takes several lines.  Long sequences are left out.

Main definitions:

* `Outline` — the lines of a value;
* `Outline.runs`, `Outline.aligned` — the runs of named parts, and their lines;
* `Outline.sequence` — the lines of a list of values;
* `Program.outline` — **the outline of a program**.
-/

import TableAssembler.Program.Basic
import TableAssembler.Text.Quoted

set_option relaxedAutoImplicit false
set_option autoImplicit false

namespace TableAssembler

open Text (utf8)

/-- The lines of a value in print, from its first line on. -/
abbrev Outline := List Text

namespace Outline

/-- A value on one line. -/
def word (text : Text) : Outline := [text]

/-- A whole number. -/
def number (n : Int) : Outline := word (Text.decimal n)

/-- A text in quotes. -/
def text (t : Text) : Outline := word (Text.quoted t)

/-- A truth value. -/
def truth (b : Bool) : Outline := word (if b then utf8 "true" else utf8 "false")

/-- The line one level further in. -/
def indented (line : Text) : Text := utf8 "  " ++ line

/-- Lines between braces, with the name of their type in front. -/
def block (type : Text) (body : List Text) : Outline :=
  [type ++ utf8 "\x7b"] ++ body.map indented ++ [utf8 "\x7d"]

/-- The lines of a value with a comma behind the last. -/
def withComma : Outline → List Text
  | [] => []
  | [last] => [last ++ utf8 ","]
  | line :: rest => line :: withComma rest

/-! ### Named parts -/

/-- The runs of named parts: each ends with the first part that takes several lines. -/
def runs : List (Text × Outline) → List (List (Text × Outline))
  | [] => []
  | part :: rest =>
      if 1 < part.2.length then [part] :: runs rest
      else
        match runs rest with
        | [] => [[part]]
        | run :: more => (part :: run) :: more

/-- The lines of a named part, its value starting in the given column. -/
def partLines (column : Nat) (part : Text × Outline) : List Text :=
  match withComma part.2 with
  | [] => []
  | line :: rest => ((part.1 ++ utf8 ":").rightpad column (Text.byte ' ') ++ line) :: rest

/-- The column of the values in a run: a blank behind the longest name and its colon. -/
def valueColumn (run : List (Text × Outline)) : Nat :=
  run.foldl (fun column part => max column (part.1.length + 2)) 0

/-- The lines of named parts. -/
def aligned (parts : List (Text × Outline)) : List Text :=
  (runs parts).flatMap fun run => run.flatMap (partLines (valueColumn run))

/-- A value with named parts. -/
def record (type : Text) (parts : List (Text × Outline)) : Outline := block type (aligned parts)

/-! ### Sequences -/

/-- The greatest number of items of a sequence that is shown. -/
def lengthLimit : Nat := 1024

/-- A sequence of which the items are shown by the given lines, unless there are too many. -/
def limited (type : Text) (count : Nat) (body : List Text) : Outline :=
  if lengthLimit < count then word (type ++ utf8 "\x7b...\x7d") else block type body

/-- A list of values, each with lines of its own; a list without any is shown as absent. -/
def sequence (type : Text) : List Outline → Outline
  | [] => word (type ++ utf8 "(nil)")
  | item :: items => limited type (items.length + 1) ((item :: items).flatMap withComma)

/-- The lines of bytes, sixteen on a line; there are no more lines than `bound`. -/
def byteLines : Nat → Text → List Text
  | 0, _ => []
  | _ + 1, [] => []
  | bound + 1, b :: rest =>
      Text.join (utf8 " ")
          (((b :: rest).take 16).map fun c => Text.decimal c.toNat ++ utf8 ",") ::
        byteLines bound ((b :: rest).drop 16)

/-- A string of bytes. -/
def bytes (t : Text) : Outline :=
  if t = [] then word (utf8 "[]uint8\x7b\x7d")
  else limited (utf8 "[]uint8") t.length (byteLines t.length t)

/-! ### Programs -/

/-- The outline of a span. -/
def ofSpan (span : Span) : Outline :=
  record (utf8 "asm.Span") [
    (utf8 "Start", number span.start),
    (utf8 "End", number span.stop),
    (utf8 "Line", number span.line),
    (utf8 "Column", number span.column)]

/-- The outline of a token. -/
def ofToken (token : Token) : Outline :=
  record (utf8 "asm.Token") [
    (utf8 "Kind", number token.kind.code),
    (utf8 "Text", text token.text),
    (utf8 "Span", ofSpan token.span),
    (utf8 "Base", number token.base)]

/-- The outline of a label. -/
def ofLabel (label : LabelDef) : Outline :=
  record (utf8 "asm.LabelDef") [
    (utf8 "Name", text label.name),
    (utf8 "Span", ofSpan label.span)]

/-- The outline of a statement. -/
def ofStatement (statement : Statement) : Outline :=
  record (utf8 "asm.Statement") [
    (utf8 "Labels", sequence (utf8 "[]asm.LabelDef") (statement.labels.map ofLabel)),
    (utf8 "Mnemonic", text statement.mnemonic),
    (utf8 "MnemonicSpan", ofSpan statement.mnemonicSpan),
    (utf8 "Directive", truth statement.directive),
    (utf8 "Operands", sequence (utf8 "[]asm.Token") (statement.operands.map ofToken)),
    (utf8 "Span", ofSpan statement.span)]

/-- The outline of an instruction. -/
def ofInstruction (instruction : Instruction) : Outline :=
  record (utf8 "asm.Instruction") [
    (utf8 "Statement", ofStatement instruction.statement),
    (utf8 "Offset", number instruction.offset),
    (utf8 "Size", number instruction.size)]

/-- The outline of the labels' offsets, by name. -/
def ofSymbols (symbols : List Symbol) : Outline :=
  if symbols = [] then word (utf8 "map[string]int\x7b\x7d")
  else
    record (utf8 "map[string]int") <|
      (symbols.mergeSort fun a b => Text.le a.name b.name).map fun symbol =>
        (Text.quoted symbol.name, number symbol.offset)

end Outline

/-- **The outline of a program.** -/
def Program.outline (program : Program) : Text :=
  let lines := Outline.record (utf8 "&asm.Program") [
    (utf8 "Binary", Outline.bytes program.binary),
    (utf8 "Instructions",
      Outline.sequence (utf8 "[]asm.Instruction") (program.instructions.map Outline.ofInstruction)),
    (utf8 "Symbols", Outline.ofSymbols program.symbols)]
  lines.flatMap (· ++ [Text.newline])

end TableAssembler
