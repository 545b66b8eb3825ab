/-
**Programs.**

A program is what assembly makes of a source: the binary, the statements with the places that their
bytes take in it, and the offsets of the labels.

Main definitions:

* `Instruction`, `Symbol`, `Program` — a placed statement, a placed label, and the whole;
* `Program.debug?` — the instruction that a byte of the binary belongs to;
* `Program.sortedSymbols`, `Program.labels` — the labels by offset and then by name, and the names
  of those;
* `Program.listing` — the program in print, one line for each instruction.
-/

import TableAssembler.Statement.Basic
import TableAssembler.Text.Numeral

set_option relaxedAutoImplicit false
set_option autoImplicit false

namespace TableAssembler

open Text (utf8)

/-- A statement with the place of its bytes in the binary. -/
structure Instruction where
  statement : Statement
  offset : Nat
  size : Nat
  deriving DecidableEq, Repr, Inhabited

/-- A label with the offset it stands for and the place of its definition.  Programs that are made
by hand may have labels outside of the binary, also in front of it. -/
structure Symbol where
  name : Text
  offset : Int
  span : Span
  deriving DecidableEq, Repr, Inhabited

/-- An assembled program; the symbols are in the order of their definition. -/
structure Program where
  binary : Text := []
  instructions : List Instruction := []
  symbols : List Symbol := []
  deriving DecidableEq, Repr, Inhabited

/-- The bytes of an instruction. -/
def Instruction.bytes (instruction : Instruction) (binary : Text) : Text :=
  (binary.drop instruction.offset).take instruction.size

namespace Program

/-! ### Finding an instruction -/

/-- Whether the byte at `offset` belongs to an instruction. -/
def covers (offset : Int) (instruction : Instruction) : Bool :=
  instruction.offset ≤ offset && offset < instruction.offset + instruction.size

/-- The instruction that the byte at `offset` belongs to, and the index of the byte within it. -/
def debug? (program : Program) (offset : Int) : Option (Instruction × Int) :=
  (program.instructions.find? (covers offset)).map fun instruction =>
    (instruction, offset - instruction.offset)

/-! ### Labels -/

/-- The order of labels: by offset, and by name among equals. -/
def symbolLe (a b : Symbol) : Bool :=
  a.offset < b.offset || (a.offset == b.offset && Text.le a.name b.name)

/-- The labels by offset and then by name. -/
def sortedSymbols (program : Program) : List Symbol := program.symbols.mergeSort symbolLe

/-- **The names of the labels**, by offset and then by name. -/
def labels (program : Program) : List Text := program.sortedSymbols.map Symbol.name

/-- The offset of a label. -/
def offset? (program : Program) (name : Text) : Option Int :=
  (program.symbols.find? fun symbol => symbol.name = name).map Symbol.offset

/-! ### Listings -/

/-- The bytes of an instruction in print, padded to twelve columns. -/
def byteColumn (bytes : Text) : Text :=
  (Text.hexBytes (utf8 " ") bytes).rightpad 12 (Text.byte ' ')

/-- The line of an instruction in a listing: offset, bytes and statement. -/
def listingLine (binary : Text) (instruction : Instruction) : Text :=
  Text.hex 4 instruction.offset ++ utf8 "  " ++ byteColumn (instruction.bytes binary) ++
    utf8 "  " ++ instruction.statement.render ++ [Text.newline]

/-- **The listing of a program.** -/
def listing (program : Program) : Text :=
  program.instructions.flatMap (listingLine program.binary)

end Program

end TableAssembler
