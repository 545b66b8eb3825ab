/-
**Why an opcode table is refused.**

Main definitions:

* `TableError` — the causes;
* `TableError.message` — their texts.
-/

import TableAssembler.Text.Numeral

set_option relaxedAutoImplicit false
set_option autoImplicit false

namespace TableAssembler

open Text (utf8)

/-- Why an opcode table, or a file that should hold one, is refused. -/
inductive TableError where
  /-- Two definitions, counted from zero, share a mnemonic. -/
  | duplicateMnemonic (mnemonic : Text) (index previous : Int)
  /-- A mnemonic that cannot be written in a source. -/
  | invalidMnemonic (mnemonic : Text)
  /-- A name that is no operand kind. -/
  | operandKind (name : Text)
  /-- An opcode number that does not fit in a byte. -/
  | opcodeBinary (number : Int)
  /-- Keys of a table file that mean nothing. -/
  | unknownKeys (keys : List Text)
  /-- A file whose name does not tell its format. -/
  | unknownFormat
  /-- A definition with missing or odd arguments. -/
  | definition
  /-- A file that defines no opcodes. -/
  | noOpcodes
  deriving DecidableEq, Repr

/-- The text of a cause. -/
def TableError.message : TableError → Text
  | duplicateMnemonic mnemonic index previous =>
      utf8 "mnemonic '" ++ mnemonic ++ utf8 "' of opcode #" ++ Text.grouped index ++
        utf8 " already defined by opcode #" ++ Text.grouped previous
  | invalidMnemonic mnemonic => utf8 "'" ++ mnemonic ++ utf8 "' is not a valid mnemonic"
  | operandKind name => utf8 "'" ++ name ++ utf8 "' is not an operand kind"
  | opcodeBinary number =>
      utf8 "opcode binary " ++ Text.grouped number ++ utf8 " does not fit in a byte"
  | unknownKeys keys =>
      utf8 "unknown configuration keys [" ++ Text.join (utf8 " ") keys ++ utf8 "]"
  | unknownFormat => utf8 "configuration format unknown"
  | definition => utf8 "opcode definition syntax"
  | noOpcodes => utf8 "no opcodes defined"

end TableAssembler
