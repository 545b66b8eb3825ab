/-
**Opcodes and opcode tables.**

An opcode table lists the instructions of a machine.

Main definitions:

* `Opcode`, `Opcode.size` — an instruction definition, and the bytes it takes when encoded;
* `Table`, `Table.lookup?` — tables, and the opcode of a mnemonic;
* `Table.usesLabels` — whether some opcode takes a label.
-/

import TableAssembler.Opcode.Kind

set_option relaxedAutoImplicit false
set_option autoImplicit false

namespace TableAssembler

/-- An instruction definition. -/
structure Opcode where
  mnemonic : Text := []
  binary : UInt8 := 0
  operands : List OperandKind := []
  deriving DecidableEq, Repr, Inhabited

/-- The number of bytes that operands of the given kinds take. -/
def operandsSize : List OperandKind → Nat
  | [] => 0
  | kind :: kinds => kind.width + operandsSize kinds

/-- The number of bytes of an encoded instruction. -/
def Opcode.size (opcode : Opcode) : Nat := 1 + operandsSize opcode.operands

/-- Whether an opcode takes a label. -/
def Opcode.usesLabels (opcode : Opcode) : Bool := opcode.operands.contains .label

/-- An opcode table, its opcodes in the order of their definition. -/
structure Table where
  opcodes : List Opcode := []
  deriving DecidableEq, Repr, Inhabited

namespace Table

/-- The opcode of a mnemonic. -/
def lookup? (table : Table) (mnemonic : Text) : Option Opcode :=
  table.opcodes.find? fun opcode => opcode.mnemonic = mnemonic

/-- Whether some opcode takes a label. -/
def usesLabels (table : Table) : Bool := table.opcodes.any Opcode.usesLabels

/-- The number of opcodes. -/
def size (table : Table) : Nat := table.opcodes.length

end Table

end TableAssembler
