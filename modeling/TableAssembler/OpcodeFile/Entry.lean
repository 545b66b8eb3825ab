/-
**Entries of opcode files.**

An opcode file, whatever its format, comes down to a list of entries: a mnemonic, a number and the
names of operand kinds, none of them checked yet.

Main definitions:

* `Entry` — an entry;
* `Entry.toOpcode` — **the opcode of an entry**, if its number fits in a byte and its names are
  those of operand kinds;
* `Entry.toOpcodes` — the opcodes of a list of entries, of which there must be one at least.
-/

import TableAssembler.Error.Table
import TableAssembler.Opcode.Table

set_option relaxedAutoImplicit false
set_option autoImplicit false

namespace TableAssembler

/-- An entry of an opcode file. -/
structure Entry where
  mnemonic : Text := []
  binary : Int := 0
  operands : List Text := []
  deriving DecidableEq, Repr, Inhabited

namespace Entry

/-- The operand kinds with given names; the first that is none is reported. -/
def operandKinds : List Text → Except TableError (List OperandKind)
  | [] => .ok []
  | name :: rest =>
      match OperandKind.ofName? name with
      | none => .error (.operandKind name)
      | some kind => (operandKinds rest).map (kind :: ·)

/-- **The opcode of an entry.** -/
def toOpcode (entry : Entry) : Except TableError Opcode :=
  if entry.binary < 0 ∨ 0xFF < entry.binary then .error (.opcodeBinary entry.binary)
  else
    (operandKinds entry.operands).map fun operands =>
      { mnemonic := entry.mnemonic, binary := UInt8.ofNat entry.binary.toNat, operands := operands }

/-- The opcodes of some entries, up to the first that is refused. -/
def toOpcodesFrom : List Entry → Except TableError (List Opcode)
  | [] => .ok []
  | entry :: rest => do
      let opcode ← entry.toOpcode
      (toOpcodesFrom rest).map (opcode :: ·)

/-- The opcodes of the entries of a file. -/
def toOpcodes (entries : List Entry) : Except TableError (List Opcode) :=
  match toOpcodesFrom entries with
  | .ok [] => .error .noOpcodes
  | result => result

end Entry

end TableAssembler
