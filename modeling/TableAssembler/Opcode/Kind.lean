/-
**Operand kinds.**

An opcode says for each of its operands what it expects: a register or an immediate value in one
byte, an address or a label in two.

Main definitions:

* `OperandKind` — the kinds, with a place for codes that mean nothing;
* `OperandKind.name`, `OperandKind.ofName?` — the names of the kinds in opcode tables;
* `OperandKind.width`, `OperandKind.limit` — the bytes an operand takes, and the greatest value
  it can hold.
-/

import TableAssembler.Text.Numeral

set_option relaxedAutoImplicit false
set_option autoImplicit false

namespace TableAssembler

open Text (utf8)

/-- The kind of an operand.  Definitions made by hand may bear a code that means nothing. -/
inductive OperandKind where
  | register
  | immediate
  | address
  | label
  | unknown (code : Int)
  deriving DecidableEq, Repr, Inhabited

namespace OperandKind

/-- The kind of a code. -/
def ofCode : Int → OperandKind
  | 0 => register
  | 1 => immediate
  | 2 => address
  | 3 => label
  | code => unknown code

/-- Whether a kind is one of the four that an opcode may have. -/
def isKnown : OperandKind → Bool
  | unknown _ => false
  | _ => true

/-- The name of a kind. -/
def name : OperandKind → Text
  | register => utf8 "register"
  | immediate => utf8 "immediate"
  | address => utf8 "address"
  | label => utf8 "label"
  | unknown code => utf8 "OperandKind(" ++ Text.decimal code ++ utf8 ")"

/-- The four kinds. -/
def all : List OperandKind := [register, immediate, address, label]

/-- The kind with a given name. -/
def ofName? (name : Text) : Option OperandKind := all.find? fun kind => kind.name = name

/-- The number of bytes that an operand of a kind takes. -/
def width : OperandKind → Nat
  | address | label => 2
  | _ => 1

/-- The greatest number that an operand of a kind can hold. -/
def limit : OperandKind → Nat
  | address | label => 0xFFFF
  | _ => 0xFF

end OperandKind

end TableAssembler
