/-
**Statements.**

A statement is an instruction or a directive as it is written: the labels in front of it, its
mnemonic and its operands, each with its place in the source.

Main definitions:

* `LabelDef` — a label in front of a statement;
* `Statement` — a statement;
* `Statement.render` — the statement on one line, in its normal spelling.
-/

import TableAssembler.Token.Basic

set_option relaxedAutoImplicit false
set_option autoImplicit false

namespace TableAssembler

open Text (utf8)

/-- A label in front of a statement; its span leaves out the colon. -/
structure LabelDef where
  name : Text
  span : Span
  deriving DecidableEq, Repr, Inhabited

/-- A statement: an instruction, or a directive with its leading dot. -/
structure Statement where
  labels : List LabelDef := []
  mnemonic : Text := []
  mnemonicSpan : Span := {}
  directive : Bool := false
  operands : List Token := []
  /-- From the first label, or else the mnemonic, to the last operand. -/
  span : Span := {}
  deriving DecidableEq, Repr, Inhabited

namespace Statement

/-- The operands of a statement, a blank before the first and a comma before each other. -/
def renderOperands : List Token → Text
  | [] => []
  | operands => utf8 " " ++ Text.join (utf8 ", ") (operands.map Token.text)

/-- A statement on one line. -/
def render (statement : Statement) : Text :=
  statement.labels.flatMap (fun label => label.name ++ utf8 ": ") ++ statement.mnemonic ++
    renderOperands statement.operands

end Statement

end TableAssembler
