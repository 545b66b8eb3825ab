/-
**Reports: failures as plain data.**

A host that shows failures in its own way wants their data rather than their text.  A report has
the class of a failure, its whole text, the place of its first located cause, and the data that
belong to its class.  Of the classes that occur among the causes, the one that comes first in a
fixed order is reported, with the data of the first cause of that class.

Main definitions:

* `Report.Code`, `Report` — the classes, and the reports;
* `Report.ofLeaf?` — the class and the data of a single cause;
* `Report.ofFailure` — **the report of a failure**.
-/

import TableAssembler.Error.Failure

set_option relaxedAutoImplicit false
set_option autoImplicit false

namespace TableAssembler

open Text (utf8)

/-- The class of a failure. -/
inductive Report.Code where
  | unknown
  | unexpectedCharacter
  | unexpected
  | unexpectedEnd
  | unknownOpcode
  | operandCount
  | invalidOperand
  | undefinedLabel
  | duplicateLabel
  | duplicateMnemonic
  | invalidMnemonic
  deriving DecidableEq, Repr, Inhabited

/-- The data of a failure.  What does not belong to the class is left empty or zero. -/
structure Report where
  code : Report.Code := .unknown
  message : Text := []
  location : Option Span := none
  mnemonic : Text := []
  /-- The name of a label. -/
  name : Text := []
  /-- The source text at fault. -/
  found : Text := []
  /-- The names of token classes or operand kinds. -/
  expected : List Text := []
  expectedCount : Int := 0
  foundCount : Int := 0
  atLeast : Bool := false
  /-- The index of an opcode, and that of an earlier one with its mnemonic. -/
  index : Int := 0
  previous : Int := 0
  /-- The first definition of a label. -/
  defined : Option Span := none
  deriving DecidableEq, Repr, Inhabited

namespace Report

/-! ### Classes -/

namespace Code

/-- The classes in the order in which they are looked for, `unknown` last. -/
def inOrder : List Code :=
  [unexpectedCharacter, unexpected, unexpectedEnd, unknownOpcode, operandCount, invalidOperand,
    undefinedLabel, duplicateLabel, duplicateMnemonic, invalidMnemonic]

/-- The name of a class. -/
def name : Code → Text
  | unknown => utf8 "Unknown"
  | unexpectedCharacter => utf8 "UnexpectedCharacter"
  | unexpected => utf8 "Unexpected"
  | unexpectedEnd => utf8 "UnexpectedEndOfInput"
  | unknownOpcode => utf8 "OpcodeDoesNotExist"
  | operandCount => utf8 "WrongOperandCount"
  | invalidOperand => utf8 "InvalidOperand"
  | undefinedLabel => utf8 "UndefinedLabel"
  | duplicateLabel => utf8 "DuplicateLabel"
  | duplicateMnemonic => utf8 "DuplicateMnemonic"
  | invalidMnemonic => utf8 "MnemonicInvalid"

/-- The name of the class with a given number, counted from `unknown`. -/
def nameOfNumber (number : Int) : Text :=
  match if number < 0 then none else (unknown :: inOrder)[number.toNat]? with
  | some code => code.name
  | none => utf8 "Code(" ++ Text.decimal number ++ utf8 ")"

end Code

/-! ### Causes -/

/-- The character of a code point; U+FFFD if it is none. -/
def foundCharacter (char : Int) : Text :=
  Text.ofChar (if char < 0 ∨ 0x10FFFF < char then Char.ofNat 0xFFFD else Text.charOfCode char.toNat)

/-- The class and the data of a source error. -/
def ofSourceError : SourceError → Report
  | .unexpectedCharacter _ char => { code := .unexpectedCharacter, found := foundCharacter char }
  | .unexpected _ found expected =>
      { code := .unexpected, found := found.text, expected := expected.map TokenKind.name }
  | .unexpectedEnd _ expected =>
      { code := .unexpectedEnd, expected := expected.map TokenKind.name }
  | .unknownOpcode _ mnemonic => { code := .unknownOpcode, mnemonic := mnemonic }
  | .operandCount _ mnemonic expected found atLeast =>
      { code := .operandCount, mnemonic := mnemonic, expectedCount := expected,
        foundCount := found, atLeast := atLeast }
  | .invalidOperand _ text expected =>
      { code := .invalidOperand, found := text, expected := [expected.name] }
  | .undefinedLabel _ name => { code := .undefinedLabel, name := name }
  | .duplicateLabel _ name previous =>
      { code := .duplicateLabel, name := name, defined := some previous }

/-- The class and the data of a cause, if it belongs to a class. -/
def ofLeaf? : Failure.Leaf → Option Report
  | .source error => some (ofSourceError error)
  | .table (.duplicateMnemonic mnemonic index previous) =>
      some
        { code := .duplicateMnemonic, mnemonic := mnemonic, index := index, previous := previous }
  | .table (.invalidMnemonic mnemonic) =>
      some { code := .invalidMnemonic, mnemonic := mnemonic }
  | _ => none

/-- The place of a cause. -/
def leafSpan? : Failure.Leaf → Option Span
  | .source error => some error.span
  | _ => none

/-! ### Failures -/

/-- The first cause of a class among some causes. -/
def firstOf? (leaves : List Failure.Leaf) (code : Code) : Option Report :=
  (leaves.filterMap ofLeaf?).find? fun report => report.code = code

/-- **The report of a failure.** -/
def ofFailure (failure : Failure) : Report :=
  { (Code.inOrder.findSome? (firstOf? failure.leaves)).getD {} with
    message := failure.message
    location := failure.leaves.findSome? leafSpan? }

end Report

end TableAssembler
