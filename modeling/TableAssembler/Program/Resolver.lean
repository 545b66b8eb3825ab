/-
**From statements to a program.**

Statements are encoded in order.  A label operand is encoded as two zero bytes and remembered as a
*fixup*; once every label has its offset, the fixups are patched into the binary.  Nothing is
returned if a statement or a fixup fails.

Main definitions:

* `Fixup` — a label operand that waits for its offset;
* `Resolver` — what has been made of the statements so far;
* `Resolver.encodeOperands` — the bytes and fixups of the operands of an instruction;
* `Resolver.statement` — **one statement**;
* `Resolver.link`, `Resolver.program` — the patching of the fixups, and the program made;
* `Program.resolve` — **the program of a list of statements under an opcode table**.
-/

import TableAssembler.Error.Source
import TableAssembler.Opcode.Table
import TableAssembler.Program.Basic

set_option relaxedAutoImplicit false
set_option autoImplicit false

namespace TableAssembler

open Text (utf8)

/-- A label operand whose two bytes, at `offset` in the binary, wait for the label's offset. -/
structure Fixup where
  offset : Nat
  operand : Token
  deriving DecidableEq, Repr

/-- What has been made of the statements so far, everything in the order in which it was made. -/
structure Resolver where
  binary : Array UInt8 := #[]
  instructions : Array Instruction := #[]
  symbols : Array Symbol := #[]
  fixups : Array Fixup := #[]
  deriving DecidableEq, Repr

/-- The directive for raw bytes. -/
def byteDirective : Text := utf8 ".byte"

/-- The directive that fills up to an address with zeros. -/
def orgDirective : Text := utf8 ".org"

namespace Resolver

/-! ### Operands -/

/-- The error that an operand does not fit the kind expected in its place. -/
def invalidOperand (token : Token) (kind : OperandKind) : SourceError :=
  .invalidOperand token.span token.text kind

/-- The number that an operand of a kind holds. -/
def number (token : Token) (kind : OperandKind) : Except SourceError Nat :=
  if token.kind ≠ .number then .error (invalidOperand token kind)
  else
    match token.value with
    | .error _ => .error (invalidOperand token kind)
    | .ok value =>
        if kind.limit < value then .error (invalidOperand token kind) else .ok value

/-- The `width` low bytes of a number, most significant first. -/
def bigEndian (value : Nat) : (width : Nat) → Text
  | 0 => []
  | width + 1 => bigEndian (value / 256) width ++ [UInt8.ofNat value]

/-- The field of an operand: a label's is left zero. -/
def encodeOperand (kind : OperandKind) (token : Token) : Except SourceError Text :=
  if kind = .label then
    if token.kind = .identifier then .ok (bigEndian 0 kind.width)
    else .error (invalidOperand token kind)
  else (number token kind).map fun value => bigEndian value kind.width

/-- The fixups of the field of an operand at `offset`. -/
def operandFixups (offset : Nat) (kind : OperandKind) (token : Token) : List Fixup :=
  if kind = .label then [⟨offset, token⟩] else []

/-- The bytes and the fixups of operands whose first field is at `offset`. -/
def encodeOperands (offset : Nat) : List OperandKind → List Token →
    Except SourceError (Text × List Fixup)
  | kind :: kinds, token :: tokens =>
      match encodeOperand kind token with
      | .error error => .error error
      | .ok field =>
          (encodeOperands (offset + kind.width) kinds tokens).map fun (bytes, fixups) =>
            (field ++ bytes, operandFixups offset kind token ++ fixups)
  | _, _ => .ok ([], [])

/-- The numbers of the operands of a `.byte` directive, one byte each. -/
def encodeBytes : List Token → Except SourceError Text
  | [] => .ok []
  | token :: tokens =>
      match number token .immediate with
      | .error error => .error error
      | .ok value => (encodeBytes tokens).map (UInt8.ofNat value :: ·)

/-! ### Statements -/

/-- The end of the binary. -/
def offset (resolver : Resolver) : Nat := resolver.binary.size

/-- Defines a label at the end of the binary. -/
def defineLabel (resolver : Resolver) (label : LabelDef) : Except SourceError Resolver :=
  match resolver.symbols.find? fun symbol => symbol.name = label.name with
  | some previous => .error (.duplicateLabel label.span label.name previous.span)
  | none =>
      let symbol : Symbol := ⟨label.name, resolver.offset, label.span⟩
      .ok { resolver with symbols := resolver.symbols.push symbol }

/-- Defines the labels of a statement, in order. -/
def define (resolver : Resolver) (statement : Statement) : Except SourceError Resolver :=
  statement.labels.foldlM defineLabel resolver

/-- Appends the encoding of a statement. -/
def emit (resolver : Resolver) (statement : Statement) (bytes : Text) (fixups : List Fixup) :
    Resolver :=
  let instruction : Instruction := ⟨statement, resolver.offset, bytes.length⟩
  { resolver with
    binary := resolver.binary ++ bytes
    instructions := resolver.instructions.push instruction
    fixups := resolver.fixups ++ fixups }

/-- The error that a statement has a wrong number of operands. -/
def wrongCount (statement : Statement) (expected : Nat) (atLeast : Bool) : SourceError :=
  .operandCount statement.mnemonicSpan statement.mnemonic expected statement.operands.length atLeast

/-- An instruction: labels, table, number of operands, operands. -/
def instruction (table : Table) (resolver : Resolver) (statement : Statement) :
    Except SourceError Resolver := do
  let resolver ← resolver.define statement
  match table.lookup? statement.mnemonic with
  | none => .error (.unknownOpcode statement.mnemonicSpan statement.mnemonic)
  | some opcode =>
      if statement.operands.length ≠ opcode.operands.length then
        .error (wrongCount statement opcode.operands.length false)
      else
        let (bytes, fixups) ←
          encodeOperands (resolver.offset + 1) opcode.operands statement.operands
        .ok (resolver.emit statement (opcode.binary :: bytes) fixups)

/-- The directive `.byte`: labels, number of operands, operands. -/
def byteStatement (resolver : Resolver) (statement : Statement) : Except SourceError Resolver := do
  let resolver ← resolver.define statement
  if statement.operands = [] then .error (wrongCount statement 1 true)
  else
    let bytes ← encodeBytes statement.operands
    .ok (resolver.emit statement bytes [])

/-- The directive `.org`: number of operands, the address, and the labels at the address. -/
def orgStatement (resolver : Resolver) (statement : Statement) : Except SourceError Resolver :=
  match statement.operands with
  | [token] => do
      let address ← number token .address
      if address < resolver.offset then .error (invalidOperand token .address)
      else
        (resolver.emit statement (List.replicate (address - resolver.offset) 0) []).define statement
  | _ => .error (wrongCount statement 1 false)

/-- **One statement.** -/
def statement (table : Table) (resolver : Resolver) (statement : Statement) :
    Except SourceError Resolver :=
  if statement.directive = false then resolver.instruction table statement
  else if statement.mnemonic = byteDirective then resolver.byteStatement statement
  else if statement.mnemonic = orgDirective then resolver.orgStatement statement
  else .error (.unknownOpcode statement.mnemonicSpan statement.mnemonic)

/-! ### Linking -/

/-- Writes a number into two bytes of the binary. -/
def patch (binary : Array UInt8) (offset value : Nat) : Array UInt8 :=
  (binary.setIfInBounds offset (UInt8.ofNat (value / 256))).setIfInBounds (offset + 1)
    (UInt8.ofNat value)

/-- Patches one fixup with the offset of its label. -/
def linkOne (symbols : Array Symbol) (binary : Array UInt8) (fixup : Fixup) :
    Except SourceError (Array UInt8) :=
  match symbols.find? fun symbol => symbol.name = fixup.operand.text with
  | none => .error (.undefinedLabel fixup.operand.span fixup.operand.text)
  | some symbol =>
      if OperandKind.label.limit < symbol.offset then .error (invalidOperand fixup.operand .label)
      else .ok (patch binary fixup.offset symbol.offset.toNat)

/-- Patches every fixup, in order. -/
def link (resolver : Resolver) : Except SourceError Resolver :=
  (resolver.fixups.foldlM (linkOne resolver.symbols) resolver.binary).map fun binary =>
    { resolver with binary := binary }

/-- The program that has been made. -/
def program (resolver : Resolver) : Program where
  binary := resolver.binary.toList
  instructions := resolver.instructions.toList
  symbols := resolver.symbols.toList

end Resolver

/-- **The program of a list of statements under an opcode table.** -/
def Program.resolve (table : Table) (statements : List Statement) : Except SourceError Program := do
  let resolver ← statements.foldlM (Resolver.statement table) {}
  if table.usesLabels then resolver.link.map Resolver.program else .ok resolver.program

/-- The binary of a list of statements under an opcode table. -/
def Program.emit (table : Table) (statements : List Statement) : Except SourceError Text :=
  (Program.resolve table statements).map Program.binary

end TableAssembler
