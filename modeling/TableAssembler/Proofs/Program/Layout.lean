/-
**The layout of a program, computed directly.**

The resolver reads statements once, writes zeros where it does not know a label yet, and patches
them afterwards.  This module says without any of that what the result has to be: the sizes of the
statements give every statement its offset and every label the offset it stands for, and with the
labels known each statement can be written down at once.  `Proofs/Program/Linking.lean` proves that
the resolver agrees.

Main definitions:

* `Layout.size`, `Layout.place` — the bytes a statement takes, and the statements with their
  offsets;
* `Layout.symbols` — the labels with the offsets they stand for;
* `Layout.bytes`, `Layout.program` — **the second pass**: the encoding of a statement once the
  labels are known, and the whole program;
* `Layout.Fits`, `Layout.Valid` — the rules for one statement, and for a whole program.

Main results:

* `Layout.length_bytes` — a statement that keeps the rules is encoded in as many bytes as its size
  says, whatever the labels stand for.
-/

import Mathlib.Data.List.Forall2
import TableAssembler.Program.Resolver

set_option relaxedAutoImplicit false
set_option autoImplicit false

namespace TableAssembler

namespace Layout

/-! ### First pass: sizes and offsets -/

/-- The number that a token stands for; zero if it is no literal. -/
def numberOf (token : Token) : Nat := token.value.toOption.getD 0

/-- The address that a `.org` directive names. -/
def address (statement : Statement) : Nat := (statement.operands.head?.map numberOf).getD 0

/-- The number of bytes that a statement takes at `offset`. -/
def size (table : Table) (offset : Nat) (statement : Statement) : Nat :=
  if statement.directive = false then
    ((table.lookup? statement.mnemonic).map Opcode.size).getD 0
  else if statement.mnemonic = byteDirective then statement.operands.length
  else if statement.mnemonic = orgDirective then address statement - offset
  else 0

/-- The offset that a label in front of a statement stands for: that of the statement, but the
address of a `.org` directive. -/
def labelOffset (offset : Nat) (statement : Statement) : Nat :=
  if statement.directive = true ∧ statement.mnemonic = orgDirective then address statement
  else offset

/-- **The statements with their offsets**, the first of them at `offset`. -/
def place (table : Table) : Nat → List Statement → List (Nat × Statement)
  | _, [] => []
  | offset, statement :: rest =>
      (offset, statement) :: place table (offset + size table offset statement) rest

/-- The labels of a statement at `offset`. -/
def symbolsAt (offset : Nat) (statement : Statement) : List Symbol :=
  statement.labels.map fun label => ⟨label.name, labelOffset offset statement, label.span⟩

/-- **The labels of a program**, in the order of their definition. -/
def symbols (table : Table) (statements : List Statement) : List Symbol :=
  (place table 0 statements).flatMap fun placed => symbolsAt placed.1 placed.2

/-! ### Second pass: bytes -/

/-- The offset of a label, which is never in front of the binary; zero if it is not defined. -/
def offsetOf (symbols : List Symbol) (name : Text) : Nat :=
  (((symbols.find? fun symbol => symbol.name = name).map Symbol.offset).getD 0).toNat

/-- The operands of an instruction beside the kinds that its opcode expects. -/
def fields (table : Table) (statement : Statement) : List (OperandKind × Token) :=
  match table.lookup? statement.mnemonic with
  | some opcode => opcode.operands.zip statement.operands
  | none => []

/-- The value of an operand: a label's offset, or the number written. -/
def fieldValue (symbols : List Symbol) (field : OperandKind × Token) : Nat :=
  if field.1 = .label then offsetOf symbols field.2.text else numberOf field.2

/-- The bytes of an operand, the high byte first if there are two. -/
def fieldBytes (symbols : List Symbol) (field : OperandKind × Token) : Text :=
  let value := fieldValue symbols field
  if field.1.width = 2 then [UInt8.ofNat (value / 256), UInt8.ofNat (value % 256)]
  else [UInt8.ofNat value]

/-- The bytes of an instruction. -/
def instructionBytes (table : Table) (symbols : List Symbol) (statement : Statement) : Text :=
  match table.lookup? statement.mnemonic with
  | some opcode => opcode.binary :: (fields table statement).flatMap (fieldBytes symbols)
  | none => []

/-- **The bytes of a statement** at `offset`, the labels being known. -/
def bytes (table : Table) (symbols : List Symbol) (offset : Nat) (statement : Statement) : Text :=
  if statement.directive = false then instructionBytes table symbols statement
  else if statement.mnemonic = byteDirective then
    statement.operands.map fun token => UInt8.ofNat (numberOf token)
  else List.replicate (size table offset statement) 0

/-- **The program of a list of statements**, in two passes. -/
def program (table : Table) (statements : List Statement) : Program where
  binary := (place table 0 statements).flatMap fun placed =>
    bytes table (symbols table statements) placed.1 placed.2
  instructions := (place table 0 statements).map fun placed =>
    ⟨placed.2, placed.1, size table placed.1 placed.2⟩
  symbols := symbols table statements

/-! ### Rules -/

/-- A token is a number literal with a value of at most `limit`. -/
def IsNumber (limit : Nat) (token : Token) : Prop :=
  token.kind = .number ∧ ∃ value, token.value = .ok value ∧ value ≤ limit

/-- A token can stand where an operand of the given kind is expected. -/
def FitsKind (kind : OperandKind) (token : Token) : Prop :=
  if kind = .label then token.kind = .identifier else IsNumber kind.limit token

/-- **A statement keeps the rules at `offset`**, labels apart. -/
inductive Fits (table : Table) (offset : Nat) (statement : Statement) : Prop where
  /-- An instruction is in the table, with operands that fit, one for each kind. -/
  | instruction (opcode : Opcode) (plain : statement.directive = false)
      (found : table.lookup? statement.mnemonic = some opcode)
      (operands : List.Forall₂ FitsKind opcode.operands statement.operands)
  /-- A `.byte` directive has operands, and all are numbers of one byte. -/
  | raw (directive : statement.directive = true) (name : statement.mnemonic = byteDirective)
      (nonempty : statement.operands ≠ [])
      (numbers : ∀ token ∈ statement.operands, IsNumber 0xFF token)
  /-- A `.org` directive has one operand, an address that the offset has not passed. -/
  | origin (token : Token) (target : Nat) (directive : statement.directive = true)
      (name : statement.mnemonic = orgDirective) (only : statement.operands = [token])
      (number : token.kind = .number) (value : token.value = .ok target)
      (ahead : offset ≤ target) (bounded : target ≤ 0xFFFF)

/-- The names of the labels of a list of statements. -/
def definedNames (statements : List Statement) : List Text :=
  statements.flatMap fun statement => statement.labels.map LabelDef.name

/-- The label operands of a statement. -/
def references (table : Table) (statement : Statement) : List Token :=
  if statement.directive = false then
    ((fields table statement).filter fun field => field.1 = .label).map Prod.snd
  else []

theorem mem_references {table : Table} {statement : Statement} {token : Token}
    (plain : statement.directive = false) (h : (.label, token) ∈ fields table statement) :
    token ∈ references table statement := by
  rw [references, if_pos plain]
  exact List.mem_map.2 ⟨_, List.mem_filter.2 ⟨h, by simp⟩, rfl⟩

/-- **A list of statements keeps the rules.** -/
structure Valid (table : Table) (statements : List Statement) : Prop where
  /-- Every statement keeps the rules at its offset. -/
  fits : ∀ placed ∈ place table 0 statements, Fits table placed.1 placed.2
  /-- No two labels have the same name. -/
  distinct : (definedNames statements).Nodup
  /-- Every label operand names a label that fits into two bytes. -/
  linked : ∀ statement ∈ statements, ∀ token ∈ references table statement,
    ∃ symbol ∈ symbols table statements, symbol.name = token.text ∧ symbol.offset ≤ 0xFFFF

/-! ### Sizes of encodings -/

theorem width_eq_one_or_two (kind : OperandKind) : kind.width = 1 ∨ kind.width = 2 := by
  cases kind <;> simp [OperandKind.width]

@[simp] theorem length_fieldBytes (symbols : List Symbol) (field : OperandKind × Token) :
    (fieldBytes symbols field).length = field.1.width := by
  rcases width_eq_one_or_two field.1 with h | h <;> simp [fieldBytes, h]

/-- The fields of an instruction take as many bytes as its operand kinds say. -/
theorem length_flatMap_fieldBytes (symbols : List Symbol) {kinds : List OperandKind}
    {tokens : List Token} (h : kinds.length = tokens.length) :
    ((kinds.zip tokens).flatMap (fieldBytes symbols)).length = operandsSize kinds := by
  induction kinds generalizing tokens with
  | nil => simp [operandsSize]
  | cons kind kinds ih =>
      cases tokens with
      | nil => simp at h
      | cons token tokens =>
          have hlength : kinds.length = tokens.length := by simpa using h
          have htail := ih hlength
          simp only [List.zip_cons_cons, List.flatMap_cons, List.length_append, length_fieldBytes,
            operandsSize, htail]

theorem fields_eq {table : Table} {statement : Statement} {opcode : Opcode}
    (h : table.lookup? statement.mnemonic = some opcode) :
    fields table statement = opcode.operands.zip statement.operands := by
  simp only [fields, h]

/-- **A statement is encoded in as many bytes as its size says.** -/
theorem length_bytes {table : Table} {offset : Nat} {statement : Statement}
    (h : Fits table offset statement) (symbols : List Symbol) :
    (bytes table symbols offset statement).length = size table offset statement := by
  cases h with
  | instruction opcode plain found operands =>
      have hfields := length_flatMap_fieldBytes symbols operands.length_eq
      simp only [bytes, size, instructionBytes, plain, found, fields_eq found, if_true,
        List.length_cons, hfields, Option.map_some, Option.getD_some, Opcode.size]
      omega
  | raw directive name _ _ => simp [bytes, size, directive, name]
  | origin _ _ directive name _ _ _ _ _ =>
      have hne : orgDirective ≠ byteDirective := by decide
      simp [bytes, directive, name, hne]

end Layout

end TableAssembler
