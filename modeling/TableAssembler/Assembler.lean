/-
**Assembling a source.**

An assembler is an opcode table and a choice whether to keep a log.  Its log says what happened
when a source was assembled: the first error, or the number of statements, every instruction with
its bytes, and every label.

Main definitions:

* `Assembler`, `Assembler.ofOpcodes` — an assembler, and the making of one from a list of opcodes;
* `Assembler.program` — **the program of a source**;
* `Assembler.log` — what a verbose assembler notes about a source.
-/

import TableAssembler.Opcode.Config
import TableAssembler.Program.Resolver
import TableAssembler.Statement.Parser
import TableAssembler.Token.Lexer

set_option relaxedAutoImplicit false
set_option autoImplicit false

namespace TableAssembler

open Text (utf8)

/-- An assembler for one opcode table. -/
structure Assembler where
  table : Table := {}
  verbose : Bool := false
  deriving DecidableEq, Repr

/-- The statements of a source. -/
def statements (source : Text) : Except SourceError (List Statement) :=
  Statement.parse (tokenize source)

namespace Assembler

/-- The assembler for the table of a list of opcodes. -/
def ofOpcodes (opcodes : List Opcode) : Except TableError Assembler :=
  (Table.ofOpcodes opcodes).map fun table => { table := table }

/-- **The program of a source.** -/
def program (assembler : Assembler) (source : Text) : Except SourceError Program := do
  Program.resolve assembler.table (← statements source)

/-- The binary of a source. -/
def binary (assembler : Assembler) (source : Text) : Except SourceError Text :=
  (assembler.program source).map Program.binary

/-! ### The log -/

/-- What is noted about an instruction. -/
def instructionNote (binary : Text) (instruction : Instruction) : Text :=
  Text.hex 4 instruction.offset ++ utf8 ": " ++ instruction.statement.render ++ utf8 ": " ++
    Text.hexBytes (utf8 " ") (instruction.bytes binary)

/-- What is noted about a label. -/
def symbolNote (symbol : Symbol) : Text :=
  utf8 "label " ++ symbol.name ++ utf8 " = 0x" ++ Text.hex 4 symbol.offset.toNat

/-- What is noted about a program. -/
def programNotes (program : Program) : List Text :=
  program.instructions.map (instructionNote program.binary) ++
    program.sortedSymbols.map symbolNote

/-- What is noted about a source. -/
def notes (assembler : Assembler) (source : Text) : List Text :=
  match statements source with
  | .error error => [utf8 "parse: " ++ error.message]
  | .ok parsed =>
      (utf8 "parsed " ++ Text.decimal parsed.length ++ utf8 " statements") ::
        match Program.resolve assembler.table parsed with
        | .error error => [utf8 "resolve: " ++ error.message]
        | .ok program => programNotes program

/-- The log of assembling a source: empty unless the assembler is verbose. -/
def log (assembler : Assembler) (source : Text) : List Text :=
  if assembler.verbose then assembler.notes source else []

end Assembler

end TableAssembler
