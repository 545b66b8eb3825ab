/-
**Opcode files that are Starlark scripts.**

Such a script calls a function `opcode` for every opcode:

```
opcode("ADD", 0x01, REGISTER, REGISTER)
```

The names of the operand kinds are there in capitals.  A call that is refused ends the script, and
nothing that it has defined before counts.

Main definitions:

* `OpcodeFile.entryOfCall` — the entry that a call describes;
* `OpcodeFile.define` — the opcodes after a call;
* `OpcodeFile.scriptHost` — what is lent to scripts;
* `OpcodeFile.ofOutcome` — **the opcodes of a script**, given how it ended.
-/

import TableAssembler.Error.Failure
import TableAssembler.OpcodeFile.Entry
import TableAssembler.Script.Run

set_option relaxedAutoImplicit false
set_option autoImplicit false

namespace TableAssembler

namespace OpcodeFile

open Script (Given)
open Text (utf8)

/-! ### Calls -/

/-- A call that is refused because of its form; `subject` says which part of it. -/
def misformed (subject : Text) : ScriptError := .call (subject ++ TableError.definition.message)

/-- The number that a call gives; it has 32 bits at most. -/
def binaryOf : Given → Except ScriptError Int
  | .int number =>
      if -0x80000000 ≤ number ∧ number < 0x80000000 then .ok number
      else .error (.call (utf8 "binary: " ++ Text.decimal number ++ utf8 " out of range"))
  | value => .error (.call (utf8 "binary: got " ++ value.type ++ utf8 ", want int"))

/-- The operand names that a call gives. -/
def operandNames : List Given → Except ScriptError (List Text)
  | [] => .ok []
  | .text name :: rest => (operandNames rest).map (name :: ·)
  | value :: _ => .error (misformed (utf8 "operand " ++ value.shown ++ utf8 ": "))

/-- **The entry that a call describes.**  All arguments are positional: a mnemonic, a number, and
the names of operand kinds. -/
def entryOfCall (positional : List Given) (named : List (Text × Given)) :
    Except ScriptError Entry :=
  match positional, named with
  | mnemonic :: binary :: operands, [] =>
      match mnemonic with
      | .text mnemonic => do
          let binary ← binaryOf binary
          let operands ← operandNames operands
          .ok ⟨mnemonic, binary, operands⟩
      | _ => .error (misformed (utf8 "mnemonic: "))
  | _, _ => .error (misformed [])

/-- The opcodes after a call, `opcodes` being those before it. -/
def define (opcodes : List Opcode) (positional : List Given) (named : List (Text × Given)) :
    Except ScriptError (List Opcode) := do
  let entry ← entryOfCall positional named
  let opcode ← entry.toOpcode.mapError .definition
  .ok (opcodes ++ [opcode])

/-! ### Scripts -/

/-- What is lent to scripts: the names of the operand kinds, and the function that defines an
opcode. -/
def scriptHost : Script.Host (List Opcode) ScriptError where
  texts := [
    (utf8 "REGISTER", OperandKind.register.name),
    (utf8 "IMMEDIATE", OperandKind.immediate.name),
    (utf8 "ADDRESS", OperandKind.address.name),
    (utf8 "LABEL", OperandKind.label.name)]
  functions := [utf8 "opcode"]
  call := fun opcodes _ positional named => define opcodes positional named

/-- **The opcodes of a script**, given how it ended. -/
def ofOutcome : Script.Outcome (List Opcode) ScriptError → Except Failure (List Opcode)
  | .malformed => .error (.script .malformed)
  | .stopped (.refused error) => .error (.script error)
  | .stopped .failed => .error (.script .failed)
  | .finished [] => .error (.table .noOpcodes)
  | .finished opcodes => .ok opcodes

end OpcodeFile

end TableAssembler
