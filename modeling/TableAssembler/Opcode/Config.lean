/-
**Configurations: checked opcodes with an index.**

A list of opcodes is checked and taken in entry by entry.  Beside the opcodes, two things are kept
in step with them: an index of their mnemonics, and a mark whether one of them takes a label.
Questions are answered from the index and the mark.  A table is what remains without the two.

Main definitions:

* `Config.isMnemonic` — whether a text can be a mnemonic, byte by byte;
* `Config`, `Config.lookup?`, `Config.usesLabels`, `Config.size` — configurations, and what they
  answer;
* `Config.add`, `Config.ofOpcodes` — takes in one opcode, and **a list of opcodes**;
* `Config.table`, `Table.ofOpcodes` — the table of a configuration, and that of a list.
-/

import TableAssembler.Error.Table
import TableAssembler.Opcode.Table

set_option relaxedAutoImplicit false
set_option autoImplicit false

namespace TableAssembler

open Text (byte)

/-- Opcodes that have been checked. -/
structure Config where
  /-- The opcodes in the order of their definition. -/
  opcodes : List Opcode := []
  /-- The position of each mnemonic, counted from zero. -/
  index : List (Text × Nat) := []
  /-- Whether some opcode takes a label. -/
  labels : Bool := false
  deriving DecidableEq, Repr, Inhabited

namespace Config

/-! ### Mnemonics -/

/-- Whether the bytes of a mnemonic from position `n` on are letters, underscores and digits, with
no digit at its start. -/
def mnemonicFrom (n : Nat) : Text → Bool
  | [] => true
  | c :: rest =>
      if c = byte '_' ∨ (byte 'a' ≤ c ∧ c ≤ byte 'z') ∨ (byte 'A' ≤ c ∧ c ≤ byte 'Z') then
        mnemonicFrom (n + 1) rest
      else if (byte '0' ≤ c ∧ c ≤ byte '9') ∧ 0 < n then mnemonicFrom (n + 1) rest
      else false

/-- Whether a text can be a mnemonic. -/
def isMnemonic (text : Text) : Bool := if text.length = 0 then false else mnemonicFrom 0 text

/-! ### Answers -/

/-- The position of a mnemonic. -/
def position? (config : Config) (mnemonic : Text) : Option Nat := config.index.lookup mnemonic

/-- The opcode of a mnemonic. -/
def lookup? (config : Config) (mnemonic : Text) : Option Opcode :=
  (config.position? mnemonic).bind fun n => config.opcodes[n]?

/-- Whether some opcode takes a label. -/
def usesLabels (config : Config) : Bool := config.labels

/-- The number of opcodes. -/
def size (config : Config) : Nat := config.opcodes.length

/-! ### Making a configuration -/

/-- Checks operand kinds from left to right, and marks whether one of them is a label. -/
def markKinds (labels : Bool) : List OperandKind → Except TableError Bool
  | [] => .ok labels
  | kind :: kinds =>
      if kind.isKnown = false then .error (.operandKind kind.name)
      else markKinds (labels || kind = .label) kinds

/-- Takes in an opcode at position `n`: its mnemonic has to be valid and new, and its operand kinds
known. -/
def add (config : Config) (n : Nat) (opcode : Opcode) : Except TableError Config :=
  if isMnemonic opcode.mnemonic = false then .error (.invalidMnemonic opcode.mnemonic)
  else
    match config.position? opcode.mnemonic with
    | some previous => .error (.duplicateMnemonic opcode.mnemonic n previous)
    | none =>
        match markKinds config.labels opcode.operands with
        | .error error => .error error
        | .ok labels =>
            .ok {
              opcodes := config.opcodes ++ [opcode]
              index := (opcode.mnemonic, n) :: config.index
              labels := labels }

/-- Takes in opcodes in turn, from position `n` on. -/
def addFrom (config : Config) (n : Nat) : List Opcode → Except TableError Config
  | [] => .ok config
  | opcode :: rest =>
      match config.add n opcode with
      | .error error => .error error
      | .ok next => next.addFrom (n + 1) rest

/-- **The configuration of a list of opcodes.** -/
def ofOpcodes (opcodes : List Opcode) : Except TableError Config := addFrom {} 0 opcodes

/-- The table of a configuration. -/
def table (config : Config) : Table := ⟨config.opcodes⟩

end Config

/-- **The table of a list of opcodes.** -/
def Table.ofOpcodes (opcodes : List Opcode) : Except TableError Table :=
  (Config.ofOpcodes opcodes).map Config.table

end TableAssembler
