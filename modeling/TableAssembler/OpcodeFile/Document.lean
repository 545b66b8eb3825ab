/-
**Opcode files that are TOML documents.**

Such a document is an array of tables:

```
[[opcode]]
mnemonic = "ADD"
binary = 0x01
operands = ["register", "register"]
```

Names of keys are matched without regard to case, a field that is missing is empty or zero, and keys
that mean nothing are reported all together, before any value is looked at.

Main definitions:

* `OpcodeFile.entryOf?`, `OpcodeFile.entriesOf?` — the entry of a table, and those of a document;
* `OpcodeFile.unknownKeys` — the keys of a document that mean nothing;
* `OpcodeFile.ofDecoded` — **the opcodes of a document**, given what it says.
-/

import TableAssembler.Error.Failure
import TableAssembler.OpcodeFile.Entry
import TableAssembler.Toml.Document

set_option relaxedAutoImplicit false
set_option autoImplicit false

namespace TableAssembler

namespace OpcodeFile

open Toml (Node Key)

/-! ### Keys -/

/-- A character without regard to case: the two characters beyond ASCII whose other case is an
ASCII letter count as that letter. -/
def foldCase (c : Char) : Char :=
  if c.toNat = 0x17F then 's' else if c.toNat = 0x212A then 'k' else c.toLower

/-- Whether a key is a name, up to case. -/
def isNamed (name : String) (key : List Char) : Bool := key.map foldCase = name.toList

/-- Whether a key is a field of an opcode. -/
def isField (key : List Char) : Bool :=
  isNamed "mnemonic" key || isNamed "binary" key || isNamed "operands" key

/-! ### Entries -/

/-- The text of a string. -/
def textOf? : Node → Option Text
  | .string value => some (Text.ofChars value)
  | _ => none

/-- An entry with a field set, if the value has the shape that the field demands. -/
def setField? (entry : Entry) (key : List Char) (value : Node) : Option Entry :=
  if isNamed "mnemonic" key then
    (textOf? value).map fun mnemonic => { entry with mnemonic := mnemonic }
  else if isNamed "binary" key then
    match value with
    | .scalar (.integer number) => some { entry with binary := number }
    | _ => none
  else if isNamed "operands" key then
    match value with
    | .array items => (items.mapM textOf?).map fun operands => { entry with operands := operands }
    | _ => none
  else some entry

/-- The entry of a table. -/
def entryOf? (members : Toml.Members) : Option Entry :=
  members.foldlM (fun entry member => setField? entry member.1 member.2) {}

/-- The tables of an array of tables, in either way of writing it. -/
def tablesOf? : Node → Option (List Toml.Members)
  | .tables elements => some elements
  | .array items => items.mapM fun item =>
      match item with
      | .table members => some members
      | _ => none
  | _ => none

/-- The tables of a document that define opcodes, each key with its own. -/
def opcodeTables? (root : Toml.Members) : Option (List (List Char × List Toml.Members)) :=
  (root.filter fun member => isNamed "opcode" member.1).mapM fun member =>
    (tablesOf? member.2).map fun tables => (member.1, tables)

/-- The keys of a document that mean something. -/
def knownKeys (opcodes : List (List Char × List Toml.Members)) : List Key :=
  opcodes.flatMap fun (key, tables) =>
    [key] :: tables.flatMap fun members =>
      (members.filter fun member => isField member.1).map fun member => [key, member.1]

/-- The keys of a document that mean nothing, as often as they appear. -/
def unknownKeys (document : Toml.Document) (opcodes : List (List Char × List Toml.Members)) :
    List Key :=
  let known := (knownKeys opcodes).eraseDups
  document.keys.filter fun key => !known.contains key

/-! ### Documents -/

/-- What a document says: its keys that mean nothing, and its entries. -/
def entriesOf? (text : Text) : Option (List Key × List Entry) := do
  let document ← Toml.document? text
  let opcodes ← opcodeTables? document.root
  let entries ← opcodes.mapM fun (_, tables) => tables.mapM entryOf?
  some (unknownKeys document opcodes, entries.getLast?.getD [])

/-- **The opcodes of a document**, given what it says, if it is one. -/
def ofDecoded : Option (List Key × List Entry) → Except Failure (List Opcode)
  | none => .error .document
  | some ([], entries) => (Entry.toOpcodes entries).mapError .table
  | some (keys, _) => .error (.table (.unknownKeys (keys.map Toml.renderKey)))

end OpcodeFile

end TableAssembler
