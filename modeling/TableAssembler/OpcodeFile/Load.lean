/-
**Loading opcode files.**

The ending of a file's name tells its format.  Whatever goes wrong is reported with that name.

Main definitions:

* `OpcodeFile.Readers` — what documents and scripts are read with;
* `OpcodeFile.Readers.ofText` — the opcodes of a file's text;
* `OpcodeFile.Readers.load` — **the opcodes of a file** that has been read, or the failure with its
  name;
* `OpcodeFile.loadRooted`, `OpcodeFile.loadIn` — the opcodes of a file of a bundle, and of a file in
  a directory.
-/

import TableAssembler.File.Tree
import TableAssembler.OpcodeFile.Document
import TableAssembler.OpcodeFile.Script

set_option relaxedAutoImplicit false
set_option autoImplicit false

namespace TableAssembler

namespace OpcodeFile

open Text (utf8)

/-- What opcode files are read with. -/
structure Readers where
  /-- What a document says: its keys that mean nothing, and its entries. -/
  document? : Text → Option (List Toml.Key × List Entry)
  /-- Runs a script on behalf of a host, from a state of the host. -/
  run (host : Script.Host (List Opcode) ScriptError) (state : List Opcode) (text : Text) :
    Script.Outcome (List Opcode) ScriptError

namespace Readers

/-- The opcodes of a document. -/
def ofDocument (readers : Readers) (text : Text) : Except Failure (List Opcode) :=
  ofDecoded (readers.document? text)

/-- The opcodes of a script. -/
def ofScript (readers : Readers) (text : Text) : Except Failure (List Opcode) :=
  ofOutcome (readers.run scriptHost [] text)

/-- The opcodes of a file's text, in the format that the file's name tells. -/
def ofText (readers : Readers) (name text : Text) : Except Failure (List Opcode) :=
  if Path.extension name = utf8 ".toml" then readers.ofDocument text
  else if Path.extension name = utf8 ".star" then readers.ofScript text
  else .error (.table .unknownFormat)

/-- **The opcodes of a file**, `content` being the outcome of reading it. -/
def load (readers : Readers) (name : Text) (content : Except PathError Text) :
    Except Failure (List Opcode) :=
  match content with
  | .error error => .error (.load name (.path error))
  | .ok text => (readers.ofText name text).mapError (.load name)

/-- The readers of this library. -/
def own : Readers where
  document? := entriesOf?
  run := Script.run

end Readers

/-- The opcodes of a file, read with the readers of this library. -/
def load (name : Text) (content : Except PathError Text) : Except Failure (List Opcode) :=
  Readers.own.load name content

/-- The opcodes of a file of a bundle. -/
def loadRooted (tree : FileTree) (name : Text) : Except Failure (List Opcode) :=
  load name (tree.readRooted name)

/-- The opcodes of a file in a directory. -/
def loadIn (store : Store) (state : store.State) (directory name : Text) :
    Except Failure (List Opcode) :=
  load name (store.readIn state directory name)

end OpcodeFile

end TableAssembler
