/-
**The program.**

The program reads the files that its command line names, plans what to do with them, and does it.
Log lines and failures go to standard error.

Main definitions:

* `Command.gather` — reads what the command line names;
* `Command.perform` — carries out a plan;
* `main` — the program.
-/

import TableAssembler.Command.Run

set_option relaxedAutoImplicit false
set_option autoImplicit false

namespace TableAssembler

open Text (utf8)

namespace Command

/-! ### Reading and writing -/

/-- The fault that a refused access to a file shows. -/
def faultOf : IO.Error → PathFault
  | .noFileOrDirectory .. => .noEntry
  | .inappropriateType .. => .isDirectory
  | _ => .invalid

/-- Does something with a file, which errors call `shown`. -/
def attempt {α : Type} (action shown : Text) (access : IO α) : IO (Except PathError α) := do
  try
    return .ok (← access)
  catch error =>
    return .error ⟨action, shown, faultOf error⟩

/-- The text of a file. -/
def readPath (path : Text) : IO Text := do
  return (← IO.FS.readBinFile path.toString).toList

/-- Writes a file. -/
def writePath (path content : Text) : IO Unit :=
  IO.FS.writeBinFile path.toString ⟨content.toArray⟩

/-- Everything that is left on a stream. -/
partial def readStream (stream : IO.FS.Stream) (done : ByteArray) : IO ByteArray := do
  let more ← stream.read 65536
  if more.isEmpty then return done else readStream stream (done ++ more)

/-- Writes a text to a stream. -/
def put (stream : IO.FS.Stream) (content : Text) : IO Unit := do
  stream.write ⟨content.toArray⟩
  stream.flush

/-! ### The command -/

/-- The outcome of reading an opcode file. -/
def readTable (path : Text) : IO (Text × Except PathError Text) := do
  let inside := Path.join (Path.directory path) (Path.base path)
  return (path, ← attempt (utf8 "open") (Path.base path) (readPath inside))

/-- The outcome of reading a source. -/
def readSource (name : Text) : IO (Except PathError Text) := do
  if name = standardStream then
    return .ok (← readStream (← IO.getStdin) ByteArray.empty).toList
  else attempt (utf8 "open") name (readPath name)

/-- The outcome of reading a path, among those at hand. -/
def lookUp (found : List (Text × Except PathError Text)) (path : Text) : Except PathError Text :=
  match found.find? fun entry => entry.1 = path with
  | some entry => entry.2
  | none => .error ⟨utf8 "open", path, .noEntry⟩

/-- Reads what a command line names. -/
def gather (words : List Text) : IO Inputs := do
  match request words with
  | .ok (.assemble options name) =>
      let tables ← options.configs.mapM readTable
      let source ← readSource name
      return { table := lookUp tables, source := fun _ => source }
  | _ => return { table := lookUp [], source := lookUp [] }

/-- Shows a failure, and gives the code that the program ends with. -/
def fail (options : Options) (failure : Failure) : IO UInt32 := do
  put (← IO.getStderr) (errorOutput options failure ++ failure.message ++ [Text.newline])
  return 1

/-- Writes lines of the log. -/
def writeLog (lines : List Text) : IO Unit := do
  put (← IO.getStderr) (lines.flatMap (· ++ [Text.newline]))

/-- Carries out a plan, and gives the code that the program ends with. -/
def perform (options : Options) (plan : Plan) : IO UInt32 := do
  writeLog plan.log
  match plan.result with
  | .error failure => fail options failure
  | .ok ⟨none, content, notes⟩ =>
      put (← IO.getStdout) content
      writeLog notes
      return 0
  | .ok ⟨some path, content, notes⟩ =>
      match ← attempt (utf8 "open") path (writePath path content) with
      | .error error => fail options (.path error)
      | .ok () =>
          writeLog notes
          return 0

end Command

end TableAssembler

open TableAssembler in
/-- **The program.** -/
def main (arguments : List String) : IO UInt32 := do
  let words := arguments.map Text.utf8
  let (options, plan) := Command.plan (← Command.gather words) words
  Command.perform options plan
