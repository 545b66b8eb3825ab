/-
**Failures: everything that can go wrong, and how it is passed on.**

A failure is a tree.  Its leaves are causes: a source that is refused, an opcode table that is
refused, a file that cannot be read.  Its inner nodes say what was being done: a file being loaded,
a script making a definition, a source file being assembled, or several failures at once.

Main definitions:

* `PathError`, `ScriptError`, `Failure` — the causes beside those of sources and tables, and the
  trees;
* `Failure.message` — the text of a failure;
* `Failure.leaves` — its causes from left to right.
-/

import TableAssembler.Error.Source
import TableAssembler.Error.Table

set_option relaxedAutoImplicit false
set_option autoImplicit false

namespace TableAssembler

open Text (utf8)

/-! ### Files -/

/-- Why a path leads to no file. -/
inductive PathFault where
  /-- There is nothing at that path in a directory tree of the machine. -/
  | noEntry
  /-- There is nothing at that path in a bundle of files. -/
  | notExist
  | isDirectory
  | notDirectory
  | invalid
  | nameTooLong
  deriving DecidableEq, Repr

/-- The text of a fault. -/
def PathFault.message : PathFault → Text
  | noEntry => utf8 "no such file or directory"
  | notExist => utf8 "file does not exist"
  | isDirectory => utf8 "is a directory"
  | notDirectory => utf8 "not a directory"
  | invalid => utf8 "invalid argument"
  | nameTooLong => utf8 "file name too long"

/-- A file that cannot be opened, read or written. -/
structure PathError where
  action : Text
  path : Text
  fault : PathFault
  deriving DecidableEq, Repr

/-- The text of a file error. -/
def PathError.message (error : PathError) : Text :=
  error.action ++ utf8 " " ++ error.path ++ utf8 ": " ++ error.fault.message

/-! ### Scripts -/

/-- Why a script that should define opcodes is refused. -/
inductive ScriptError where
  /-- It is no script, or uses a name that nothing defines. -/
  | malformed
  /-- A definition that it makes is refused. -/
  | definition (error : TableError)
  /-- A call of the definition function is refused, for the given reason. -/
  | call (reason : Text)
  /-- It fails in some other way. -/
  | failed
  deriving DecidableEq, Repr

/-- The text of a script error. -/
def ScriptError.message : ScriptError → Text
  | malformed => utf8 "malformed script"
  | definition error => error.message
  | call reason => utf8 "opcode: " ++ reason
  | failed => utf8 "script failed"

/-! ### Failures -/

/-- A failure. -/
inductive Failure where
  | source (error : SourceError)
  | table (error : TableError)
  | path (error : PathError)
  | script (error : ScriptError)
  /-- A document that is malformed, or has values of the wrong shape. -/
  | document
  /-- No opcode table was given. -/
  | noTable
  | plain (text : Text)
  /-- A failure while something was being done. -/
  | wrapped (task : Text) (cause : Failure)
  /-- A failure while an opcode file was being loaded. -/
  | load (name : Text) (cause : Failure)
  /-- The loading of an opcode file failed without a cause. -/
  | loadUncaused (name : Text)
  /-- An error in a source file of which the text is at hand. -/
  | inFile (name text : Text) (error : SourceError)
  /-- Several failures at once. -/
  | joined (parts : List Failure)

namespace Failure

/-- The text of a source error with its file and the excerpt of its place. -/
def sourceMessage (name text : Text) (error : SourceError) : Text :=
  name ++ utf8 ":" ++ error.message ++ [Text.newline] ++ error.span.excerpt text

mutual

/-- **The text of a failure.** -/
def message : Failure → Text
  | source error => error.message
  | table error => error.message
  | path error => error.message
  | script error => error.message
  | document => utf8 "malformed document"
  | noTable => utf8 "no opcode table given (use -c)"
  | plain text => text
  | wrapped task cause => task ++ utf8 ": " ++ message cause
  | load name cause => name ++ utf8 ": " ++ message cause
  | loadUncaused name => name ++ utf8 ": <nil>"
  | inFile name text error => sourceMessage name text error
  | joined parts => Text.join [Text.newline] (messages parts)

/-- The texts of several failures. -/
def messages : List Failure → List Text
  | [] => []
  | part :: parts => message part :: messages parts

end

/-- A cause of a failure. -/
inductive Leaf where
  | source (error : SourceError)
  | table (error : TableError)
  | other
  deriving DecidableEq, Repr

mutual

/-- The causes of a failure, from left to right. -/
def leaves : Failure → List Leaf
  | source error => [.source error]
  | table error => [.table error]
  | script (.definition error) => [.table error]
  | wrapped _ cause => leaves cause
  | load _ cause => leaves cause
  | inFile _ _ error => [.source error]
  | joined parts => leavesOf parts
  | _ => [.other]

/-- The causes of several failures, from left to right. -/
def leavesOf : List Failure → List Leaf
  | [] => []
  | part :: parts => leaves part ++ leavesOf parts

end

end Failure

end TableAssembler
