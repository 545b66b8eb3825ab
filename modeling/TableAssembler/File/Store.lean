/-
**Stores of files.**

A store is what programs see of the files of a machine: paths lead to files, files hold texts, and
both reading and writing may be refused.  How paths lead to files is left open; what reading and
writing have to do with what files hold is said by the laws of stores.

Main definitions:

* `Store` — a store of files;
* `Store.readIn` — the file with a rooted path in a directory;
* `Store.Wrote` — **a state in which one file was written**, and nothing else;
* `Store.Lawful` — **the laws of stores**;
* `Store.SingleNamed` — stores in which a file has one name only.
-/

import TableAssembler.Error.Failure
import TableAssembler.File.Path

set_option relaxedAutoImplicit false
set_option autoImplicit false

namespace TableAssembler

open Text (utf8)

/-- A store of files. -/
structure Store where
  /-- All that is stored at some time. -/
  State : Type
  /-- What a file is, whatever it holds and whichever paths lead to it. -/
  File : Type
  /-- The file that a path leads to. -/
  file? : State → Text → Option File
  /-- The text that a file holds, if it is there. -/
  content? : State → File → Option Text
  /-- Reads the file at a path, which errors call `shown`. -/
  read (state : State) (path shown : Text) : Except PathError Text
  /-- Writes a text to the file at a path, which is made if it is not there. -/
  write (state : State) (path content : Text) : Except PathError State

namespace Store

/-- Reads the file with a rooted path `name` in a directory. -/
def readIn (store : Store) (state : store.State) (directory name : Text) : Except PathError Text :=
  if Path.isRooted name = false ∨ name.contains 0 then .error ⟨utf8 "readfile", name, .invalid⟩
  else store.read state (Path.join directory name) name

/-! ### Laws -/

/-- **A state in which one file was written**: the path leads to it and it holds the text, every
other file holds what it held or still is not there, and every path that led to a file leads to the
same one. -/
structure Wrote (store : Store) (state : store.State) (path : Text) (file : store.File)
    (content : Text) (after : store.State) : Prop where
  leads : store.file? after path = some file
  holds : store.content? after file = some content
  others : ∀ other, other ≠ file → store.content? after other = store.content? state other
  paths : ∀ other found, store.file? state other = some found →
    store.file? after other = some found

/-- **The laws of stores**: reading gives what the file at the path holds, and writing writes one
file. -/
structure Lawful (store : Store) : Prop where
  read_eq_ok_iff : ∀ {state : store.State} {path shown text : Text},
    store.read state path shown = .ok text ↔
      ∃ file, store.file? state path = some file ∧ store.content? state file = some text
  exists_wrote : ∀ {state after : store.State} {path content : Text},
    store.write state path content = .ok after → ∃ file, store.Wrote state path file content after

/-- A store in which a file has one name only: there are no links, and all paths that lead to a file
end with the same component. -/
def SingleNamed (store : Store) : Prop :=
  ∀ (state : store.State) (path other : Text) (file : store.File),
    store.file? state path = some file → store.file? state other = some file →
      Path.afterLastSlash path = Path.afterLastSlash other

end Store

end TableAssembler
