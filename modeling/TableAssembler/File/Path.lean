/-
**Paths.**

A path is a text whose components are separated by slashes.

Main definitions:

* `Path.components` — the pieces between the slashes;
* `Path.extension`, `Path.base`, `Path.directory` — the ending of a path from its last dot, its
  last component, and the path without that component;
* `Path.clean`, `Path.join` — the shortest path that means the same, and the path of a file in a
  directory;
* `Path.isRooted` — whether a path names a file below a root and nothing else.
-/

import TableAssembler.Text.Basic

set_option relaxedAutoImplicit false
set_option autoImplicit false

namespace TableAssembler

open Text (utf8)

namespace Path

/-- The separator of components. -/
def slash : UInt8 := Text.byte '/'

/-- The path that means the directory it starts from. -/
def here : Text := utf8 "."

/-- The path that means the directory above. -/
def above : Text := utf8 ".."

/-- The pieces of a path between its slashes; there is always at least one. -/
def components (path : Text) : List Text := path.splitOn slash

/-- The path of a list of components. -/
def ofComponents (parts : List Text) : Text := Text.join [slash] parts

/-- Whether a path starts at the root. -/
def isAbsolute (path : Text) : Bool := path.head? = some slash

/-! ### Parts of a path -/

/-- The part of a path after its last slash. -/
def afterLastSlash (path : Text) : Text :=
  (path.reverse.takeWhile (· != slash)).reverse

/-- The part of a path up to and including its last slash. -/
def throughLastSlash (path : Text) : Text :=
  (path.reverse.dropWhile (· != slash)).reverse

/-- The ending of a path from the last dot of its last component; nothing if that has no dot. -/
def extension (path : Text) : Text :=
  let last := (afterLastSlash path).reverse
  if last.contains (Text.byte '.') then
    Text.byte '.' :: (last.takeWhile (· != Text.byte '.')).reverse
  else []

/-- The last component of a path, slashes at its end apart. -/
def base (path : Text) : Text :=
  if path = [] then here
  else
    match (path.reverse.dropWhile (· = slash)).reverse with
    | [] => [slash]
    | trimmed => afterLastSlash trimmed

/-! ### Cleaning -/

/-- Adds a component to a cleaned path, whose components are given backwards: a step up removes
one, unless there is none to remove. -/
def addComponent (absolute : Bool) (done : List Text) (part : Text) : List Text :=
  if part = [] ∨ part = here then done
  else if part = above then
    match done with
    | [] => if absolute then [] else [above]
    | last :: rest => if last = above then above :: last :: rest else rest
  else part :: done

/-- The shortest path that means the same. -/
def clean (path : Text) : Text :=
  let absolute := isAbsolute path
  let parts := ((components path).foldl (addComponent absolute) []).reverse
  match absolute, parts with
  | true, parts => slash :: ofComponents parts
  | false, [] => here
  | false, parts => ofComponents parts

/-- The path without its last component, cleaned. -/
def directory (path : Text) : Text := clean (throughLastSlash path)

/-- The path of a file in a directory. -/
def join (directory name : Text) : Text :=
  if directory.getLast? = some slash then directory ++ name else directory ++ [slash] ++ name

/-! ### Rooted paths -/

/-- Whether a path names a file below a root and nothing else: UTF-8, with no empty component and
no step to the same directory or above, the root itself apart. -/
def isRooted (path : Text) : Bool :=
  Text.isUtf8 path &&
    (path = here || (components path).all fun part => part ≠ [] && part ≠ here && part ≠ above)

end Path

end TableAssembler
