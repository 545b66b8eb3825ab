/-
**File trees.**

A file tree holds files by their places.  Two kinds of readers look into a tree: one that takes
rooted paths only, as for a bundle of files, and one that walks any path, from the root or from a
working directory, as programs do.  To the second kind the tree is a store of files.

Main definitions:

* `FileTree` — a file tree;
* `FileTree.readRooted` — the file at a rooted path of a bundle;
* `FileTree.walk`, `FileTree.locate`, `FileTree.read` — where a path leads, and the file there;
* `FileTree.target`, `FileTree.write` — the place that writing to a path changes, and the tree with
  one file replaced or made;
* `FileTree.store` — **file trees as a store**.
-/

import TableAssembler.File.Store

set_option relaxedAutoImplicit false
set_option autoImplicit false

namespace TableAssembler

open Text (utf8)

/-- A file tree.  Places are given from its root, one component after the other. -/
structure FileTree where
  files : List (List Text × Text) := []
  /-- Directories that are there whether or not a file lies below them. -/
  directories : List (List Text) := []
  /-- The working directory. -/
  start : List Text := []
  deriving DecidableEq, Repr

namespace FileTree

/-- The content of the file at a place. -/
def file? (tree : FileTree) (place : List Text) : Option Text :=
  (tree.files.find? fun entry => entry.1 = place).map Prod.snd

/-- Whether a place is a directory: the working directory and those that are listed are, and so is
every place above them or above a file. -/
def isDirectory (tree : FileTree) (place : List Text) : Bool :=
  (tree.start :: tree.directories).any place.isPrefixOf ||
    tree.files.any fun entry => place.isPrefixOf entry.1 && entry.1 ≠ place

/-! ### Bundles -/

/-- The file at a rooted path. -/
def readRooted (tree : FileTree) (path : Text) : Except PathError Text :=
  if Path.isRooted path = false then .error ⟨utf8 "open", path, .notExist⟩
  else
    match tree.file? (Path.components path) with
    | some content => .ok content
    | none =>
        if path = Path.here ∨ tree.isDirectory (Path.components path) then
          .error ⟨utf8 "read", path, .invalid⟩
        else .error ⟨utf8 "open", path, .notExist⟩

/-! ### Walking -/

/-- Where a path can lead. -/
inductive Node where
  | file (place : List Text) (content : Text)
  | directory (place : List Text)
  deriving DecidableEq, Repr

/-- Follows components from a directory.  The directory above the root is the root. -/
def walk (tree : FileTree) (place : List Text) : List Text → Except PathFault Node
  | [] => .ok (.directory place)
  | part :: rest =>
      if part = [] ∨ part = Path.here then tree.walk place rest
      else if part = Path.above then tree.walk place.dropLast rest
      else if 255 < part.length then .error .nameTooLong
      else
        match tree.file? (place ++ [part]) with
        | some content =>
            if rest = [] then .ok (.file (place ++ [part]) content) else .error .notDirectory
        | none =>
            if tree.isDirectory (place ++ [part]) then tree.walk (place ++ [part]) rest
            else .error .noEntry

/-- What is wrong with a path as such. -/
def pathFault? (path : Text) : Option PathFault :=
  if path.contains 0 then some .invalid
  else if path = [] then some .noEntry
  else if 4096 ≤ path.length then some .nameTooLong
  else none

/-- The directory that a path is followed from. -/
def origin (tree : FileTree) (path : Text) : List Text :=
  if Path.isAbsolute path then [] else tree.start

/-- Where a path leads. -/
def locate (tree : FileTree) (path : Text) : Except PathFault Node :=
  match pathFault? path with
  | some fault => .error fault
  | none => tree.walk (tree.origin path) (Path.components path)

/-- The place of the file that a path leads to. -/
def place? (tree : FileTree) (path : Text) : Option (List Text) :=
  match tree.locate path with
  | .ok (.file place _) => some place
  | _ => none

/-- **The file at a path**; `shown` is the path that errors name. -/
def read (tree : FileTree) (path shown : Text) : Except PathError Text :=
  match tree.locate path with
  | .error fault => .error ⟨utf8 "open", shown, fault⟩
  | .ok (.file _ content) => .ok content
  | .ok (.directory _) => .error ⟨utf8 "read", shown, .isDirectory⟩

/-! ### Writing -/

/-- The tree with the file at a place replaced or made. -/
def put (tree : FileTree) (place : List Text) (content : Text) : FileTree :=
  { tree with files := tree.files.filter (fun entry => entry.1 ≠ place) ++ [(place, content)] }

/-- The place of the file called `name` in a directory, if it can be written. -/
def targetIn (tree : FileTree) (name : Text) : Node → Except PathFault (List Text)
  | .file _ _ => .error .notDirectory
  | .directory place =>
      if name = Path.here ∨ name = Path.above then .error .isDirectory
      else if 255 < name.length then .error .nameTooLong
      else if tree.isDirectory (place ++ [name]) then .error .isDirectory
      else .ok (place ++ [name])

/-- The place that writing to a path changes: the directory of the file has to be there, and a name
with a slash behind it means a directory, which cannot be written. -/
def target (tree : FileTree) (path : Text) : Except PathFault (List Text) := do
  if let some fault := pathFault? path then throw fault
  let backwards := (Path.components path).reverse.dropWhile (· = [])
  let node ← tree.walk (tree.origin path) backwards.tail.reverse
  let name := if path.getLast? = some Path.slash then Path.here else backwards.head?.getD []
  tree.targetIn name node

/-- **Writes a file.** -/
def write (tree : FileTree) (path content : Text) : Except PathError FileTree :=
  match tree.target path with
  | .error fault => .error ⟨utf8 "open", path, fault⟩
  | .ok place => .ok (tree.put place content)

/-- **File trees as a store**: a file is its place. -/
def store : Store where
  State := FileTree
  File := List Text
  file? := place?
  content? := file?
  read := read
  write := write

end FileTree

end TableAssembler
