/-
**What the lines of a TOML document say.**

The lines of a document build up a tree of tables.  A header opens a table, making the tables above
it as needed; an assignment sets a value in the open table, dotted keys making tables on the way.
A table made on the way is *implicit*: it may still get a header of its own, once.  Anything else
that is set twice is refused, with one exception: an array gives way to a later value.

Beside the tree, the keys of the document are kept in the order in which they appear.

Main definitions:

* `Toml.Node` — the tree;
* `Toml.Builder` — the tree and the keys so far, with what is needed to judge the next line;
* `Toml.Builder.openTable`, `Toml.Builder.set` — a header, and a value;
* `Toml.Document`, `Toml.document?` — **the tree and the keys of a document**;
* `Toml.renderKey` — a key in print.
-/

import TableAssembler.Toml.Reader
import TableAssembler.Text.Numeral

set_option relaxedAutoImplicit false
set_option autoImplicit false

namespace TableAssembler

namespace Toml

/-- A value of a document. -/
inductive Node where
  | string (value : List Char)
  | scalar (value : Scalar)
  | array (items : List Node)
  | table (members : List (List Char × Node))
  /-- An array of tables whose elements have headers. -/
  | tables (elements : List (List (List Char × Node)))

/-- The members of a table, in the order in which they were made. -/
abbrev Members := List (List Char × Node)

/-! ### Members -/

/-- The member with a name. -/
def member? (members : Members) (name : List Char) : Option Node :=
  (members.find? fun member => member.1 = name).map Prod.snd

/-- The members with one replaced or added. -/
def setMember (members : Members) (name : List Char) (node : Node) : Members :=
  if (member? members name).isSome then
    members.map fun member => if member.1 = name then (name, node) else member
  else members ++ [(name, node)]

/-- The table that a path leads to; of an array of tables, the last element counts. -/
def tableAt? (members : Members) : Key → Option Members
  | [] => some members
  | name :: rest =>
      match member? members name with
      | some (.table inner) => tableAt? inner rest
      | some (.tables elements) => elements.getLast?.bind (tableAt? · rest)
      | _ => none

/-- The members with the table that a path leads to replaced. -/
def replaceTableAt (members : Members) (path : Key) (table : Members) : Members :=
  match path with
  | [] => table
  | name :: rest =>
      match member? members name with
      | some (.table inner) => setMember members name (.table (replaceTableAt inner rest table))
      | some (.tables elements) =>
          match elements.getLast? with
          | some last =>
              setMember members name
                (.tables (elements.dropLast ++ [replaceTableAt last rest table]))
          | none => members
      | _ => members

/-! ### Building -/

/-- The tree so far, the keys that are implicit tables, the keys whose value was an array when it
was written, and all keys in order. -/
structure Builder where
  root : Members := []
  implicit : List Key := []
  arrays : List Key := []
  keys : List Key := []

namespace Builder

/-- Marks a table as made on the way. -/
def addImplicit (builder : Builder) (key : Key) : Builder :=
  { builder with implicit := key :: builder.implicit }

/-- Marks a table as made for good. -/
def removeImplicit (builder : Builder) (key : Key) : Builder :=
  { builder with implicit := builder.implicit.filter (· ≠ key) }

/-- Adds a key to those of the document. -/
def addKey (builder : Builder) (key : Key) : Builder :=
  { builder with keys := builder.keys ++ [key] }

/-- Notes whether the value of a name was written as an array; without a name, the note is about
the table itself. -/
def noteArray (builder : Builder) (context : Key) (name : List Char) (isArray : Bool) : Builder :=
  let key := if name = [] then if context = [] then [[]] else context else context ++ [name]
  let others := builder.arrays.filter (· ≠ key)
  { builder with arrays := if isArray then key :: others else others }

/-- Sets a value in the table at `context`.  What is there already stays if it is an implicit
table, gives way if it was an array, and is an error otherwise. -/
def set (builder : Builder) (context : Key) (name : List Char) (node : Node) : Option Builder := do
  let table ← tableAt? builder.root context
  let key := context ++ [name]
  let replaced :=
    { builder with root := replaceTableAt builder.root context (setMember table name node) }
  if (member? table name).isNone then some replaced
  else if builder.arrays.contains key then some (replaced.removeImplicit key)
  else if builder.implicit.contains key then some (builder.removeImplicit key)
  else none

/-- Makes the tables above a key that are missing, from the table at `context` on. -/
def makeParents (builder : Builder) (context : Key) : Key → Option Builder
  | [] => some builder
  | name :: rest => do
      let table ← tableAt? builder.root context
      let key := context ++ [name]
      if (member? table name).isSome then builder.makeParents key rest
      else
        let root := replaceTableAt builder.root context (setMember table name (.table []))
        ({ builder with root := root }.addImplicit key).makeParents key rest

/-- Opens a table. -/
def openTable (builder : Builder) (key : Key) : Option Builder := do
  let builder ← builder.makeParents [] key.dropLast
  builder.set key.dropLast (key.getLast?.getD []) (.table [])

/-- Opens a new element of an array of tables. -/
def openElement (builder : Builder) (key : Key) : Option Builder := do
  let name := key.getLast?.getD []
  let builder ← builder.makeParents [] key.dropLast
  let table ← tableAt? builder.root key.dropLast
  let elements ← match member? table name with
    | none => some [[]]
    | some (.tables elements) => some (elements ++ [[]])
    | some _ => none
  let table := setMember table name (.tables elements)
  some { builder with root := replaceTableAt builder.root key.dropLast table }

/-- Opens the tables that a dotted key passes through, from the table at `context` on. -/
def openDotted (builder : Builder) (context : Key) : Key → Option Builder
  | [] => some builder
  | name :: rest => do
      let key := context ++ [name]
      let builder ← (builder.addImplicit key).openTable key
      builder.openDotted key rest

/-- The value of a dotted key within the tables that the key makes. -/
def nest (members : Members) (node : Node) : Key → Option Members
  | [] => none
  | [name] => some (setMember members name node)
  | name :: rest =>
      match member? members name with
      | none => (nest [] node rest).map fun inner => setMember members name (.table inner)
      | some (.table inner) =>
          (nest inner node rest).map fun inner => setMember members name (.table inner)
      | some _ => none

/-- Whether a value is written as an array. -/
def isArray : Literal → Bool
  | .array _ => true
  | _ => false

/-- Assigns to a dotted key in the table at `context` what `value` gives, which is told the table
and the name that the key leads to. -/
def assignWith (context : Key) (builder : Builder) (key : Key) (isArray : Bool)
    (value : Key → List Char → Builder → Option (Node × Builder)) : Option (Node × Builder) := do
  let name := key.getLast?.getD []
  let inner := context ++ key.dropLast
  let builder ← builder.openDotted context key.dropLast
  let (node, builder) ← value inner name (builder.addKey (inner ++ [name]))
  let builder ← builder.set inner name node
  some (node, builder.noteArray inner name isArray)

mutual

/-- The value of a literal that is assigned to `name` in the table at `context`.  A table in braces
opens a table there, or an element of an array of tables if it stands in an array. -/
def evaluate (context : Key) (name : List Char) (inArray : Bool) (builder : Builder) :
    Literal → Option (Node × Builder)
  | .string value => some (.string value, builder)
  | .scalar value => some (.scalar value, builder)
  | .array items =>
      (evaluateItems context name (builder.noteArray context name true) items).map
        fun (nodes, builder) => (.array nodes, builder)
  | .table members => do
      let key := context ++ [name]
      let builder := builder.addImplicit key
      let builder ← if inArray then builder.openElement key else builder.openTable key
      let (table, builder) ← assignAll key [] builder members
      some (.table table, builder)

/-- The values of the items of an array that is assigned to `name`. -/
def evaluateItems (context : Key) (name : List Char) (builder : Builder) :
    List Literal → Option (List Node × Builder)
  | [] => some ([], builder)
  | item :: items => do
      let (node, builder) ← evaluate context name true builder item
      let (nodes, builder) ← evaluateItems context name builder items
      some (node :: nodes, builder)

/-- Makes the assignments of a table in braces, and collects its members. -/
def assignAll (context : Key) (collected : Members) (builder : Builder) :
    List (Key × Literal) → Option (Members × Builder)
  | [] => some (collected, builder)
  | (key, value) :: rest => do
      let (node, builder) ← assignWith context builder key (isArray value) fun inner name builder =>
        evaluate inner name false builder value
      let collected ← nest collected node key
      assignAll context collected builder rest

end

/-- **Assigns a value to a dotted key** in the table at `context`. -/
def assign (context : Key) (builder : Builder) (key : Key) (value : Literal) : Option Builder :=
  (assignWith context builder key (isArray value) fun inner name builder =>
    evaluate inner name false builder value).map Prod.snd

/-- Adds a line to the document, `context` being the open table; the table that is open after it
comes with the result. -/
def addLine (context : Key) (builder : Builder) : Line → Option (Key × Builder)
  | .table key => do
      let builder ← builder.openTable key
      some (key, (builder.noteArray key [] false).addKey key)
  | .element key => do
      let builder ← builder.openElement key
      some (key, (builder.noteArray key [] false).addKey key)
  | .assign key value => do
      let builder ← assign context builder key value
      some (context, builder)

/-- Adds the lines of a document in turn. -/
def addLines (context : Key) (builder : Builder) : List Line → Option Builder
  | [] => some builder
  | line :: lines => do
      let (context, builder) ← addLine context builder line
      addLines context builder lines

end Builder

/-! ### Documents -/

/-- A document: its tables, and its keys in the order in which they appear. -/
structure Document where
  root : Members
  keys : List Key

/-- **The document of a text**, if it is one. -/
def document? (t : Text) : Option Document := do
  let builder ← Builder.addLines [] {} (← lines? t)
  some ⟨builder.root, builder.keys⟩

/-! ### Keys in print -/

/-- A character of a key in quotation marks. -/
def escapedKeyChar (c : Char) : List Char :=
  if c = '"' then ['\\', '"']
  else if c = '\\' then ['\\', '\\']
  else if c.toNat = 8 then ['\\', 'b']
  else if c = '\t' then ['\\', 't']
  else if c = '\n' then ['\\', 'n']
  else if c.toNat = 12 then ['\\', 'f']
  else if c = '\r' then ['\\', 'r']
  else if c.toNat < 0x20 ∨ c.toNat = 0x7F then
    ['\\', 'u'] ++ (Nat.toDigits 16 c.toNat).leftpad 4 '0'
  else [c]

/-- A part of a key, in quotation marks where it needs them. -/
def renderKeyPart (part : List Char) : List Char :=
  if part ≠ [] ∧ part.all isBareKey then part
  else '"' :: part.flatMap escapedKeyChar ++ ['"']

/-- A key in print. -/
def renderKey (key : Key) : Text := Text.ofChars (['.'].intercalate (key.map renderKeyPart))

end Toml

end TableAssembler
