/-
**From the text of a TOML document to its lines.**

A document is a sequence of headers and of assignments.  This module reads them as they are written;
what they say together is the matter of `TableAssembler.Toml.Document`.

Main definitions:

* `Toml.Key` — a dotted key;
* `Toml.Literal` — a value as it is written;
* `Toml.Line` — a header or an assignment;
* `Toml.value?` — the value at the start of a text;
* `Toml.lines?` — **the lines of a document**.
-/

import TableAssembler.Toml.Quoted

set_option relaxedAutoImplicit false
set_option autoImplicit false

namespace TableAssembler

namespace Toml

/-- A dotted key, part by part. -/
abbrev Key := List (List Char)

/-- A value as it is written. -/
inductive Literal where
  | string (value : List Char)
  | scalar (value : Scalar)
  | array (items : List Literal)
  /-- A table in braces, with its assignments. -/
  | table (members : List (Key × Literal))

/-- A line of a document. -/
inductive Line where
  /-- The header of a table. -/
  | table (key : Key)
  /-- The header of an element of an array of tables. -/
  | element (key : Key)
  | assign (key : Key) (value : Literal)

/-! ### Blanks and comments -/

/-- Blanks within a line. -/
def isBlank (c : Char) : Bool := c = ' ' || c = '\t'

/-- Line breaks. -/
def isBreak (c : Char) : Bool := c = '\n' || c = '\r'

/-- The rest of a text after blanks. -/
def skipBlanks (cs : List Char) : List Char := cs.dropWhile isBlank

/-- The rest of a text after blanks, line breaks and comments; `inComment` says that a comment is
being passed over. -/
def skipLines (inComment : Bool) : List Char → List Char
  | [] => []
  | c :: rest =>
      if isBreak c then skipLines false rest
      else if inComment = true ∨ c = '#' then skipLines true rest
      else if isBlank c then skipLines false rest
      else c :: rest

/-- The rest of a text after the end of a line, which only blanks and a comment may precede. -/
def endOfLine? (cs : List Char) : Option (List Char) :=
  let rest := skipBlanks cs
  match rest with
  | [] => some []
  | c :: _ => if c = '#' ∨ isBreak c then some (skipLines false rest) else none

/-! ### Keys -/

/-- The characters of a key without quotation marks. -/
def isBareKey (c : Char) : Bool := c.isAlphanum || c = '_' || c = '-'

/-- A part of a key, and the rest. -/
def keyPart? (cs : List Char) : Option (List Char × List Char) :=
  match cs with
  | [] => none
  | c :: rest =>
      if c = '"' then basicString? rest
      else if c = apostrophe then literalString? rest
      else if isBareKey c then some (cs.takeWhile isBareKey, cs.dropWhile isBareKey)
      else none

/-- A dotted key up to the character `final`, and the rest after it. -/
def key? (final : Char) : Nat → List Char → Option (Key × List Char)
  | 0, _ => none
  | fuel + 1, cs => do
      let (part, rest) ← keyPart? (skipBlanks cs)
      match skipBlanks rest with
      | [] => none
      | c :: more =>
          if c = final then some ([part], more)
          else if c = '.' then
            let (parts, after) ← key? final fuel more
            some (part :: parts, after)
          else none

/-! ### Values -/

/-- A string or another scalar, and the rest. -/
def atom? (cs : List Char) : Option (Literal × List Char) :=
  match quotedString? cs with
  | some (value, rest) => some (.string value, rest)
  | none => (scalar? cs).map fun (value, rest) => (.scalar value, rest)

mutual

/-- The value at the start of a text, and the rest. -/
def value? : Nat → List Char → Option (Literal × List Char)
  | 0, _ => none
  | fuel + 1, cs =>
      match skipBlanks cs with
      | '[' :: rest => (items? fuel rest).map fun (items, after) => (.array items, after)
      | '\x7b' :: rest =>
          match skipBlanks rest with
          | '\x7d' :: after => some (.table [], after)
          | inner => (members? fuel inner).map fun (members, after) => (.table members, after)
      | cs => atom? cs

/-- The items of an array up to its closing bracket, and the rest. -/
def items? : Nat → List Char → Option (List Literal × List Char)
  | 0, _ => none
  | fuel + 1, cs =>
      match skipLines false cs with
      | ']' :: rest => some ([], rest)
      | cs => do
          let (item, rest) ← value? fuel cs
          match skipLines false rest with
          | ']' :: after => some ([item], after)
          | ',' :: more =>
              let (items, after) ← items? fuel more
              some (item :: items, after)
          | _ => none

/-- The assignments of a table in braces up to its closing brace, and the rest: there is at least
one, and no comma follows the last. -/
def members? : Nat → List Char → Option (List (Key × Literal) × List Char)
  | 0, _ => none
  | fuel + 1, cs => do
      let (key, rest) ← key? '=' fuel cs
      let (value, rest) ← value? fuel rest
      match skipBlanks rest with
      | '\x7d' :: after => some ([(key, value)], after)
      | ',' :: more =>
          let (members, after) ← members? fuel more
          some ((key, value) :: members, after)
      | _ => none

end

/-! ### Lines -/

/-- A header or an assignment, and the rest after the end of its line. -/
def line? (fuel : Nat) (cs : List Char) : Option (Line × List Char) := do
  match cs with
  | '[' :: '[' :: rest =>
      let (key, rest) ← key? ']' fuel rest
      let rest ← after? ']' rest
      some (.element key, ← endOfLine? rest)
  | '[' :: rest =>
      let (key, rest) ← key? ']' fuel rest
      some (.table key, ← endOfLine? rest)
  | _ =>
      let (key, rest) ← key? '=' fuel cs
      let (value, rest) ← value? fuel rest
      some (.assign key value, ← endOfLine? rest)

/-- The lines of a text that starts at a line. -/
def linesFrom? : Nat → List Char → Option (List Line)
  | 0, _ => none
  | fuel + 1, cs =>
      match skipLines false cs with
      | [] => some []
      | cs => do
          let (line, rest) ← line? (cs.length + 1) cs
          (linesFrom? fuel rest).map (line :: ·)

/-- Whether a text holds no control character but tabs and line breaks, and no carriage return but
before a newline. -/
def isPlain : List Char → Bool
  | [] => true
  | '\r' :: rest => rest.head? = some '\n' && isPlain rest
  | c :: rest => (c = '\t' || c = '\n' || (0x20 ≤ c.toNat && c.toNat ≠ 0x7F)) && isPlain rest

/-- A text without a byte order mark. -/
def dropByteOrderMark : Text → Text
  | 0xFF :: 0xFE :: rest => rest
  | 0xFE :: 0xFF :: rest => rest
  | 0xEF :: 0xBB :: 0xBF :: rest => rest
  | t => t

/-- **The lines of a document.** -/
def lines? (t : Text) : Option (List Line) :=
  let t := dropByteOrderMark t
  let cs := Text.chars t
  if Text.isUtf8 t && isPlain cs then linesFrom? (cs.length + 1) cs else none

end Toml

end TableAssembler
