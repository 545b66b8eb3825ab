/-
**From the text of a script to its tokens.**

Blocks are marked by indentation.  At the start of a line that is not blank, and not inside
brackets, the indentation is compared with that of the open blocks: a deeper one opens a block, a
shallower one closes blocks until it meets its equal.

Main definitions:

* `Script.Layout` — the open brackets and blocks;
* `Script.token?` — the token at the start of a text;
* `Script.tokens?` — **the tokens of a script**.
-/

import TableAssembler.Script.Token

set_option relaxedAutoImplicit false
set_option autoImplicit false

namespace TableAssembler

namespace Script

/-! ### Single tokens -/

/-- The marks, longest first. -/
def marks : List String :=
  ["<<=", ">>=", "//=", "<<", ">>", "//", "<=", ">=", "==", "!=", "+=", "-=", "*=", "/=", "%=",
    "&=", "|=", "^=", "**", "+", "-", "*", "/", "%", "&", "|", "^", "~", "<", ">", "=", ",", ":",
    ";", ".", "(", ")", "[", "]", "\x7b", "\x7d"]

/-- The mark at the start of a text, and the rest. -/
def mark? (cs : List Char) : Option (Token × List Char) :=
  (marks.find? fun mark => mark.toList.isPrefixOf cs).map fun mark =>
    (.mark mark, cs.drop mark.length)

/-- Whether a character opens a string. -/
def isStringMark (c : Char) : Bool := c = '"' || c = apostrophe

/-- Whether a text starts with a string mark. -/
def atString (cs : List Char) : Bool := cs.head?.any isStringMark

/-- **The token at the start of a text**, and the rest. -/
def token? (cs : List Char) : Option (Token × List Char) :=
  match cs with
  | [] => none
  | c :: rest =>
      if isStringMark c then stringLiteral? false false cs
      else if c = 'r' ∧ atString rest then stringLiteral? true false rest
      else if c = 'b' ∧ atString rest then stringLiteral? false true rest
      else if c = 'r' ∧ rest.head? = some 'b' ∧ atString (rest.drop 1) then
        stringLiteral? true true (rest.drop 1)
      else if isNameStart c then
        (word? (cs.takeWhile isNamePart)).map fun token => (token, cs.dropWhile isNamePart)
      else if c.isDigit ∨ (c = '.' ∧ rest.head?.any Char.isDigit) then number? cs
      else mark? cs

/-! ### Lines and blocks -/

/-- The number of open brackets, and the indentations of the open blocks, innermost first. -/
structure Layout where
  depth : Nat := 0
  blocks : List Nat := [0]

/-- The layout after a token; a bracket that closes nothing is an error. -/
def Layout.pass? (layout : Layout) : Token → Option Layout
  | .mark symbol =>
      if ["(", "[", "\x7b"].contains symbol then some { layout with depth := layout.depth + 1 }
      else if [")", "]", "\x7d"].contains symbol then
        if layout.depth = 0 then none else some { layout with depth := layout.depth - 1 }
      else some layout
  | _ => some layout

/-- The width of the indentation of a line, a tab reaching beyond the next multiple of eight
characters, and the rest. -/
def indentation : (column width : Nat) → List Char → Nat × List Char
  | column, width, ' ' :: rest => indentation (column + 1) (width + 1) rest
  | column, width, '\t' :: rest => indentation (column + 1) (width + (8 - column % 8)) rest
  | _, width, cs => (width, cs)

/-- The character that ends a script wherever a token could start. -/
def null : Char := Char.ofNat 0

/-- Whether a script ends here. -/
def atEnd (cs : List Char) : Bool := cs.head?.all (· = null)

/-- The rest of a text after blanks and a comment. -/
def skipBlanks (cs : List Char) : List Char :=
  let rest := cs.dropWhile fun c => c = ' ' || c = '\t'
  if rest.head? = some '#' then rest.dropWhile fun c => c ≠ '\n' && c ≠ null else rest

/-- Closes blocks down to an indentation, which one of them must have. -/
def closeBlocks? (width : Nat) : List Nat → Option (List Token × List Nat)
  | [] => none
  | block :: outer =>
      if block = width then some ([], block :: outer)
      else if width < block then
        (closeBlocks? width outer).map fun (tokens, blocks) => (.outdent :: tokens, blocks)
      else none

/-- Opens or closes blocks for a line with an indentation. -/
def Layout.indent? (layout : Layout) (width : Nat) : Option (List Token × Layout) :=
  match layout.blocks with
  | block :: _ =>
      if block < width then
        some ([.indent], { layout with blocks := width :: layout.blocks })
      else
        (closeBlocks? width layout.blocks).map fun (tokens, blocks) =>
          (tokens, { layout with blocks := blocks })
  | [] => none

/-- The tokens that close all blocks at the end of a text. -/
def Layout.closing (layout : Layout) (atLineStart : Bool) : List Token :=
  let outdents := List.replicate (layout.blocks.length - 1) Token.outdent
  if outdents.isEmpty || atLineStart then outdents else .newline :: outdents

/-- Whether a text has nothing more to say on its line. -/
def isBlankLine (cs : List Char) : Bool :=
  atEnd cs || cs.head? = some '#' || cs.head? = some '\n'

/-- The tokens from a place on, which is the start of a line or lies within one; `isBlank` says that
the line has had no token so far. -/
def tokensFrom? : Nat → Layout → (atLineStart isBlank : Bool) → List Char → Option (List Token)
  | 0, _, _, _, _ => none
  | fuel + 1, layout, true, _, cs =>
      let (width, rest) := indentation 0 0 cs
      let isBlank := isBlankLine rest
      if isBlank || 0 < layout.depth then
        if atEnd rest then some (layout.closing true)
        else tokensFrom? fuel layout false isBlank rest
      else do
        let (tokens, layout) ← layout.indent? width
        (tokensFrom? fuel layout false false rest).map (tokens ++ ·)
  | fuel + 1, layout, false, isBlank, cs =>
      match skipBlanks cs with
      | '\n' :: rest =>
          if 0 < layout.depth || isBlank then tokensFrom? fuel layout true false rest
          else (tokensFrom? fuel layout true false rest).map (Token.newline :: ·)
      | '\\' :: '\n' :: rest => tokensFrom? fuel layout false false rest
      | cs =>
          if atEnd cs then some (layout.closing isBlank)
          else do
            let (token, rest) ← token? cs
            let layout ← layout.pass? token
            (tokensFrom? fuel layout false false rest).map (token :: ·)

/-- The characters of a script: line breaks of all kinds are newlines. -/
def normalizeBreaks : List Char → List Char
  | '\r' :: '\n' :: rest => '\n' :: normalizeBreaks rest
  | '\r' :: rest => '\n' :: normalizeBreaks rest
  | c :: rest => c :: normalizeBreaks rest
  | [] => []

/-- **The tokens of a script.** -/
def tokens? (t : Text) : Option (List Token) :=
  let cs := normalizeBreaks (Text.chars t)
  tokensFrom? (2 * cs.length + 2) {} true false cs

end Script

end TableAssembler
