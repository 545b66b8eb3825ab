/-
**Tokens.**

A token is a lexical element of assembly source: its class, its text, its place, and for a number
the base that its beginning announces.

Main definitions:

* `TokenKind`, `TokenKind.name` — the lexical classes, and their names in messages;
* `Token` — a token;
* `Token.name` — the text of a token, without the colon of a label;
* `numberBase` — the base that a number literal announces.
-/

import TableAssembler.Span

set_option relaxedAutoImplicit false
set_option autoImplicit false

namespace TableAssembler

open Text (utf8)

/-- The lexical class of a token.  Tokens made by hand may bear a class code that means nothing. -/
inductive TokenKind where
  | label
  | mnemonic
  | directive
  | number
  | identifier
  | comma
  | comment
  | newline
  | endOfInput
  | unknown (code : Int)
  deriving DecidableEq, Repr, Inhabited

namespace TokenKind

/-- The class of a class code. -/
def ofCode : Int → TokenKind
  | 0 => label
  | 1 => mnemonic
  | 2 => directive
  | 3 => number
  | 4 => identifier
  | 5 => comma
  | 6 => comment
  | 7 => newline
  | 8 => endOfInput
  | code => unknown code

/-- The code of a class. -/
def code : TokenKind → Int
  | label => 0
  | mnemonic => 1
  | directive => 2
  | number => 3
  | identifier => 4
  | comma => 5
  | comment => 6
  | newline => 7
  | endOfInput => 8
  | unknown code => code

/-- The name of a class in messages. -/
def name : TokenKind → Text
  | label => utf8 "label"
  | mnemonic => utf8 "mnemonic"
  | directive => utf8 "directive"
  | number => utf8 "number"
  | identifier => utf8 "identifier"
  | comma => utf8 "comma"
  | comment => utf8 "comment"
  | newline => utf8 "newline"
  | endOfInput => utf8 "end of input"
  | unknown code => utf8 "TokenKind(" ++ Text.decimal code ++ utf8 ")"

/-- The names of several classes in the form `a, b or c`. -/
def describe (kinds : List TokenKind) : Text :=
  match kinds.map name |>.reverse with
  | [] => []
  | [only] => only
  | last :: before => Text.join (utf8 ", ") before.reverse ++ utf8 " or " ++ last

end TokenKind

/-- A token: its class, its text in the source, its place, and the base of a number (zero if the
text itself has to tell). -/
structure Token where
  kind : TokenKind := .label
  text : Text := []
  span : Span := {}
  base : Int := 0
  deriving DecidableEq, Repr, Inhabited

/-- The base that a number literal announces: sixteen, two or eight by its first two characters,
and ten otherwise. -/
def numberBase (text : Text) : Int :=
  match text with
  | zero :: mark :: _ =>
      if zero ≠ Text.byte '0' then 10
      else if mark = Text.byte 'x' ∨ mark = Text.byte 'X' then 16
      else if mark = Text.byte 'b' ∨ mark = Text.byte 'B' then 2
      else if mark = Text.byte 'o' ∨ mark = Text.byte 'O' then 8
      else 10
  | _ => 10

/-- The text of a token; a label loses its colon. -/
def Token.name (token : Token) : Text :=
  if token.kind = .label then Text.dropTail token.text (utf8 ":") else token.text

end TableAssembler
