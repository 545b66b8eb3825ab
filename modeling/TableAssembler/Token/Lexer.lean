/-
**From a source text to its tokens.**

Blanks separate tokens and are dropped.  At any other byte the longest token that can start there
is taken; if none can, the rune there is an error and the last item.  A name is a mnemonic as long
as its line has shown no mnemonic, directive or number; after that it is an identifier.

Main definitions:

* `Position`, `Position.pass` — a place in a text, and the place after some more bytes;
* `Lexer.lexeme?` — the class and the length of the token at the start of a text;
* `tokenize` — **the tokens of a source**, ended by an end-of-input token or by an error.

Main results:

* `Lexer.lexeme?_pos` — a token takes at least one byte, so that scanning ends.
-/

import TableAssembler.Error.Source
import TableAssembler.Text.Name

set_option relaxedAutoImplicit false
set_option autoImplicit false

namespace TableAssembler

/-! ### Positions -/

/-- A place in a text: a byte offset, and line and column counted from one. -/
structure Position where
  offset : Nat := 0
  line : Nat := 1
  column : Nat := 1
  deriving DecidableEq, Repr

namespace Position

/-- The place after a rune, as far as line and column go. -/
def passRune (position : Position) (rune : Rune) : Position :=
  if rune = .scalar '\n' then { position with line := position.line + 1, column := 1 }
  else { position with column := position.column + 1 }

/-- The place after some more bytes. -/
def pass (position : Position) (t : Text) : Position :=
  { (Text.runes t).foldl passRune position with offset := position.offset + t.length }

/-- The span of `length` bytes from a place on. -/
def span (position : Position) (length : Nat) : Span where
  start := position.offset
  stop := position.offset + length
  line := position.line
  column := position.column

@[simp] theorem pass_offset (position : Position) (t : Text) :
    (position.pass t).offset = position.offset + t.length := rfl

end Position

namespace Lexer

/-! ### Lexemes -/

/-- Bytes that separate tokens and mean nothing: space, tab and carriage return. -/
def isBlank (c : UInt8) : Bool := c = Text.byte ' ' || c = Text.byte '\t' || c = Text.byte '\r'

/-- The class and the length of a name that starts with one byte before `rest`. -/
def nameLexeme (fresh : Bool) (rest : Text) : TokenKind × Nat :=
  let length := 1 + (rest.takeWhile Text.isNamePart).length
  if (rest.dropWhile Text.isNamePart).head? = some (Text.byte ':') then (.label, length + 1)
  else if fresh then (.mnemonic, length)
  else (.identifier, length)

/-- **The class and the length of the token at the start of a text** that starts with no blank;
`fresh` says that a name there would be a mnemonic.  There is none where no token can start, and
at the end. -/
def lexeme? (fresh : Bool) : Text → Option (TokenKind × Nat)
  | [] => none
  | c :: rest =>
      if c = Text.newline then some (.newline, 1)
      else if c = Text.byte ',' then some (.comma, 1)
      else if c = Text.byte '/' ∧ rest.head? = some (Text.byte '/') then
        some (.comment, 1 + (rest.takeWhile (· != Text.newline)).length)
      else if Text.isNameStart c then some (nameLexeme fresh rest)
      else if c = Text.byte '.' ∧ rest.head?.any Text.isNameStart then
        some (.directive, 1 + (rest.takeWhile Text.isNamePart).length)
      else if Text.isDigit c then some (.number, 1 + (rest.takeWhile Text.isNamePart).length)
      else none

/-- Whether a name would be a mnemonic after a token of class `kind`. -/
def freshAfter (kind : TokenKind) (fresh : Bool) : Bool :=
  match kind with
  | .newline => true
  | .mnemonic | .directive | .number => false
  | _ => fresh

/-- A token takes at least one byte. -/
theorem lexeme?_pos {fresh : Bool} {t : Text} {kind : TokenKind} {n : Nat}
    (h : lexeme? fresh t = some (kind, n)) : 0 < n := by
  cases t with
  | nil => simp [lexeme?] at h
  | cons c rest =>
      simp only [lexeme?, nameLexeme] at h
      repeat' split at h
      all_goals simp only [Option.some.injEq, Prod.mk.injEq, reduceCtorEq] at h
      all_goals omega

/-! ### Scanning -/

/-- The token of class `kind` that `text` makes at a place. -/
def tokenAt (position : Position) (kind : TokenKind) (text : Text) : Token where
  kind := kind
  text := text
  span := position.span text.length
  base := if kind = .number then numberBase text else 0

/-- The error at a place where no token can start. -/
def errorAt (position : Position) (c : UInt8) (rest : Text) : SourceError :=
  let rune := Text.firstRune c rest
  .unexpectedCharacter (position.span rune.2) rune.1.char.toNat

/-- What follows a token is shorter than the text before it. -/
theorem length_drop_lt {text rest : Text} {c : UInt8} {n : Nat}
    (h : text.dropWhile isBlank = c :: rest) (hpos : 0 < n) :
    ((c :: rest).drop n).length < text.length := by
  have hle : (text.dropWhile isBlank).length ≤ text.length :=
    (List.dropWhile_suffix isBlank).length_le
  rw [h, List.length_cons] at hle
  rw [List.length_drop, List.length_cons]
  omega

/-- The tokens of a text from a place on. -/
def scan (fresh : Bool) (position : Position) (text : Text) : List (Except SourceError Token) :=
  let here := position.pass (text.takeWhile isBlank)
  match h : text.dropWhile isBlank with
  | [] => [.ok (tokenAt here .endOfInput [])]
  | c :: rest =>
      match hlex : lexeme? fresh (c :: rest) with
      | none => [.error (errorAt here c rest)]
      | some (kind, n) =>
          have _ := length_drop_lt h (lexeme?_pos hlex)
          let lexeme := (c :: rest).take n
          .ok (tokenAt here kind lexeme) ::
            scan (freshAfter kind fresh) (here.pass lexeme) ((c :: rest).drop n)
termination_by text.length
decreasing_by assumption

end Lexer

/-- **The tokens of a source**: the last item is the end of input or the only error. -/
def tokenize (source : Text) : List (Except SourceError Token) := Lexer.scan true {} source

end TableAssembler
