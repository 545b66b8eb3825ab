/-
**Why a source is refused.**

Each cause of a refusal bears the place in the source where it lies, and the data that its message
shows.

Main definitions:

* `SourceError` — the causes;
* `SourceError.span` — the place of a cause;
* `SourceError.message` — its text.
-/

import TableAssembler.Token.Number
import TableAssembler.Opcode.Kind

set_option relaxedAutoImplicit false
set_option autoImplicit false

namespace TableAssembler

open Text (utf8)

/-- Why a source is refused, and where. -/
inductive SourceError where
  /-- A character that starts no token. -/
  | unexpectedCharacter (span : Span) (char : Int)
  /-- A token where the grammar allows only those of `expected`. -/
  | unexpected (span : Span) (found : Token) (expected : List TokenKind)
  /-- The source ends within a statement; `span` is that of the last token. -/
  | unexpectedEnd (span : Span) (expected : List TokenKind)
  /-- A mnemonic that the opcode table lacks, or a directive that there is not. -/
  | unknownOpcode (span : Span) (mnemonic : Text)
  /-- A statement with too few or too many operands. -/
  | operandCount (span : Span) (mnemonic : Text) (expected found : Int) (atLeast : Bool)
  /-- An operand that does not fit the kind expected in its place. -/
  | invalidOperand (span : Span) (text : Text) (expected : OperandKind)
  /-- A reference to a label that is defined nowhere. -/
  | undefinedLabel (span : Span) (name : Text)
  /-- A label that is already defined at `previous`. -/
  | duplicateLabel (span : Span) (name : Text) (previous : Span)
  deriving DecidableEq, Repr

namespace SourceError

/-- The place of an error. -/
def span : SourceError → Span
  | unexpectedCharacter span _ => span
  | unexpected span _ _ => span
  | unexpectedEnd span _ => span
  | unknownOpcode span _ => span
  | operandCount span _ _ _ _ => span
  | invalidOperand span _ _ => span
  | undefinedLabel span _ => span
  | duplicateLabel span _ _ => span

/-- What an error says, its place apart. -/
def cause : SourceError → Text
  | unexpectedCharacter _ char => utf8 "unexpected character " ++ Text.quotedChar char
  | unexpected _ found expected =>
      utf8 "expected " ++ TokenKind.describe expected ++ utf8 "; found " ++ found.describe
  | unexpectedEnd _ expected =>
      utf8 "unexpected end of input; expected " ++ TokenKind.describe expected
  | unknownOpcode _ mnemonic => utf8 "opcode '" ++ mnemonic ++ utf8 "' does not exist"
  | operandCount _ mnemonic expected found atLeast =>
      utf8 "'" ++ mnemonic ++ utf8 "' expects " ++ (if atLeast then utf8 "at least " else []) ++
        Text.grouped expected ++ utf8 " operands, found " ++ Text.grouped found
  | invalidOperand _ text expected =>
      utf8 "'" ++ text ++ utf8 "' is not a valid " ++ expected.name ++ utf8 " operand"
  | undefinedLabel _ name => utf8 "label '" ++ name ++ utf8 "' does not exist"
  | duplicateLabel _ name previous =>
      utf8 "label '" ++ name ++ utf8 "' already defined at " ++ previous.render

/-- The text of an error: its place and what it says. -/
def message (error : SourceError) : Text := error.span.render ++ utf8 ": " ++ error.cause

end SourceError

end TableAssembler
