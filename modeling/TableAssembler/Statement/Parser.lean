/-
**From tokens to statements.**

Statements are read by a machine that looks at one token at a time.  Its state says what has been
read of the statement in hand, and with that which tokens may follow; a token that may not is an
error, and so is an end of input within a statement.  Opcode tables play no part here: only the
shape of a statement is checked.

Main definitions:

* `Parser.State`, `Parser.State.expected` — the states, and the token classes that each allows;
* `Parser.step`, `Parser.finish` — one token, and the end of input;
* `Parser.run` — the machine on a sequence of tokens, in which errors may stand;
* `Statement.parse` — **the statements of a sequence of tokens**.

Main results:

* `Parser.run_nil`, `Parser.run_error`, `Parser.run_end`, `Parser.run_step` — the machine, item by
  item.
-/

import TableAssembler.Statement.Basic
import TableAssembler.Error.Source

set_option relaxedAutoImplicit false
set_option autoImplicit false

namespace TableAssembler

namespace Parser

/-! ### States -/

/-- What has been read of the statement in hand. -/
inductive State where
  /-- Its labels, and no mnemonic yet. -/
  | line (labels : List LabelDef)
  /-- Its mnemonic, and nothing after it. -/
  | head (statement : Statement)
  /-- A comma, after which an operand has to come. -/
  | comma (statement : Statement)
  /-- An operand. -/
  | operand (statement : Statement)
  /-- A comment behind it. -/
  | comment (statement : Statement)
  deriving DecidableEq, Repr

/-- The token classes that may be an operand. -/
def operandKinds : List TokenKind := [.number, .identifier]

/-- The token classes that may follow a state. -/
def State.expected : State → List TokenKind
  | line [] => [.label, .mnemonic, .directive, .comment, .newline, .endOfInput]
  | line (_ :: _) => [.label, .mnemonic, .directive, .comment, .newline]
  | head _ => [.number, .identifier, .comment, .newline, .endOfInput]
  | comma _ => operandKinds
  | operand _ => [.comma, .comment, .newline, .endOfInput]
  | comment _ => [.newline, .endOfInput]

/-! ### Steps -/

/-- The statement that a mnemonic or directive starts behind some labels. -/
def startStatement (labels : List LabelDef) (token : Token) : Statement where
  labels := labels
  mnemonic := token.text
  mnemonicSpan := token.span
  directive := token.kind = .directive
  span := match labels with
    | [] => token.span
    | first :: _ => first.span.through token.span

/-- The statement with one more operand. -/
def addOperand (statement : Statement) (token : Token) : Statement :=
  { statement with
    operands := statement.operands ++ [token]
    span := statement.span.through token.span }

/-- The label that a label token defines. -/
def labelOf (token : Token) : LabelDef := ⟨token.name, token.span.dropLast⟩

/-- The error that `token` is in the place of one of `expected`. -/
def unexpected (token : Token) (expected : List TokenKind) : SourceError :=
  .unexpected token.span token expected

/-- The state after an operand, unless `token` is none: a malformed number is not. -/
def takeOperand (statement : Statement) (token : Token) : Except SourceError State :=
  if token.kind = .identifier ∨ (token.kind = .number ∧ token.isMalformed = false) then
    .ok (.operand (addOperand statement token))
  else .error (unexpected token operandKinds)

/-- **One token**: the state after it, and the statement that it completes. -/
def step (state : State) (token : Token) : Except SourceError (State × Option Statement) :=
  match state, token.kind with
  | .line labels, .label => .ok (.line (labels ++ [labelOf token]), none)
  | .line labels, .comment => .ok (.line labels, none)
  | .line labels, .newline => .ok (.line labels, none)
  | .line labels, .mnemonic => .ok (.head (startStatement labels token), none)
  | .line labels, .directive => .ok (.head (startStatement labels token), none)
  | .head statement, .number => (takeOperand statement token).map (·, none)
  | .head statement, .identifier => (takeOperand statement token).map (·, none)
  | .head statement, .comment => .ok (.comment statement, none)
  | .head statement, .newline => .ok (.line [], some statement)
  | .comma statement, _ => (takeOperand statement token).map (·, none)
  | .operand statement, .comma => .ok (.comma statement, none)
  | .operand statement, .comment => .ok (.comment statement, none)
  | .operand statement, .newline => .ok (.line [], some statement)
  | .comment statement, .newline => .ok (.line [], some statement)
  | state, _ => .error (unexpected token state.expected)

/-- **The end of input**: the statement that it completes; `last` is the span of the last token. -/
def finish (last : Span) : State → Except SourceError (Option Statement)
  | .line [] => .ok none
  | .line (label :: labels) => .error (.unexpectedEnd last (State.line (label :: labels)).expected)
  | .comma statement => .error (.unexpectedEnd last (State.comma statement).expected)
  | .head statement | .operand statement | .comment statement => .ok (some statement)

/-! ### Runs -/

variable {ε : Type}

/-- The statements that the machine reads from a state on; `last` is the span of the last token.
An item that is an error ends the run with it, and `report` makes the machine's own errors. -/
def run (report : SourceError → ε) : State → Span → List (Except ε Token) →
    Except ε (List Statement)
  | state, last, [] => ((finish last state).map Option.toList).mapError report
  | _, _, .error error :: _ => .error error
  | state, last, .ok token :: rest =>
      if token.kind = .endOfInput then ((finish last state).map Option.toList).mapError report
      else
        match step state token with
        | .error error => .error (report error)
        | .ok (next, completed) => (run report next token.span rest).map (completed.toList ++ ·)

@[simp] theorem run_nil (report : SourceError → ε) (state : State) (last : Span) :
    run report state last [] = ((finish last state).map Option.toList).mapError report := rfl

@[simp] theorem run_error (report : SourceError → ε) (state : State) (last : Span) (error : ε)
    (rest : List (Except ε Token)) : run report state last (.error error :: rest) = .error error :=
  rfl

theorem run_end (report : SourceError → ε) (state : State) (last : Span) {token : Token}
    (h : token.kind = .endOfInput) (rest : List (Except ε Token)) :
    run report state last (.ok token :: rest) =
      ((finish last state).map Option.toList).mapError report := by
  rw [run, if_pos h]

theorem run_step (report : SourceError → ε) (state : State) (last : Span) {token : Token}
    (h : token.kind ≠ .endOfInput) (rest : List (Except ε Token)) :
    run report state last (.ok token :: rest) =
      match step state token with
      | .error error => .error (report error)
      | .ok (next, completed) => (run report next token.span rest).map (completed.toList ++ ·) := by
  rw [run, if_neg h]

end Parser

namespace Statement

/-- The statements of a sequence of items, `report` making the errors that are found here. -/
def parseWith {ε : Type} (report : SourceError → ε) (items : List (Except ε Token)) :
    Except ε (List Statement) :=
  Parser.run report (.line []) {} items

/-- **The statements of a sequence of tokens**, up to the first end of input. -/
def parse (items : List (Except SourceError Token)) : Except SourceError (List Statement) :=
  parseWith id items

end Statement

end TableAssembler
