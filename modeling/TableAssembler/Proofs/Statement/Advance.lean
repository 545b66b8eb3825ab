/-
**The parser's machine on tokens alone.**

A run of the machine mixes three things: the steps it takes on tokens, the items that end it, and
the way its errors are reported.  Here the steps are taken apart from the rest: `Parser.advance`
takes the machine over a list of tokens, and `Parser.run_advance` says that a run is an advance over
the tokens before the first error or end of input, followed by whatever ends it.

Main definitions:

* `Parser.Step` — the steps of the machine, one rule for each kind of step;
* `Parser.advance` — the state after a list of tokens, and the statements completed on the way;
* `Parser.lastSpan` — the span of the last token read;
* `Parser.leading`, `Parser.ending` — a sequence of items, cut at its first error or end of input.

Main results:

* `Parser.step_eq_ok_iff` — the machine takes exactly those steps;
* `Parser.advance_append_ok`, `Parser.advance_append_error` — advancing over two lists;
* `Parser.run_advance` — **a run is an advance and an ending**;
* `Parser.parse_eq_ok_iff`, `Parser.parse_tokens_eq_ok_iff` — a sequence is accepted exactly when
  the machine gets to its first end of input and may stop there.
-/

import Mathlib.Data.List.TakeWhile
import TableAssembler.Proofs.Outcome
import TableAssembler.Statement.Parser

set_option relaxedAutoImplicit false
set_option autoImplicit false

namespace TableAssembler

namespace Parser

variable {ε : Type}

/-! ### Steps -/

/-- Tokens that may be an operand: identifiers, and numbers that are literals of their base. -/
def IsOperand (token : Token) : Prop :=
  token.kind = .identifier ∨ (token.kind = .number ∧ token.isMalformed = false)

/-- **The steps of the machine**: the state before, the token, the state after, and the statement
that the token completes. -/
inductive Step : State → Token → State → Option Statement → Prop where
  | label (labels : List LabelDef) {token : Token} (h : token.kind = .label) :
      Step (.line labels) token (.line (labels ++ [labelOf token])) none
  | blank (labels : List LabelDef) {token : Token}
      (h : token.kind = .comment ∨ token.kind = .newline) :
      Step (.line labels) token (.line labels) none
  | head (labels : List LabelDef) {token : Token}
      (h : token.kind = .mnemonic ∨ token.kind = .directive) :
      Step (.line labels) token (.head (startStatement labels token)) none
  | first (statement : Statement) {token : Token} (h : IsOperand token) :
      Step (.head statement) token (.operand (addOperand statement token)) none
  | next (statement : Statement) {token : Token} (h : IsOperand token) :
      Step (.comma statement) token (.operand (addOperand statement token)) none
  | comma (statement : Statement) {token : Token} (h : token.kind = .comma) :
      Step (.operand statement) token (.comma statement) none
  | commentHead (statement : Statement) {token : Token} (h : token.kind = .comment) :
      Step (.head statement) token (.comment statement) none
  | commentOperand (statement : Statement) {token : Token} (h : token.kind = .comment) :
      Step (.operand statement) token (.comment statement) none
  | endHead (statement : Statement) {token : Token} (h : token.kind = .newline) :
      Step (.head statement) token (.line []) (some statement)
  | endOperand (statement : Statement) {token : Token} (h : token.kind = .newline) :
      Step (.operand statement) token (.line []) (some statement)
  | endComment (statement : Statement) {token : Token} (h : token.kind = .newline) :
      Step (.comment statement) token (.line []) (some statement)

/-- The machine takes an operand exactly where a token may be one. -/
theorem takeOperand_eq_ok_iff {statement : Statement} {token : Token} {next : State}
    {completed : Option Statement} :
    (takeOperand statement token).map (·, none) = .ok (next, completed) ↔
      IsOperand token ∧ next = .operand (addOperand statement token) ∧ completed = none := by
  by_cases h : IsOperand token
  · have htake : takeOperand statement token = .ok (.operand (addOperand statement token)) :=
      if_pos h
    rw [htake, Outcome.map_ok, Except.ok.injEq, Prod.mk.injEq]
    simp only [h, true_and]
    exact and_congr eq_comm eq_comm
  · have htake : takeOperand statement token = .error (unexpected token operandKinds) := if_neg h
    simp [htake, h]

/-- **The machine takes exactly these steps.** -/
theorem step_eq_ok_iff {state next : State} {token : Token} {completed : Option Statement} :
    step state token = .ok (next, completed) ↔ Step state token next completed := by
  constructor
  · intro h
    cases state with
    | line labels =>
        cases hkind : token.kind <;> simp only [step, hkind, Except.ok.injEq, Prod.mk.injEq,
          reduceCtorEq] at h
        case label => obtain ⟨rfl, rfl⟩ := h; exact .label labels hkind
        case comment => obtain ⟨rfl, rfl⟩ := h; exact .blank labels (.inl hkind)
        case newline => obtain ⟨rfl, rfl⟩ := h; exact .blank labels (.inr hkind)
        case mnemonic => obtain ⟨rfl, rfl⟩ := h; exact .head labels (.inl hkind)
        case directive => obtain ⟨rfl, rfl⟩ := h; exact .head labels (.inr hkind)
    | head statement =>
        cases hkind : token.kind <;> simp only [step, hkind, takeOperand_eq_ok_iff, Except.ok.injEq,
          Prod.mk.injEq, reduceCtorEq] at h
        case number => obtain ⟨hoperand, rfl, rfl⟩ := h; exact .first statement hoperand
        case identifier => obtain ⟨hoperand, rfl, rfl⟩ := h; exact .first statement hoperand
        case comment => obtain ⟨rfl, rfl⟩ := h; exact .commentHead statement hkind
        case newline => obtain ⟨rfl, rfl⟩ := h; exact .endHead statement hkind
    | comma statement =>
        simp only [step, takeOperand_eq_ok_iff] at h
        obtain ⟨hoperand, rfl, rfl⟩ := h
        exact .next statement hoperand
    | operand statement =>
        cases hkind : token.kind <;> simp only [step, hkind, Except.ok.injEq, Prod.mk.injEq,
          reduceCtorEq] at h
        case comma => obtain ⟨rfl, rfl⟩ := h; exact .comma statement hkind
        case comment => obtain ⟨rfl, rfl⟩ := h; exact .commentOperand statement hkind
        case newline => obtain ⟨rfl, rfl⟩ := h; exact .endOperand statement hkind
    | comment statement =>
        cases hkind : token.kind <;> simp only [step, hkind, Except.ok.injEq, Prod.mk.injEq,
          reduceCtorEq] at h
        case newline => obtain ⟨rfl, rfl⟩ := h; exact .endComment statement hkind
  · intro h
    cases h with
    | label labels h => simp [step, h]
    | blank labels h => rcases h with h | h <;> simp [step, h]
    | head labels h => rcases h with h | h <;> simp [step, h]
    | first statement h =>
        have htake : (takeOperand statement token).map (·, none) =
            .ok (.operand (addOperand statement token), none) :=
          takeOperand_eq_ok_iff.2 ⟨h, rfl, rfl⟩
        rcases h with hkind | ⟨hkind, -⟩ <;> simpa only [step, hkind] using htake
    | next statement h => exact takeOperand_eq_ok_iff.2 ⟨h, rfl, rfl⟩
    | comma statement h => simp [step, h]
    | commentHead statement h => simp [step, h]
    | commentOperand statement h => simp [step, h]
    | endHead statement h => simp [step, h]
    | endOperand statement h => simp [step, h]
    | endComment statement h => simp [step, h]

/-! ### Advancing -/

/-- **The state after some tokens**, none of them an end of input, and the statements completed. -/
def advance : State → List Token → Except SourceError (State × List Statement)
  | state, [] => .ok (state, [])
  | state, token :: rest =>
      match step state token with
      | .error error => .error error
      | .ok (next, completed) =>
          (advance next rest).map fun result => (result.1, completed.toList ++ result.2)

@[simp] theorem advance_nil (state : State) : advance state [] = .ok (state, []) := rfl

theorem advance_cons_error {state : State} {token : Token} {error : SourceError}
    (h : step state token = .error error) (rest : List Token) :
    advance state (token :: rest) = .error error := by
  simp only [advance, h]

theorem advance_cons_ok {state next : State} {token : Token} {completed : Option Statement}
    (h : step state token = .ok (next, completed)) (rest : List Token) :
    advance state (token :: rest) =
      (advance next rest).map fun result => (result.1, completed.toList ++ result.2) := by
  simp only [advance, h]

/-- Advancing over one more list continues where the first left off. -/
theorem advance_append_ok {state middle : State} {first : List Token} {done : List Statement}
    (h : advance state first = .ok (middle, done)) (second : List Token) :
    advance state (first ++ second) =
      (advance middle second).map fun result => (result.1, done ++ result.2) := by
  induction first generalizing state done with
  | nil =>
      cases h
      simp only [List.nil_append]
      exact Except.map_id ▸ rfl
  | cons token first ih =>
      cases hstep : step state token with
      | error error =>
          rw [advance_cons_error hstep] at h
          cases h
      | ok result =>
          obtain ⟨next, completed⟩ := result
          rw [advance_cons_ok hstep, Outcome.map_eq_ok] at h
          obtain ⟨⟨last, later⟩, hrest, heq⟩ := h
          cases heq
          rw [List.cons_append, advance_cons_ok hstep, ih hrest, Outcome.map_map]
          simp

/-- An error is not mended by what follows. -/
theorem advance_append_error {state : State} {first : List Token} {error : SourceError}
    (h : advance state first = .error error) (second : List Token) :
    advance state (first ++ second) = .error error := by
  induction first generalizing state with
  | nil => cases h
  | cons token first ih =>
      cases hstep : step state token with
      | error other =>
          rw [advance_cons_error hstep] at h
          rw [List.cons_append, advance_cons_error hstep]
          exact h
      | ok result =>
          obtain ⟨next, completed⟩ := result
          rw [advance_cons_ok hstep] at h
          cases hrest : advance next first with
          | error other =>
              rw [hrest] at h
              cases h
              rw [List.cons_append, advance_cons_ok hstep, ih hrest]
              rfl
          | ok result =>
              rw [hrest] at h
              cases h

/-! ### Runs -/

/-- The span of the last of some tokens, `last` if there are none. -/
def lastSpan (last : Span) (tokens : List Token) : Span :=
  (tokens.getLast?.map Token.span).getD last

theorem lastSpan_cons (last : Span) (token : Token) (rest : List Token) :
    lastSpan last (token :: rest) = lastSpan token.span rest := by
  cases h : rest.getLast? <;> simp [lastSpan, List.getLast?_cons, h]

/-- **A run is an advance over the tokens before the first error or end of input, and then an
ending.** -/
theorem run_advance (report : SourceError → ε) (state : State) (last : Span) {tokens : List Token}
    (htokens : ∀ token ∈ tokens, token.kind ≠ .endOfInput) (rest : List (Except ε Token)) :
    run report state last (tokens.map .ok ++ rest) =
      match advance state tokens with
      | .error error => .error (report error)
      | .ok (next, done) => (run report next (lastSpan last tokens) rest).map (done ++ ·) := by
  induction tokens generalizing state last with
  | nil =>
      simp only [List.map_nil, List.nil_append, advance_nil, lastSpan, List.getLast?_nil,
        Option.map_none, Option.getD_none]
      exact Except.map_id ▸ rfl
  | cons token tokens ih =>
      rw [List.forall_mem_cons] at htokens
      rw [List.map_cons, List.cons_append, run_step report state last htokens.1, lastSpan_cons]
      cases hstep : step state token with
      | error error => rw [advance_cons_error hstep]
      | ok result =>
          obtain ⟨next, completed⟩ := result
          simp only [ih next token.span htokens.2, advance_cons_ok hstep]
          cases advance next tokens with
          | error error => rfl
          | ok result => simp [Outcome.map_map]

/-- Nothing, or an end of input: what may follow the tokens that a parser gets to see. -/
def AtEnd (rest : List (Except ε Token)) : Prop :=
  rest = [] ∨ ∃ token more, rest = .ok token :: more ∧ token.kind = .endOfInput

theorem run_atEnd (report : SourceError → ε) (state : State) (last : Span)
    {rest : List (Except ε Token)} (h : AtEnd rest) :
    run report state last rest = ((finish last state).map Option.toList).mapError report := by
  rcases h with rfl | ⟨token, more, rfl, hend⟩
  · rfl
  · exact run_end report state last hend more

/-! ### Sequences of items -/

/-- The tokens of a sequence of items before the first error or end of input. -/
def leading : List (Except ε Token) → List Token
  | .ok token :: rest => if token.kind = .endOfInput then [] else token :: leading rest
  | _ => []

/-- The items from the first error or end of input on. -/
def ending (items : List (Except ε Token)) : List (Except ε Token) :=
  items.drop (leading items).length

theorem kind_of_mem_leading {items : List (Except ε Token)} :
    ∀ token ∈ leading items, token.kind ≠ .endOfInput := by
  fun_induction leading items with
  | case1 token rest h => simp
  | case2 token rest h ih => exact List.forall_mem_cons.2 ⟨h, ih⟩
  | case3 items h => simp

theorem leading_append_ending (items : List (Except ε Token)) :
    (leading items).map .ok ++ ending items = items := by
  unfold ending
  fun_induction leading items with
  | case1 token rest h => rfl
  | case2 token rest h ih => simpa using ih
  | case3 items h => rfl

theorem mem_of_mem_leading {items : List (Except ε Token)} {token : Token}
    (h : token ∈ leading items) : .ok token ∈ items := by
  rw [← leading_append_ending items]
  exact List.mem_append_left _ (List.mem_map_of_mem h)

theorem ending_cases (items : List (Except ε Token)) :
    AtEnd (ending items) ∨ ∃ error more, ending items = .error error :: more := by
  unfold ending
  fun_induction leading items with
  | case1 token rest h => exact .inl (.inr ⟨token, rest, rfl, h⟩)
  | case2 token rest h ih => simpa using ih
  | case3 items h =>
      cases items with
      | nil => exact .inl (.inl rfl)
      | cons item rest =>
          cases item with
          | error error => exact .inr ⟨error, rest, rfl⟩
          | ok token => exact absurd rfl (h token rest)

theorem leading_append {tokens : List Token} (h : ∀ token ∈ tokens, token.kind ≠ .endOfInput)
    (rest : List (Except ε Token)) : leading (tokens.map .ok ++ rest) = tokens ++ leading rest := by
  induction tokens with
  | nil => rfl
  | cons token tokens ih =>
      rw [List.forall_mem_cons] at h
      rw [List.map_cons, List.cons_append, leading, if_neg h.1, ih h.2, List.cons_append]

theorem ending_append {tokens : List Token} (h : ∀ token ∈ tokens, token.kind ≠ .endOfInput)
    (rest : List (Except ε Token)) : ending (tokens.map .ok ++ rest) = ending rest := by
  have hlength : (tokens.map (.ok : Token → Except ε Token)).length = tokens.length :=
    List.length_map _
  rw [ending, leading_append h, List.length_append, ← List.drop_drop, ← hlength, List.drop_left,
    ending]

/-- **A sequence of items is accepted exactly when no error comes before its end and the machine
gets there and may stop.** -/
theorem parse_eq_ok_iff {items : List (Except SourceError Token)} {statements : List Statement} :
    Statement.parse items = .ok statements ↔
      AtEnd (ending items) ∧
        ∃ state done final, advance (.line []) (leading items) = .ok (state, done) ∧
          finish (lastSpan {} (leading items)) state = .ok final ∧
            statements = done ++ final.toList := by
  have hrun := run_advance id (.line []) {} (@kind_of_mem_leading _ items) (ending items)
  rw [leading_append_ending] at hrun
  rw [Statement.parse, Statement.parseWith, hrun]
  cases advance (.line []) (leading items) with
  | error error => simp
  | ok result =>
      obtain ⟨state, done⟩ := result
      rcases ending_cases items with hend | ⟨error, more, herror⟩
      · simp only [run_atEnd id state _ hend, Except.ok.injEq, Prod.mk.injEq]
        constructor
        · intro h
          obtain ⟨final, hfinal, rfl⟩ := Outcome.map_eq_ok.1 h
          cases hfinish : finish (lastSpan {} (leading items)) state with
          | error error =>
              rw [hfinish] at hfinal
              cases hfinal
          | ok last =>
              rw [hfinish] at hfinal
              cases hfinal
              exact ⟨hend, state, done, last, ⟨rfl, rfl⟩, hfinish, rfl⟩
        · rintro ⟨-, next, before, final, ⟨rfl, rfl⟩, hfinish, rfl⟩
          rw [hfinish]
          rfl
      · simp [herror, AtEnd]

/-- The tokens before the first end of input. -/
def visible (tokens : List Token) : List Token :=
  tokens.takeWhile fun token => token.kind ≠ .endOfInput

theorem visible_eq_self {tokens : List Token}
    (h : ∀ token ∈ tokens, token.kind ≠ .endOfInput) : visible tokens = tokens := by
  refine List.takeWhile_eq_self_iff.2 fun token htoken => ?_
  simpa using h token htoken

theorem visible_append {first : List Token} (h : ∀ token ∈ first, token.kind ≠ .endOfInput)
    (second : List Token) : visible (first ++ second) = first ++ visible second := by
  refine List.takeWhile_append_of_pos fun token htoken => ?_
  simpa using h token htoken

theorem leading_map_ok (tokens : List Token) :
    leading (tokens.map (.ok : Token → Except ε Token)) = visible tokens := by
  induction tokens with
  | nil => rfl
  | cons token rest ih =>
      by_cases h : token.kind = .endOfInput
      · simp [leading, visible, h]
      · simpa [leading, visible, h] using ih

theorem atEnd_ending_map_ok (tokens : List Token) :
    AtEnd (ending (tokens.map (.ok : Token → Except ε Token))) := by
  rcases ending_cases (tokens.map (.ok : Token → Except ε Token)) with h | ⟨error, more, herror⟩
  · exact h
  · have hmem : Except.error error ∈ tokens.map (.ok : Token → Except ε Token) := by
      rw [← leading_append_ending (tokens.map .ok), herror]
      simp
    simp at hmem

/-- A sequence of tokens is accepted exactly when the machine gets to its first end of input and may
stop there. -/
theorem parse_tokens_eq_ok_iff {tokens : List Token} {statements : List Statement} :
    Statement.parse (tokens.map .ok) = .ok statements ↔
      ∃ state done final, advance (.line []) (visible tokens) = .ok (state, done) ∧
        finish (lastSpan {} (visible tokens)) state = .ok final ∧
          statements = done ++ final.toList := by
  rw [parse_eq_ok_iff, leading_map_ok]
  simp [atEnd_ending_map_ok]

end Parser

end TableAssembler
