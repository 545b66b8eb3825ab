/-
**Parsing keeps likeness.**

The machine that reads statements never looks at a span.  Run on two sequences of items that are
alike one by one, it goes through states that are alike, and ends in statements that are alike or
in errors that are.

Main definitions:

* `Likeness.Joins`, `Likeness.Closed` — a likeness that survives what parsing does to spans and
  names;
* `Token.Read` — tokens that are alike, and so are the labels that they define;
* `Parser.State.Alike` — states alike.

Main results:

* `Parser.step_alike`, `Parser.finish_alike` — one token, and the end of input;
* `Parser.run_alike` — a run from like states over like items;
* `Parser.parse_alike` — **like items parse alike**.
-/

import TableAssembler.Proofs.Likeness
import TableAssembler.Statement.Parser

set_option relaxedAutoImplicit false
set_option autoImplicit false

namespace TableAssembler

/-- A likeness under which each name stands for itself, and which the joining of spans keeps. -/
structure Likeness.Joins (like : Likeness) : Prop where
  name (name : Text) : like.name name name
  through {a a' b b' : Span} : like.span a a' → like.span b b' →
    like.span (a.through b) (a'.through b')

/-- A likeness that the dropping of a colon keeps as well, wherever the span lies. -/
structure Likeness.Closed (like : Likeness) : Prop extends like.Joins where
  dropLast {a a' : Span} : like.span a a' → like.span a.dropLast a'.dropLast

theorem Likeness.closed_butSpans : Likeness.butSpans.Closed where
  name _ := rfl
  through _ _ := trivial
  dropLast _ := trivial

/-- Tokens alike whose spans stay alike when the colon of a label is dropped. -/
structure Token.Read (like : Likeness) (a b : Token) : Prop extends Token.Alike like a b where
  label : a.kind = .label → like.span a.span.dropLast b.span.dropLast

theorem Token.Alike.read {like : Likeness} (closed : like.Closed) {a b : Token}
    (h : Token.Alike like a b) : Token.Read like a b :=
  ⟨h, fun _ => closed.dropLast h.span⟩

namespace Parser

/-! ### States -/

/-- States alike: at the same point of statements that are alike. -/
inductive State.Alike (like : Likeness) : State → State → Prop
  | line {labels labels' : List LabelDef}
      (h : List.Forall₂ (LabelDef.Alike like) labels labels') :
      Alike like (.line labels) (.line labels')
  | head {statement statement' : Statement} (h : Statement.Alike like statement statement') :
      Alike like (.head statement) (.head statement')
  | comma {statement statement' : Statement} (h : Statement.Alike like statement statement') :
      Alike like (.comma statement) (.comma statement')
  | operand {statement statement' : Statement} (h : Statement.Alike like statement statement') :
      Alike like (.operand statement) (.operand statement')
  | comment {statement statement' : Statement} (h : Statement.Alike like statement statement') :
      Alike like (.comment statement) (.comment statement')

variable {like : Likeness}

theorem expected_alike {state state' : State} (h : State.Alike like state state') :
    state.expected = state'.expected := by
  cases h with
  | line h => cases h <;> rfl
  | head h => rfl
  | comma h => rfl
  | operand h => rfl
  | comment h => rfl

/-! ### Steps -/

theorem name_eq {a b : Token} (h : Token.Alike like a b) (hkind : a.kind = .label) :
    a.name = b.name := by
  rw [Token.name, Token.name, h.text (by simp [hkind]), h.kind]

theorem labelOf_alike (joins : like.Joins) {a b : Token} (h : Token.Read like a b)
    (hkind : a.kind = .label) : LabelDef.Alike like (labelOf a) (labelOf b) where
  name := by
    rw [labelOf, labelOf, name_eq h.toAlike hkind]
    exact joins.name _
  span := h.label hkind

theorem startStatement_alike (joins : like.Joins) {labels labels' : List LabelDef} {a b : Token}
    (hlabels : List.Forall₂ (LabelDef.Alike like) labels labels') (h : Token.Alike like a b)
    (hkind : a.kind ≠ .identifier) :
    Statement.Alike like (startStatement labels a) (startStatement labels' b) where
  labels := hlabels
  mnemonic := h.text hkind
  mnemonicSpan := h.span
  directive := by simp only [startStatement, h.kind]
  operands := .nil
  span := by
    cases hlabels with
    | nil => exact h.span
    | cons hlabel _ => exact joins.through hlabel.span h.span

theorem addOperand_alike (joins : like.Joins) {statement statement' : Statement} {a b : Token}
    (hstatement : Statement.Alike like statement statement') (h : Token.Alike like a b) :
    Statement.Alike like (addOperand statement a) (addOperand statement' b) where
  labels := hstatement.labels
  mnemonic := hstatement.mnemonic
  mnemonicSpan := hstatement.mnemonicSpan
  directive := hstatement.directive
  operands := List.rel_append hstatement.operands (.cons h .nil)
  span := joins.through hstatement.span h.span

/-- Tokens that are alike are refused alike. -/
theorem unexpected_alike {a b : Token} (h : Token.Alike like a b) (expected : List TokenKind) :
    SourceError.Alike like (unexpected a expected) (unexpected b expected) :=
  .unexpected h.span h expected

theorem takeOperand_alike (joins : like.Joins) {statement statement' : Statement} {a b : Token}
    (hstatement : Statement.Alike like statement statement') (h : Token.Alike like a b) :
    Outcome.Alike (SourceError.Alike like) (State.Alike like) (takeOperand statement a)
      (takeOperand statement' b) := by
  unfold takeOperand
  rw [h.isMalformed_eq, h.kind]
  split
  · exact .ok (.operand (addOperand_alike joins hstatement h))
  · exact .error (unexpected_alike h _)

/-- What a step gives: a state, and perhaps a statement. -/
def StepAlike (like : Likeness) (a b : State × Option Statement) : Prop :=
  State.Alike like a.1 b.1 ∧ List.Forall₂ (Statement.Alike like) a.2.toList b.2.toList

/-- **One token**: from like states, like tokens lead to like states. -/
theorem step_alike (joins : like.Joins) {state state' : State} {a b : Token}
    (hstate : State.Alike like state state') (h : Token.Read like a b) :
    Outcome.Alike (SourceError.Alike like) (StepAlike like) (step state a) (step state' b) := by
  have hsame : a.kind = b.kind := h.kind
  have hrefuse := unexpected_alike h.toAlike state'.expected
  nth_rewrite 1 [← expected_alike hstate] at hrefuse
  unfold step
  rw [hsame]
  cases hstate with
  | line hlabels =>
      cases hkind : b.kind with
      | label =>
          have hlabel := labelOf_alike joins h (hsame.trans hkind)
          exact .ok ⟨.line (List.rel_append hlabels (.cons hlabel .nil)), .nil⟩
      | mnemonic =>
          have hstart := startStatement_alike joins hlabels h.toAlike (by simp [hsame, hkind])
          exact .ok ⟨.head hstart, .nil⟩
      | directive =>
          have hstart := startStatement_alike joins hlabels h.toAlike (by simp [hsame, hkind])
          exact .ok ⟨.head hstart, .nil⟩
      | comment => exact .ok ⟨.line hlabels, .nil⟩
      | newline => exact .ok ⟨.line hlabels, .nil⟩
      | _ => exact .error hrefuse
  | head hstatement =>
      cases hkind : b.kind with
      | number =>
          exact (takeOperand_alike joins hstatement h.toAlike).map fun _ _ hnext => ⟨hnext, .nil⟩
      | identifier =>
          exact (takeOperand_alike joins hstatement h.toAlike).map fun _ _ hnext => ⟨hnext, .nil⟩
      | comment => exact .ok ⟨.comment hstatement, .nil⟩
      | newline => exact .ok ⟨.line .nil, .cons hstatement .nil⟩
      | _ => exact .error hrefuse
  | comma hstatement =>
      exact (takeOperand_alike joins hstatement h.toAlike).map fun _ _ hnext => ⟨hnext, .nil⟩
  | operand hstatement =>
      cases hkind : b.kind with
      | comma => exact .ok ⟨.comma hstatement, .nil⟩
      | comment => exact .ok ⟨.comment hstatement, .nil⟩
      | newline => exact .ok ⟨.line .nil, .cons hstatement .nil⟩
      | _ => exact .error hrefuse
  | comment hstatement =>
      cases hkind : b.kind with
      | newline => exact .ok ⟨.line .nil, .cons hstatement .nil⟩
      | _ => exact .error hrefuse

/-- **The end of input.**  The span of the last token is told only of a statement that has begun. -/
theorem finish_alike {state state' : State} {last last' : Span}
    (hstate : State.Alike like state state') (hlast : like.span last last' ∨ state = .line []) :
    Outcome.Alike (SourceError.Alike like)
      (fun a b => List.Forall₂ (Statement.Alike like) a.toList b.toList) (finish last state)
      (finish last' state') := by
  cases hstate with
  | line hlabels =>
      cases hlabels with
      | nil => exact .ok .nil
      | cons _ _ => exact .error (.unexpectedEnd (hlast.resolve_right (by simp)) _)
  | head hstatement => exact .ok (.cons hstatement .nil)
  | comma hstatement => exact .error (.unexpectedEnd (hlast.resolve_right (by simp)) _)
  | operand hstatement => exact .ok (.cons hstatement .nil)
  | comment hstatement => exact .ok (.cons hstatement .nil)

/-! ### Runs -/

theorem run_alike (joins : like.Joins) {items items' : List (Except SourceError Token)}
    (hitems : List.Forall₂ (Outcome.Alike (SourceError.Alike like) (Token.Read like)) items items')
    {state state' : State} {last last' : Span} (hstate : State.Alike like state state')
    (hlast : like.span last last' ∨ state = .line []) :
    Outcome.Alike (SourceError.Alike like) (List.Forall₂ (Statement.Alike like))
      (run id state last items) (run id state' last' items') := by
  induction hitems generalizing state state' last last' with
  | nil =>
      rw [run_nil, run_nil]
      exact ((finish_alike hstate hlast).map fun _ _ h => h).mapError fun _ _ h => h
  | cons hitem _ ih =>
      cases hitem with
      | error h => exact .error h
      | @ok token token' h =>
          by_cases hend : token.kind = .endOfInput
          · rw [run_end id state last hend, run_end id state' last' (h.kind ▸ hend)]
            exact ((finish_alike hstate hlast).map fun _ _ h => h).mapError fun _ _ h => h
          · rw [run_step id state last hend, run_step id state' last' (h.kind ▸ hend)]
            rcases (step_alike joins hstate h).cases_eq with
              ⟨next, next', hstep, hstep', hnext⟩ | ⟨error, error', hstep, hstep', herror⟩
            · -- from here on a token has been read, and its span is the last
              simp only [hstep, hstep']
              refine (ih hnext.1 (.inl h.span)).map fun _ _ hrest => ?_
              exact List.rel_append hnext.2 hrest
            · simp only [hstep, hstep']
              exact .error herror

/-- **Like items parse alike**: to statements that are alike, or to errors that are. -/
theorem parse_alike (closed : like.Closed) {items items' : List (Except SourceError Token)}
    (hitems : List.Forall₂ (Outcome.Alike (SourceError.Alike like) (Token.Alike like)) items
      items') :
    Outcome.Alike (SourceError.Alike like) (List.Forall₂ (Statement.Alike like))
      (Statement.parse items) (Statement.parse items') := by
  refine run_alike closed.toJoins (hitems.imp fun item item' hitem => ?_) (.line .nil) (.inr rfl)
  cases hitem with
  | ok h => exact .ok (h.read closed)
  | error h => exact .error h

end Parser

end TableAssembler
