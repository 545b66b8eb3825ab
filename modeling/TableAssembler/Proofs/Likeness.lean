/-
**Likeness: what two sources may differ in without anyone noticing.**

Parsing and resolving carry spans along and never look at them, and label names matter only in so
far as they are equal or not.  A *likeness* says which spans and which names stand for each other;
tokens, statements, errors and programs are alike if they agree in everything else.

Main definitions:

* `Likeness` — the spans and the names that stand for each other;
* `Likeness.butSpans` — **equality in everything but spans**;
* `Token.Alike`, `LabelDef.Alike`, `Statement.Alike`, `SourceError.Alike`, `Instruction.Alike`,
  `Symbol.Alike`, `Program.Alike` — the likeness of what sources are made into.

Main results:

* `Token.Alike.value_eq`, `Token.Alike.isMalformed_eq` — like tokens have the same value.
-/

import TableAssembler.Error.Source
import TableAssembler.Program.Basic
import TableAssembler.Proofs.Outcome

set_option relaxedAutoImplicit false
set_option autoImplicit false

namespace TableAssembler

/-- The spans and the label names that stand for each other. -/
structure Likeness where
  span : Span → Span → Prop
  name : Text → Text → Prop

/-- **Equality in everything but spans.** -/
def Likeness.butSpans : Likeness where
  span _ _ := True
  name a b := a = b

variable (like : Likeness)

/-! ### Tokens and statements -/

/-- Tokens alike: those of identifiers are names, and all other texts are the same. -/
structure Token.Alike (a b : Token) : Prop where
  kind : a.kind = b.kind
  base : a.base = b.base
  name : a.kind = .identifier → like.name a.text b.text
  text : a.kind ≠ .identifier → a.text = b.text
  span : like.span a.span b.span

/-- Label definitions alike. -/
structure LabelDef.Alike (a b : LabelDef) : Prop where
  name : like.name a.name b.name
  span : like.span a.span b.span

/-- Statements alike. -/
structure Statement.Alike (a b : Statement) : Prop where
  labels : List.Forall₂ (LabelDef.Alike like) a.labels b.labels
  mnemonic : a.mnemonic = b.mnemonic
  mnemonicSpan : like.span a.mnemonicSpan b.mnemonicSpan
  directive : a.directive = b.directive
  operands : List.Forall₂ (Token.Alike like) a.operands b.operands
  span : like.span a.span b.span

/-! ### Errors -/

/-- Errors alike: of one cause, with the same data up to spans and names. -/
inductive SourceError.Alike : SourceError → SourceError → Prop
  | unexpectedCharacter {span span' : Span} (hspan : like.span span span') (char : Int) :
      Alike (.unexpectedCharacter span char) (.unexpectedCharacter span' char)
  | unexpected {span span' : Span} {found found' : Token} (hspan : like.span span span')
      (hfound : Token.Alike like found found') (expected : List TokenKind) :
      Alike (.unexpected span found expected) (.unexpected span' found' expected)
  | unexpectedEnd {span span' : Span} (hspan : like.span span span') (expected : List TokenKind) :
      Alike (.unexpectedEnd span expected) (.unexpectedEnd span' expected)
  | unknownOpcode {span span' : Span} (hspan : like.span span span') (mnemonic : Text) :
      Alike (.unknownOpcode span mnemonic) (.unknownOpcode span' mnemonic)
  | operandCount {span span' : Span} (hspan : like.span span span') (mnemonic : Text)
      (expected found : Int) (atLeast : Bool) :
      Alike (.operandCount span mnemonic expected found atLeast)
        (.operandCount span' mnemonic expected found atLeast)
  | invalidOperand {span span' : Span} {text text' : Text} (hspan : like.span span span')
      (htext : text = text' ∨ like.name text text') (expected : OperandKind) :
      Alike (.invalidOperand span text expected) (.invalidOperand span' text' expected)
  | undefinedLabel {span span' : Span} {name name' : Text} (hspan : like.span span span')
      (hname : like.name name name') :
      Alike (.undefinedLabel span name) (.undefinedLabel span' name')
  | duplicateLabel {span span' previous previous' : Span} {name name' : Text}
      (hspan : like.span span span') (hname : like.name name name')
      (hprevious : like.span previous previous') :
      Alike (.duplicateLabel span name previous) (.duplicateLabel span' name' previous')

/-! ### Programs -/

/-- Placed statements alike: at the same place, and as many bytes. -/
structure Instruction.Alike (a b : Instruction) : Prop where
  statement : Statement.Alike like a.statement b.statement
  offset : a.offset = b.offset
  size : a.size = b.size

/-- Placed labels alike: at the same place. -/
structure Symbol.Alike (a b : Symbol) : Prop where
  name : like.name a.name b.name
  offset : a.offset = b.offset
  span : like.span a.span b.span

/-- Programs alike: the same binary. -/
structure Program.Alike (a b : Program) : Prop where
  binary : a.binary = b.binary
  instructions : List.Forall₂ (Instruction.Alike like) a.instructions b.instructions
  symbols : List.Forall₂ (Symbol.Alike like) a.symbols b.symbols

/-- Lists alike item by item, where each item determines the one alike. -/
theorem eq_map_of_forall₂ {α β : Type} {R : α → β → Prop} {g : α → β}
    (h : ∀ a b, R a b → b = g a) {items : List α} {items' : List β}
    (hitems : List.Forall₂ R items items') : items' = items.map g := by
  induction hitems with
  | nil => rfl
  | cons hitem _ ih => rw [List.map_cons, ← h _ _ hitem, ← ih]

/-! ### Values of like tokens -/

namespace Token.Alike

variable {like} {a b : Token}

theorem text_or_name (h : Token.Alike like a b) : a.text = b.text ∨ like.name a.text b.text := by
  by_cases hkind : a.kind = .identifier
  · exact .inr (h.name hkind)
  · exact .inl (h.text hkind)

/-- Numbers alike are written alike, so they have the same value. -/
theorem value_eq (h : Token.Alike like a b) (hkind : a.kind = .number) : a.value = b.value := by
  have htext : a.text = b.text := h.text (by simp [hkind])
  obtain ⟨kind, text, span, base⟩ := a
  obtain ⟨kind', text', span', base'⟩ := b
  cases h.kind
  cases h.base
  cases htext
  rfl

theorem isMalformed_eq (h : Token.Alike like a b) : a.isMalformed = b.isMalformed := by
  by_cases hkind : a.kind = .number
  · rw [Token.isMalformed, Token.isMalformed, h.value_eq hkind, h.kind]
  · have hkind' : b.kind ≠ .number := h.kind ▸ hkind
    simp [Token.isMalformed, hkind, hkind']

end Token.Alike

end TableAssembler
