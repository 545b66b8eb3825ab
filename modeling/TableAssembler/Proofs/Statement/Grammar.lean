/-
**The grammar of statements.**

The tokens of a source are a sequence of *phrases*, one for each statement.  A phrase may start with
labels, comments and empty lines; then come a mnemonic or a directive, its operands with commas
between them, a comment, and the end of the line.  After the last phrase there may be comments and
empty lines.  This module writes the grammar down as a data type whose values carry the proof that
their tokens are of the right kinds, says which statement a phrase means, and proves that the parser
accepts exactly the sequences of phrases and returns their statements.

The proof of completeness runs the machine over one phrase; the proof of soundness keeps track of
the phrase that the machine has in hand (`Grammar.InHand`), which each step either prolongs or
completes (`Grammar.inHand_step`).

Main definitions:

* `Grammar.Phrase`, `Grammar.Phrase.tokens` — the tokens of one statement, in their parts;
* `Grammar.Phrase.statement` — the statement that a phrase means;
* `Grammar.Sentence` — a sequence of phrases and what may follow them.

Main results:

* `Grammar.advance_phrase_ended`, `Grammar.advance_phrase_open` — the machine on one phrase;
* `Grammar.sentence_of_advance`, `Grammar.advance_sentence` — soundness and completeness;
* `Grammar.parse_iff_sentence` — **the parser accepts exactly its grammar**.
-/

import TableAssembler.Proofs.Statement.Advance

set_option relaxedAutoImplicit false
set_option autoImplicit false

namespace TableAssembler

namespace Grammar

open TableAssembler.Parser

/-! ### Phrases -/

/-- Tokens that may stand in front of a mnemonic. -/
def IsLead (token : Token) : Prop :=
  token.kind = .label ∨ token.kind = .comment ∨ token.kind = .newline

/-- Tokens that may follow the last statement. -/
def IsBlank (token : Token) : Prop := token.kind = .comment ∨ token.kind = .newline

/-- **A phrase**: the tokens of one statement, in their parts. -/
structure Phrase where
  /-- Labels, comments and ends of lines. -/
  lead : List Token
  /-- The mnemonic or directive. -/
  head : Token
  /-- The first operand, if there are operands. -/
  first : Option Token
  /-- The other operands, each behind its comma. -/
  more : List (Token × Token)
  /-- A comment behind the operands. -/
  comment : Option Token
  /-- The end of the line; it may lack at the end of a source. -/
  newline : Option Token
  lead_kind : ∀ token ∈ lead, IsLead token
  head_kind : head.kind = .mnemonic ∨ head.kind = .directive
  first_kind : ∀ token ∈ first, IsOperand token
  more_kind : ∀ pair ∈ more, pair.1.kind = .comma ∧ IsOperand pair.2
  more_nil : first = none → more = []
  comment_kind : ∀ token ∈ comment, token.kind = .comment
  newline_kind : ∀ token ∈ newline, token.kind = .newline

/-- The labels among the tokens in front of a mnemonic, in order. -/
def labelsOf (lead : List Token) : List LabelDef :=
  (lead.filter fun token => token.kind = .label).map fun token => ⟨token.name, token.span.dropLast⟩

/-- The statement with the given labels, mnemonic and operands.  It reaches from its first label, or
else its mnemonic, to its last operand, or else its mnemonic. -/
def statementOf (labels : List LabelDef) (head : Token) (operands : List Token) : Statement where
  labels := labels
  mnemonic := head.text
  mnemonicSpan := head.span
  directive := head.kind = .directive
  operands := operands
  span := ((labels.head?.map LabelDef.span).getD head.span).through
    (operands.getLast?.getD head).span

namespace Phrase

/-- The operands of a phrase, without the commas. -/
def operands (phrase : Phrase) : List Token := phrase.first.toList ++ phrase.more.map Prod.snd

/-- The operands of a phrase and the commas between them. -/
def operandTokens (phrase : Phrase) : List Token :=
  phrase.first.toList ++ phrase.more.flatMap fun pair => [pair.1, pair.2]

/-- **The tokens of a phrase.** -/
def tokens (phrase : Phrase) : List Token :=
  phrase.lead ++ phrase.head :: phrase.operandTokens ++ phrase.comment.toList ++
    phrase.newline.toList

/-- **The statement that a phrase means.** -/
def statement (phrase : Phrase) : Statement :=
  statementOf (labelsOf phrase.lead) phrase.head phrase.operands

/-- The operands of a phrase stand among its tokens in the same order. -/
theorem operands_sublist (phrase : Phrase) : phrase.operands.Sublist phrase.operandTokens := by
  rw [operands, operandTokens]
  refine (List.Sublist.refl _).append ?_
  induction phrase.more with
  | nil => exact .slnil
  | cons pair more ih => exact (ih.cons_cons pair.2).cons pair.1

theorem isOperand_of_mem {phrase : Phrase} {token : Token} (h : token ∈ phrase.operands) :
    IsOperand token := by
  rcases List.mem_append.1 h with hfirst | hmore
  · exact phrase.first_kind token (Option.mem_toList.1 hfirst)
  · obtain ⟨pair, hpair, rfl⟩ := List.mem_map.1 hmore
    exact (phrase.more_kind pair hpair).2

end Phrase

/-- **A sentence**: phrases, of which only the last may lack the end of its line, and behind them
comments and empty lines. -/
structure Sentence (phrases : List Phrase) (tail : List Token) : Prop where
  ended : ∀ phrase ∈ phrases.dropLast, phrase.newline ≠ none
  last : ∀ phrase ∈ phrases.getLast?, phrase.newline = none → tail = []
  blank : ∀ token ∈ tail, IsBlank token

/-! ### Statements in the making -/

theorem labelsOf_append (first second : List Token) :
    labelsOf (first ++ second) = labelsOf first ++ labelsOf second := by
  simp [labelsOf]

theorem labelsOf_blank {token : Token} (h : IsBlank token) : labelsOf [token] = [] := by
  rcases h with h | h <;> simp [labelsOf, h]

theorem labelsOf_label {token : Token} (h : token.kind = .label) :
    labelsOf [token] = [labelOf token] := by
  simp [labelsOf, labelOf, h]

theorem labelsOf_eq_nil_iff {lead : List Token} (h : ∀ token ∈ lead, IsLead token) :
    labelsOf lead = [] ↔ ∀ token ∈ lead, IsBlank token := by
  simp only [labelsOf, List.map_eq_nil_iff, List.filter_eq_nil_iff, decide_eq_true_eq]
  constructor
  · intro hnone token htoken
    exact (h token htoken).resolve_left (hnone token htoken)
  · intro hblank token htoken hlabel
    rcases hblank token htoken with hkind | hkind <;> simp [hlabel] at hkind

theorem startStatement_eq (labels : List LabelDef) (head : Token) :
    startStatement labels head = statementOf labels head [] := by
  cases labels <;> simp [startStatement, statementOf, Span.through]

theorem addOperand_statementOf (labels : List LabelDef) (head : Token) (operands : List Token)
    (token : Token) :
    addOperand (statementOf labels head operands) token =
      statementOf labels head (operands ++ [token]) := by
  simp [addOperand, statementOf, Span.through]

/-! ### Completeness: the machine on a phrase -/

/-- A step that completes nothing. -/
theorem advance_singleton {state next : State} {token : Token} (h : Step state token next none) :
    advance state [token] = .ok (next, []) := by
  rw [advance_cons_ok (step_eq_ok_iff.2 h)]
  rfl

theorem advance_append_silent {state middle next : State} {first second : List Token}
    {done : List Statement} (hfirst : advance state first = .ok (middle, []))
    (hsecond : advance middle second = .ok (next, done)) :
    advance state (first ++ second) = .ok (next, done) := by
  rw [advance_append_ok hfirst, hsecond]
  rfl

/-- The tokens in front of a mnemonic leave their labels. -/
theorem advance_lead {lead : List Token} (h : ∀ token ∈ lead, IsLead token)
    (labels : List LabelDef) :
    advance (.line labels) lead = .ok (.line (labels ++ labelsOf lead), []) := by
  induction lead generalizing labels with
  | nil => simp [labelsOf]
  | cons token lead ih =>
      rw [List.forall_mem_cons] at h
      rw [← List.singleton_append, labelsOf_append, ← List.append_assoc]
      refine advance_append_silent (advance_singleton ?_) (ih h.2 (labels ++ labelsOf [token]))
      rcases h.1 with hlabel | hblank
      · rw [labelsOf_label hlabel]
        exact .label labels hlabel
      · rw [labelsOf_blank hblank, List.append_nil]
        exact .blank labels hblank

/-- Further operands are added to the statement in hand. -/
theorem advance_more {more : List (Token × Token)}
    (h : ∀ pair ∈ more, pair.1.kind = .comma ∧ IsOperand pair.2) (labels : List LabelDef)
    (head : Token) (operands : List Token) :
    advance (.operand (statementOf labels head operands))
        (more.flatMap fun pair => [pair.1, pair.2]) =
      .ok (.operand (statementOf labels head (operands ++ more.map Prod.snd)), []) := by
  induction more generalizing operands with
  | nil => simp
  | cons pair more ih =>
      rw [List.forall_mem_cons] at h
      have hcomma := advance_singleton (.comma (statementOf labels head operands) h.1.1)
      have hnext := advance_singleton (.next (statementOf labels head operands) h.1.2)
      rw [addOperand_statementOf] at hnext
      have hpair := advance_append_silent hcomma hnext
      have hrest := ih h.2 (operands ++ [pair.2])
      rw [List.append_assoc] at hrest
      exact advance_append_silent hpair hrest

/-- The state after the operands of a phrase. -/
def bodyState (phrase : Phrase) : State :=
  if phrase.first = none then .head phrase.statement else .operand phrase.statement

/-- The machine takes the tokens of a phrase up to its last operand. -/
theorem advance_body (phrase : Phrase) :
    advance (.line []) (phrase.lead ++ phrase.head :: phrase.operandTokens) =
      .ok (bodyState phrase, []) := by
  have hlead := advance_lead phrase.lead_kind []
  have hhead := advance_singleton (.head (labelsOf phrase.lead) phrase.head_kind)
  rw [startStatement_eq] at hhead
  rw [← List.singleton_append]
  refine advance_append_silent hlead (advance_append_silent hhead ?_)
  rw [Phrase.operandTokens]
  cases hfirst : phrase.first with
  | none =>
      have hmore : phrase.more = [] := phrase.more_nil hfirst
      simp [bodyState, Phrase.statement, Phrase.operands, hfirst, hmore]
  | some token =>
      have hoperand : IsOperand token := phrase.first_kind token (by simp [hfirst])
      have hstep := advance_singleton
        (.first (statementOf (labelsOf phrase.lead) phrase.head []) hoperand)
      rw [addOperand_statementOf] at hstep
      have hmore := advance_more phrase.more_kind (labelsOf phrase.lead) phrase.head [token]
      simpa [bodyState, Phrase.statement, Phrase.operands, hfirst] using
        advance_append_silent hstep hmore

/-- The state after a phrase that lacks the end of its line. -/
def openState (phrase : Phrase) : State :=
  if phrase.comment = none then bodyState phrase else .comment phrase.statement

/-- A phrase may end where its line does, and where the source does. -/
theorem openState_ends (phrase : Phrase) {token : Token} (h : token.kind = .newline) :
    Step (openState phrase) token (.line []) (some phrase.statement) := by
  unfold openState bodyState
  split
  · split
    · exact .endHead phrase.statement h
    · exact .endOperand phrase.statement h
  · exact .endComment phrase.statement h

theorem finish_openState (phrase : Phrase) (last : Span) :
    finish last (openState phrase) = .ok (some phrase.statement) := by
  unfold openState bodyState
  split
  · split <;> rfl
  · rfl

/-- The machine takes the tokens of a phrase up to its comment. -/
theorem advance_upto_comment (phrase : Phrase) :
    advance (.line [])
        (phrase.lead ++ phrase.head :: phrase.operandTokens ++ phrase.comment.toList) =
      .ok (openState phrase, []) := by
  refine advance_append_silent (advance_body phrase) ?_
  cases hcomment : phrase.comment with
  | none => simp [openState, hcomment]
  | some token =>
      have hkind : token.kind = .comment := phrase.comment_kind token (by simp [hcomment])
      have hopen : openState phrase = .comment phrase.statement := by simp [openState, hcomment]
      rw [hopen]
      refine advance_singleton ?_
      unfold bodyState
      split
      · exact .commentHead phrase.statement hkind
      · exact .commentOperand phrase.statement hkind

/-- **A phrase with the end of its line makes its statement.** -/
theorem advance_phrase_ended {phrase : Phrase} (h : phrase.newline ≠ none) :
    advance (.line []) phrase.tokens = .ok (.line [], [phrase.statement]) := by
  obtain ⟨token, htoken⟩ := Option.ne_none_iff_exists'.1 h
  have hkind : token.kind = .newline := phrase.newline_kind token (by simp [htoken])
  have hstep := step_eq_ok_iff.2 (openState_ends phrase hkind)
  refine advance_append_silent (advance_upto_comment phrase) ?_
  rw [htoken]
  exact advance_cons_ok hstep []

/-- **A phrase without the end of its line leaves its statement in hand.** -/
theorem advance_phrase_open {phrase : Phrase} (h : phrase.newline = none) :
    advance (.line []) phrase.tokens = .ok (openState phrase, []) := by
  rw [Phrase.tokens, h, Option.toList_none, List.append_nil]
  exact advance_upto_comment phrase

theorem advance_ended {phrases : List Phrase} (h : ∀ phrase ∈ phrases, phrase.newline ≠ none) :
    advance (.line []) (phrases.flatMap Phrase.tokens) =
      .ok (.line [], phrases.map Phrase.statement) := by
  induction phrases with
  | nil => rfl
  | cons phrase phrases ih =>
      rw [List.forall_mem_cons] at h
      rw [List.flatMap_cons, advance_append_ok (advance_phrase_ended h.1), ih h.2]
      rfl

theorem advance_tail {tail : List Token} (h : ∀ token ∈ tail, IsBlank token) :
    advance (.line []) tail = .ok (.line [], []) := by
  have hlead : ∀ token ∈ tail, IsLead token := fun token htoken => .inr (h token htoken)
  have hlabels : labelsOf tail = [] := (labelsOf_eq_nil_iff hlead).2 h
  simpa [hlabels] using advance_lead hlead []

/-- **Completeness**: the machine takes a sentence and may stop after it. -/
theorem advance_sentence {phrases : List Phrase} {tail : List Token} (h : Sentence phrases tail)
    (last : Span) :
    ∃ state done final,
      advance (.line []) (phrases.flatMap Phrase.tokens ++ tail) = .ok (state, done) ∧
        finish last state = .ok final ∧ phrases.map Phrase.statement = done ++ final.toList := by
  rcases List.eq_nil_or_concat phrases with rfl | ⟨before, phrase, rfl⟩
  · exact ⟨.line [], [], none, advance_tail h.blank, rfl, rfl⟩
  · rw [List.concat_eq_append] at h ⊢
    have hbefore : ∀ phrase ∈ before, phrase.newline ≠ none := by
      simpa using h.ended
    have hadvance := advance_ended hbefore
    rw [List.flatMap_append, List.append_assoc, advance_append_ok hadvance]
    by_cases hnewline : phrase.newline = none
    · obtain rfl : tail = [] := h.last phrase (by simp) hnewline
      refine ⟨openState phrase, before.map Phrase.statement, some phrase.statement, ?_,
        finish_openState phrase last, by simp⟩
      simp [advance_phrase_open hnewline]
    · refine ⟨.line [], before.map Phrase.statement ++ [phrase.statement], none, ?_, rfl, by simp⟩
      simp [advance_append_ok (advance_phrase_ended hnewline), advance_tail h.blank]

/-! ### Soundness: the phrase in hand -/

/-- **What the machine has in hand** in a state: the tokens since the last completed statement are
the beginning of a phrase, and the state holds its statement. -/
def InHand (hand : List Token) : State → Prop
  | .line labels => (∀ token ∈ hand, IsLead token) ∧ labelsOf hand = labels
  | .head statement => ∃ phrase : Phrase, phrase.first = none ∧ phrase.comment = none ∧
      phrase.newline = none ∧ phrase.tokens = hand ∧ phrase.statement = statement
  | .comma statement => ∃ phrase : Phrase, ∃ comma, phrase.first ≠ none ∧ phrase.comment = none ∧
      phrase.newline = none ∧ comma.kind = .comma ∧ phrase.tokens ++ [comma] = hand ∧
      phrase.statement = statement
  | .operand statement => ∃ phrase : Phrase, phrase.first ≠ none ∧ phrase.comment = none ∧
      phrase.newline = none ∧ phrase.tokens = hand ∧ phrase.statement = statement
  | .comment statement => ∃ phrase : Phrase, phrase.newline = none ∧ phrase.tokens = hand ∧
      phrase.statement = statement

/-- The phrase that a mnemonic starts. -/
def Phrase.start (lead : List Token) (head : Token) (hlead : ∀ token ∈ lead, IsLead token)
    (hhead : head.kind = .mnemonic ∨ head.kind = .directive) : Phrase where
  lead := lead
  head := head
  first := none
  more := []
  comment := none
  newline := none
  lead_kind := hlead
  head_kind := hhead
  first_kind := by simp
  more_kind := by simp
  more_nil := fun _ => rfl
  comment_kind := by simp
  newline_kind := by simp

/-- The phrase with its first operand. -/
def Phrase.withFirst (phrase : Phrase) (token : Token) (h : IsOperand token) : Phrase :=
  { phrase with
    first := some token
    first_kind := by simpa using h
    more_nil := by simp }

/-- The phrase with one more operand behind a comma. -/
def Phrase.withMore (phrase : Phrase) (comma token : Token) (hfirst : phrase.first ≠ none)
    (hcomma : comma.kind = .comma) (h : IsOperand token) : Phrase :=
  { phrase with
    more := phrase.more ++ [(comma, token)]
    more_kind := by
      intro pair hpair
      rcases List.mem_append.1 hpair with hpair | hpair
      · exact phrase.more_kind pair hpair
      · obtain rfl : pair = (comma, token) := by simpa using hpair
        exact ⟨hcomma, h⟩
    more_nil := fun hnone => absurd hnone hfirst }

/-- The phrase with a comment. -/
def Phrase.withComment (phrase : Phrase) (token : Token) (h : token.kind = .comment) : Phrase :=
  { phrase with
    comment := some token
    comment_kind := by simpa using h }

/-- The phrase with the end of its line. -/
def Phrase.withNewline (phrase : Phrase) (token : Token) (h : token.kind = .newline) : Phrase :=
  { phrase with
    newline := some token
    newline_kind := by simpa using h }

/-- A phrase without the end of its line is completed by it. -/
theorem Phrase.tokens_withNewline {phrase : Phrase} (hnone : phrase.newline = none) {token : Token}
    (h : token.kind = .newline) :
    (phrase.withNewline token h).tokens = phrase.tokens ++ [token] := by
  simp [Phrase.tokens, Phrase.withNewline, Phrase.operandTokens, hnone]

theorem Phrase.tokens_withComment {phrase : Phrase} (hcomment : phrase.comment = none)
    (hnewline : phrase.newline = none) {token : Token} (h : token.kind = .comment) :
    (phrase.withComment token h).tokens = phrase.tokens ++ [token] := by
  simp [Phrase.tokens, Phrase.withComment, Phrase.operandTokens, hcomment, hnewline]

theorem isLead_append {hand : List Token} {token : Token} (hhand : ∀ other ∈ hand, IsLead other)
    (htoken : IsLead token) : ∀ other ∈ hand ++ [token], IsLead other :=
  List.forall_mem_append.2 ⟨hhand, by simpa using htoken⟩

/-- A comment behind a phrase leaves it in hand. -/
theorem inHand_comment {phrase : Phrase} (hcomment : phrase.comment = none)
    (hnewline : phrase.newline = none) {token : Token} (h : token.kind = .comment) :
    InHand (phrase.tokens ++ [token]) (.comment phrase.statement) :=
  ⟨phrase.withComment token h, hnewline, phrase.tokens_withComment hcomment hnewline h, rfl⟩

/-- The end of the line behind a phrase completes it. -/
theorem exists_ended {phrase : Phrase} (hnewline : phrase.newline = none) {token : Token}
    (h : token.kind = .newline) :
    ∃ ended : Phrase, ended.newline ≠ none ∧ ended.tokens = phrase.tokens ++ [token] ∧
      some phrase.statement = some ended.statement :=
  ⟨phrase.withNewline token h, by simp [Phrase.withNewline], phrase.tokens_withNewline hnewline h,
    rfl⟩

/-- **One step**: a token either prolongs the phrase in hand or completes it. -/
theorem inHand_step {hand : List Token} {state next : State} {token : Token}
    {completed : Option Statement} (hhand : InHand hand state)
    (hstep : Step state token next completed) :
    (completed = none ∧ InHand (hand ++ [token]) next) ∨
      (next = .line [] ∧ ∃ phrase : Phrase, phrase.newline ≠ none ∧
        phrase.tokens = hand ++ [token] ∧ completed = some phrase.statement) := by
  cases hstep with
  | label labels h =>
      obtain ⟨hlead, rfl⟩ := hhand
      refine .inl ⟨rfl, isLead_append hlead (.inl h), ?_⟩
      rw [labelsOf_append, labelsOf_label h]
  | blank labels h =>
      obtain ⟨hlead, rfl⟩ := hhand
      refine .inl ⟨rfl, isLead_append hlead (.inr h), ?_⟩
      rw [labelsOf_append, labelsOf_blank h, List.append_nil]
  | head labels h =>
      obtain ⟨hlead, rfl⟩ := hhand
      refine .inl ⟨rfl, Phrase.start hand token hlead h, rfl, rfl, rfl, ?_, ?_⟩
      · simp [Phrase.tokens, Phrase.start, Phrase.operandTokens]
      · rw [startStatement_eq]
        rfl
  | first statement h =>
      obtain ⟨phrase, hfirst, hcomment, hnewline, rfl, rfl⟩ := hhand
      have hmore : phrase.more = [] := phrase.more_nil hfirst
      refine .inl ⟨rfl, phrase.withFirst token h, by simp [Phrase.withFirst], hcomment, hnewline,
        ?_, ?_⟩
      · simp [Phrase.tokens, Phrase.withFirst, Phrase.operandTokens, hfirst, hmore, hcomment,
          hnewline]
      · rw [Phrase.statement, Phrase.statement, addOperand_statementOf]
        simp [Phrase.operands, Phrase.withFirst, hfirst, hmore]
  | next statement h =>
      obtain ⟨phrase, comma, hfirst, hcomment, hnewline, hcomma, rfl, rfl⟩ := hhand
      refine .inl ⟨rfl, phrase.withMore comma token hfirst hcomma h, hfirst, hcomment, hnewline,
        ?_, ?_⟩
      · simp [Phrase.tokens, Phrase.withMore, Phrase.operandTokens, hcomment, hnewline]
      · rw [Phrase.statement, Phrase.statement, addOperand_statementOf]
        simp [Phrase.operands, Phrase.withMore]
  | comma statement h =>
      obtain ⟨phrase, hfirst, hcomment, hnewline, rfl, rfl⟩ := hhand
      exact .inl ⟨rfl, phrase, token, hfirst, hcomment, hnewline, h, rfl, rfl⟩
  | commentHead statement h =>
      obtain ⟨phrase, _, hcomment, hnewline, rfl, rfl⟩ := hhand
      exact .inl ⟨rfl, inHand_comment hcomment hnewline h⟩
  | commentOperand statement h =>
      obtain ⟨phrase, _, hcomment, hnewline, rfl, rfl⟩ := hhand
      exact .inl ⟨rfl, inHand_comment hcomment hnewline h⟩
  | endHead statement h =>
      obtain ⟨phrase, _, _, hnewline, rfl, rfl⟩ := hhand
      exact .inr ⟨rfl, exists_ended hnewline h⟩
  | endOperand statement h =>
      obtain ⟨phrase, _, _, hnewline, rfl, rfl⟩ := hhand
      exact .inr ⟨rfl, exists_ended hnewline h⟩
  | endComment statement h =>
      obtain ⟨phrase, hnewline, rfl, rfl⟩ := hhand
      exact .inr ⟨rfl, exists_ended hnewline h⟩

/-- **A run**: the tokens read are the phrases of the completed statements, and the phrase in
hand. -/
theorem inHand_advance {hand tokens : List Token} {state next : State} {done : List Statement}
    (hhand : InHand hand state) (h : advance state tokens = .ok (next, done)) :
    ∃ (phrases : List Phrase) (rest : List Token),
      hand ++ tokens = phrases.flatMap Phrase.tokens ++ rest ∧
        (∀ phrase ∈ phrases, phrase.newline ≠ none) ∧ done = phrases.map Phrase.statement ∧
          InHand rest next := by
  induction tokens generalizing hand state done with
  | nil =>
      cases h
      exact ⟨[], hand, by simp, by simp, rfl, hhand⟩
  | cons token tokens ih =>
      cases hstep : step state token with
      | error error =>
          rw [advance_cons_error hstep] at h
          cases h
      | ok result =>
          obtain ⟨middle, completed⟩ := result
          rw [advance_cons_ok hstep, Outcome.map_eq_ok] at h
          obtain ⟨⟨_, later⟩, hrest, heq⟩ := h
          cases heq
          rcases inHand_step hhand (step_eq_ok_iff.1 hstep) with
            ⟨rfl, hprolonged⟩ | ⟨rfl, phrase, hnewline, htokens, rfl⟩
          · obtain ⟨phrases, rest, htokens, hended, rfl, hlast⟩ := ih hprolonged hrest
            refine ⟨phrases, rest, ?_, hended, rfl, hlast⟩
            simpa using htokens
          · have hempty : InHand [] (.line []) := ⟨by simp, rfl⟩
            obtain ⟨phrases, rest, hsplit, hended, rfl, hlast⟩ := ih hempty hrest
            refine ⟨phrase :: phrases, rest, ?_, List.forall_mem_cons.2 ⟨hnewline, hended⟩, rfl,
              hlast⟩
            rw [List.nil_append] at hsplit
            rw [List.flatMap_cons, htokens, hsplit]
            simp

/-- **The end of input**: nothing but blanks is in hand, or a phrase that lacks only the end of its
line. -/
theorem inHand_finish {hand : List Token} {state : State} {last : Span} {final : Option Statement}
    (hhand : InHand hand state) (h : finish last state = .ok final) :
    (final = none ∧ ∀ token ∈ hand, IsBlank token) ∨
      ∃ phrase : Phrase, phrase.newline = none ∧ phrase.tokens = hand ∧
        final = some phrase.statement := by
  cases state with
  | line labels =>
      obtain ⟨hlead, rfl⟩ := hhand
      cases hlabels : labelsOf hand with
      | nil =>
          rw [hlabels] at h
          cases h
          exact .inl ⟨rfl, (labelsOf_eq_nil_iff hlead).1 hlabels⟩
      | cons label labels =>
          rw [hlabels] at h
          cases h
  | head statement =>
      obtain ⟨phrase, _, _, hnewline, rfl, rfl⟩ := hhand
      cases h
      exact .inr ⟨phrase, hnewline, rfl, rfl⟩
  | comma statement => cases h
  | operand statement =>
      obtain ⟨phrase, _, _, hnewline, rfl, rfl⟩ := hhand
      cases h
      exact .inr ⟨phrase, hnewline, rfl, rfl⟩
  | comment statement =>
      obtain ⟨phrase, hnewline, rfl, rfl⟩ := hhand
      cases h
      exact .inr ⟨phrase, hnewline, rfl, rfl⟩

/-- **Soundness**: tokens that the machine takes and may stop after are a sentence. -/
theorem sentence_of_advance {tokens : List Token} {state : State} {done : List Statement}
    {last : Span} {final : Option Statement} (h : advance (.line []) tokens = .ok (state, done))
    (hfinish : finish last state = .ok final) :
    ∃ phrases tail, Sentence phrases tail ∧ tokens = phrases.flatMap Phrase.tokens ++ tail ∧
      done ++ final.toList = phrases.map Phrase.statement := by
  have hempty : InHand [] (.line []) := ⟨by simp, rfl⟩
  obtain ⟨phrases, rest, hsplit, hended, rfl, hhand⟩ := inHand_advance hempty h
  rw [List.nil_append] at hsplit
  rcases inHand_finish hhand hfinish with ⟨rfl, hblank⟩ | ⟨phrase, hnewline, rfl, rfl⟩
  · have hsentence : Sentence phrases rest := {
      ended := fun phrase hphrase => hended phrase ((List.dropLast_sublist phrases).subset hphrase)
      last := fun phrase hphrase hnone =>
        absurd hnone (hended phrase (List.mem_of_getLast? hphrase))
      blank := hblank }
    exact ⟨phrases, rest, hsentence, hsplit, by simp⟩
  · have hsentence : Sentence (phrases ++ [phrase]) [] := {
      ended := by simpa using hended
      last := fun _ _ _ => rfl
      blank := by simp }
    exact ⟨phrases ++ [phrase], [], hsentence, by simpa using hsplit, by simp⟩

/-! ### The grammar of the parser -/

/-- **The parser accepts exactly its grammar and loses nothing.**  A sequence of tokens is accepted
exactly when those before its first end of input are a sentence; there is then one statement for
each phrase, in order, the one that the phrase means. -/
theorem parse_iff_sentence (tokens : List Token) (statements : List Statement) :
    Statement.parse (tokens.map .ok) = .ok statements ↔
      ∃ phrases tail, Sentence phrases tail ∧
        tokens.takeWhile (fun token => token.kind ≠ .endOfInput) =
          phrases.flatMap Phrase.tokens ++ tail ∧
        statements = phrases.map Phrase.statement := by
  rw [parse_tokens_eq_ok_iff]
  constructor
  · rintro ⟨state, done, final, hadvance, hfinish, rfl⟩
    exact sentence_of_advance hadvance hfinish
  · rintro ⟨phrases, tail, hsentence, htokens, rfl⟩
    rw [visible, htokens]
    exact advance_sentence hsentence _

end Grammar

end TableAssembler
