/-
**Statements in their source.**

A statement keeps the places of its parts: of its labels, of its mnemonic and of its operands.  The
parts come from tokens, which stand in the source in order, and a label only loses its colon; so the
parts of a statement stand in order too, and the statement reaches from the first of them to the
last.  Between two statements there is always the token that ended the line of the first.

Main definitions:

* `Statement.parts` — the parts of a statement as they are written, with their texts;
* `Statement.opening`, `Statement.closing` — where a statement starts, and where it ends;
* `Statement.Nested` — **a statement that encloses its parts**, which stand in order;
* `Statement.Apart` — statements with the end of a line between them.

Main results:

* `Spans.nested_of_phrase` — one statement;
* `Spans.apart_of_phrases` — two statements;
* `Spans.statements_nested` — **statements enclose their parts and stand apart**.
-/

import TableAssembler.Proofs.Location
import TableAssembler.Proofs.Token.Cutting

set_option relaxedAutoImplicit false
set_option autoImplicit false

namespace TableAssembler

namespace Statement

/-- **The parts of a statement** as they are written: labels, mnemonic and operands. -/
def parts (statement : Statement) : List (Span × Text) :=
  statement.labels.map (fun label => (label.span, label.name)) ++
    (statement.mnemonicSpan, statement.mnemonic) ::
      statement.operands.map fun token => (token.span, token.text)

/-- The span that a statement starts with: that of its first label, or else of its mnemonic. -/
def opening (statement : Statement) : Span :=
  (statement.labels.head?.map LabelDef.span).getD statement.mnemonicSpan

/-- The span that a statement ends with: that of its last operand, or else of its mnemonic. -/
def closing (statement : Statement) : Span :=
  (statement.operands.getLast?.map Token.span).getD statement.mnemonicSpan

/-- **A statement encloses its parts**: they show their texts in the source, one behind the other,
and the statement reaches from the start of its opening to the end of its closing. -/
structure Nested (statement : Statement) (source : Text) : Prop where
  shows : ∀ part ∈ statement.parts, part.1.Shows source part.2
  ordered : statement.parts.Pairwise fun a b => a.1.stop ≤ b.1.start
  start : statement.span.start = statement.opening.start
  line : statement.span.line = statement.opening.line
  column : statement.span.column = statement.opening.column
  stop : statement.span.stop = statement.closing.stop

/-- The first statement ends before the other starts, and a newline stands between them. -/
def Apart (source : Text) (first second : Statement) : Prop :=
  first.span.stop ≤ second.span.start ∧
    Text.newline ∈ (source.take second.span.start.toNat).drop first.span.stop.toNat

theorem label_mem_parts {statement : Statement} {label : LabelDef} (h : label ∈ statement.labels) :
    (label.span, label.name) ∈ statement.parts :=
  List.mem_append_left _ (List.mem_map.2 ⟨label, h, rfl⟩)

theorem mnemonic_mem_parts (statement : Statement) :
    (statement.mnemonicSpan, statement.mnemonic) ∈ statement.parts :=
  List.mem_append_right _ List.mem_cons_self

theorem operand_mem_parts {statement : Statement} {token : Token} (h : token ∈ statement.operands) :
    (token.span, token.text) ∈ statement.parts :=
  List.mem_append_right _ (List.mem_cons_of_mem _ (List.mem_map.2 ⟨token, h, rfl⟩))

theorem exists_parts_cons (statement : Statement) :
    ∃ text rest, statement.parts = (statement.opening, text) :: rest := by
  rw [parts, opening]
  cases statement.labels with
  | nil => exact ⟨_, _, rfl⟩
  | cons label labels => exact ⟨_, _, rfl⟩

theorem exists_parts_concat (statement : Statement) :
    ∃ front text, statement.parts = front ++ [(statement.closing, text)] := by
  rw [parts, closing]
  rcases List.eq_nil_or_concat statement.operands with hnil | ⟨operands, token, hconcat⟩
  · rw [hnil]
    exact ⟨_, _, rfl⟩
  · rw [hconcat, List.concat_eq_append, List.map_append, List.getLast?_concat, ← List.cons_append,
      ← List.append_assoc]
    exact ⟨_, token.text, rfl⟩

theorem opening_mem (statement : Statement) :
    ∃ text, (statement.opening, text) ∈ statement.parts := by
  obtain ⟨text, rest, hparts⟩ := statement.exists_parts_cons
  exact ⟨text, by simp [hparts]⟩

theorem closing_mem (statement : Statement) :
    ∃ text, (statement.closing, text) ∈ statement.parts := by
  obtain ⟨front, text, hparts⟩ := statement.exists_parts_concat
  exact ⟨text, by simp [hparts]⟩

namespace Nested

variable {statement : Statement} {source : Text}

/-- No part reaches out of its statement. -/
theorem within (h : statement.Nested source) :
    ∀ part ∈ statement.parts,
      statement.span.start ≤ part.1.start ∧ part.1.stop ≤ statement.span.stop := by
  intro part hpart
  have hshows := h.shows
  have hordered := h.ordered
  rw [h.start, h.stop]
  constructor
  · obtain ⟨text, rest, hparts⟩ := statement.exists_parts_cons
    rw [hparts] at hpart hordered hshows
    rcases List.mem_cons.1 hpart with rfl | hrest
    · exact le_rfl
    · have hlt : statement.opening.start < statement.opening.stop :=
        (hshows _ List.mem_cons_self).nonempty
      have hle : statement.opening.stop ≤ part.1.start := List.rel_of_pairwise_cons hordered hrest
      omega
  · obtain ⟨front, text, hparts⟩ := statement.exists_parts_concat
    rw [hparts] at hpart hordered hshows
    rcases List.mem_append.1 hpart with hfront | hlast
    · have hlt : statement.closing.start < statement.closing.stop :=
        (hshows (statement.closing, text) (by simp)).nonempty
      have hle : part.1.stop ≤ statement.closing.start :=
        (List.pairwise_append.1 hordered).2.2 part hfront _ List.mem_cons_self
      omega
    · rw [List.mem_singleton.1 hlast]

/-- A statement that encloses its parts has its place in the source. -/
theorem placed (h : statement.Nested source) : statement.span.Placed source := by
  obtain ⟨opened, hopening⟩ := statement.opening_mem
  obtain ⟨closed, hclosing⟩ := statement.closing_mem
  have hopen := (h.shows _ hopening).placed
  have hclose := (h.shows _ hclosing).placed
  exact {
    start_nonneg := by rw [h.start]; exact hopen.start_nonneg
    start_le := by
      obtain ⟨hstart, hstop⟩ := h.within _ hopening
      exact hstart.trans (hopen.start_le.trans hstop)
    stop_le := by rw [h.stop]; exact hclose.stop_le
    line := by rw [h.line, h.start]; exact hopen.line
    column := by rw [h.column, h.start]; exact hopen.column }

end Nested

end Statement

namespace Spans

open Grammar Lexer Location TableAssembler.Parser Printing
open Text (utf8)

/-! ### The tokens of the parts -/

/-- The part of a statement that a token makes: a label loses its colon. -/
def partOf (token : Token) : Span × Text :=
  if token.kind = .label then ((labelOf token).span, (labelOf token).name)
  else (token.span, token.text)

/-- The tokens of a phrase that make the parts of its statement. -/
def partTokens (phrase : Phrase) : List Token :=
  (phrase.lead.filter fun token => token.kind = .label) ++ phrase.head :: phrase.operands

theorem partOf_of_operand {token : Token} (h : IsOperand token) :
    partOf token = (token.span, token.text) := by
  refine if_neg ?_
  rcases h with hkind | ⟨hkind, -⟩ <;> simp [hkind]

/-- **The parts of a statement come from tokens of its phrase.** -/
theorem parts_statement (phrase : Phrase) :
    phrase.statement.parts = (partTokens phrase).map partOf := by
  have hlead : (phrase.lead.filter fun token => token.kind = .label).map partOf =
      (labelsOf phrase.lead).map fun label => (label.span, label.name) := by
    rw [labelsOf, List.map_map]
    refine List.map_congr_left fun token htoken => ?_
    exact if_pos (by simpa using List.of_mem_filter htoken)
  have hhead : partOf phrase.head = (phrase.head.span, phrase.head.text) := by
    refine if_neg ?_
    rcases phrase.head_kind with hkind | hkind <;> simp [hkind]
  have hoperands : phrase.operands.map partOf =
      phrase.operands.map fun token => (token.span, token.text) :=
    List.map_congr_left fun token htoken => partOf_of_operand (Phrase.isOperand_of_mem htoken)
  rw [partTokens, List.map_append, List.map_cons, hlead, hhead, hoperands]
  rfl

/-- They stand in front of the comment and of the end of the line. -/
theorem partTokens_sublist (phrase : Phrase) :
    (partTokens phrase).Sublist (phrase.lead ++ phrase.head :: phrase.operandTokens) :=
  List.filter_sublist.append (phrase.operands_sublist.cons_cons phrase.head)

theorem partTokens_sublist_tokens (phrase : Phrase) :
    (partTokens phrase).Sublist phrase.tokens := by
  refine (partTokens_sublist phrase).trans ?_
  rw [Phrase.tokens, List.append_assoc]
  exact List.sublist_append_left _ _

/-! ### Tokens of a source -/

/-- A token stands in a source, as the scanner makes it. -/
structure Stands (source : Text) (token : Token) : Prop where
  lexical : Lexical token
  shows : token.span.Shows source token.text

theorem stands_of_mem_leading {source : Text} {token : Token}
    (h : token ∈ leading (tokenize source)) : Stands source token := by
  obtain ⟨last, hpartition, -⟩ := partition_leading source
  exact ⟨lexical_of_mem_leading h, hpartition.shows token h⟩

theorem stands_of_phrase {source : Text} {phrase : Phrase}
    (h : ∀ token ∈ phrase.tokens, token ∈ leading (tokenize source)) :
    ∀ token ∈ phrase.tokens, Stands source token :=
  fun token htoken => stands_of_mem_leading (h token htoken)

namespace Stands

variable {source : Text} {token : Token}

/-- A part shows its text, starts with its token and ends no later. -/
theorem part (h : Stands source token) :
    (partOf token).1.Shows source (partOf token).2 ∧
      (partOf token).1.start = token.span.start ∧ (partOf token).1.stop ≤ token.span.stop := by
  rw [partOf]
  split
  next hkind =>
    obtain ⟨hlabel, hstop⟩ := shows_labelOf h.lexical hkind h.shows
    exact ⟨hlabel, rfl, by simp only; omega⟩
  next => exact ⟨h.shows, rfl, le_rfl⟩

/-- The end of a line is a newline. -/
theorem newline_mem (h : Stands source token) (hkind : token.kind = .newline) :
    Text.newline ∈ token.span.text source := by
  have hspells := h.lexical.spells
  rw [hkind, ← h.shows.covers] at hspells
  generalize token.span.text source = text at hspells
  cases hspells
  exact List.mem_cons_self

end Stands

/-! ### One statement -/

section Phrase

variable {source : Text} {phrase : Phrase} (hstands : ∀ token ∈ phrase.tokens, Stands source token)
include hstands

theorem exists_token_of_part {part : Span × Text} (h : part ∈ phrase.statement.parts) :
    ∃ token ∈ partTokens phrase, part.1.Shows source part.2 ∧
      part.1.start = token.span.start ∧ part.1.stop ≤ token.span.stop := by
  rw [parts_statement] at h
  obtain ⟨token, htoken, rfl⟩ := List.mem_map.1 h
  exact ⟨token, htoken, (hstands token ((partTokens_sublist_tokens phrase).subset htoken)).part⟩

/-- **The statement of a phrase encloses its parts.** -/
theorem nested_of_phrase (hordered : phrase.tokens.Pairwise fun a b => a.span.stop ≤ b.span.start) :
    phrase.statement.Nested source := by
  have hsublist := partTokens_sublist_tokens phrase
  refine ⟨?_, ?_, rfl, rfl, rfl, ?_⟩
  · intro part hpart
    obtain ⟨token, -, hshows, -⟩ := exists_token_of_part hstands hpart
    exact hshows
  · rw [parts_statement, List.pairwise_map]
    refine (hordered.sublist hsublist).imp_of_mem fun {a b} ha hb hle => ?_
    obtain ⟨-, -, hstop⟩ := (hstands a (hsublist.subset ha)).part
    obtain ⟨-, hstart, -⟩ := (hstands b (hsublist.subset hb)).part
    omega
  · change (phrase.operands.getLast?.getD phrase.head).span.stop =
      ((phrase.operands.getLast?.map Token.span).getD phrase.head.span).stop
    cases phrase.operands.getLast? <;> rfl

end Phrase

/-! ### Two statements -/

/-- **Statements stand apart** if their phrases follow each other and the first ends its line. -/
theorem apart_of_phrases {source : Text} {first second : Phrase}
    (hfirst : ∀ token ∈ first.tokens, Stands source token)
    (hsecond : ∀ token ∈ second.tokens, Stands source token)
    (hordered : (first.tokens ++ second.tokens).Pairwise fun a b => a.span.stop ≤ b.span.start)
    (hended : first.newline ≠ none) : first.statement.Apart source second.statement := by
  obtain ⟨hwithin₁, hwithin₂, hacross⟩ := List.pairwise_append.1 hordered
  obtain ⟨newline, hnewline⟩ := Option.ne_none_iff_exists'.1 hended
  have hmem : newline ∈ first.tokens := by simp [Phrase.tokens, hnewline]
  have hbefore : first.statement.span.stop ≤ newline.span.start := by
    obtain ⟨text, hclosing⟩ := first.statement.closing_mem
    obtain ⟨token, htoken, -, -, hstop⟩ := exists_token_of_part hfirst hclosing
    have hbody := (partTokens_sublist first).subset htoken
    rw [(nested_of_phrase hfirst hwithin₁).stop]
    refine hstop.trans ?_
    rw [Phrase.tokens, hnewline] at hwithin₁
    exact (List.pairwise_append.1 hwithin₁).2.2 token (List.mem_append_left _ hbody) newline
      (by simp)
  have hbehind : newline.span.stop ≤ second.statement.span.start := by
    obtain ⟨text, hopening⟩ := second.statement.opening_mem
    obtain ⟨token, htoken, -, hstart, -⟩ := exists_token_of_part hsecond hopening
    have hle := hacross newline hmem token ((partTokens_sublist_tokens second).subset htoken)
    rw [(nested_of_phrase hsecond hwithin₂).start]
    exact hle.trans hstart.ge
  -- the newline of the source that lies between the two is that of the token
  have hbyte := (hfirst newline hmem).newline_mem (first.newline_kind newline (by simp [hnewline]))
  have hshows := (hfirst newline hmem).shows
  rw [hshows.placed.text_eq, mem_slice_iff] at hbyte
  obtain ⟨k, hstart, hstop, hk⟩ := hbyte
  have hlt := hshows.nonempty
  exact ⟨by omega, mem_slice_iff.2 ⟨k, by omega, by omega, hk⟩⟩

/-! ### The statements of a source -/

/-- All phrases but the last are known to end their line. -/
theorem pairwise_of_ended {phrases : List Phrase}
    (h : ∀ phrase ∈ phrases.dropLast, phrase.newline ≠ none) :
    phrases.Pairwise fun first _ => first.newline ≠ none := by
  induction phrases with
  | nil => exact .nil
  | cons phrase phrases ih =>
      cases phrases with
      | nil => exact List.pairwise_singleton _ _
      | cons next phrases =>
          rw [List.dropLast_cons_cons, List.forall_mem_cons] at h
          exact List.pairwise_cons.2 ⟨fun _ _ => h.1, ih h.2⟩

/-- The phrases of a source consist of tokens of it, in order. -/
theorem exists_standing {source : Text} {parsed : List Statement}
    (h : statements source = .ok parsed) :
    ∃ phrases : List Phrase, parsed = phrases.map Phrase.statement ∧
      (∀ phrase ∈ phrases, ∀ token ∈ phrase.tokens, token ∈ leading (tokenize source)) ∧
        (phrases.flatMap Phrase.tokens).Pairwise (fun a b => a.span.stop ≤ b.span.start) ∧
          phrases.Pairwise fun first _ => first.newline ≠ none := by
  obtain ⟨phrases, tail, hsentence, rfl, htokens⟩ := exists_sentence h
  obtain ⟨last, hpartition, -⟩ := partition_leading source
  have hordered := hpartition.ordered
  rw [htokens] at hordered
  refine ⟨phrases, rfl, fun phrase hphrase token htoken => ?_, (List.pairwise_append.1 hordered).1,
    pairwise_of_ended hsentence.ended⟩
  rw [htokens]
  exact List.mem_append_left _ (List.mem_flatMap.2 ⟨phrase, hphrase, htoken⟩)

section Source

variable {source : Text} {parsed : List Statement} {statement : Statement}
  (h : statements source = .ok parsed) (hstatement : statement ∈ parsed)
include h hstatement

/-- The statements of a source enclose their parts. -/
theorem nested_of_mem : statement.Nested source := by
  obtain ⟨phrases, rfl, hmem, hordered, -⟩ := exists_standing h
  obtain ⟨phrase, hphrase, rfl⟩ := List.mem_map.1 hstatement
  exact nested_of_phrase (stands_of_phrase (hmem phrase hphrase))
    ((List.pairwise_flatMap.1 hordered).1 phrase hphrase)

/-- The parts of a statement start with tokens of the source. -/
theorem exists_leading_of_part {part : Span × Text} (hpart : part ∈ statement.parts) :
    ∃ token ∈ leading (tokenize source), part.1.start = token.span.start := by
  obtain ⟨phrases, rfl, hmem, -⟩ := exists_standing h
  obtain ⟨phrase, hphrase, rfl⟩ := List.mem_map.1 hstatement
  obtain ⟨token, htoken, -, hstart, -⟩ :=
    exists_token_of_part (stands_of_phrase (hmem phrase hphrase)) hpart
  have hphraseToken := (partTokens_sublist_tokens phrase).subset htoken
  exact ⟨token, hmem phrase hphrase token hphraseToken, hstart⟩

end Source

/-- **Statements enclose their parts and stand apart.**  In every statement of a source the labels,
the mnemonic and the operands stand in this order, none is empty, each shows its text, and none
reaches out of the statement.  The statement starts, by offset, line and column, where its first
label starts, or else its mnemonic, and ends where its last operand ends, or else its mnemonic.  A
statement ends before each later one starts, and a newline stands between the two. -/
theorem statements_nested (source : Text) (parsed : List Statement)
    (h : statements source = .ok parsed) :
    (∀ statement ∈ parsed, statement.Nested source ∧
        ∀ part ∈ statement.parts,
          statement.span.start ≤ part.1.start ∧ part.1.stop ≤ statement.span.stop) ∧
      parsed.Pairwise (Statement.Apart source) := by
  constructor
  · intro statement hstatement
    have hnested := nested_of_mem h hstatement
    exact ⟨hnested, hnested.within⟩
  · obtain ⟨phrases, rfl, hmem, hordered, hended⟩ := exists_standing h
    obtain ⟨hwithin, hacross⟩ := List.pairwise_flatMap.1 hordered
    rw [List.pairwise_map]
    refine (hacross.and hended).imp_of_mem ?_
    rintro first second hfirst hsecond ⟨hle, hnewline⟩
    refine apart_of_phrases (stands_of_phrase (hmem first hfirst))
      (stands_of_phrase (hmem second hsecond)) ?_ hnewline
    exact List.pairwise_append.2 ⟨hwithin first hfirst, hwithin second hsecond, hle⟩

/-- A statement with two labels on lines of their own, a comment and an empty line behind it, and
another statement. -/
def spread : Text := utf8 "a:\nb: MOV 1, x // c\n\n.byte 0x2"

/-- The statements of `spread`. -/
def spreadStatements : List Statement :=
  [⟨[⟨utf8 "a", ⟨0, 1, 1, 1⟩⟩, ⟨utf8 "b", ⟨3, 4, 2, 1⟩⟩], utf8 "MOV", ⟨6, 9, 2, 4⟩, false,
      [⟨.number, utf8 "1", ⟨10, 11, 2, 8⟩, 10⟩, ⟨.identifier, utf8 "x", ⟨13, 14, 2, 11⟩, 0⟩],
      ⟨0, 14, 1, 1⟩⟩,
    ⟨[], utf8 ".byte", ⟨21, 26, 4, 1⟩, true, [⟨.number, utf8 "0x2", ⟨27, 30, 4, 7⟩, 16⟩],
      ⟨21, 30, 4, 1⟩⟩]

theorem spread_nested :
    statements spread = .ok spreadStatements ∧
      (∀ statement ∈ spreadStatements, statement.Nested spread ∧
        ∀ part ∈ statement.parts,
          statement.span.start ≤ part.1.start ∧ part.1.stop ≤ statement.span.stop) ∧
        spreadStatements.Pairwise (Statement.Apart spread) := by
  have hparsed : statements spread = .ok spreadStatements := by decide +kernel
  exact ⟨hparsed, statements_nested spread spreadStatements hparsed⟩

end Spans

end TableAssembler
