/-
**Printing statements and reading them back.**

A statement is printed on one line: its labels, its mnemonic, its operands.  The layout of the
source it came from is lost, and so are its comments, but nothing else.  On the level of tokens this
is plain: a phrase without its comments and with fresh commas and a fresh end of line means the same
statement (`Printing.plain`).  The rest is about the scanner, which has to cut the printed text into
just those tokens: each of them is spelled as before, and what is printed behind it cannot prolong
it.

Main definitions:

* `Printing.plain`, `Printing.plainAll` — phrases in their normal layout;
* `Printing.line` — the phrase with given operands;
* `Printing.text` — **statements in print, one on each line**.

Main results:

* `Printing.scanned_statement`, `Printing.scanned_text` — a printed statement is cut into the tokens
  of its phrase in normal layout, and a printed source into those of its phrases;
* `Printing.text_reassembles` — **what is printed parses and assembles as before**.
-/

import TableAssembler.Assembler
import TableAssembler.Proofs.Program.Likeness
import TableAssembler.Proofs.Statement.Grammar
import TableAssembler.Proofs.Statement.Likeness
import TableAssembler.Proofs.Token.Lexemes

set_option relaxedAutoImplicit false
set_option autoImplicit false

namespace TableAssembler

namespace Printing

open Text (byte isNamePart utf8)
open TableAssembler.Parser TableAssembler.Lexer TableAssembler.Grammar

/-! ### Phrases in normal layout -/

/-- A comma. -/
def comma : Token := { kind := .comma, text := [byte ','] }

/-- An end of line. -/
def newline : Token := { kind := .newline, text := [Text.newline] }

theorem isLead_filter (lead : List Token) :
    ∀ token ∈ lead.filter fun token => token.kind = .label, IsLead token :=
  fun _ htoken => .inl (of_decide_eq_true (List.mem_filter.1 htoken).2)

theorem isOperand_more (phrase : Phrase) :
    ∀ pair ∈ phrase.more.map fun pair => (comma, pair.2),
      pair.1.kind = .comma ∧ IsOperand pair.2 := by
  intro pair hpair
  obtain ⟨original, horiginal, rfl⟩ := List.mem_map.1 hpair
  exact ⟨rfl, (phrase.more_kind original horiginal).2⟩

theorem kind_comment : ∀ token ∈ (none : Option Token), token.kind = .comment := by
  rintro token ⟨⟩

theorem kind_newline (ended : Bool) :
    ∀ token ∈ if ended then some newline else none, token.kind = .newline := by
  cases ended with
  | true =>
      rintro token ⟨rfl⟩
      rfl
  | false =>
      rintro token ⟨⟩

/-- A phrase in normal layout: no comments, and no empty lines in it. -/
def plain (ended : Bool) (phrase : Phrase) : Phrase where
  lead := phrase.lead.filter fun token => token.kind = .label
  head := phrase.head
  first := phrase.first
  more := phrase.more.map fun pair => (comma, pair.2)
  comment := none
  newline := if ended then some newline else none
  lead_kind := isLead_filter phrase.lead
  head_kind := phrase.head_kind
  first_kind := phrase.first_kind
  more_kind := isOperand_more phrase
  more_nil h := List.map_eq_nil_iff.2 (phrase.more_nil h)
  comment_kind := kind_comment
  newline_kind := kind_newline ended

theorem tokens_plain_true (phrase : Phrase) :
    (plain true phrase).tokens = (plain false phrase).tokens ++ [newline] := by
  simp [Phrase.tokens, Phrase.operandTokens, plain]

/-- The layout of a phrase says nothing about its statement. -/
theorem statement_plain (ended : Bool) (phrase : Phrase) :
    (plain ended phrase).statement = phrase.statement := by
  simp [Phrase.statement, Phrase.operands, plain, labelsOf, List.filter_filter, Function.comp_def]

/-! ### Phrases by their operands -/

section Line

variable {lead operands : List Token} {head : Token} (hlead : ∀ token ∈ lead, IsLead token)
  (hhead : head.kind = .mnemonic ∨ head.kind = .directive)
  (hoperands : ∀ token ∈ operands, IsOperand token)

theorem isOperand_head? {operands : List Token} (h : ∀ token ∈ operands, IsOperand token) :
    ∀ token ∈ operands.head?, IsOperand token :=
  fun token htoken => h token (List.mem_of_mem_head? htoken)

theorem isOperand_tail {operands : List Token} (h : ∀ token ∈ operands, IsOperand token) :
    ∀ pair ∈ operands.tail.map fun token => (comma, token),
      pair.1.kind = .comma ∧ IsOperand pair.2 := by
  intro pair hpair
  obtain ⟨token, htoken, rfl⟩ := List.mem_map.1 hpair
  exact ⟨rfl, h token (List.mem_of_mem_tail htoken)⟩

theorem tail_of_head?_eq_none {operands : List Token} (h : operands.head? = none) :
    operands.tail.map (fun token => (comma, token)) = [] := by
  rw [List.head?_eq_none_iff.1 h, List.tail_nil, List.map_nil]

/-- **The phrase with the given operands**, which have commas between them. -/
def line : Phrase where
  lead := lead
  head := head
  first := operands.head?
  more := operands.tail.map fun token => (comma, token)
  comment := none
  newline := none
  lead_kind := hlead
  head_kind := hhead
  first_kind := isOperand_head? hoperands
  more_kind := isOperand_tail hoperands
  more_nil := tail_of_head?_eq_none
  comment_kind := kind_comment
  newline_kind := kind_newline false

theorem statement_line :
    (line hlead hhead hoperands).statement = statementOf (labelsOf lead) head operands := by
  have hall : (line hlead hhead hoperands).operands = operands := by
    cases operands <;> simp [Phrase.operands, line, Function.comp_def]
  rw [Phrase.statement, hall]
  rfl

/-- The tokens of a phrase with given operands are as the scanner makes them if its parts are. -/
theorem lexical_line (hlabels : ∀ token ∈ lead, Lexical token) (hfirst : Lexical head)
    (hrest : ∀ token ∈ operands, Lexical token) :
    ∀ token ∈ (line hlead hhead hoperands).tokens, Lexical token := by
  intro token htoken
  simp only [Phrase.tokens, Phrase.operandTokens, line, List.mem_append, List.mem_cons,
    List.mem_flatMap, List.mem_map, Option.mem_toList, Option.toList_none, List.not_mem_nil,
    or_false] at htoken
  rcases htoken with hlabel | rfl | hoperand | ⟨_, ⟨operand, hoperand, rfl⟩, rfl | rfl⟩
  · exact hlabels token hlabel
  · exact hfirst
  · exact hrest token (List.mem_of_mem_head? hoperand)
  · exact ⟨.comma, rfl⟩
  · exact hrest _ (List.mem_of_mem_tail hoperand)

end Line

/-! ### Phrases one behind the other -/

/-- Phrases in normal layout, one on each line and no line behind the last. -/
def plainAll : List Phrase → List Phrase
  | [] => []
  | [phrase] => [plain false phrase]
  | phrase :: next :: rest => plain true phrase :: plainAll (next :: rest)

theorem map_statement_plainAll (phrases : List Phrase) :
    (plainAll phrases).map Phrase.statement = phrases.map Phrase.statement := by
  fun_induction plainAll phrases with
  | case1 => rfl
  | case2 phrase => simp [statement_plain]
  | case3 phrase next rest ih =>
      rw [List.map_cons, ih, statement_plain]
      rfl

theorem plainAll_ne_nil (phrase : Phrase) (rest : List Phrase) :
    plainAll (phrase :: rest) ≠ [] := by
  cases rest <;> simp [plainAll]

theorem sentence_plainAll (phrases : List Phrase) : Sentence (plainAll phrases) [] where
  ended := by
    fun_induction plainAll phrases with
    | case1 => simp
    | case2 phrase => simp
    | case3 phrase next rest ih =>
        rw [List.dropLast_cons_of_ne_nil (plainAll_ne_nil next rest), List.forall_mem_cons]
        exact ⟨by simp [plain], ih⟩
  last := fun _ _ _ => rfl
  blank := by simp

/-! ### Statements in print -/

/-- **Statements in print, one on each line.** -/
def text (statements : List Statement) : Text :=
  Text.join [Text.newline] (statements.map Statement.render)

/-- A list in print is its first member, and a separator before each other. -/
theorem join_cons (separator first : Text) (rest : List Text) :
    Text.join separator (first :: rest) = first ++ rest.flatMap (separator ++ ·) := by
  induction rest generalizing first with
  | nil => simp [Text.join]
  | cons second rest ih =>
      rw [Text.join, List.intercalate_cons_cons, ← Text.join, ih, List.flatMap_cons]
      simp only [List.append_assoc]

theorem text_cons_cons (first second : Statement) (rest : List Statement) :
    text (first :: second :: rest) =
      first.render ++ Text.newline :: text (second :: rest) := by
  simp [text, Text.join, List.intercalate_cons_cons]

/-- The text of a label token is the name of the label and a colon. -/
theorem name_of_label {token : Token} (h : Lexical token) (hkind : token.kind = .label) :
    token.name ++ [byte ':'] = token.text := by
  have hspells := h.spells
  rw [hkind, spells_label_iff] at hspells
  obtain ⟨name, -, htext⟩ := hspells
  have hcolon : utf8 ":" = [byte ':'] := by decide
  simp [Token.name, hkind, htext, hcolon, Text.dropTail, Text.endsWith]

/-! ### The scanner on a printed statement -/

/-- What is printed behind a name or a number does not prolong it. -/
def Stops (rest : Text) : Prop := ∀ c ∈ rest.head?, isNamePart c = false ∧ c ≠ byte ':'

theorem stops_cons {c : UInt8} (h : isNamePart c = false ∧ c ≠ byte ':') (rest : Text) :
    Stops (c :: rest) := by
  rintro d ⟨rfl⟩
  exact h

theorem ends_of_stops {kind : TokenKind} {rest : Text} (h : Stops rest) (hkind : kind ≠ .comment) :
    Ends kind rest := by
  cases kind with
  | comment => exact absurd rfl hkind
  | mnemonic => exact h
  | identifier => exact h
  | directive => exact fun c hc => (h c hc).1
  | number => exact fun c hc => (h c hc).1
  | _ => trivial

/-- Labels leave the line as fresh as it was. -/
theorem scanned_labels {labels : List Token} (hlexical : ∀ token ∈ labels, Lexical token)
    (hkind : ∀ token ∈ labels, token.kind = .label) {rest : Text}
    {pieces : List (TokenKind × Text)} (hrest : Scanned true rest pieces) :
    Scanned true (labels.flatMap (fun token => token.text ++ [byte ' ']) ++ rest)
      (labels.map piece ++ pieces) := by
  induction labels with
  | nil => exact hrest
  | cons token labels ih =>
      rw [List.forall_mem_cons] at hlexical hkind
      have hspells := hlexical.1.spells
      have hnext := (ih hlexical.2 hkind.2).blank (c := byte ' ') (by decide)
      rw [hkind.1] at hspells
      have htoken : Scanned true ([] ++ (token.text ++ _)) ((.label, token.text) :: _) :=
        .token (by simp) hspells trivial (by simp [Fits]) hnext
      simpa [piece, hkind.1] using htoken

/-- An operand with what is printed before it. -/
theorem scanned_operand {token : Token} (hlexical : Lexical token) (hoperand : IsOperand token)
    {rest : Text} {pieces : List (TokenKind × Text)} (hstops : Stops rest)
    (hrest : Scanned false rest pieces) :
    Scanned false (byte ' ' :: (token.text ++ rest)) (piece token :: pieces) := by
  have hends : Ends token.kind rest :=
    ends_of_stops hstops (by rcases hoperand with h | h <;> simp [h])
  have hfits : Fits false token.kind := by
    rcases hoperand with h | h <;> simp [Fits, h]
  have hfresh : freshAfter token.kind false = false := by
    rcases hoperand with h | h <;> simp [freshAfter, h]
  have htoken : Scanned false ([] ++ (token.text ++ rest)) ((token.kind, token.text) :: pieces) :=
    .token (by simp) hlexical.spells hends hfits (by rwa [hfresh])
  exact htoken.blank (by decide)

theorem stops_more (more : List (Token × Token)) {rest : Text} (h : Stops rest) :
    Stops (more.flatMap (fun pair => byte ',' :: byte ' ' :: pair.2.text) ++ rest) := by
  cases more with
  | nil => exact h
  | cons pair more => exact stops_cons (by decide) _

/-- The operands behind the first, each with the comma and the blank before it. -/
theorem scanned_more {more : List (Token × Token)} (hlexical : ∀ pair ∈ more, Lexical pair.2)
    (hoperand : ∀ pair ∈ more, IsOperand pair.2) {rest : Text}
    {pieces : List (TokenKind × Text)} (hstops : Stops rest) (hrest : Scanned false rest pieces) :
    Scanned false (more.flatMap (fun pair => byte ',' :: byte ' ' :: pair.2.text) ++ rest)
      (more.flatMap (fun pair => [piece comma, piece pair.2]) ++ pieces) := by
  induction more with
  | nil => exact hrest
  | cons pair more ih =>
      rw [List.forall_mem_cons] at hlexical hoperand
      have hnext := scanned_operand hlexical.1 hoperand.1 (stops_more more hstops)
        (ih hlexical.2 hoperand.2)
      have hcomma : Scanned false ([] ++ ([byte ','] ++ _)) ((.comma, [byte ',']) :: _) :=
        .token (by simp) .comma trivial (by simp [Fits]) hnext
      simpa [piece, comma] using hcomma

/-- The operands of a phrase, as they are printed. -/
theorem renderOperands_eq {phrase : Phrase} :
    Statement.renderOperands phrase.operands =
      phrase.first.toList.flatMap (fun token => byte ' ' :: token.text) ++
        phrase.more.flatMap fun pair => byte ',' :: byte ' ' :: pair.2.text := by
  have hblank : utf8 " " = [byte ' '] := by decide
  have hcomma : utf8 ", " = [byte ',', byte ' '] := by decide
  cases hfirst : phrase.first with
  | none => simp [Phrase.operands, hfirst, phrase.more_nil hfirst, Statement.renderOperands]
  | some token =>
      have hoperands : phrase.operands = token :: phrase.more.map Prod.snd := by
        simp [Phrase.operands, hfirst]
      rw [hoperands, Statement.renderOperands, List.map_cons, join_cons, hblank, hcomma]
      · simp [List.flatMap_map]
      · simp

/-- The labels of a phrase, as they are printed. -/
theorem renderLabels_eq {phrase : Phrase} (hlexical : ∀ token ∈ phrase.lead, Lexical token) :
    (labelsOf phrase.lead).flatMap (fun label => label.name ++ utf8 ": ") =
      (phrase.lead.filter fun token => token.kind = .label).flatMap
        fun token => token.text ++ [byte ' '] := by
  have hcolon : utf8 ": " = [byte ':'] ++ [byte ' '] := by decide
  rw [labelsOf, List.flatMap_map, hcolon]
  refine List.flatMap_congr fun token htoken => ?_
  obtain ⟨hmem, hkind⟩ := List.mem_filter.1 htoken
  rw [← List.append_assoc, name_of_label (hlexical token hmem) (by simpa using hkind)]

theorem operand_mem {phrase : Phrase} {pair : Token × Token} (h : pair ∈ phrase.more) :
    pair.2 ∈ phrase.operandTokens :=
  List.mem_append_right _ (List.mem_flatMap.2 ⟨pair, h, by simp⟩)

theorem stops_operands (phrase : Phrase) {rest : Text} (h : Stops rest) :
    Stops (Statement.renderOperands phrase.operands ++ rest) := by
  rw [renderOperands_eq, List.append_assoc]
  cases phrase.first with
  | none => exact stops_more phrase.more h
  | some token => exact stops_cons (by decide) _

theorem scanned_operands {phrase : Phrase}
    (hlexical : ∀ token ∈ phrase.operandTokens, Lexical token) {rest : Text}
    {pieces : List (TokenKind × Text)} (hstops : Stops rest) (hrest : Scanned false rest pieces) :
    Scanned false (Statement.renderOperands phrase.operands ++ rest)
      ((plain false phrase).operandTokens.map piece ++ pieces) := by
  have hlast : ∀ pair ∈ phrase.more, Lexical pair.2 :=
    fun pair hpair => hlexical pair.2 (operand_mem hpair)
  have hmore := scanned_more hlast (fun pair hpair => (phrase.more_kind pair hpair).2) hstops hrest
  have hpieces : (plain false phrase).operandTokens.map piece =
      phrase.first.toList.map piece ++
        phrase.more.flatMap fun pair => [piece comma, piece pair.2] := by
    simp [Phrase.operandTokens, plain, List.flatMap_map, List.map_flatMap]
  rw [renderOperands_eq, hpieces, List.append_assoc, List.append_assoc]
  cases hfirst : phrase.first with
  | none => exact hmore
  | some token =>
      have htoken : Lexical token := hlexical token (by simp [Phrase.operandTokens, hfirst])
      have hoperand : IsOperand token := phrase.first_kind token hfirst
      simpa using scanned_operand htoken hoperand (stops_more phrase.more hstops) hmore

/-- **A printed statement is cut into the tokens of its phrase in normal layout.** -/
theorem scanned_statement {phrase : Phrase} (hlexical : ∀ token ∈ phrase.tokens, Lexical token)
    {rest : Text} {pieces : List (TokenKind × Text)} (hstops : Stops rest)
    (hrest : Scanned false rest pieces) :
    Scanned true (phrase.statement.render ++ rest)
      ((plain false phrase).tokens.map piece ++ pieces) := by
  have hlead : ∀ token ∈ phrase.lead, Lexical token :=
    fun token htoken => hlexical token (by simp [Phrase.tokens, htoken])
  have hhead : Lexical phrase.head := hlexical phrase.head (by simp [Phrase.tokens])
  have hargs : ∀ token ∈ phrase.operandTokens, Lexical token :=
    fun token htoken => hlexical token (by simp [Phrase.tokens, htoken])
  have hoperands := scanned_operands hargs hstops hrest
  have hends : Ends phrase.head.kind (Statement.renderOperands phrase.operands ++ rest) :=
    ends_of_stops (stops_operands phrase hstops)
      (by rcases phrase.head_kind with h | h <;> simp [h])
  have hfits : Fits true phrase.head.kind := by
    rcases phrase.head_kind with h | h <;> simp [Fits, h]
  have hfresh : freshAfter phrase.head.kind true = false := by
    rcases phrase.head_kind with h | h <;> simp [freshAfter, h]
  have hbody : Scanned true ([] ++ (phrase.head.text ++ _)) ((phrase.head.kind, _) :: _) :=
    .token (by simp) hhead.spells hends hfits (by rwa [hfresh])
  have hlabel : ∀ token ∈ phrase.lead.filter fun token => token.kind = .label,
      Lexical token ∧ token.kind = .label := by
    intro token htoken
    obtain ⟨hmem, hkind⟩ := List.mem_filter.1 htoken
    exact ⟨hlead token hmem, by simpa using hkind⟩
  have hlabels := scanned_labels (fun token htoken => (hlabel token htoken).1)
    (fun token htoken => (hlabel token htoken).2) hbody
  rw [← renderLabels_eq hlead] at hlabels
  simpa [Statement.render, Phrase.statement, statementOf, Phrase.tokens, plain, piece] using hlabels

/-- **A printed source is cut into the tokens of its phrases in normal layout.** -/
theorem scanned_text {phrases : List Phrase}
    (hlexical : ∀ phrase ∈ phrases, ∀ token ∈ phrase.tokens, Lexical token) :
    Scanned true (text (phrases.map Phrase.statement))
      (((plainAll phrases).flatMap Phrase.tokens).map piece) := by
  fun_induction plainAll phrases with
  | case1 => exact .finish (by simp [text, Text.join])
  | case2 phrase =>
      have hphrase := hlexical phrase (by simp)
      have hnil : Scanned false [] [] := .finish (by simp)
      simpa [text, Text.join] using scanned_statement hphrase (by simp [Stops]) hnil
  | case3 phrase next rest ih =>
      rw [List.forall_mem_cons] at hlexical
      have hline : Scanned false ([] ++ ([Text.newline] ++ _)) ((.newline, _) :: _) :=
        .token (by simp) .newline trivial (by simp [Fits]) (ih hlexical.2)
      have hstops := stops_cons (by decide : isNamePart Text.newline = false ∧ _)
        (text ((next :: rest).map Phrase.statement))
      have hphrase := scanned_statement hlexical.1 hstops hline
      rw [List.map_cons, List.map_cons, text_cons_cons, List.flatMap_cons, tokens_plain_true]
      simpa [piece, newline] using hphrase

/-! ### Reading back -/

/-- Tokens of the same classes and texts differ in their spans only, if their bases are those that
the scanner gives them. -/
theorem alike_of_pieces {tokens tokens' : List Token}
    (h : ∀ token ∈ tokens, token.base = if token.kind = .number then numberBase token.text else 0)
    (h' : ∀ token ∈ tokens', token.base = if token.kind = .number then numberBase token.text else 0)
    (hpieces : tokens.map piece = tokens'.map piece) :
    List.Forall₂ (Token.Alike .butSpans) tokens tokens' := by
  induction tokens generalizing tokens' with
  | nil =>
      rw [List.map_nil, eq_comm, List.map_eq_nil_iff] at hpieces
      rw [hpieces]
      exact .nil
  | cons token tokens ih =>
      obtain ⟨token', rest', rfl, hpiece, hrest⟩ := List.map_eq_cons_iff.1 hpieces.symm
      rw [List.forall_mem_cons] at h h'
      obtain ⟨hkind, htext⟩ := Prod.mk.inj hpiece
      refine .cons ⟨hkind.symm, ?_, fun _ => htext.symm, fun _ => htext.symm, trivial⟩
        (ih h.2 h'.2 hrest.symm)
      rw [h.1, h'.1, hkind, htext]

/-- Tokens that differ in their spans only parse alike. -/
theorem parse_tokens_alike {tokens tokens' : List Token}
    (h : List.Forall₂ (Token.Alike .butSpans) tokens tokens') :
    Outcome.Alike (SourceError.Alike .butSpans) (List.Forall₂ (Statement.Alike .butSpans))
      (Statement.parse (tokens.map .ok)) (Statement.parse (tokens'.map .ok)) := by
  refine parse_alike Likeness.closed_butSpans ?_
  rw [List.forall₂_map_left_iff, List.forall₂_map_right_iff]
  exact h.imp fun _ _ htoken => .ok htoken

theorem lexical_plain {phrase : Phrase} (h : ∀ token ∈ phrase.tokens, Lexical token)
    (ended : Bool) : ∀ token ∈ (plain ended phrase).tokens, Lexical token := by
  intro token htoken
  simp only [Phrase.tokens, Phrase.operandTokens, plain, List.mem_append, List.mem_cons,
    List.mem_filter, List.mem_flatMap, List.mem_map, Option.mem_toList] at htoken
  -- labels, head, first operand, commas and other operands, no comment, end of line
  rcases htoken with
    ((⟨hlead, -⟩ | rfl | hfirst | ⟨_, ⟨pair, hpair, rfl⟩, hmem⟩) | hnone) | hnewline
  · exact h token (by simp [Phrase.tokens, hlead])
  · exact h _ (by simp [Phrase.tokens])
  · exact h token (by simp [Phrase.tokens, Phrase.operandTokens, hfirst])
  · rcases hmem with rfl | rfl | hmem
    · exact ⟨.comma, rfl⟩
    · exact h pair.2 (by simp [Phrase.tokens, operand_mem hpair])
    · cases hmem
  · cases hnone
  · cases ended with
    | false => cases hnewline
    | true =>
        cases hnewline
        exact ⟨.newline, rfl⟩

/-- The tokens of phrases in normal layout are as the scanner makes them. -/
theorem lexical_plainAll {phrases : List Phrase}
    (h : ∀ phrase ∈ phrases, ∀ token ∈ phrase.tokens, Lexical token) :
    ∀ token ∈ (plainAll phrases).flatMap Phrase.tokens, Lexical token := by
  fun_induction plainAll phrases with
  | case1 => simp
  | case2 phrase => simpa using lexical_plain (h phrase (by simp)) false
  | case3 phrase next rest ih =>
      rw [List.forall_mem_cons] at h
      rw [List.flatMap_cons, List.forall_mem_append]
      exact ⟨lexical_plain h.1 true, ih h.2⟩

theorem lexical_of_mem_leading {source : Text} {token : Token}
    (h : token ∈ leading (tokenize source)) : Lexical token :=
  lexical_of_mem_scan (mem_of_mem_leading h) (kind_of_mem_leading token h)

/-- The statements of a source are those of the phrases of its tokens. -/
theorem exists_sentence {source : Text} {parsed : List Statement}
    (h : statements source = .ok parsed) :
    ∃ (phrases : List Phrase) (tail : List Token), Sentence phrases tail ∧
      parsed = phrases.map Phrase.statement ∧
        leading (tokenize source) = phrases.flatMap Phrase.tokens ++ tail := by
  obtain ⟨-, state, done, final, hadvance, hfinish, rfl⟩ := parse_eq_ok_iff.1 h
  obtain ⟨phrases, tail, hsentence, htokens, hstatements⟩ := sentence_of_advance hadvance hfinish
  exact ⟨phrases, tail, hsentence, hstatements, htokens⟩

/-- The phrases of a source that parses, and its statements. -/
theorem exists_phrases {source : Text} {parsed : List Statement}
    (h : statements source = .ok parsed) :
    ∃ phrases : List Phrase, parsed = phrases.map Phrase.statement ∧
      ∀ phrase ∈ phrases, ∀ token ∈ phrase.tokens, Lexical token := by
  obtain ⟨phrases, tail, -, hstatements, htokens⟩ := exists_sentence h
  refine ⟨phrases, hstatements, fun phrase hphrase token htoken => ?_⟩
  have hmem : token ∈ leading (tokenize source) := by
    rw [htokens]
    exact List.mem_append_left _ (List.mem_flatMap.2 ⟨phrase, hphrase, htoken⟩)
  exact lexical_of_mem_leading hmem

/-- A text that is cut into the tokens of phrases in normal layout parses to their statements, which
differ in their spans only. -/
theorem statements_of_scanned {source : Text} {phrases : List Phrase}
    (h : ∀ phrase ∈ phrases, ∀ token ∈ phrase.tokens, Lexical token)
    (hscanned : Scanned true source (((plainAll phrases).flatMap Phrase.tokens).map piece)) :
    ∃ reparsed, statements source = .ok reparsed ∧
      List.Forall₂ (Statement.Alike .butSpans) (phrases.map Phrase.statement) reparsed := by
  obtain ⟨tokens, last, hscan, hpieces, hlexical, hlast⟩ := scan_of_scanned hscanned {}
  -- the tokens of the text are those of the phrases in normal layout, at other places
  have hplain := lexical_plainAll h
  have hlike : List.Forall₂ (Token.Alike .butSpans)
      ((plainAll phrases).flatMap Phrase.tokens ++ [last]) (tokens ++ [last]) :=
    List.rel_append
      (alike_of_pieces (fun token htoken => (hplain token htoken).base)
        (fun token htoken => (hlexical token htoken).base) hpieces.symm)
      (.cons ⟨rfl, rfl, fun _ => rfl, fun _ => rfl, trivial⟩ .nil)
  have hparse : Statement.parse (((plainAll phrases).flatMap Phrase.tokens ++ [last]).map .ok) =
      .ok (phrases.map Phrase.statement) := by
    have hvisible : visible [last] = [] := by simp [visible, hlast]
    rw [parse_tokens_eq_ok_iff, visible_append fun token htoken => (hplain token htoken).kind_ne,
      hvisible, ← map_statement_plainAll]
    exact advance_sentence (sentence_plainAll phrases) _
  rw [statements, tokenize, hscan]
  exact (parse_tokens_alike hlike).exists_ok hparse

/-- What is printed parses to statements that differ in their spans only. -/
theorem statements_text {phrases : List Phrase}
    (h : ∀ phrase ∈ phrases, ∀ token ∈ phrase.tokens, Lexical token) :
    ∃ reparsed, statements (text (phrases.map Phrase.statement)) = .ok reparsed ∧
      List.Forall₂ (Statement.Alike .butSpans) (phrases.map Phrase.statement) reparsed :=
  statements_of_scanned h (scanned_text h)

/-- **What is printed parses and assembles as before.**  If a source parses, then so do its
statements in print, to statements that are the same in everything but their spans; and under every
opcode table the two sources assemble to programs, or are refused with errors, that are the same in
everything but spans. -/
theorem text_reassembles (source : Text) (parsed : List Statement)
    (h : statements source = .ok parsed) :
    (∃ reparsed, statements (text parsed) = .ok reparsed ∧
        List.Forall₂ (Statement.Alike .butSpans) parsed reparsed) ∧
      ∀ assembler : Assembler,
        Outcome.Alike (SourceError.Alike .butSpans) (Program.Alike .butSpans)
          (assembler.program source) (assembler.program (text parsed)) := by
  obtain ⟨phrases, rfl, hlexical⟩ := exists_phrases h
  obtain ⟨reparsed, hreparsed, halike⟩ := statements_text hlexical
  refine ⟨⟨reparsed, hreparsed, halike⟩, fun assembler => ?_⟩
  rw [Assembler.program, Assembler.program, h, hreparsed]
  exact Program.resolve_alike Likeness.faithful_butSpans assembler.table halike

/-- A label on a line of its own, a comment, and blanks where printing puts none. -/
def spaced : Text := utf8 "here: // first\n  ADD x ,0x1\n"

/-- The statement of `spaced`. -/
def spacedStatement : Statement where
  labels := [⟨utf8 "here", ⟨0, 4, 1, 1⟩⟩]
  mnemonic := utf8 "ADD"
  mnemonicSpan := ⟨17, 20, 2, 3⟩
  operands :=
    [⟨.identifier, utf8 "x", ⟨21, 22, 2, 7⟩, 0⟩, ⟨.number, utf8 "0x1", ⟨24, 27, 2, 10⟩, 16⟩]
  span := ⟨0, 27, 1, 1⟩

theorem spaced_reassembles :
    statements spaced = .ok [spacedStatement] ∧ text [spacedStatement] = utf8 "here: ADD x, 0x1" ∧
      (∃ reparsed, statements (text [spacedStatement]) = .ok reparsed ∧
        List.Forall₂ (Statement.Alike .butSpans) [spacedStatement] reparsed) ∧
      ∀ assembler : Assembler,
        Outcome.Alike (SourceError.Alike .butSpans) (Program.Alike .butSpans)
          (assembler.program spaced) (assembler.program (text [spacedStatement])) := by
  have hparsed : statements spaced = .ok [spacedStatement] := by decide +kernel
  exact ⟨hparsed, by decide, text_reassembles spaced [spacedStatement] hparsed⟩

end Printing

end TableAssembler
