/-
**Every refusal points at what it is about.**

The place of an error is passed on from stage to stage: from a token to a statement, from there to a
label or a fixup, and into the error.  On the way it is changed once, where a label loses its colon.
So the spans of an error are those of tokens of the source, and what the error says is what stands
there: each stage hands on spans that show their texts.

Main definitions:

* `Statement.Shown` — a statement whose spans show its mnemonic and operands;
* `SourceError.Points` — **an error that points at what it is about**.

Main results:

* `Location.shown_of_statements`, `Location.labels_shown` — what the statements of a source show
  of it;
* `Location.points_of_statements`, `Location.points_of_resolve` — the errors of the parser and of
  the resolver;
* `Location.binary_error_points` — **every refusal points at what it is about**.
-/

import Mathlib.Data.List.Flatten
import TableAssembler.Proofs.Program.Faults
import TableAssembler.Proofs.Statement.Printing
import TableAssembler.Proofs.Statement.Refusal
import TableAssembler.Proofs.Token.Partition

set_option relaxedAutoImplicit false
set_option autoImplicit false

namespace TableAssembler

/-- The spans of a statement show its mnemonic and its operands. -/
structure Statement.Shown (statement : Statement) (source : Text) : Prop where
  mnemonic : statement.mnemonicSpan.Shows source statement.mnemonic
  operands : ∀ token ∈ statement.operands, token.span.Shows source token.text

/-- **An error points at what it is about**: its span shows the text that it names; for a label
that is defined twice the other span does so too, and lies before it. -/
def SourceError.Points (source : Text) : SourceError → Prop
  | unexpectedCharacter span char => span.CoversRune source char
  | unexpected span found _ => span.Shows source found.text
  | unexpectedEnd span _ => span.Shows source (span.text source)
  | unknownOpcode span mnemonic => span.Shows source mnemonic
  | operandCount span mnemonic _ _ _ => span.Shows source mnemonic
  | invalidOperand span text _ => span.Shows source text
  | undefinedLabel span name => span.Shows source name
  | duplicateLabel span name previous =>
      span.Shows source name ∧ previous.Shows source name ∧ previous.stop < span.start

namespace Span

theorem Placed.text_eq_take {span : Span} {source : Text} (h : span.Placed source) :
    span.text source =
      (source.drop span.start.toNat).take (span.stop.toNat - span.start.toNat) := by
  rw [h.text_eq, List.drop_take]

/-- A span without its last byte shows all but the last byte of its text. -/
theorem Shows.dropLast {span : Span} {source text : Text} {last : UInt8}
    (h : span.Shows source (text ++ [last])) (hne : text ≠ []) :
    span.dropLast.Shows source text ∧ span.dropLast.stop + 1 = span.stop := by
  have hstart := h.placed.start_nonneg
  have hbound := h.placed.stop_le
  have hlength : span.stop - span.start = text.length + 1 := by
    have hcovers := congrArg List.length h.covers
    rw [h.placed.text_eq, List.length_drop, List.length_take, List.length_append,
      List.length_singleton] at hcovers
    have hlt := h.nonempty
    omega
  have hpos := List.length_pos_iff.2 hne
  have hstop : span.dropLast.stop = span.stop - 1 := by rw [span.dropLast_eq (by omega)]
  have hplaced : span.dropLast.Placed source := {
    start_nonneg := hstart
    start_le := by rw [hstop]; change span.start ≤ _; omega
    stop_le := by omega
    line := h.placed.line
    column := h.placed.column }
  refine ⟨⟨hplaced, by rw [hstop]; change span.start < _; omega, ?_⟩, by omega⟩
  -- the shorter text is cut from the same place of the source
  have hshort : span.dropLast.stop.toNat - span.start.toNat = text.length := by omega
  have hlong : span.stop.toNat - span.start.toNat = text.length + 1 := by omega
  have hcovers := h.covers
  rw [h.placed.text_eq_take, hlong] at hcovers
  rw [hplaced.text_eq_take]
  change (source.drop span.start.toNat).take (span.dropLast.stop.toNat - span.start.toNat) = text
  have hcut := congrArg (List.take text.length) hcovers
  rwa [List.take_take, List.take_left, Nat.min_eq_left (Nat.le_succ _), ← hshort] at hcut

theorem CoversRune.shows {span : Span} {source : Text} {char : Int}
    (h : span.CoversRune source char) : ∃ text, span.Shows source text := by
  rcases h with ⟨c, -, hshows⟩ | ⟨-, -, b, hshows⟩
  · exact ⟨_, hshows⟩
  · exact ⟨_, hshows⟩

end Span

/-- An error that points at what it is about has a place in the source. -/
theorem SourceError.Points.shows {source : Text} {error : SourceError} (h : error.Points source) :
    ∃ text, error.span.Shows source text := by
  cases error with
  | unexpectedCharacter span char => exact Span.CoversRune.shows h
  | duplicateLabel span name previous => exact ⟨name, h.1⟩
  | _ => exact ⟨_, h⟩

namespace Location

open TableAssembler.Parser Grammar Lexer Printing
open Text (utf8)

/-! ### The tokens of a source -/

/-- The tokens that the parser gets to see partition the source, up to the one item that follows
them. -/
theorem partition_leading (source : Text) :
    ∃ last, Partition source 0 (leading (tokenize source)) last ∧
      ending (tokenize source) = [last] := by
  obtain ⟨-, tokens, last, hitems, hpartition, -⟩ := partition_of_laid (laid_tokenize source)
  have hlast : leading [last] = [] := by
    have hcloses := hpartition.closes
    cases last with
    | error error => rfl
    | ok token => exact if_pos hcloses.1
  have hleading : leading (tokenize source) = tokens := by
    rw [hitems, leading_append hpartition.kind, hlast, List.append_nil]
  refine ⟨last, hleading ▸ hpartition, ?_⟩
  rw [hitems, ending_append hpartition.kind, ending, hlast]
  rfl

/-- The label of a label token shows its name, and ends where the colon stands. -/
theorem shows_labelOf {source : Text} {token : Token} (hlexical : Lexical token)
    (hkind : token.kind = .label) (hshows : token.span.Shows source token.text) :
    (labelOf token).span.Shows source (labelOf token).name ∧
      (labelOf token).span.stop + 1 = token.span.stop := by
  have hname := name_of_label hlexical hkind
  have hspells := hlexical.spells
  rw [hkind, spells_label_iff] at hspells
  obtain ⟨name, hisName, htext⟩ := hspells
  have hne : token.name ≠ [] := by
    intro hnil
    rw [hnil, htext] at hname
    obtain ⟨c, rest, rfl, -⟩ := exists_of_isName hisName
    simp at hname
  rw [← hname] at hshows
  exact hshows.dropLast hne

/-! ### The statements of a source -/

/-- The statements of a source show its text. -/
theorem shown_of_statements {source : Text} {parsed : List Statement}
    (h : statements source = .ok parsed) : ∀ statement ∈ parsed, statement.Shown source := by
  obtain ⟨phrases, tail, -, rfl, htokens⟩ := exists_sentence h
  obtain ⟨last, hpartition, -⟩ := partition_leading source
  intro statement hstatement
  obtain ⟨phrase, hphrase, rfl⟩ := List.mem_map.1 hstatement
  have hshows : ∀ token ∈ phrase.tokens, token.span.Shows source token.text := by
    intro token htoken
    refine hpartition.shows token ?_
    rw [htokens]
    exact List.mem_append_left _ (List.mem_flatMap.2 ⟨phrase, hphrase, htoken⟩)
  refine ⟨hshows phrase.head (by simp [Phrase.tokens]), fun token htoken => hshows token ?_⟩
  have hoperand : token ∈ phrase.operandTokens := phrase.operands_sublist.subset htoken
  simp [Phrase.tokens, hoperand]

/-- The labels of a source, in order, come from label tokens among its tokens. -/
theorem labels_of_statements {source : Text} {parsed : List Statement}
    (h : statements source = .ok parsed) :
    ∃ tokens : List Token, tokens.Sublist (leading (tokenize source)) ∧
      (∀ token ∈ tokens, token.kind = .label) ∧
        parsed.flatMap Statement.labels = tokens.map labelOf := by
  obtain ⟨phrases, tail, -, rfl, htokens⟩ := exists_sentence h
  refine ⟨(phrases.flatMap Phrase.lead).filter fun token => token.kind = .label, ?_, ?_, ?_⟩
  · have hlead : (phrases.flatMap Phrase.lead).Sublist (phrases.flatMap Phrase.tokens) := by
      refine List.Sublist.flatMap_right phrases fun phrase _ => ?_
      rw [Phrase.tokens, List.append_assoc, List.append_assoc]
      exact List.sublist_append_left _ _
    rw [htokens]
    exact List.filter_sublist.trans (hlead.trans (List.sublist_append_left _ _))
  · intro token htoken
    simpa using List.of_mem_filter htoken
  · rw [List.filter_flatMap, List.map_flatMap, List.flatMap_map]
    rfl

/-- The label tokens of a source show their names, and a later one starts behind the colon of an
earlier one. -/
theorem labels_shown {source : Text} {parsed : List Statement}
    (h : statements source = .ok parsed) :
    (∀ label ∈ parsed.flatMap Statement.labels, label.span.Shows source label.name) ∧
      (parsed.flatMap Statement.labels).Pairwise fun a b => a.span.stop < b.span.start := by
  obtain ⟨tokens, hsublist, hkind, hlabels⟩ := labels_of_statements h
  obtain ⟨last, hpartition, -⟩ := partition_leading source
  have hshows : ∀ token ∈ tokens, (labelOf token).span.Shows source (labelOf token).name ∧
      (labelOf token).span.stop + 1 = token.span.stop := by
    intro token htoken
    have hmem := hsublist.subset htoken
    exact shows_labelOf (lexical_of_mem_leading hmem) (hkind token htoken)
      (hpartition.shows token hmem)
  rw [hlabels, List.pairwise_map]
  constructor
  · intro label hlabel
    obtain ⟨token, htoken, rfl⟩ := List.mem_map.1 hlabel
    exact (hshows token htoken).1
  · refine (hpartition.ordered.sublist hsublist).imp_of_mem fun {a b} ha _ hle => ?_
    -- the colon of the earlier label lies between the two
    have hcolon := (hshows a ha).2
    change (labelOf a).span.stop < b.span.start
    omega

/-! ### Errors -/

/-- The errors of the parser point at what they are about. -/
theorem points_of_statements {source : Text} {error : SourceError}
    (h : statements source = .error error) : error.Points source := by
  obtain ⟨last, hpartition, hending⟩ := partition_leading source
  rcases Refusal.parse_error_cases h with ⟨more, hmore⟩ | ⟨token, htoken, expected, rfl | rfl⟩
  · -- the one item behind the tokens is the error, and it closes the partition
    rw [hending] at hmore
    cases hmore
    obtain ⟨span, char, rfl, hcovers⟩ := hpartition.closes
    exact hcovers
  · exact hpartition.shows token htoken
  · have hshows := hpartition.shows token htoken
    exact ⟨hshows.placed, hshows.nonempty, rfl⟩

/-- The faults of a statement point at what they are about. -/
theorem points_of_fault {source : Text} {known : List LabelDef} {statement : Statement}
    {error : SourceError} (hfault : Faults.Fault known statement error)
    (hshown : statement.Shown source)
    (hlabels : ∀ label ∈ known ++ statement.labels, label.span.Shows source label.name)
    (hapart : (known ++ statement.labels).Pairwise fun a b => a.span.stop < b.span.start) :
    error.Points source := by
  cases hfault with
  | @duplicate first last label previous hsplit hprevious hname =>
      -- in the list of all labels so far, the earlier one stands in front of the later one
      rw [hsplit, ← List.append_assoc] at hlabels hapart
      have hbefore := (List.pairwise_append.1 hapart).2.2 previous hprevious label
        List.mem_cons_self
      refine ⟨hlabels label (by simp), ?_, hbefore⟩
      rw [← hname]
      exact hlabels previous (List.mem_append_left _ hprevious)
  | mnemonic => exact hshown.mnemonic
  | count expected found atLeast => exact hshown.mnemonic
  | operand htoken kind => exact hshown.operands _ htoken
  | undefined htoken => exact hshown.operands _ htoken

/-- The errors of the resolver point at what they are about, for the statements of a source. -/
theorem points_of_resolve {source : Text} {parsed : List Statement} {table : Table}
    {error : SourceError} (hparsed : statements source = .ok parsed)
    (h : Program.resolve table parsed = .error error) : error.Points source := by
  obtain ⟨before, statement, after, rfl, hfault⟩ := Faults.resolve_error h
  obtain ⟨hlabels, hapart⟩ := labels_shown hparsed
  rw [List.flatMap_append, List.flatMap_cons, ← List.append_assoc] at hlabels hapart
  refine points_of_fault hfault (shown_of_statements hparsed statement (by simp)) ?_ ?_
  · exact fun label hlabel => hlabels label (List.mem_append_left _ hlabel)
  · exact (List.pairwise_append.1 hapart).1

/-- **Every refusal points at what it is about.**  When a source is refused there is no binary, and
the error lies at a place in the source that is not empty, with the line and the column of that
place; what stands there is what the error names. -/
theorem binary_error_points (assembler : Assembler) (source : Text) (error : SourceError)
    (h : assembler.binary source = .error error) :
    error.span.Placed source ∧ error.span.start < error.span.stop ∧ error.Points source := by
  have hpoints : error.Points source := by
    rw [Assembler.binary, Outcome.map_eq_error, Assembler.program, Outcome.bind_eq_error] at h
    rcases h with hparse | ⟨parsed, hparsed, hresolve⟩
    · exact points_of_statements hparse
    · exact points_of_resolve hparsed hresolve
  obtain ⟨text, hshows⟩ := hpoints.shows
  exact ⟨hshows.placed, hshows.nonempty, hpoints⟩

/-- A label defined twice; the comment between has a character of two bytes and a stray byte. -/
def twice : Text := utf8 "x: .byte 1 // é" ++ 0xFF :: utf8 "\n  x: .byte 2"

/-- The error of `twice`. -/
def twiceError : SourceError := .duplicateLabel ⟨20, 21, 2, 3⟩ (utf8 "x") ⟨0, 1, 1, 1⟩

theorem twice_points :
    Assembler.binary {} twice = .error twiceError ∧
      twiceError.span.Placed twice ∧ twiceError.span.start < twiceError.span.stop ∧
        twiceError.Points twice := by
  have hrefused : Assembler.binary {} twice = .error twiceError := by decide +kernel
  exact ⟨hrefused, binary_error_points {} twice twiceError hrefused⟩

end Location

end TableAssembler
