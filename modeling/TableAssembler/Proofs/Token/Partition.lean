/-
**The tokens of a source partition it.**

The scanner loses nothing and makes nothing up: its tokens stand in the source in the order in which
they come, each with its own text, and between them there is nothing but blanks.  It stops at the
end of the source or at a rune that no token can start with.

Main definitions:

* `Span.CoversRune` — a span that covers one character, or one byte that belongs to none;
* `Lexer.Laid` — **items laid out in a source** behind a part of it;
* `Lexer.Partition` — the same, said of all items at once.

Main results:

* `Lexer.laid_scan` — the items of a text are laid out in it;
* `Lexer.tokenize_partition` — **the tokens of a source partition it**.
-/

import Mathlib.Data.List.Forall2
import TableAssembler.Proofs.Token.Lexemes
import TableAssembler.Proofs.Token.Position

set_option relaxedAutoImplicit false
set_option autoImplicit false

namespace TableAssembler

open Text (byte isDigit isNameStart isNamePart isName StartsPlain)

/-! ### What items show of a source -/

/-- **A span covers one rune**: the character with code `char`, or a byte at which no character
stands, shown as U+FFFD. -/
def Span.CoversRune (span : Span) (source : Text) (char : Int) : Prop :=
  (∃ c : Char, char = c.toNat ∧ span.Shows source (Text.ofChar c)) ∨
    (char = 0xFFFD ∧ Text.Broken (source.drop span.start.toNat) ∧
      ∃ b : UInt8, span.Shows source [b])

namespace Lexer

/-- The place of an item. -/
def place : Except SourceError Token → Span
  | .ok token => token.span
  | .error error => error.span

/-- Nothing but blanks stands from one offset to another. -/
def OnlyBlanks (source : Text) (start stop : Int) : Prop :=
  start ≤ stop ∧ ∀ c ∈ (source.take stop.toNat).drop start.toNat, isBlank c = true

/-- **What ends the items of a source**: the end of input, at the end of the source, or the error
that no token starts with the rune covered. -/
def Closes (source : Text) : Except SourceError Token → Prop
  | .ok token => token.kind = .endOfInput ∧ token.span.Placed source ∧
      token.span.start = source.length ∧ token.span.stop = source.length ∧
      token.text = token.span.text source
  | .error error => ∃ span char, error = .unexpectedCharacter span char ∧
      span.CoversRune source char

/-- **Tokens and a last item partition a source** from an offset on: the tokens stand in it, in
order and apart, and there are only blanks between them. -/
structure Partition (source : Text) (start : Int) (tokens : List Token)
    (last : Except SourceError Token) : Prop where
  kind : ∀ token ∈ tokens, token.kind ≠ .endOfInput
  shows : ∀ token ∈ tokens, token.span.Shows source token.text
  ordered : tokens.Pairwise fun a b => a.span.stop ≤ b.span.start
  blanks : List.Forall₂ (OnlyBlanks source) (start :: tokens.map fun token => token.span.stop)
    ((tokens.map fun token => token.span.start) ++ [(place last).start])
  closes : Closes source last

/-! ### Pieces that start with ASCII -/

theorem startsPlain_of_blanks {blanks : Text} (h : ∀ c ∈ blanks, isBlank c = true) :
    StartsPlain blanks := by
  intro c hc
  have hblank := h c (List.mem_of_mem_head? hc)
  simp only [isBlank, Bool.or_eq_true, decide_eq_true_eq] at hblank
  rcases hblank with (rfl | rfl) | rfl <;> decide

theorem isBlank_of_mem_blanks (text : Text) : ∀ c ∈ text.takeWhile isBlank, isBlank c = true :=
  fun _ hc => List.mem_takeWhile_imp hc

theorem takeWhile_isBlank_of_nil {text : Text} (h : text.dropWhile isBlank = []) :
    text.takeWhile isBlank = text := by
  simpa [h] using List.takeWhile_append_dropWhile (p := isBlank) (l := text)

/-- The place behind the blanks that a text starts with. -/
theorem pass_blanks (before text : Text) :
    (Position.behind before).pass (text.takeWhile isBlank) =
      .behind (before ++ text.takeWhile isBlank) :=
  Position.pass_behind before (startsPlain_of_blanks (isBlank_of_mem_blanks text))

theorem lt_of_isNameStart {c : UInt8} (h : isNameStart c = true) : c.toNat < 0x80 := by
  simp only [isNameStart, Bool.or_eq_true, Bool.and_eq_true, decide_eq_true_eq,
    UInt8.le_iff_toNat_le] at h
  rcases h with (rfl | ⟨-, h⟩) | ⟨-, h⟩
  · decide
  · exact lt_of_le_of_lt h (by decide)
  · exact lt_of_le_of_lt h (by decide)

theorem lt_of_isDigit {c : UInt8} (h : isDigit c = true) : c.toNat < 0x80 := by
  simp only [isDigit, Bool.and_eq_true, decide_eq_true_eq, UInt8.le_iff_toNat_le] at h
  exact lt_of_le_of_lt h.2 (by decide)

theorem startsPlain_of_isName {name : Text} (h : isName name = true) (more : Text) :
    StartsPlain (name ++ more) := by
  obtain ⟨c, rest, rfl, hstart, -⟩ := exists_of_isName h
  rintro d ⟨rfl⟩
  exact lt_of_isNameStart hstart

/-- Every token starts with ASCII. -/
theorem startsPlain_of_spells {kind : TokenKind} {lexeme : Text} (h : Spells kind lexeme) :
    StartsPlain lexeme := by
  cases h with
  | newline => rintro d ⟨rfl⟩; decide
  | comma => rintro d ⟨rfl⟩; decide
  | comment => rintro d ⟨rfl⟩; decide
  | label hname => exact startsPlain_of_isName hname _
  | mnemonic hname => simpa using startsPlain_of_isName hname []
  | identifier hname => simpa using startsPlain_of_isName hname []
  | directive => rintro d ⟨rfl⟩; decide
  | number hdigit =>
      rintro d ⟨rfl⟩
      exact lt_of_isDigit hdigit

theorem ne_nil_of_spells {kind : TokenKind} {lexeme : Text} (h : Spells kind lexeme) :
    lexeme ≠ [] := by
  obtain ⟨c, more, rfl, -⟩ := not_isBlank_of_spells h
  exact List.cons_ne_nil c more

/-! ### Items laid out in a source -/

/-- **Items laid out in a source** behind a part of it: blanks and a token, then the items behind
the token; blanks and the end of the source; or blanks and a rune that is refused. -/
inductive Laid (source : Text) : Text → List (Except SourceError Token) → Prop
  | finish {before blanks : Text} (hblanks : ∀ c ∈ blanks, isBlank c = true)
      (hsource : before ++ blanks = source) :
      Laid source before [.ok (tokenAt (.behind source) .endOfInput [])]
  | refuse {before blanks rest : Text} {c : UInt8} (hblanks : ∀ c ∈ blanks, isBlank c = true)
      (hsource : before ++ blanks ++ c :: rest = source) :
      Laid source before [.error (errorAt (.behind (before ++ blanks)) c rest)]
  | token {before blanks lexeme rest : Text} {kind : TokenKind}
      {items : List (Except SourceError Token)} (hblanks : ∀ c ∈ blanks, isBlank c = true)
      (hspells : Spells kind lexeme) (hsource : before ++ blanks ++ (lexeme ++ rest) = source)
      (hitems : Laid source (before ++ blanks ++ lexeme) items) :
      Laid source before (.ok (tokenAt (.behind (before ++ blanks)) kind lexeme) :: items)

/-- **The items of a text are laid out in it**, whatever stands before it. -/
theorem laid_scan {source before text : Text} (fresh : Bool) (hsource : before ++ text = source) :
    Laid source before (scan fresh (.behind before) text) := by
  generalize hposition : Position.behind before = position
  induction fresh, position, text using scan.induct generalizing before with
  | case1 fresh position text hnil =>
      have htext := takeWhile_isBlank_of_nil hnil
      rw [scan_of_nil fresh position hnil, ← hposition, pass_blanks, htext, hsource]
      exact .finish (htext ▸ isBlank_of_mem_blanks text) hsource
  | case2 fresh position text c rest hcons hnone =>
      rw [scan_of_none position hcons hnone, ← hposition, pass_blanks]
      refine .refuse (isBlank_of_mem_blanks text) ?_
      rw [← hcons, List.append_assoc, List.takeWhile_append_dropWhile, hsource]
  | case3 fresh position text here c rest hcons kind n hlex hlt lexeme =>
      rename_i ih
      have hspells := (spells_of_lexeme? hlex).1
      have hsplit : before ++ text.takeWhile isBlank ++ ((c :: rest).take n ++ (c :: rest).drop n) =
          source := by
        rw [List.take_append_drop, ← hcons, List.append_assoc, List.takeWhile_append_dropWhile,
          hsource]
      have hnext := Position.pass_behind (before ++ text.takeWhile isBlank)
        (startsPlain_of_spells hspells)
      have hhere : Position.behind (before ++ text.takeWhile isBlank ++ (c :: rest).take n) =
          here.pass lexeme := by
        rw [← hnext, ← pass_blanks, hposition]
      rw [scan_of_some position (hcons ▸ hlex), hcons, ← hposition, pass_blanks, hnext, hhere]
      refine .token (isBlank_of_mem_blanks text) hspells hsplit (ih ?_ hhere)
      rw [List.append_assoc, hsplit]

/-! ### From items laid out to a partition -/

theorem onlyBlanks_between {source before blanks rest : Text}
    (hblanks : ∀ c ∈ blanks, isBlank c = true) (hsource : before ++ blanks ++ rest = source) :
    OnlyBlanks source before.length (before ++ blanks).length := by
  refine ⟨by rw [List.length_append]; omega, ?_⟩
  rwa [← hsource, Int.toNat_natCast, Int.toNat_natCast, List.take_left, List.drop_left]

/-- The end of input closes the items. -/
theorem closes_finish (source : Text) :
    Closes source (.ok (tokenAt (.behind source) .endOfInput [])) := by
  have hplaced := Span.placed_behind source (Nat.zero_le ([] : Text).length)
  have htext := Span.text_behind source [] []
  simp only [List.append_nil] at hplaced htext
  exact ⟨rfl, hplaced, rfl, Int.add_zero _, htext.symm⟩

/-- A rune that starts no token closes the items. -/
theorem closes_refuse (before rest : Text) (c : UInt8) :
    Closes (before ++ c :: rest) (.error (errorAt (.behind before) c rest)) := by
  refine ⟨_, _, rfl, ?_⟩
  rcases Text.firstRune_cases c rest with ⟨d, more, hd⟩ | ⟨hstray, hbroken⟩
  · refine .inl ⟨d, by rw [Text.firstRune_ofChar hd]; rfl, ?_⟩
    rw [Text.firstRune_ofChar hd, hd]
    exact Span.shows_behind before (Text.ofChar_ne_nil d) more
  · refine .inr ⟨by rw [hstray]; rfl, ?_, c, ?_⟩
    · simpa [Position.span, Position.behind] using hbroken
    · rw [hstray]
      exact Span.shows_behind before (List.cons_ne_nil c []) rest

/-- The items behind a part of a source are tokens that stand behind it, and what closes them. -/
theorem partition_of_laid {source before : Text} {items : List (Except SourceError Token)}
    (h : Laid source before items) :
    before.length + items.length ≤ source.length + 1 ∧
      ∃ tokens last, items = tokens.map .ok ++ [last] ∧
        Partition source before.length tokens last ∧
          ∀ token ∈ tokens, (before.length : Int) ≤ token.span.start := by
  induction h with
  | @finish before blanks hblanks hsource =>
      have hgap := @onlyBlanks_between source before blanks [] hblanks (by simpa using hsource)
      rw [hsource] at hgap
      refine ⟨?_, [], _, rfl, ⟨by simp, by simp, .nil, .cons hgap .nil, closes_finish source⟩,
        by simp⟩
      rw [← hsource, List.length_append, List.length_singleton]
      omega
  | @refuse before blanks rest c hblanks hsource =>
      have hgap := onlyBlanks_between hblanks hsource
      refine ⟨?_, [], _, rfl, ⟨by simp, by simp, .nil, .cons hgap .nil, ?_⟩, by simp⟩
      · rw [← hsource]
        simp only [List.length_append, List.length_cons, List.length_nil]
        omega
      · rw [← hsource]
        exact closes_refuse (before ++ blanks) rest c
  | @token before blanks lexeme rest kind items hblanks hspells hsource _ ih =>
      obtain ⟨hlength, tokens, last, rfl, hpartition, hbehind⟩ := ih
      have hshows := Span.shows_behind (before ++ blanks) (ne_nil_of_spells hspells) rest
      rw [hsource] at hshows
      have hgap := onlyBlanks_between hblanks hsource
      have hstop : (tokenAt (.behind (before ++ blanks)) kind lexeme).span.stop =
          ((before ++ blanks ++ lexeme).length : Int) := by
        simp only [tokenAt, Position.span, Position.behind, List.length_append]
        omega
      have hbefore : before.length < (before ++ blanks ++ lexeme).length := by
        have hpos := List.length_pos_iff.2 (ne_nil_of_spells hspells)
        simp only [List.length_append]
        omega
      have hlater : ∀ token ∈ tokens,
          (tokenAt (.behind (before ++ blanks)) kind lexeme).span.stop ≤ token.span.start := by
        rw [hstop]
        exact hbehind
      refine ⟨?_, tokenAt (.behind (before ++ blanks)) kind lexeme :: tokens, last, rfl, ?_, ?_⟩
      · rw [List.length_cons]
        omega
      · exact {
          kind := List.forall_mem_cons.2 ⟨Lexical.kind_ne ⟨hspells, rfl⟩, hpartition.kind⟩
          shows := List.forall_mem_cons.2 ⟨hshows, hpartition.shows⟩
          ordered := List.pairwise_cons.2 ⟨hlater, hpartition.ordered⟩
          blanks := by
            rw [List.map_cons, hstop]
            exact .cons hgap hpartition.blanks
          closes := hpartition.closes }
      · refine List.forall_mem_cons.2 ⟨hgap.1, fun token htoken => ?_⟩
        have hle := hbehind token htoken
        omega

theorem laid_tokenize (source : Text) : Laid source [] (tokenize source) :=
  laid_scan true (List.nil_append source)

/-- **The tokens of a source partition it.**  There are at most as many items as bytes, and one
more.  All items but the last are tokens: they stand in the source in order, none is empty, and only
blanks stand before the first and between neighbours.  The last item, again behind blanks only, is
the end of input at the end of the source, or else the error that a rune of the source starts no
token. -/
theorem tokenize_partition (source : Text) :
    (tokenize source).length ≤ source.length + 1 ∧
      ∃ tokens last, tokenize source = tokens.map .ok ++ [last] ∧
        Partition source 0 tokens last := by
  obtain ⟨hlength, tokens, last, hitems, hpartition, -⟩ := partition_of_laid (laid_tokenize source)
  rw [List.length_nil, Nat.zero_add] at hlength
  exact ⟨hlength, tokens, last, hitems, hpartition⟩

end Lexer

end TableAssembler
