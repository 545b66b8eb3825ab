/-
**The excerpt underlines what a span says.**

An excerpt is cut from the source around the start of a span: back to the newline before it, and on
to the newline behind it.  The line and the column of a span were counted by the scanner on its way.
The two agree, for every span that comes from a source: the line cut out is the one that the span
names, and the marks below it start in the column that the span names.

Columns are runes, and a line that is cut in two need not have the runes of its two parts: a cut
through a character makes more of them.  No span starts within a character.  Tokens start with
ASCII; and where a character is refused, what stands before it on the line is ASCII, since a
comment, which may end with anything, is followed by a newline (`Excerpt.endsPlain_of_refused`).

Spans that come from elsewhere may be any integers.  The excerpt is then computed once more with
slices that fail out of range, and with repetitions that fail when negative; nothing fails.

Main definitions:

* `Excerpt.Produced` — the spans that come from a source;
* `Excerpt.Underlines` — **what an excerpt consists of**;
* `Excerpt.checked` — the excerpt by slices that may fail.

Main results:

* `Excerpt.getElem?_splitOn` — the line around a place;
* `Excerpt.aligned_of_mem_tokenize` — no item starts within a character;
* `Excerpt.seated_of_produced` — spans that come from a source start with an item;
* `Excerpt.checked_eq` — no slice is out of range;
* `Excerpt.excerpt_underlines` — **the excerpt underlines what the span says**.
-/

import TableAssembler.Proofs.Statement.Spans
import TableAssembler.Proofs.Token.Coordinates

set_option relaxedAutoImplicit false
set_option autoImplicit false

namespace TableAssembler

namespace Excerpt

open Lexer Location Spans TableAssembler.Parser
open TableAssembler.Span (lineBefore lineAfter padding)
open Text (byte isNamePart lastLine newline runeCount runes utf8 EndsPlain StartsPlain)

/-! ### The line of a place -/

/-- **The source around a place**: what stands before its line, and what stands behind it. -/
structure Around (source : Text) (start : Nat) (front back : Text) : Prop where
  source_eq : source = front ++ (lineBefore source start ++ (lineAfter source start ++ back))
  length_eq : front.length + (lineBefore source start).length = start
  front_last : ∀ c ∈ front.getLast?, c = newline
  back_head : ∀ c ∈ back.head?, c = newline
  before : newline ∉ lineBefore source start
  after : newline ∉ lineAfter source start

theorem exists_around {source : Text} {start : Nat} (h : start ≤ source.length) :
    ∃ front back, Around source start front back := by
  obtain ⟨front, hfront, hlast, hbefore⟩ := Text.exists_lastLine (source.take start)
  have hafter := List.takeWhile_append_dropWhile (p := (· != newline)) (l := source.drop start)
  refine ⟨front, (source.drop start).dropWhile (· != newline), ?_, ?_, hlast, ?_, hbefore, ?_⟩
  · change source = front ++ (lastLine (source.take start) ++ _)
    rw [← List.append_assoc, ← hfront, lineAfter, hafter, List.take_append_drop]
  · have hlength := congrArg List.length hfront
    rw [List.length_append, List.length_take, Nat.min_eq_left h] at hlength
    exact hlength.symm
  · intro c hc
    simpa using head?_dropWhile (· != newline) (source.drop start) c hc
  · intro hmem
    simpa using List.mem_takeWhile_imp hmem

theorem splitOn_append_newline (first second : Text) :
    (first ++ newline :: second).splitOn newline =
      first.splitOn newline ++ second.splitOn newline :=
  List.splitOnP_append_cons first second (beq_self_eq_true newline)

theorem length_splitOn (t : Text) : (t.splitOn newline).length = List.count newline t + 1 := by
  induction t with
  | nil => rfl
  | cons c t ih =>
      by_cases hc : c = newline
      · subst hc
        have hsplit := splitOn_append_newline [] t
        rw [List.nil_append] at hsplit
        rw [hsplit, List.length_append, ih, List.count_cons_self]
        exact Nat.add_comm _ _
      · rw [List.splitOn, List.splitOnP_cons_eq_if_modifyHead, if_neg (by simpa using hc),
          List.length_modifyHead, List.count_cons_of_ne hc]
        exact ih

/-- A text that starts with a line has it as its first piece. -/
theorem head?_splitOn {line back : Text} (hline : newline ∉ line)
    (hback : ∀ c ∈ back.head?, c = newline) : ((line ++ back).splitOn newline)[0]? = some line := by
  cases back with
  | nil => rw [List.append_nil, List.splitOn_eq_singleton hline, List.getElem?_cons_zero]
  | cons c back =>
      obtain rfl := hback c rfl
      rw [splitOn_append_newline, List.splitOn_eq_singleton hline, List.singleton_append,
        List.getElem?_cons_zero]

/-- **The line around a place** is, among the pieces between newlines, the one behind as many
newlines as stand before the place. -/
theorem getElem?_splitOn {source : Text} {start : Nat} (h : start ≤ source.length) :
    (source.splitOn newline)[List.count newline (source.take start)]? =
      some (lineBefore source start ++ lineAfter source start) := by
  obtain ⟨front, back, haround⟩ := exists_around h
  have hline : newline ∉ lineBefore source start ++ lineAfter source start := by
    rw [List.mem_append, not_or]
    exact ⟨haround.before, haround.after⟩
  have hpiece := head?_splitOn hline haround.back_head
  have hsource := haround.source_eq
  rw [← List.append_assoc (lineBefore source start)] at hsource
  have hcount : List.count newline (source.take start) = List.count newline front := by
    have htake : source.take start = front ++ lineBefore source start := by
      conv_lhs => rw [haround.source_eq, ← List.append_assoc]
      exact List.take_left' (by rw [List.length_append]; exact haround.length_eq)
    rw [htake, List.count_append, List.count_eq_zero_of_not_mem haround.before, Nat.add_zero]
  rw [hcount]
  rcases List.eq_nil_or_concat front with rfl | ⟨more, c, rfl⟩
  · rw [List.nil_append] at hsource
    conv_lhs => rw [hsource]
    exact hpiece
  · rw [List.concat_eq_append] at hsource ⊢
    obtain rfl : c = newline := haround.front_last c (by simp)
    rw [List.append_assoc, List.singleton_append] at hsource
    conv_lhs => rw [hsource]
    rw [splitOn_append_newline, List.count_append, List.count_singleton_self,
      List.getElem?_append_right (by rw [length_splitOn]), length_splitOn, Nat.sub_self]
    exact hpiece

/-! ### Where items start -/

/-- **No character is cut in two at a place**: the runes of its line are those before it and those
behind it. -/
def Aligned (source : Text) (start : Nat) : Prop :=
  runes (lineBefore source start ++ lineAfter source start) =
    runes (lineBefore source start) ++ runes (lineAfter source start)

theorem aligned_of_startsPlain {source : Text} {start : Nat}
    (h : StartsPlain (source.drop start)) : Aligned source start := by
  refine Text.runes_append _ fun c hc => h c ?_
  obtain ⟨rest, hrest⟩ : lineAfter source start <+: source.drop start := List.takeWhile_prefix _
  rw [← hrest, List.head?_append, Option.mem_def.1 hc]
  rfl

theorem aligned_of_endsPlain {source : Text} {start : Nat} (h : EndsPlain (source.take start)) :
    Aligned source start := by
  obtain ⟨front, hfront, -, -⟩ := Text.exists_lastLine (source.take start)
  rw [hfront] at h
  exact Text.runes_append_of_endsPlain h.of_append _

theorem lt_of_isNamePart {c : UInt8} (h : isNamePart c = true) : c.toNat < 0x80 := by
  rcases Bool.or_eq_true _ _ ▸ h with hstart | hdigit
  · exact lt_of_isNameStart hstart
  · exact lt_of_isDigit hdigit

theorem lt_of_mem_name {name : Text} (h : Text.isName name = true) :
    ∀ c ∈ name, c.toNat < 0x80 := by
  obtain ⟨first, rest, rfl, hfirst, hrest⟩ := exists_of_isName h
  exact List.forall_mem_cons.2 ⟨lt_of_isNameStart hfirst, fun c hc => lt_of_isNamePart (hrest c hc)⟩

/-- All tokens but comments are ASCII. -/
theorem lt_of_mem_lexeme {kind : TokenKind} {lexeme : Text} (h : Spells kind lexeme)
    (hkind : kind ≠ .comment) : ∀ c ∈ lexeme, c.toNat < 0x80 := by
  cases h with
  | newline => exact List.forall_mem_singleton.2 (by decide)
  | comma => exact List.forall_mem_singleton.2 (by decide)
  | comment => exact absurd rfl hkind
  | label hname =>
      exact List.forall_mem_append.2 ⟨lt_of_mem_name hname, List.forall_mem_singleton.2 (by decide)⟩
  | mnemonic hname => exact lt_of_mem_name hname
  | identifier hname => exact lt_of_mem_name hname
  | directive hname => exact List.forall_mem_cons.2 ⟨by decide, lt_of_mem_name hname⟩
  | number hdigit hmore =>
      exact List.forall_mem_cons.2 ⟨lt_of_isDigit hdigit, fun c hc => lt_of_isNamePart (hmore c hc)⟩

/-- Nothing is refused right behind a comment: a newline stands there. -/
theorem ne_comment_of_refused {source : Text} {lexeme : Lexeme} (hshaped : lexeme.Shaped source)
    (h : Refused source lexeme.stop) : lexeme.kind ≠ .comment := by
  intro hkind
  obtain ⟨⟨c, hc, -⟩, hnone⟩ := h
  have hends := hshaped.ends
  rw [hkind] at hends
  obtain rfl : c = newline := hends c (by rw [List.head?_drop]; exact hc)
  obtain ⟨hlt, hget⟩ := List.getElem?_eq_some_iff.1 hc
  have hsource : source.take lexeme.stop ++ ([newline] ++ source.drop (lexeme.stop + 1)) =
      source := by
    rw [List.singleton_append, ← hget, ← List.drop_eq_getElem_cons, List.take_append_drop]
  have hnewline := @shaped_of_spells _ _ _ _ .newline .newline trivial hsource
  rw [List.length_take, Nat.min_eq_left hlt.le] at hnewline
  exact hnone _ _ hnewline

/-- **Before a character that is refused stands ASCII**, or nothing. -/
theorem endsPlain_of_refused {source : Text} {lexemes : List Lexeme} {stop : Nat}
    (hcut : Cut source [] 0 lexemes stop) (h : Refused source stop) :
    EndsPlain (source.take stop) := by
  intro c hc
  rw [List.getLast?_eq_getElem?, List.length_take, Nat.min_eq_left hcut.stop_le,
    List.getElem?_take] at hc
  split at hc
  next hlt =>
    rcases hcut.covers (stop - 1) c (Nat.zero_le _) hlt hc with
      ⟨lexeme, hmem, hstart, hstop⟩ | hblank
    · have hshaped := hcut.shaped lexeme hmem
      obtain rfl : lexeme.stop = stop := by
        have hle := (hcut.within lexeme hmem).2
        omega
      refine lt_of_mem_lexeme hshaped.spells (ne_comment_of_refused hshaped h) c ?_
      exact mem_slice_iff.2 ⟨lexeme.stop - 1, hstart, hstop, hc⟩
    · exact startsPlain_of_blanks (List.forall_mem_singleton.2 hblank) c rfl
  next => cases hc

theorem startsPlain_of_shows {source text : Text} {span : Span} (h : span.Shows source text)
    (htext : StartsPlain text) : StartsPlain (source.drop span.start.toNat) := by
  intro c hc
  have hlt := h.nonempty
  have hstart := h.placed.start_nonneg
  refine htext c ?_
  rw [← h.covers, h.placed.text_eq_take, List.head?_take, if_neg (by omega)]
  exact hc

/-- **No item of a source starts within a character.** -/
theorem aligned_of_mem_tokenize {source : Text} {item : Except SourceError Token}
    (h : item ∈ tokenize source) : Aligned source (place item).start.toNat := by
  obtain ⟨last, hpartition, hending⟩ := partition_leading source
  have hitems := leading_append_ending (tokenize source)
  rw [hending] at hitems
  rw [← hitems, List.mem_append, List.mem_singleton] at h
  rcases h with h | rfl
  · obtain ⟨token, htoken, rfl⟩ := List.mem_map.1 h
    have hstands := stands_of_mem_leading htoken
    exact aligned_of_startsPlain
      (startsPlain_of_shows hstands.shows (startsPlain_of_spells hstands.lexical.spells))
  · obtain ⟨lexemes, stop, hcut, hstop⟩ := @exists_cut source [] source [] true rfl rfl
    obtain ⟨tokens, last', hscan, -, hend⟩ := scan_of_cut hcut hstop
    obtain rfl : item = last' := by
      have hlast := congrArg List.getLast? (hitems.trans hscan)
      simpa using hlast
    rw [hend.start_eq, Int.toNat_natCast]
    cases item with
    | ok token =>
        obtain ⟨-, -, -, rfl⟩ := hend
        refine aligned_of_startsPlain ?_
        rw [List.drop_length]
        rintro c ⟨⟩
    | error error => exact aligned_of_endsPlain (endsPlain_of_refused hcut hend.2.2)

/-! ### The spans that come from a source -/

/-- **The spans that come from a source**: those of its tokens, of the end of input and of the
scanner's error; of the labels, the mnemonics, the operands and the wholes of its statements; and of
the error for which an assembler refuses it. -/
inductive Produced (source : Text) : Span → Prop
  | item {item : Except SourceError Token} (h : item ∈ tokenize source) :
      Produced source (place item)
  | part {parsed : List Statement} {statement : Statement} {part : Span × Text}
      (h : statements source = .ok parsed) (hstatement : statement ∈ parsed)
      (hpart : part ∈ statement.parts) : Produced source part.1
  | statement {parsed : List Statement} {statement : Statement}
      (h : statements source = .ok parsed) (hstatement : statement ∈ parsed) :
      Produced source statement.span
  | error {assembler : Assembler} {error : SourceError}
      (h : assembler.binary source = .error error) : Produced source error.span

/-- A span has its place in a source, and starts where one of its items starts. -/
structure Seated (source : Text) (span : Span) : Prop where
  placed : span.Placed source
  item : ∃ item ∈ tokenize source, span.start = (place item).start

theorem Seated.aligned {source : Text} {span : Span} (h : Seated source span) :
    Aligned source span.start.toNat := by
  obtain ⟨item, hitem, hstart⟩ := h.item
  rw [hstart]
  exact aligned_of_mem_tokenize hitem

theorem seated_of_item {source : Text} {item : Except SourceError Token}
    (h : item ∈ tokenize source) : Seated source (place item) :=
  ⟨placed_of_mem_tokenize h, item, h, rfl⟩

theorem seated_of_leading {source : Text} {token : Token}
    (h : token ∈ leading (tokenize source)) : Seated source token.span :=
  seated_of_item (mem_of_mem_leading h)

section Statement

variable {source : Text} {parsed : List Statement} {statement : Statement}
  (h : statements source = .ok parsed) (hstatement : statement ∈ parsed)
include h hstatement

theorem seated_of_part {part : Span × Text} (hpart : part ∈ statement.parts) :
    Seated source part.1 := by
  have hshows := (nested_of_mem h hstatement).shows part hpart
  obtain ⟨token, htoken, hstart⟩ := exists_leading_of_part h hstatement hpart
  exact ⟨hshows.placed, .ok token, mem_of_mem_leading htoken, hstart⟩

/-- A statement starts with its opening. -/
theorem seated_of_statement : Seated source statement.span := by
  obtain ⟨text, hopening⟩ := statement.opening_mem
  obtain ⟨item, hitem, hstart⟩ := (seated_of_part h hstatement hopening).item
  have hnested := nested_of_mem h hstatement
  exact ⟨hnested.placed, item, hitem, hnested.start.trans hstart⟩

end Statement

/-- The errors of the resolver are about parts of statements. -/
theorem part_of_fault {known : List LabelDef} {statement : Statement} {error : SourceError}
    (h : Faults.Fault known statement error) : ∃ text, (error.span, text) ∈ statement.parts := by
  cases h with
  | @duplicate first last label previous hlabels =>
      exact ⟨label.name, Statement.label_mem_parts (by simp [hlabels])⟩
  | mnemonic => exact ⟨_, statement.mnemonic_mem_parts⟩
  | count => exact ⟨_, statement.mnemonic_mem_parts⟩
  | operand htoken => exact ⟨_, Statement.operand_mem_parts htoken⟩
  | undefined htoken => exact ⟨_, Statement.operand_mem_parts htoken⟩

/-- An error starts where an item starts, whichever stage finds it. -/
theorem seated_of_error {assembler : Assembler} {source : Text} {error : SourceError}
    (h : assembler.binary source = .error error) : Seated source error.span := by
  rw [Assembler.binary, Outcome.map_eq_error, Assembler.program, Outcome.bind_eq_error] at h
  rcases h with hparse | ⟨parsed, hparsed, hresolve⟩
  · rcases Refusal.parse_error_cases hparse with
      ⟨more, hmore⟩ | ⟨token, htoken, expected, rfl | rfl⟩
    · have hitem : .error error ∈ tokenize source := by
        rw [← leading_append_ending (tokenize source), hmore]
        simp
      exact seated_of_item hitem
    · exact seated_of_leading htoken
    · exact seated_of_leading htoken
  · obtain ⟨before, statement, after, rfl, hfault⟩ := Faults.resolve_error hresolve
    obtain ⟨text, hpart⟩ := part_of_fault hfault
    exact seated_of_part hparsed (by simp) hpart

/-- **Spans that come from a source have their place in it and start with an item.** -/
theorem seated_of_produced {source : Text} {span : Span} (h : Produced source span) :
    Seated source span := by
  cases h with
  | item h => exact seated_of_item h
  | part h hstatement hpart => exact seated_of_part h hstatement hpart
  | statement h hstatement => exact seated_of_statement h hstatement
  | error h => exact seated_of_error h

/-! ### What an excerpt consists of -/

/-- The bytes from one offset up to another, if the two lie within the text, in this order. -/
def slice? (t : Text) (start stop : Int) : Option Text :=
  if 0 ≤ start ∧ start ≤ stop ∧ stop ≤ t.length then some ((t.take stop.toNat).drop start.toNat)
  else none

/-- What stands below a rune to the left of the marks. -/
def blankOut (rune : Rune) : Rune := if rune = .scalar '\t' then .scalar '\t' else .scalar ' '

/-- **What an excerpt consists of**: the line that the span names; a rune for each column before the
one that it names, which repeats the tabs of the line; and as many marks as the span has runes on
the line, but at least one. -/
structure Underlines (source : Text) (span : Span) (line pad : Text) (marks : Nat) : Prop where
  line_eq : 1 ≤ span.line ∧ (source.splitOn newline)[span.line.toNat - 1]? = some line
  column_eq : span.column = 1 + (runes pad).length
  pad_eq : ∀ j < (runes pad).length, ∃ rune, (runes line)[j]? = some rune ∧
    (runes pad)[j]? = some (blankOut rune)
  marks_eq : ∃ covered, slice? source span.start span.stop = some covered ∧
    marks = max 1 (runeCount (covered.takeWhile (· != newline)))

theorem runes_map_padding (rs : List Rune) : runes (rs.map padding) = rs.map blankOut := by
  induction rs with
  | nil => rfl
  | cons rune rs ih =>
      by_cases htab : rune = .scalar '\t'
      · have hpad : (rune :: rs).map padding = Text.ofChar '\t' ++ rs.map padding := by
          rw [List.map_cons, padding, if_pos htab]
          rfl
        rw [hpad, Text.runes_ofChar, ih, List.map_cons, blankOut, if_pos htab]
      · have hpad : (rune :: rs).map padding = Text.ofChar ' ' ++ rs.map padding := by
          rw [List.map_cons, padding, if_neg htab]
          rfl
        rw [hpad, Text.runes_ofChar, ih, List.map_cons, blankOut, if_neg htab]

theorem slice?_eq_text {source : Text} {span : Span} (hstart : 0 ≤ span.start)
    (hle : span.start ≤ span.stop) (hstop : span.stop ≤ source.length) :
    slice? source span.start span.stop = some (span.text source) := by
  rw [slice?, if_pos ⟨hstart, hle, hstop⟩, Span.text, if_neg (by omega)]

/-- The marks of a span of a source are its runes before the next newline. -/
theorem marks_of_placed {source : Text} {span : Span} (h : span.Placed source) :
    span.marks source = max 1 (runeCount ((span.text source).takeWhile (· != newline))) := by
  have hstart := h.start_nonneg
  have hcovered : (if span.start + ((lineAfter source span.start.toNat).length : Int) < span.stop
      then lineAfter source span.start.toNat else span.text source) =
        (span.text source).takeWhile (· != newline) := by
    rw [h.text_eq_take, ← List.take_takeWhile]
    change _ = (lineAfter source span.start.toNat).take _
    split
    next hbeyond => rw [List.take_of_length_le (by omega)]
    next hwithin =>
      have hprefix := List.takeWhile_prefix (· != newline) (l := source.drop span.start.toNat)
      rw [lineAfter] at hwithin ⊢
      rw [List.prefix_iff_eq_take.1 hprefix, List.take_take, Nat.min_eq_left (by omega)]
  rw [Span.marks, ← hcovered]

theorem excerpt_of_start {source : Text} {span : Span} (hstart : 0 ≤ span.start)
    (hle : span.start ≤ source.length) :
    span.excerpt source =
      lineBefore source span.start.toNat ++ lineAfter source span.start.toNat ++ [newline] ++
        (runes (lineBefore source span.start.toNat)).map padding ++ utf8 "^" ++
          List.replicate (span.marks source - 1) (byte '~') := by
  rw [Span.excerpt, if_neg (by omega)]

/-- A span that starts with an item is underlined as it says. -/
theorem underlines_of_seated {source : Text} {span : Span} (h : Seated source span) :
    Underlines source span
      (lineBefore source span.start.toNat ++ lineAfter source span.start.toNat)
      ((runes (lineBefore source span.start.toNat)).map padding) (span.marks source) := by
  have hstart := h.placed.start_nonneg
  have hle := h.placed.start_le
  have hstop := h.placed.stop_le
  have hline := h.placed.line
  refine ⟨⟨by omega, ?_⟩, ?_, ?_, _, slice?_eq_text hstart hle hstop, marks_of_placed h.placed⟩
  · have hnumber : span.line.toNat - 1 =
        List.count newline (source.take span.start.toNat) := by
      omega
    rw [hnumber, getElem?_splitOn (by omega)]
  · rw [runes_map_padding, List.length_map]
    exact h.placed.column
  · intro j hj
    rw [runes_map_padding, List.length_map] at hj
    refine ⟨(runes (lineBefore source span.start.toNat))[j], ?_, ?_⟩
    · rw [h.aligned, List.getElem?_append_left hj, List.getElem?_eq_getElem hj]
    · rw [runes_map_padding, List.getElem?_map, List.getElem?_eq_getElem hj, Option.map_some]

/-! ### Slices that may fail -/

/-- A byte some number of times, if the number is not negative. -/
def repeat? (c : UInt8) (count : Int) : Option Text :=
  if 0 ≤ count then some (List.replicate count.toNat c) else none

/-- The offset of the first newline of a text, and minus one if it has none. -/
def firstNewline (t : Text) : Int := if newline ∈ t then t.idxOf newline else -1

/-- The offset of the last newline of a text, and minus one if it has none. -/
def lastNewline (t : Text) : Int :=
  if newline ∈ t then (t.length : Int) - 1 - t.reverse.idxOf newline else -1

/-- The text of a span by a slice that may fail. -/
def checkedText (span : Span) (source : Text) : Option Text :=
  if span.start < 0 ∨ (source.length : Int) < span.stop ∨ span.stop < span.start then some []
  else slice? source span.start span.stop

/-- **The excerpt by slices that may fail**: the line from behind the last newline before the span
up to the next newline, and the same for what stands before the span on it. -/
def checked (span : Span) (source : Text) : Option Text :=
  if span.start < 0 ∨ (source.length : Int) < span.start then some []
  else do
    let before ← slice? source 0 span.start
    let first := lastNewline before + 1
    let behind ← slice? source span.start source.length
    let last :=
      if firstNewline behind < 0 then (source.length : Int) else firstNewline behind + span.start
    let line ← slice? source first last
    let shown ← checkedText span source
    let covered ← if last < span.stop then slice? source span.start last else some shown
    let marks : Int := if runeCount covered = 0 then 1 else runeCount covered
    let left ← slice? source first span.start
    let more ← repeat? (byte '~') (marks - 1)
    some (line ++ [newline] ++ (runes left).map padding ++ utf8 "^" ++ more)

theorem slice?_middle (front middle back : Text) :
    slice? (front ++ (middle ++ back)) front.length (front.length + middle.length) =
      some middle := by
  have htake : (front ++ (middle ++ back)).take ((front.length : Int) + middle.length).toNat =
      front ++ middle := by
    rw [← List.append_assoc]
    exact List.take_left' (by rw [List.length_append]; omega)
  rw [slice?, if_pos (by simp only [List.length_append]; omega), htake, Int.toNat_natCast,
    List.drop_left]

theorem slice?_take {t : Text} {stop : Nat} (h : stop ≤ t.length) :
    slice? t 0 stop = some (t.take stop) := by
  rw [slice?, if_pos (by omega), Int.toNat_natCast, Int.toNat_zero, List.drop_zero]

theorem slice?_drop {t : Text} {start : Nat} (h : start ≤ t.length) :
    slice? t start t.length = some (t.drop start) := by
  rw [slice?, if_pos (by omega), Int.toNat_natCast, Int.toNat_natCast, List.take_length]

theorem length_takeWhile (t : Text) : (t.takeWhile (· != newline)).length = t.idxOf newline := by
  induction t with
  | nil => rfl
  | cons c t ih =>
      by_cases hc : c = newline
      · simp [hc]
      · rw [List.takeWhile_cons_of_pos (by simpa using hc), List.length_cons, ih,
          List.idxOf_cons_ne _ hc]

namespace Around

variable {source : Text} {start : Nat} {front back : Text} (h : Around source start front back)
include h

theorem start_le : start ≤ source.length := by
  have hlength := congrArg List.length h.source_eq
  have hfront := h.length_eq
  rw [List.length_append, List.length_append] at hlength
  omega

/-- The line starts behind the last newline before the place. -/
theorem lastNewline_take : lastNewline (source.take start) + 1 = front.length := by
  have hlength := h.length_eq
  have hstart := h.start_le
  have htake : (source.take start).length = start := by
    rw [List.length_take]
    omega
  have hidx := length_takeWhile (source.take start).reverse
  have hbefore : (lineBefore source start).length =
      ((source.take start).reverse.takeWhile (· != newline)).length := List.length_reverse
  rw [lastNewline, htake]
  split
  next => omega
  next hnone =>
    rw [List.idxOf_eq_length (by simpa using hnone), List.length_reverse, htake] at hidx
    omega

/-- The line ends at the first newline behind the place, or with the source. -/
theorem firstNewline_drop :
    (if firstNewline (source.drop start) < 0 then (source.length : Int)
      else firstNewline (source.drop start) + start) =
      start + (lineAfter source start).length := by
  have hstart := h.start_le
  have hidx := length_takeWhile (source.drop start)
  rw [← lineAfter] at hidx
  rw [firstNewline]
  by_cases hmem : newline ∈ source.drop start
  · rw [if_pos hmem, if_neg (by omega)]
    omega
  · rw [if_neg hmem, if_pos (by decide)]
    rw [List.idxOf_eq_length hmem, List.length_drop] at hidx
    omega

theorem slice?_line :
    slice? source front.length (start + (lineAfter source start).length) =
      some (lineBefore source start ++ lineAfter source start) := by
  have hslice := slice?_middle front (lineBefore source start ++ lineAfter source start) back
  rw [List.append_assoc, ← h.source_eq, List.length_append] at hslice
  rw [← hslice]
  congr 1
  have hlength := h.length_eq
  omega

theorem slice?_before : slice? source front.length start = some (lineBefore source start) := by
  have hslice := slice?_middle front (lineBefore source start) (lineAfter source start ++ back)
  rw [← h.source_eq] at hslice
  rw [← hslice]
  congr 1
  have hlength := h.length_eq
  omega

theorem slice?_after :
    slice? source start (start + (lineAfter source start).length) =
      some (lineAfter source start) := by
  have hslice := slice?_middle (front ++ lineBefore source start) (lineAfter source start) back
  rw [List.append_assoc, ← h.source_eq, List.length_append, h.length_eq] at hslice
  exact hslice

end Around

theorem checkedText_eq (span : Span) (source : Text) :
    checkedText span source = some (span.text source) := by
  rw [checkedText]
  split
  next houtside => rw [Span.text, if_pos houtside]
  next hwithin => exact slice?_eq_text (by omega) (by omega) (by omega)

/-- There is at least one mark, and so the marks behind the first are not negative in number. -/
theorem repeat?_marks (count : Nat) :
    repeat? (byte '~') ((if count = 0 then (1 : Int) else count) - 1) =
      some (List.replicate (max 1 count - 1) (byte '~')) := by
  rw [repeat?]
  by_cases hzero : count = 0
  · rw [if_pos hzero, hzero]
    rfl
  · have hcount : ((count : Int) - 1).toNat = max 1 count - 1 := by omega
    rw [if_neg hzero, if_pos (by omega), hcount]

/-- **No slice of an excerpt is out of range**, and no repetition is negative, whatever the span. -/
theorem checked_eq (span : Span) (source : Text) :
    checked span source = some (span.excerpt source) := by
  by_cases hrange : span.start < 0 ∨ (source.length : Int) < span.start
  · rw [checked, if_pos hrange, Span.excerpt, if_pos hrange]
  · obtain ⟨start, hstart⟩ := Int.eq_ofNat_of_zero_le (by omega : 0 ≤ span.start)
    have hle : start ≤ source.length := by omega
    obtain ⟨front, back, haround⟩ := exists_around hle
    rw [checked, if_neg hrange, excerpt_of_start (by omega) (by omega), Span.marks, hstart,
      Int.toNat_natCast, slice?_take hle, slice?_drop hle, checkedText_eq]
    simp only [Option.bind_eq_bind, Option.bind_some, haround.lastNewline_take,
      haround.firstNewline_drop, haround.slice?_line, haround.slice?_before,
      haround.slice?_after, repeat?_marks]
    split <;> rfl

/-! ### The excerpt -/

/-- **The excerpt underlines what the span says.**  For every span that comes from a source, the
excerpt is the line that the span names, a newline, as many runes as there are columns before the
one that the span names, tabs where the line has tabs and else spaces, and a mark for each rune of
the span on that line, at least one.  For every span whatsoever the excerpt can be computed with
slices that lie in the source and a repetition that is not negative, and it is empty exactly if the
span starts outside of the source. -/
theorem excerpt_underlines (source : Text) (span : Span) :
    (Produced source span → ∃ line pad marks, Underlines source span line pad marks ∧
      span.excerpt source =
        line ++ [newline] ++ pad ++ utf8 "^" ++ List.replicate (marks - 1) (byte '~')) ∧
      checked span source = some (span.excerpt source) ∧
        (span.excerpt source = [] ↔ span.start < 0 ∨ (source.length : Int) < span.start) := by
  refine ⟨fun hproduced => ?_, checked_eq span source, ?_⟩
  · have hseated := seated_of_produced hproduced
    have hle := hseated.placed.start_le
    have hstop := hseated.placed.stop_le
    exact ⟨_, _, _, underlines_of_seated hseated,
      excerpt_of_start hseated.placed.start_nonneg (by omega)⟩
  · constructor
    · intro hnil
      by_contra hrange
      rw [excerpt_of_start (by omega) (by omega)] at hnil
      simp at hnil
    · intro hrange
      rw [Span.excerpt, if_pos hrange]

/-- A character that is refused, on the second line and behind a tab. -/
def refused : Span := ⟨8, 10, 2, 6⟩

theorem refused_underlined :
    Produced (utf8 "X:\n\tNOP é") refused ∧
      refused.excerpt (utf8 "X:\n\tNOP é") = utf8 "\tNOP é\n\t    ^" ∧
        ∃ line pad marks, Underlines (utf8 "X:\n\tNOP é") refused line pad marks ∧
          refused.excerpt (utf8 "X:\n\tNOP é") =
            line ++ [newline] ++ pad ++ utf8 "^" ++ List.replicate (marks - 1) (byte '~') := by
  have hitem : ∃ item ∈ tokenize (utf8 "X:\n\tNOP é"), place item = refused := by decide +kernel
  obtain ⟨item, hmem, hplace⟩ := hitem
  have hproduced : Produced (utf8 "X:\n\tNOP é") refused := hplace ▸ .item hmem
  exact ⟨hproduced, by decide +kernel, (excerpt_underlines _ refused).1 hproduced⟩

end Excerpt

end TableAssembler
