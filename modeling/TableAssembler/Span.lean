/-
**Spans: ranges of a source text.**

A span is a half-open range of bytes together with the line and the column, counted from one and in
runes, of its first byte.  Spans come from outside as well as from a lexer, so their fields are
arbitrary integers, and every operation is total on them.

Main definitions:

* `Span`, `Span.render` — a span, and its `line:column` form;
* `Span.text` — the text a span covers, empty when the span does not fit the source;
* `Span.through` — from the start of one span to the end of another;
* `Span.excerpt` — the source line of a span with the spanned text underlined.
-/

import TableAssembler.Text.Numeral

set_option relaxedAutoImplicit false
set_option autoImplicit false

namespace TableAssembler

open Text (utf8)

/-- A half-open range of bytes, with the line and column of its start. -/
structure Span where
  start : Int := 0
  stop : Int := 0
  line : Int := 0
  column : Int := 0
  deriving DecidableEq, Repr, Inhabited

namespace Span

/-- The place of a span, `line:column`. -/
def render (span : Span) : Text :=
  Text.decimal span.line ++ utf8 ":" ++ Text.decimal span.column

/-- The length of a span in bytes, as a 64-bit word. -/
def length (span : Span) : Int := (span.stop - span.start).bmod 0x10000000000000000

/-- The text of a span; nothing if the span does not lie within the source. -/
def text (span : Span) (source : Text) : Text :=
  if span.start < 0 ∨ (source.length : Int) < span.stop ∨ span.stop < span.start then []
  else (source.take span.stop.toNat).drop span.start.toNat

/-- The span from the start of `span` to the end of `other`. -/
def through (span other : Span) : Span := { span with stop := other.stop }

/-- The span without its last byte; the least 64-bit word has the greatest before it. -/
def dropLast (span : Span) : Span :=
  { span with
    stop := if span.stop = -0x8000000000000000 then 0x7FFFFFFFFFFFFFFF else span.stop - 1 }

/-! ### Excerpts -/

/-- What stands under a rune to the left of the underlined text: a tab keeps its width. -/
def padding (rune : Rune) : UInt8 :=
  if rune = .scalar '\t' then Text.byte '\t' else Text.byte ' '

/-- The part of the source line that lies before the byte offset `start`. -/
def lineBefore (source : Text) (start : Nat) : Text :=
  ((source.take start).reverse.takeWhile (· != Text.newline)).reverse

/-- The part of the source line that lies at and after the byte offset `start`. -/
def lineAfter (source : Text) (start : Nat) : Text :=
  (source.drop start).takeWhile (· != Text.newline)

/-- The number of runes to underline: those of the span that lie on its first line, and at least
one. -/
def marks (span : Span) (source : Text) : Nat :=
  let after := lineAfter source span.start.toNat
  let covered :=
    if span.start + (after.length : Int) < span.stop then after else span.text source
  max 1 (Text.runeCount covered)

/-- The source line that holds a span, and below it a line that underlines the spanned text;
nothing if the span starts outside the source. -/
def excerpt (span : Span) (source : Text) : Text :=
  if span.start < 0 ∨ (source.length : Int) < span.start then []
  else
    let before := lineBefore source span.start.toNat
    before ++ lineAfter source span.start.toNat ++ [Text.newline] ++
      (Text.runes before).map padding ++ utf8 "^" ++
      List.replicate (span.marks source - 1) (Text.byte '~')

@[simp] theorem through_start (span other : Span) : (span.through other).start = span.start := rfl

@[simp] theorem through_stop (span other : Span) : (span.through other).stop = other.stop := rfl

end Span

end TableAssembler
