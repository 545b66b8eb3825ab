/-
**Where a place is.**

The scanner keeps its place by counting: runes and newlines are added up as it passes over blanks
and tokens.  A place can also be read off what stands before it: the number of bytes, the number of
newlines, and the number of runes since the last newline.  The two agree as long as every piece that
is passed over starts with ASCII, since then no rune is cut at the seam.

Main definitions:

* `Text.lastLine` — the part of a text behind its last newline;
* `Position.behind` — **the place behind a text**, read off that text;
* `Span.Placed` — a span that lies in a source and has the line and column of its start;
* `Span.Shows` — a span of a source that covers a given text.

Main results:

* `Position.pass_behind` — passing over a piece leads behind it;
* `Span.placed_behind`, `Span.shows_behind` — the spans of pieces of a source.
-/

import Mathlib.Data.List.TakeWhile
import TableAssembler.Proofs.Text.Runes
import TableAssembler.Token.Lexer

set_option relaxedAutoImplicit false
set_option autoImplicit false

namespace TableAssembler

namespace Text

/-! ### Lines -/

/-- The part of a text behind its last newline; all of it, if there is none. -/
def lastLine (t : Text) : Text := (t.reverse.takeWhile (· != newline)).reverse

theorem lastLine_append_of_not_mem (t : Text) {more : Text} (h : newline ∉ more) :
    lastLine (t ++ more) = lastLine t ++ more := by
  have hline : ∀ c ∈ more.reverse, (c != newline) = true := by
    intro c hc
    rw [List.mem_reverse] at hc
    simpa using ne_of_mem_of_not_mem hc h
  rw [lastLine, List.reverse_append, List.takeWhile_append_of_pos hline, List.reverse_append,
    List.reverse_reverse]
  rfl

theorem lastLine_append_of_mem (t : Text) {more : Text} (h : newline ∈ more) :
    lastLine (t ++ more) = lastLine more := by
  have hstop : (more.reverse.takeWhile (· != newline)).length ≠ more.reverse.length := by
    intro hlength
    have hall := List.takeWhile_eq_self_iff.1
      ((List.takeWhile_prefix (· != newline)).eq_of_length hlength)
    simpa using hall newline (List.mem_reverse.2 h)
  rw [lastLine, List.reverse_append, List.takeWhile_append, if_neg hstop]
  rfl

/-- Only the newline character has a newline among its bytes. -/
theorem newline_mem_ofChar_iff {c : Char} : newline ∈ ofChar c ↔ c = '\n' := by
  constructor
  · intro h
    obtain ⟨b, tail, hc⟩ := List.exists_cons_of_ne_nil (ofChar_ne_nil c)
    rcases List.mem_cons.1 (hc ▸ h) with rfl | htail
    · have hread := firstRune_ofChar
        (by rw [hc, List.append_nil] : newline :: tail = ofChar c ++ [])
      have hline : firstRune newline tail = (.scalar '\n', 1) := rfl
      rw [hline] at hread
      cases hread
      rfl
    · have hbeyond := le_of_mem_tail_ofChar (c := c) (x := newline) (by simpa [hc] using htail)
      exact absurd hbeyond (by decide)
  · rintro rfl
    decide

theorem ne_newline_of_broken {b : UInt8} {rest : Text} (h : Broken (b :: rest)) : b ≠ newline := by
  rintro rfl
  exact h '\n' ⟨rest, rfl⟩

end Text

namespace Position

open Text (lastLine newline runeCount StartsPlain)

/-! ### Passing over a text -/

/-- The place after a text, as far as line and column go, from what stands in the text. -/
def along (position : Position) (t : Text) : Position :=
  { position with
    line := position.line + List.count newline t
    column := if newline ∈ t then 1 + runeCount (lastLine t) else position.column + runeCount t }

theorem along_newline (position : Position) (more : Text) :
    position.along (newline :: more) =
      along { position with line := position.line + 1, column := 1 } more := by
  have hcount : position.line + List.count newline (newline :: more) =
      position.line + 1 + List.count newline more := by
    rw [List.count_cons_self]
    omega
  rw [along, along, hcount, if_pos List.mem_cons_self, ← List.singleton_append]
  by_cases hmore : newline ∈ more
  · rw [if_pos hmore, Text.lastLine_append_of_mem _ hmore]
  · rw [if_neg hmore, Text.lastLine_append_of_not_mem _ hmore]
    rfl

/-- A rune that is no newline moves the column by one. -/
theorem along_rune (position : Position) {piece more : Text} (hpiece : newline ∉ piece)
    (hcount : runeCount (piece ++ more) = 1 + runeCount more) :
    position.along (piece ++ more) =
      along { position with column := position.column + 1 } more := by
  rw [along, along, List.count_append, List.count_eq_zero_of_not_mem hpiece, Nat.zero_add, hcount]
  by_cases hmore : newline ∈ more
  · rw [if_pos (List.mem_append_right _ hmore), if_pos hmore, Text.lastLine_append_of_mem _ hmore]
  · rw [if_neg (by simp [hpiece, hmore]), if_neg hmore, Nat.add_assoc]

theorem foldl_passRune (position : Position) (t : Text) :
    (Text.runes t).foldl passRune position = position.along t := by
  induction t using Text.rune_induction generalizing position with
  | nil => rfl
  | scalar c more ih =>
      rw [Text.runes_ofChar, List.foldl_cons, ih]
      by_cases hc : c = '\n'
      · subst hc
        exact (along_newline position more).symm
      · have hrune : passRune position (.scalar c) =
            { position with column := position.column + 1 } := if_neg (by simpa using hc)
        rw [hrune, along_rune position (mt Text.newline_mem_ofChar_iff.1 hc)]
        rw [Text.runeCount_ofChar, Nat.add_comm]
  | stray b rest h ih =>
      have hrune : passRune position (.stray b) =
          { position with column := position.column + 1 } := if_neg (by simp)
      have hb : newline ∉ [b] := by simpa using (Text.ne_newline_of_broken h).symm
      rw [Text.runes_broken h, List.foldl_cons, ih, hrune, ← List.singleton_append,
        along_rune position hb]
      rw [List.singleton_append, Text.runeCount_broken h, Nat.add_comm]

/-! ### The place behind a text -/

/-- **The place behind a text**, read off that text. -/
def behind (before : Text) : Position where
  offset := before.length
  line := 1 + List.count newline before
  column := 1 + runeCount (lastLine before)

@[simp] theorem behind_nil : behind [] = {} := rfl

/-- **Passing over a piece leads behind it**, if the piece starts with ASCII. -/
theorem pass_behind (before : Text) {piece : Text} (h : StartsPlain piece) :
    (behind before).pass piece = behind (before ++ piece) := by
  rw [pass, foldl_passRune, along, behind, behind, List.count_append, List.length_append]
  by_cases hpiece : newline ∈ piece
  · simp only [if_pos hpiece, Text.lastLine_append_of_mem before hpiece, Nat.add_assoc]
  · simp only [if_neg hpiece, Text.lastLine_append_of_not_mem before hpiece,
      Text.runeCount_append _ h, Nat.add_assoc]

end Position

namespace Span

/-! ### Spans of a source -/

/-- **A span lies in a source**, and its line and column are those of its start. -/
structure Placed (span : Span) (source : Text) : Prop where
  start_nonneg : 0 ≤ span.start
  start_le : span.start ≤ span.stop
  stop_le : span.stop ≤ source.length
  line : span.line = 1 + (source.take span.start.toNat).count Text.newline
  column : span.column = 1 + Text.runeCount (lineBefore source span.start.toNat)

/-- **A span shows a text**: it is a span of the source, not empty, and covers that text. -/
structure Shows (span : Span) (source text : Text) : Prop where
  placed : span.Placed source
  nonempty : span.start < span.stop
  covers : span.text source = text

theorem Placed.text_eq {span : Span} {source : Text} (h : span.Placed source) :
    span.text source = (source.take span.stop.toNat).drop span.start.toNat := by
  have hstart := h.start_nonneg
  have hle := h.start_le
  have hstop := h.stop_le
  exact if_neg (by omega)

theorem dropLast_eq {span : Span} (h : 0 ≤ span.stop) :
    span.dropLast = { span with stop := span.stop - 1 } := by
  rw [dropLast, if_neg (by omega)]

/-- The span of a piece of a source is placed. -/
theorem placed_behind (before : Text) {rest : Text} {n : Nat} (h : n ≤ rest.length) :
    ((Position.behind before).span n).Placed (before ++ rest) where
  start_nonneg := Int.natCast_nonneg _
  start_le := Int.le_add_of_nonneg_right (Int.natCast_nonneg _)
  stop_le := by
    simp only [Position.span, Position.behind, List.length_append]
    omega
  line := by simp [Position.span, Position.behind]
  column := by simp [Position.span, Position.behind, lineBefore, Text.lastLine]

/-- The text of a span that covers a piece of a source is that piece. -/
theorem text_behind (before piece rest : Text) :
    ((Position.behind before).span piece.length).text (before ++ (piece ++ rest)) = piece := by
  have hplaced := placed_behind before (by simp : piece.length ≤ (piece ++ rest).length)
  have hstop : ((before.length : Int) + piece.length).toNat = (before ++ piece).length := by
    rw [List.length_append]
    omega
  rw [hplaced.text_eq]
  simp only [Position.span, Position.behind]
  rw [hstop, ← List.append_assoc, List.take_left, Int.toNat_natCast, List.drop_left]

theorem shows_behind (before : Text) {piece : Text} (h : piece ≠ []) (rest : Text) :
    ((Position.behind before).span piece.length).Shows (before ++ (piece ++ rest)) piece where
  placed := placed_behind before (by simp)
  nonempty := by
    have hpos := List.length_pos_iff.2 h
    simp only [Position.span]
    omega
  covers := text_behind before piece rest

end Span

end TableAssembler
