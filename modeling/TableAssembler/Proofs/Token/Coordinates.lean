/-
**Lines and columns.**

The line and the column of an item are read off the bytes before it.  The line counts the newlines
among them.  The column counts the runes from the start of the line on, where a rune is the encoding
of a character or a byte at which no character is encoded.  Nothing here refers to how the scanner
finds them: it counts piece by piece, and reads runes by ranges of bytes.

Main definitions:

* `Text.HasRunes` — **the number of runes of a text**, by the encoding of characters;
* `Text.StartsLine` — where the line of a place starts.

Main results:

* `Text.hasRunes_iff` — the runes that are read are those that the encoding allows, and no others;
* `Text.startsLine_lastLine`, `Text.StartsLine.unique` — every place has a start of its line, and
  only one;
* `Lexer.tokenize_coordinates` — **the line and the column of every item** are those of its start.
-/

import TableAssembler.Proofs.Token.Partition

set_option relaxedAutoImplicit false
set_option autoImplicit false

namespace TableAssembler

namespace Text

/-! ### Counting runes -/

/-- **The number of runes of a text**: a character is one, and so is a byte at which no character
stands. -/
inductive HasRunes : Text → Nat → Prop
  | nil : HasRunes [] 0
  | scalar (c : Char) {more : Text} {n : Nat} (h : HasRunes more n) :
      HasRunes (ofChar c ++ more) (n + 1)
  | stray {b : UInt8} {rest : Text} {n : Nat} (hbroken : Broken (b :: rest))
      (h : HasRunes rest n) : HasRunes (b :: rest) (n + 1)

/-- A text has as many runes as are read from it, and no other number. -/
theorem hasRunes_iff {t : Text} {n : Nat} : HasRunes t n ↔ runeCount t = n := by
  constructor
  · intro h
    induction h with
    | nil => rfl
    | scalar c h ih => rw [runeCount_ofChar, ih]
    | stray hbroken h ih => rw [runeCount_broken hbroken, ih]
  · rintro rfl
    induction t using rune_induction with
    | nil => exact .nil
    | scalar c more ih =>
        rw [runeCount_ofChar]
        exact .scalar c ih
    | stray b rest hbroken ih =>
        rw [runeCount_broken hbroken]
        exact .stray hbroken ih

/-! ### Where a line starts -/

/-- **The line of a place starts at `first`**: at the start of the source or right behind a newline,
with no newline from there up to the place. -/
structure StartsLine (source : Text) (start first : Nat) : Prop where
  le : first ≤ start
  behind : first = 0 ∨ source[first - 1]? = some newline
  unbroken : newline ∉ (source.take start).drop first

theorem StartsLine.le_of_startsLine {source : Text} {start first other : Nat}
    (h : StartsLine source start first) (hother : StartsLine source start other) :
    other ≤ first := by
  by_contra hlt
  rcases hother.behind with hzero | hnewline
  · omega
  · -- the newline in front of the later start stands on the line
    have hle := hother.le
    refine h.unbroken (List.mem_of_getElem? (?_ : _[other - 1 - first]? = _))
    rw [List.getElem?_drop, Nat.add_sub_cancel' (by omega), List.getElem?_take_of_lt (by omega)]
    exact hnewline

/-- **A line starts at one place only.** -/
theorem StartsLine.unique {source : Text} {start first other : Nat}
    (h : StartsLine source start first) (hother : StartsLine source start other) :
    first = other :=
  Nat.le_antisymm (hother.le_of_startsLine h) (h.le_of_startsLine hother)

/-- A text is what stands up to its last newline, and the line behind it. -/
theorem exists_lastLine (t : Text) :
    ∃ before, t = before ++ lastLine t ∧ (∀ c ∈ before.getLast?, c = newline) ∧
      newline ∉ lastLine t := by
  refine ⟨(t.reverse.dropWhile (· != newline)).reverse, ?_, ?_, ?_⟩
  · rw [lastLine, ← List.reverse_append, List.takeWhile_append_dropWhile, List.reverse_reverse]
  · intro c hc
    rw [List.getLast?_reverse] at hc
    simpa using Lexer.head?_dropWhile (· != newline) t.reverse c hc
  · intro hmem
    rw [lastLine, List.mem_reverse] at hmem
    simpa using List.mem_takeWhile_imp hmem

/-- Every place of a source has a start of its line. -/
theorem startsLine_lastLine {source : Text} {start : Nat} (h : start ≤ source.length) :
    ∃ first, StartsLine source start first ∧
      (source.take start).drop first = lastLine (source.take start) := by
  obtain ⟨before, hsplit, hlast, hline⟩ := exists_lastLine (source.take start)
  have hdrop : (source.take start).drop before.length = lastLine (source.take start) := by
    conv_lhs => rw [hsplit, List.drop_left]
  have hlength : before.length ≤ start := by
    have hsum := congrArg List.length hsplit
    rw [List.length_take, List.length_append] at hsum
    omega
  have hsource : source = before ++ (lastLine (source.take start) ++ source.drop start) := by
    rw [← List.append_assoc, ← hsplit, List.take_append_drop]
  refine ⟨before.length, ⟨hlength, ?_, by rwa [hdrop]⟩, hdrop⟩
  cases hbefore : before.getLast? with
  | none =>
      left
      rw [List.getLast?_eq_none_iff.1 hbefore]
      rfl
  | some c =>
      right
      have hpos : 0 < before.length := by
        rw [List.length_pos_iff]
        rintro rfl
        cases hbefore
      rw [hsource, List.getElem?_append_left (by omega), ← List.getLast?_eq_getElem?, hbefore,
        hlast c hbefore]

end Text

namespace Lexer

open Text (newline HasRunes StartsLine)

/-! ### The places of items -/

/-- What closes the items of a source has its place in it. -/
theorem Closes.placed {source : Text} {last : Except SourceError Token} (h : Closes source last) :
    (place last).Placed source := by
  cases last with
  | ok token => exact h.2.1
  | error error =>
      obtain ⟨span, char, rfl, hrune⟩ := h
      rcases hrune with ⟨c, -, hshows⟩ | ⟨-, -, b, hshows⟩
      · exact hshows.placed
      · exact hshows.placed

/-- Every item of a source has its place in it. -/
theorem placed_of_mem_tokenize {source : Text} {item : Except SourceError Token}
    (h : item ∈ tokenize source) : (place item).Placed source := by
  obtain ⟨-, tokens, last, hitems, hpartition, -⟩ := partition_of_laid (laid_tokenize source)
  rw [hitems, List.mem_append, List.mem_singleton] at h
  rcases h with h | rfl
  · obtain ⟨token, htoken, rfl⟩ := List.mem_map.1 h
    exact (hpartition.shows token htoken).placed
  · exact hpartition.closes.placed

/-- **Lines and columns.**  Every item of a source, be it a token, the end of input or the error,
has the line and the column of its start: one more than the newlines before it, and one more than
the runes from the start of its line up to it. -/
theorem tokenize_coordinates (source : Text) (item : Except SourceError Token)
    (h : item ∈ tokenize source) :
    ∃ start first runes : Nat,
      (place item).start = start ∧ start ≤ source.length ∧
        (place item).line = 1 + List.count newline (source.take start) ∧
          StartsLine source start first ∧ HasRunes ((source.take start).drop first) runes ∧
            (place item).column = 1 + runes := by
  have hplaced := placed_of_mem_tokenize h
  obtain ⟨start, hstart⟩ := Int.eq_ofNat_of_zero_le hplaced.start_nonneg
  have hle := hplaced.start_le
  have hstop := hplaced.stop_le
  have hline := hplaced.line
  have hcolumn := hplaced.column
  rw [hstart, Int.toNat_natCast] at hline hcolumn
  have hwithin : start ≤ source.length := by omega
  obtain ⟨first, hfirst, hsegment⟩ := Text.startsLine_lastLine hwithin
  refine ⟨start, first, _, hstart, hwithin, hline, hfirst, Text.hasRunes_iff.2 rfl, ?_⟩
  rw [hsegment]
  exact hcolumn

/-- A comment that ends in the middle of a character, and a character that starts no token on the
line behind it. -/
def torn : Text := [47, 47, 0xE2, 0x82, 10, 65, 9, 0xC3, 0xA9]

/-- The error stands behind two runes of the second line, the newline behind four of the first. -/
theorem tokenize_coordinates_torn :
    (.error (.unexpectedCharacter ⟨7, 9, 2, 3⟩ 0xE9) ∈ tokenize torn ∧
      ∃ start first runes : Nat, (7 : Int) = start ∧ start ≤ torn.length ∧
        (2 : Int) = 1 + List.count newline (torn.take start) ∧ StartsLine torn start first ∧
          HasRunes ((torn.take start).drop first) runes ∧ (3 : Int) = 1 + runes) ∧
    (.ok { kind := .newline, text := [10], span := ⟨4, 5, 1, 5⟩ } ∈ tokenize torn ∧
      ∃ start first runes : Nat, (4 : Int) = start ∧ start ≤ torn.length ∧
        (1 : Int) = 1 + List.count newline (torn.take start) ∧ StartsLine torn start first ∧
          HasRunes ((torn.take start).drop first) runes ∧ (5 : Int) = 1 + runes) := by
  have herror : .error (.unexpectedCharacter ⟨7, 9, 2, 3⟩ 0xE9) ∈ tokenize torn := by
    decide +kernel
  have hnewline : .ok { kind := .newline, text := [10], span := ⟨4, 5, 1, 5⟩ } ∈ tokenize torn := by
    decide +kernel
  exact ⟨⟨herror, tokenize_coordinates torn _ herror⟩, hnewline,
    tokenize_coordinates torn _ hnewline⟩

end Lexer

end TableAssembler
