/-
**Two sources joined by a newline.**

A newline closes whatever stands before it: no token reaches over it, a statement ends there, and
the scanner starts afresh.  So a source that parses can be put before any other, with a newline
between them: its statements come first, and of the second source only the places change.

Main definitions:

* `Span.move`, `Position.move` — a span and a place, moved on by some bytes and lines;
* `Likeness.moved`, `Likeness.after` — **equality but for spans moved on**;
* `Token.mapSpan`, `LabelDef.mapSpan`, `Statement.mapSpans`, `SourceError.mapSpans` — what sources
  are made into, with every span replaced.

Main results:

* `Lexer.scan_moved` — the items of a text, scanned from another place;
* `Lexer.scan_seam` — the items of two texts with a newline between them;
* `Seam.statements_seam` — the statements of two sources joined by a newline, up to likeness;
* `Seam.statements_appended` — **the statements and errors of a source behind another, span for
  span**.
-/

import TableAssembler.Assembler
import TableAssembler.Proofs.Program.Likeness
import TableAssembler.Proofs.Statement.Advance
import TableAssembler.Proofs.Statement.Likeness
import TableAssembler.Proofs.Token.Partition

set_option relaxedAutoImplicit false
set_option autoImplicit false

namespace TableAssembler

open Text (newline)

/-! ### Moving on -/

/-- A span moved on by some bytes and lines; the column stays. -/
def Span.move (span : Span) (bytes lines : Nat) : Span where
  start := span.start + bytes
  stop := span.stop + bytes
  line := span.line + lines
  column := span.column

/-- A place moved on by some bytes and lines; the column stays. -/
def Position.move (position : Position) (bytes lines : Nat) : Position where
  offset := position.offset + bytes
  line := position.line + lines
  column := position.column

/-- **Equality but for spans moved on** by some bytes and lines. -/
def Likeness.moved (bytes lines : Nat) : Likeness where
  span a b := b = a.move bytes lines
  name a b := a = b

/-- Equality but for spans moved on behind a text and a newline. -/
def Likeness.after (before : Text) : Likeness :=
  .moved (before.length + 1) (1 + List.count newline before)

theorem Likeness.joins_moved (bytes lines : Nat) : (Likeness.moved bytes lines).Joins where
  name _ := rfl
  through := by
    rintro a a' b b' rfl rfl
    rfl

theorem Likeness.faithful_moved (bytes lines : Nat) : (Likeness.moved bytes lines).Faithful := by
  rintro a a' b b' rfl rfl
  rfl

/-- A span whose end is a place of a text loses its last byte wherever it is. -/
theorem Span.dropLast_move {span : Span} (h : 0 ≤ span.stop) (bytes lines : Nat) :
    (span.move bytes lines).dropLast = span.dropLast.move bytes lines := by
  rw [dropLast_eq h, dropLast_eq (Int.add_nonneg h (Int.natCast_nonneg bytes))]
  simp only [move, Span.mk.injEq, and_true, true_and]
  omega

namespace Position

theorem span_move (position : Position) (bytes lines length : Nat) :
    (position.move bytes lines).span length = (position.span length).move bytes lines := by
  simp only [span, move, Span.move, Span.mk.injEq, and_true]
  omega

theorem passRune_move (position : Position) (bytes lines : Nat) (rune : Rune) :
    (position.move bytes lines).passRune rune = (position.passRune rune).move bytes lines := by
  unfold passRune
  split
  · simp only [move, Position.mk.injEq, and_true, true_and]
    omega
  · rfl

/-- Passing over a text moves on a place by as much wherever it is. -/
theorem pass_move (position : Position) (bytes lines : Nat) (t : Text) :
    (position.move bytes lines).pass t = (position.pass t).move bytes lines := by
  have hfold : ∀ (runes : List Rune) (position : Position),
      runes.foldl passRune (position.move bytes lines) =
        (runes.foldl passRune position).move bytes lines := by
    intro runes
    induction runes with
    | nil => exact fun _ => rfl
    | cons rune runes ih =>
        intro position
        rw [List.foldl_cons, List.foldl_cons, passRune_move, ih]
  rw [pass, pass, hfold]
  simp only [move, Position.mk.injEq, and_true]
  omega

/-- Behind a newline all places are those of a fresh text, moved on. -/
theorem behind_newline (before : Text) :
    behind (before ++ [newline]) = move {} (before.length + 1) (1 + List.count newline before) := by
  have hline : Text.lastLine (before ++ [newline]) = Text.lastLine [newline] :=
    Text.lastLine_append_of_mem before List.mem_cons_self
  rw [behind, hline, List.length_append, List.count_append]
  simp only [move, Position.mk.injEq]
  refine ⟨?_, ?_, rfl⟩
  · rw [List.length_singleton]
    omega
  · rw [List.count_singleton_self]
    omega

end Position

namespace Lexer

open TableAssembler.Parser (leading ending AtEnd)

/-! ### Scanning from another place -/

theorem read_tokenAt (position : Position) (bytes lines : Nat) (kind : TokenKind) (text : Text) :
    Token.Read (.moved bytes lines) (tokenAt position kind text)
      (tokenAt (position.move bytes lines) kind text) where
  kind := rfl
  base := rfl
  name _ := rfl
  text _ := rfl
  span := Position.span_move position bytes lines text.length
  label _ := by
    have hstop : 0 ≤ (position.span text.length).stop :=
      Int.add_nonneg (Int.natCast_nonneg _) (Int.natCast_nonneg _)
    change ((position.move bytes lines).span text.length).dropLast = _
    rw [Position.span_move, Span.dropLast_move hstop]
    rfl

/-- **The items of a text, scanned from another place**, are the same but for their spans. -/
theorem scan_moved (fresh : Bool) (position : Position) (bytes lines : Nat) (text : Text) :
    List.Forall₂
      (Outcome.Alike (SourceError.Alike (.moved bytes lines)) (Token.Read (.moved bytes lines)))
      (scan fresh position text) (scan fresh (position.move bytes lines) text) := by
  induction fresh, position, text using scan.induct with
  | case1 fresh position text hnil =>
      rw [scan_of_nil fresh position hnil, scan_of_nil fresh _ hnil, Position.pass_move]
      exact .cons (.ok (read_tokenAt _ bytes lines _ _)) .nil
  | case2 fresh position text c rest hcons hnone =>
      rw [scan_of_none position hcons hnone, scan_of_none _ hcons hnone, Position.pass_move]
      exact .cons (.error (.unexpectedCharacter (Position.span_move _ bytes lines _) _)) .nil
  | case3 fresh position text here c rest hcons kind n hlex hlt lexeme ih =>
      rw [← hcons] at hlex
      rw [scan_of_some position hlex, scan_of_some _ hlex, Position.pass_move, Position.pass_move,
        hcons]
      exact .cons (.ok (read_tokenAt _ bytes lines _ _)) ih

/-! ### Scanning over a newline -/

/-- A newline prolongs no token. -/
theorem ends_append_newline {kind : TokenKind} {rest : Text} (h : Ends kind rest) (more : Text) :
    Ends kind (rest ++ newline :: more) := by
  cases rest with
  | cons c rest => cases kind <;> exact h
  | nil =>
      cases kind with
      | comment => rintro d ⟨rfl⟩; rfl
      | mnemonic => rintro d ⟨rfl⟩; decide
      | identifier => rintro d ⟨rfl⟩; decide
      | directive => rintro d ⟨rfl⟩; decide
      | number => rintro d ⟨rfl⟩; decide
      | _ => trivial

/-- **The items of two texts with a newline between them**: the tokens of the first, if it has no
error, the newline, and the items of the second. -/
theorem scan_seam {before a : Text} (fresh : Bool)
    (h : AtEnd (ending (scan fresh (.behind before) a))) (b : Text) :
    scan fresh (.behind before) (a ++ newline :: b) =
      (leading (scan fresh (.behind before) a)).map .ok ++
        .ok (tokenAt (.behind (before ++ a)) .newline [newline]) ::
          scan true (.behind (before ++ a ++ [newline])) b := by
  generalize hposition : Position.behind before = position at h ⊢
  induction fresh, position, a using scan.induct generalizing before with
  | case1 fresh position text hnil =>
      have htext := takeWhile_isBlank_of_nil hnil
      have hblanks : ∀ c ∈ text, isBlank c = true := htext ▸ isBlank_of_mem_blanks text
      have hpass : position.pass text = .behind (before ++ text) := by
        rw [← hposition, Position.pass_behind before (startsPlain_of_blanks hblanks)]
      have hline : (Position.behind (before ++ text)).pass [newline] =
          .behind (before ++ text ++ [newline]) :=
        Position.pass_behind _ (startsPlain_of_spells .newline)
      have hscan := @scan_token fresh position text [newline] b .newline hblanks .newline trivial
        (by simp [Fits])
      rw [hpass, hline, List.singleton_append] at hscan
      rw [hscan, scan_of_nil fresh position hnil]
      rfl
  | case2 fresh position text c rest hcons hnone =>
      rw [scan_of_none position hcons hnone] at h
      rcases h with h | ⟨token, more, h, -⟩
      · cases h
      · cases h
  | case3 fresh position text here c rest hcons kind n hlex hlt lexeme =>
      rename_i ih
      obtain ⟨hspells, hends, hfits⟩ := spells_of_lexeme? hlex
      have hkind : (tokenAt here kind lexeme).kind ≠ .endOfInput := Lexical.kind_ne ⟨hspells, rfl⟩
      have hfirst : scan fresh position text = [tokenAt here kind lexeme].map .ok ++
          scan (freshAfter kind fresh) (here.pass lexeme) ((c :: rest).drop n) := by
        rw [scan_of_some position (hcons ▸ hlex), hcons]
        rfl
      have hblanks : text.takeWhile isBlank ++ (lexeme ++ (c :: rest).drop n) = text := by
        rw [List.take_append_drop, ← hcons, List.takeWhile_append_dropWhile]
      have hhere : Position.behind (before ++ text.takeWhile isBlank ++ lexeme) =
          here.pass lexeme := by
        rw [← Position.pass_behind _ (startsPlain_of_spells hspells), ← pass_blanks, hposition]
      have hbefore : before ++ text.takeWhile isBlank ++ lexeme ++ (c :: rest).drop n =
          before ++ text := by
        rw [List.append_assoc, List.append_assoc, hblanks]
      -- the newline does not prolong the token, so that it is the first of the joined text too
      have hscan := scan_token position (isBlank_of_mem_blanks text) hspells
        (ends_append_newline hends b) hfits
      have hjoined : text.takeWhile isBlank ++ (lexeme ++ ((c :: rest).drop n ++ newline :: b)) =
          text ++ newline :: b := by
        rw [← List.append_assoc lexeme, ← List.append_assoc, hblanks]
      rw [hjoined] at hscan
      rw [hfirst, Parser.ending_append (by simpa using hkind)] at h
      rw [hscan, hfirst, Parser.leading_append (by simpa using hkind), ih hhere h, hbefore]
      rfl

end Lexer

namespace Seam

open TableAssembler.Parser Lexer

/-! ### Parsing over a newline -/

/-- Where a source may end, a newline ends a statement just so. -/
theorem step_newline_of_finish {state : State} {last : Span} {final : Option Statement}
    (h : finish last state = .ok final) {token : Token} (hkind : token.kind = .newline) :
    step state token = .ok (.line [], final) := by
  unfold step
  rw [hkind]
  cases state with
  | line labels =>
      cases labels with
      | nil =>
          cases h
          rfl
      | cons label labels => cases h
  | comma statement => cases h
  | _ =>
      cases h
      rfl

/-- Behind tokens that may end a source and a newline, the machine is where it was at the start. -/
theorem run_newline {tokens : List Token} (htokens : ∀ token ∈ tokens, token.kind ≠ .endOfInput)
    {state : State} {done : List Statement} {final : Option Statement} {last : Span}
    (hadvance : advance (.line []) tokens = .ok (state, done))
    (hfinish : finish last state = .ok final) {token : Token} (hkind : token.kind = .newline)
    (items : List (Except SourceError Token)) :
    run id (.line []) {} (tokens.map .ok ++ .ok token :: items) =
      (run id (.line []) token.span items).map (done ++ final.toList ++ ·) := by
  rw [run_advance id (.line []) {} htokens, hadvance]
  dsimp only
  rw [run_step id state _ (by simp [hkind]), step_newline_of_finish hfinish hkind]
  simp only [Outcome.map_map, List.append_assoc]

/-- **The statements of two sources joined by a newline.**  If the first parses, then its statements
come first, and behind them those of the second, moved on; or else the error of the second comes
out, moved on. -/
theorem statements_seam {a : Text} {parsed : List Statement} (h : statements a = .ok parsed)
    (b : Text) :
    Outcome.Alike (SourceError.Alike (.after a))
      (fun later joined => ∃ moved, joined = parsed ++ moved ∧
        List.Forall₂ (Statement.Alike (.after a)) later moved)
      (statements b) (statements (a ++ newline :: b)) := by
  obtain ⟨hend, state, done, final, hadvance, hfinish, rfl⟩ := parse_eq_ok_iff.1 h
  have hseam := @scan_seam [] a true hend b
  rw [List.nil_append, Position.behind_newline, Position.behind_nil] at hseam
  have hjoined := run_newline kind_of_mem_leading hadvance hfinish
    (rfl : (tokenAt (.behind a) .newline [newline]).kind = .newline)
    (scan true (Position.move {} (a.length + 1) (1 + List.count newline a)) b)
  rw [tokenize, ← hseam] at hjoined
  have hrun : Outcome.Alike (SourceError.Alike (.after a))
      (List.Forall₂ (Statement.Alike (.after a))) (run id (.line []) {} (tokenize b))
      (run id (.line []) (tokenAt (.behind a) .newline [newline]).span
        (scan true (Position.move {} (a.length + 1) (1 + List.count newline a)) b)) :=
    run_alike (Likeness.joins_moved _ _) (scan_moved true {} _ _ b) (.line .nil) (.inr rfl)
  change Outcome.Alike _ _ (run id (.line []) {} (tokenize b))
    (run id (.line []) {} (scan true {} (a ++ newline :: b)))
  rw [hjoined]
  rcases hrun.cases_eq with
    ⟨later, moved, hlater, hmoved, halike⟩ | ⟨error, error', hb, hb', halike⟩
  · rw [hlater, hmoved]
    exact .ok ⟨moved, rfl, halike⟩
  · rw [hb, hb']
    exact .error halike

end Seam

/-! ### Replacing spans -/

/-- A token with its span replaced. -/
def Token.mapSpan (f : Span → Span) (token : Token) : Token := { token with span := f token.span }

/-- A label definition with its span replaced. -/
def LabelDef.mapSpan (f : Span → Span) (label : LabelDef) : LabelDef :=
  { label with span := f label.span }

/-- A statement with all its spans replaced. -/
def Statement.mapSpans (f : Span → Span) (statement : Statement) : Statement where
  labels := statement.labels.map (LabelDef.mapSpan f)
  mnemonic := statement.mnemonic
  mnemonicSpan := f statement.mnemonicSpan
  directive := statement.directive
  operands := statement.operands.map (Token.mapSpan f)
  span := f statement.span

/-- An error with all its spans replaced, that of a token found and that of an earlier label
included. -/
def SourceError.mapSpans (f : Span → Span) : SourceError → SourceError
  | unexpectedCharacter span char => .unexpectedCharacter (f span) char
  | unexpected span found expected => .unexpected (f span) (found.mapSpan f) expected
  | unexpectedEnd span expected => .unexpectedEnd (f span) expected
  | unknownOpcode span mnemonic => .unknownOpcode (f span) mnemonic
  | operandCount span mnemonic expected found atLeast =>
      .operandCount (f span) mnemonic expected found atLeast
  | invalidOperand span text expected => .invalidOperand (f span) text expected
  | undefinedLabel span name => .undefinedLabel (f span) name
  | duplicateLabel span name previous => .duplicateLabel (f span) name (f previous)

/-- A likeness that leaves names alone and determines each span by the one that it stands for. -/
structure Likeness.Maps (like : Likeness) (f : Span → Span) : Prop where
  span {a b : Span} : like.span a b → b = f a
  name {a b : Text} : like.name a b → a = b

theorem Likeness.maps_after (before : Text) :
    (Likeness.after before).Maps
      fun span => span.move (before.length + 1) (1 + List.count newline before) where
  span h := h
  name h := h

section Maps

variable {like : Likeness} {f : Span → Span} (maps : like.Maps f)

include maps

theorem Token.Alike.eq_mapSpan {a b : Token} (h : Token.Alike like a b) : b = a.mapSpan f := by
  have htext : a.text = b.text := h.text_or_name.elim id maps.name
  obtain ⟨kind, text, span, base⟩ := a
  obtain ⟨kind', text', span', base'⟩ := b
  cases h.kind
  cases h.base
  cases htext
  cases maps.span h.span
  rfl

theorem LabelDef.Alike.eq_mapSpan {a b : LabelDef} (h : LabelDef.Alike like a b) :
    b = a.mapSpan f := by
  obtain ⟨name, span⟩ := a
  obtain ⟨name', span'⟩ := b
  cases maps.name h.name
  cases maps.span h.span
  rfl

theorem Statement.Alike.eq_mapSpans {a b : Statement} (h : Statement.Alike like a b) :
    b = a.mapSpans f := by
  have hlabels := eq_map_of_forall₂ (fun _ _ hlabel => hlabel.eq_mapSpan maps) h.labels
  have hoperands := eq_map_of_forall₂ (fun _ _ htoken => htoken.eq_mapSpan maps) h.operands
  obtain ⟨labels, mnemonic, mnemonicSpan, directive, operands, span⟩ := a
  obtain ⟨labels', mnemonic', mnemonicSpan', directive', operands', span'⟩ := b
  cases hlabels
  cases h.mnemonic
  cases maps.span h.mnemonicSpan
  cases h.directive
  cases hoperands
  cases maps.span h.span
  rfl

theorem SourceError.Alike.eq_mapSpans {a b : SourceError} (h : SourceError.Alike like a b) :
    b = a.mapSpans f := by
  cases h with
  | unexpectedCharacter hspan => rw [maps.span hspan]; rfl
  | unexpected hspan hfound => rw [maps.span hspan, hfound.eq_mapSpan maps]; rfl
  | unexpectedEnd hspan => rw [maps.span hspan]; rfl
  | unknownOpcode hspan => rw [maps.span hspan]; rfl
  | operandCount hspan => rw [maps.span hspan]; rfl
  | invalidOperand hspan htext => rw [maps.span hspan, ← htext.elim id maps.name]; rfl
  | undefinedLabel hspan hname => rw [maps.span hspan, ← maps.name hname]; rfl
  | duplicateLabel hspan hname hprevious =>
      rw [maps.span hspan, ← maps.name hname, maps.span hprevious]
      rfl

end Maps

namespace Seam

open Text (utf8)

/-- **Appending a source to a well-formed one only moves it on.**  If a source parses, then with a
newline and any other source behind it, its statements come first.  Behind them come those of the
other, or else the error of the other comes out; all spans of either are moved on by the bytes and
lines in front, and their columns stay. -/
theorem statements_appended (a b : Text) (parsed : List Statement) (h : statements a = .ok parsed) :
    statements (a ++ newline :: b) =
      match statements b with
      | .ok later => .ok (parsed ++ later.map (Statement.mapSpans fun span =>
          span.move (a.length + 1) (1 + List.count newline a)))
      | .error error => .error (error.mapSpans fun span =>
          span.move (a.length + 1) (1 + List.count newline a)) := by
  have hmaps := Likeness.maps_after a
  rcases (statements_seam h b).cases_eq with
    ⟨later, joined, hlater, hjoined, moved, rfl, hmoved⟩ | ⟨error, error', herror, herror', halike⟩
  · rw [hlater, hjoined, eq_map_of_forall₂ (fun _ _ hstep => hstep.eq_mapSpans hmaps) hmoved]
  · rw [herror, herror', halike.eq_mapSpans hmaps]

/-- A source of two lines, the first of which has a character of two bytes. -/
def front : Text := utf8 "ADD 1 // é\n"

/-- The statement of `front`. -/
def frontStatement : Statement where
  mnemonic := utf8 "ADD"
  mnemonicSpan := ⟨0, 3, 1, 1⟩
  operands := [⟨.number, utf8 "1", ⟨4, 5, 1, 5⟩, 10⟩]
  span := ⟨0, 5, 1, 1⟩

/-- A source with a label. -/
def rear : Text := utf8 "x: SUB"

/-- The statement of `rear`. -/
def rearStatement : Statement where
  labels := [⟨utf8 "x", ⟨0, 1, 1, 1⟩⟩]
  mnemonic := utf8 "SUB"
  mnemonicSpan := ⟨3, 6, 1, 4⟩
  span := ⟨0, 6, 1, 1⟩

/-- A source that ends within a statement. -/
def torn : Text := utf8 "SUB 1,"

/-- Behind `front`, which has twelve bytes and one newline, both sources start in the third line. -/
theorem statements_front_appended :
    statements front = .ok [frontStatement] ∧
      statements (front ++ newline :: rear) =
        .ok [frontStatement, {
          labels := [⟨utf8 "x", ⟨13, 14, 3, 1⟩⟩]
          mnemonic := utf8 "SUB"
          mnemonicSpan := ⟨16, 19, 3, 4⟩
          span := ⟨13, 19, 3, 1⟩ }] ∧
      statements (front ++ newline :: torn) =
        .error (.unexpectedEnd ⟨18, 19, 3, 6⟩ [.number, .identifier]) := by
  have hfront : statements front = .ok [frontStatement] := by decide +kernel
  have hrear : statements rear = .ok [rearStatement] := by decide +kernel
  have htorn : statements torn = .error (.unexpectedEnd ⟨5, 6, 1, 6⟩ [.number, .identifier]) := by
    decide +kernel
  refine ⟨hfront, ?_, ?_⟩
  · rw [statements_appended front rear [frontStatement] hfront, hrear]
    decide
  · rw [statements_appended front torn [frontStatement] hfront, htorn]
    decide

end Seam

end TableAssembler
