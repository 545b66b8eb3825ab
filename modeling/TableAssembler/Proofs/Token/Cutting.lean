/-
**The one way to cut a source into tokens.**

A class and a range of bytes make a *lexeme*.  The lexical grammar says which lexemes a source has
at a place, and, for a name that is no label, by what stands before it on the line whether it is a
mnemonic or an identifier.  Lexemes *cut* a source up to some place if they stand in it one behind
the other and leave out nothing but blanks.  No step of the scanner enters into this: lexemes are
compared with bytes, and with the classes of all lexemes before them.

A source has exactly one cut that goes to its end, or else to a place where a byte that is no blank
starts no lexeme.  The tokens are the lexemes of that cut.

Main definitions:

* `Lexer.Lexeme`, `Lexer.Lexeme.Shaped` — a class with a range, and the grammar;
* `Lexer.lineOpen` — whether the line shows no mnemonic, directive or number yet;
* `Lexer.Cut` — **lexemes that cut a source**;
* `Lexer.Refused` — a place where no lexeme starts;
* `Lexer.Marks` — the token that stands for a lexeme.

Main results:

* `Lexer.Cut.uncons`, `Lexer.Cut.cons` — a cut, lexeme by lexeme;
* `Lexer.lexeme?_eq_none_iff` — the scanner finds no token just where no lexeme starts;
* `Lexer.scan_of_cut` — the scanner follows every cut;
* `Lexer.exists_cut` — there is one;
* `Lexer.tokenize_unique_cut` — **the tokens of a source are its only cut**.
-/

import TableAssembler.Proofs.Token.Literal
import TableAssembler.Proofs.Token.Outline

set_option relaxedAutoImplicit false
set_option autoImplicit false

namespace TableAssembler

namespace Lexer

open Text (byte isName isNamePart)

/-! ### Lexemes -/

/-- A class, and the range of bytes from `start` up to `stop`. -/
@[ext]
structure Lexeme where
  kind : TokenKind
  start : Nat
  stop : Nat

/-- The bytes of a lexeme. -/
def Lexeme.text (lexeme : Lexeme) (source : Text) : Text :=
  (source.take lexeme.stop).drop lexeme.start

/-- **The lexical grammar**: the bytes of a lexeme are spelled as its class demands, and what
follows them does not prolong it. -/
structure Lexeme.Shaped (lexeme : Lexeme) (source : Text) : Prop where
  stop_le : lexeme.stop ≤ source.length
  spells : Spells lexeme.kind (lexeme.text source)
  ends : Ends lexeme.kind (source.drop lexeme.stop)

/-- Whether, of the classes of some lexemes, no mnemonic, directive or number has come since the
last newline, or since the start if there is none. -/
def lineOpen (history : List TokenKind) : Bool :=
  (history.reverse.takeWhile (· != .newline)).all fun kind =>
    kind != .mnemonic && kind != .directive && kind != .number

/-- **Lexemes cut a source** from one place up to another, behind lexemes of the classes `history`:
they stand in it one behind the other, each in its shape, and leave out nothing but blanks. -/
structure Cut (source : Text) (history : List TokenKind) (start : Nat) (lexemes : List Lexeme)
    (stop : Nat) : Prop where
  start_le : start ≤ stop
  stop_le : stop ≤ source.length
  within : ∀ lexeme ∈ lexemes, start ≤ lexeme.start ∧ lexeme.stop ≤ stop
  ordered : lexemes.Pairwise fun a b => a.stop ≤ b.start
  shaped : ∀ lexeme ∈ lexemes, lexeme.Shaped source
  fits : ∀ before lexeme after, lexemes = before ++ lexeme :: after →
    Fits (lineOpen (history ++ before.map Lexeme.kind)) lexeme.kind
  covers : ∀ i c, start ≤ i → i < stop → source[i]? = some c →
    (∃ lexeme ∈ lexemes, lexeme.start ≤ i ∧ i < lexeme.stop) ∨ isBlank c = true

/-- A byte that is no blank stands at a place where no lexeme starts. -/
def Refused (source : Text) (stop : Nat) : Prop :=
  (∃ c, source[stop]? = some c ∧ isBlank c = false) ∧
    ∀ kind stop', ¬Lexeme.Shaped ⟨kind, stop, stop'⟩ source

/-- The base of a token: that of the mark that a number starts with, ten if it starts with none,
and zero for all other classes. -/
def HasBase (token : Token) : Prop :=
  if token.kind = .number then
    (∃ mark base, (mark, base) ∈ Literal.marks ∧ mark <+: token.text ∧ token.base = base) ∨
      ((∀ mark base, (mark, base) ∈ Literal.marks → ¬mark <+: token.text) ∧ token.base = 10)
  else token.base = 0

/-- **A token stands for a lexeme.** -/
structure Marks (source : Text) (token : Token) (lexeme : Lexeme) : Prop where
  kind : token.kind = lexeme.kind
  start : token.span.start = lexeme.start
  stop : token.span.stop = lexeme.stop
  text : token.text = lexeme.text source
  base : HasBase token

/-- The last item of a source that is cut up to a place: the end of input at its end, or else the
error at a place that is refused. -/
def Ending (source : Text) (stop : Nat) : Except SourceError Token → Prop
  | .ok token => token.kind = .endOfInput ∧ token.base = 0 ∧ token.span.start = stop ∧
      stop = source.length
  | .error error => (∃ span char, error = .unexpectedCharacter span char) ∧
      error.span.start = stop ∧ Refused source stop

/-! ### Slices -/

section Slices

variable {t : Text} {i j : Nat}

theorem take_append_slice (h : i ≤ j) : t.take i ++ (t.take j).drop i = t.take j := by
  have hsplit := List.take_append_drop i (t.take j)
  rwa [List.take_take, Nat.min_eq_left h] at hsplit

theorem slice_append_drop (h : i ≤ j) : (t.take j).drop i ++ t.drop j = t.drop i := by
  have hdrop : t.drop j = (t.drop i).drop (j - i) := by
    rw [List.drop_drop, Nat.add_sub_cancel' h]
  rw [List.drop_take, hdrop, List.take_append_drop]

theorem length_slice (hj : j ≤ t.length) : ((t.take j).drop i).length = j - i := by
  rw [List.length_drop, List.length_take, Nat.min_eq_left hj]

theorem mem_slice_iff {c : UInt8} :
    c ∈ (t.take j).drop i ↔ ∃ k, i ≤ k ∧ k < j ∧ t[k]? = some c := by
  rw [List.mem_iff_getElem?]
  constructor
  · rintro ⟨n, hn⟩
    rw [List.getElem?_drop, List.getElem?_take] at hn
    split at hn
    next hlt => exact ⟨i + n, Nat.le_add_right i n, hlt, hn⟩
    next => cases hn
  · rintro ⟨k, hi, hj, hk⟩
    refine ⟨k - i, ?_⟩
    rw [List.getElem?_drop, Nat.add_sub_cancel' hi, List.getElem?_take, if_pos hj, hk]

end Slices

theorem onlyBlanks_iff {source : Text} {start stop : Nat} :
    OnlyBlanks source start stop ↔ start ≤ stop ∧
      ∀ k c, start ≤ k → k < stop → source[k]? = some c → isBlank c = true := by
  rw [OnlyBlanks, Int.toNat_natCast, Int.toNat_natCast, Int.ofNat_le]
  constructor
  · rintro ⟨hle, hblank⟩
    exact ⟨hle, fun k c hk hlt hc => hblank c (mem_slice_iff.2 ⟨k, hk, hlt, hc⟩)⟩
  · rintro ⟨hle, hblank⟩
    refine ⟨hle, fun c hc => ?_⟩
    obtain ⟨k, hk, hlt, hget⟩ := mem_slice_iff.1 hc
    exact hblank k c hk hlt hget

/-! ### A cut, lexeme by lexeme -/

/-- No lexeme is empty. -/
theorem Lexeme.Shaped.start_lt {lexeme : Lexeme} {source : Text} (h : lexeme.Shaped source) :
    lexeme.start < lexeme.stop := by
  have hpos := List.length_pos_iff.2 (ne_nil_of_spells h.spells)
  rw [Lexeme.text, length_slice h.stop_le] at hpos
  omega

theorem cut_nil_iff {source : Text} {history : List TokenKind} {start stop : Nat} :
    Cut source history start [] stop ↔ OnlyBlanks source start stop ∧ stop ≤ source.length := by
  rw [onlyBlanks_iff]
  constructor
  · intro h
    refine ⟨⟨h.start_le, fun k c hk hlt hc => ?_⟩, h.stop_le⟩
    simpa using h.covers k c hk hlt hc
  · rintro ⟨⟨hle, hblank⟩, hstop⟩
    exact {
      start_le := hle
      stop_le := hstop
      within := by simp
      ordered := .nil
      shaped := by simp
      fits := by simp
      covers := fun k c hk hlt hc => .inr (hblank k c hk hlt hc) }

/-- **A cut starts with blanks and a lexeme**, and goes on behind it. -/
theorem Cut.uncons {source : Text} {history : List TokenKind} {start stop : Nat} {lexeme : Lexeme}
    {rest : List Lexeme} (h : Cut source history start (lexeme :: rest) stop) :
    OnlyBlanks source start lexeme.start ∧ lexeme.Shaped source ∧
      Fits (lineOpen history) lexeme.kind ∧
        Cut source (history ++ [lexeme.kind]) lexeme.stop rest stop := by
  obtain ⟨hshaped, hrest⟩ := List.forall_mem_cons.1 h.shaped
  obtain ⟨⟨hstart, hstop⟩, hwithin⟩ := List.forall_mem_cons.1 h.within
  obtain ⟨hlater, hordered⟩ := List.pairwise_cons.1 h.ordered
  have hlt := hshaped.start_lt
  refine ⟨onlyBlanks_iff.2 ⟨hstart, ?_⟩, hshaped, by simpa using h.fits [] lexeme rest rfl, ?_⟩
  · -- no lexeme reaches back before the first
    intro k c hk hbefore hc
    rcases h.covers k c hk (by omega) hc with ⟨other, hother, hle, -⟩ | hblank
    · rcases List.mem_cons.1 hother with rfl | hother
      · omega
      · have hbehind := hlater other hother
        omega
    · exact hblank
  · refine ⟨hstop, h.stop_le, fun other hother => ⟨hlater other hother, (hwithin other hother).2⟩,
      hordered, hrest, ?_, ?_⟩
    · intro before other after hsplit
      have hfits := h.fits (lexeme :: before) other after (by rw [hsplit, List.cons_append])
      rwa [List.map_cons, ← List.singleton_append, ← List.append_assoc] at hfits
    · intro k c hk hbefore hc
      rcases h.covers k c (by omega) hbefore hc with ⟨other, hother, hle, hend⟩ | hblank
      · rcases List.mem_cons.1 hother with rfl | hother
        · omega
        · exact .inl ⟨other, hother, hle, hend⟩
      · exact .inr hblank

/-- Blanks and a lexeme in front of a cut make a cut. -/
theorem Cut.cons {source : Text} {history : List TokenKind} {start stop : Nat} {lexeme : Lexeme}
    {rest : List Lexeme} (hblanks : OnlyBlanks source start lexeme.start)
    (hshaped : lexeme.Shaped source) (hfits : Fits (lineOpen history) lexeme.kind)
    (h : Cut source (history ++ [lexeme.kind]) lexeme.stop rest stop) :
    Cut source history start (lexeme :: rest) stop := by
  obtain ⟨hstart, hblank⟩ := onlyBlanks_iff.1 hblanks
  have hlt := hshaped.start_lt
  have hle := h.start_le
  refine ⟨by omega, h.stop_le, ?_, ?_, List.forall_mem_cons.2 ⟨hshaped, h.shaped⟩, ?_, ?_⟩
  · refine List.forall_mem_cons.2 ⟨⟨hstart, hle⟩, fun other hother => ?_⟩
    have hother := h.within other hother
    omega
  · exact List.pairwise_cons.2 ⟨fun other hother => (h.within other hother).1, h.ordered⟩
  · intro before other after hsplit
    cases before with
    | nil =>
        obtain ⟨rfl, rfl⟩ := List.cons.inj hsplit
        simpa using hfits
    | cons first before =>
        obtain ⟨rfl, rfl⟩ := List.cons.inj hsplit
        have hother := h.fits before other after rfl
        rwa [List.append_assoc, List.singleton_append, ← List.map_cons] at hother
  · -- a byte stands before the lexeme, in it, or behind it
    intro k c hk hbefore hc
    by_cases hfirst : k < lexeme.start
    · exact .inr (hblank k c hk hfirst hc)
    · by_cases hinside : k < lexeme.stop
      · exact .inl ⟨lexeme, List.mem_cons_self, by omega, hinside⟩
      · rcases h.covers k c (by omega) hbefore hc with ⟨other, hother, hrange⟩ | hblank
        · exact .inl ⟨other, List.mem_cons_of_mem lexeme hother, hrange⟩
        · exact .inr hblank

/-! ### The scanner and the grammar -/

/-- The state of the scanner says whether the line is open. -/
theorem lineOpen_append (history : List TokenKind) (kind : TokenKind) :
    lineOpen (history ++ [kind]) = freshAfter kind (lineOpen history) := by
  simp only [lineOpen, List.reverse_append, List.reverse_singleton, List.singleton_append,
    List.takeWhile_cons]
  cases kind <;> simp [freshAfter]

/-- A name can be taken for a mnemonic or for an identifier; the rest of the grammar is the same
everywhere on a line. -/
theorem exists_fits {kind : TokenKind} {lexeme rest : Text} (hspells : Spells kind lexeme)
    (hends : Ends kind rest) (fresh : Bool) :
    ∃ kind', Spells kind' lexeme ∧ Ends kind' rest ∧ Fits fresh kind' := by
  have hname : isName lexeme = true → (∀ c ∈ rest.head?, isNamePart c = false ∧ c ≠ byte ':') →
      ∃ kind', Spells kind' lexeme ∧ Ends kind' rest ∧ Fits fresh kind' := by
    intro hname hends
    cases fresh with
    | true => exact ⟨.mnemonic, .mnemonic hname, hends, by simp [Fits]⟩
    | false => exact ⟨.identifier, .identifier hname, hends, by simp [Fits]⟩
  cases hspells with
  | mnemonic h => exact hname h hends
  | identifier h => exact hname h hends
  | newline => exact ⟨_, .newline, hends, by simp [Fits]⟩
  | comma => exact ⟨_, .comma, hends, by simp [Fits]⟩
  | comment h => exact ⟨_, .comment h, hends, by simp [Fits]⟩
  | label h => exact ⟨_, .label h, hends, by simp [Fits]⟩
  | directive h => exact ⟨_, .directive h, hends, by simp [Fits]⟩
  | number hdigit hmore => exact ⟨_, .number hdigit hmore, hends, by simp [Fits]⟩

/-- **The scanner finds no token exactly where no lexeme starts.** -/
theorem lexeme?_eq_none_iff {source : Text} {start : Nat} (fresh : Bool) :
    lexeme? fresh (source.drop start) = none ↔
      ∀ kind stop, ¬Lexeme.Shaped ⟨kind, start, stop⟩ source := by
  constructor
  · intro hnone kind stop h
    obtain ⟨kind', hspells, hends, hfits⟩ := exists_fits h.spells h.ends fresh
    have hlex := lexeme?_of_spells hspells hends hfits
    rw [Lexeme.text, slice_append_drop (Nat.le_of_lt h.start_lt), hnone] at hlex
    cases hlex
  · intro h
    cases hlex : lexeme? fresh (source.drop start) with
    | none => rfl
    | some found =>
        obtain ⟨kind, n⟩ := found
        obtain ⟨hspells, hends, -⟩ := spells_of_lexeme? hlex
        have hpos := List.length_pos_iff.2 (ne_nil_of_spells hspells)
        rw [List.length_take, List.length_drop] at hpos
        -- the lexeme found ends with the source if it is asked for more bytes than there are
        refine absurd ⟨?_, ?_, ?_⟩ (h kind (min (start + n) source.length))
        · exact Nat.min_le_right _ _
        · rw [Lexeme.text, ← List.take_eq_take_min, List.drop_take, Nat.add_sub_cancel_left]
          exact hspells
        · by_cases hle : start + n ≤ source.length
          · rwa [Nat.min_eq_left hle, ← List.drop_drop]
          · rw [List.drop_eq_nil_of_le (by rw [List.length_drop]; omega)] at hends
            rwa [Nat.min_eq_right (by omega), List.drop_length]

/-- The base of a token that the scanner makes is that of its mark. -/
theorem hasBase_tokenAt (position : Position) (kind : TokenKind) (text : Text) :
    HasBase (tokenAt position kind text) := by
  by_cases hkind : kind = .number
  · simp only [HasBase, tokenAt, if_pos hkind]
    by_cases hmark : ∃ mark base, (mark, base) ∈ Literal.marks ∧ mark <+: text
    · obtain ⟨mark, base, hmem, rest, rfl⟩ := hmark
      exact .inl ⟨mark, base, hmem, ⟨rest, rfl⟩, (Literal.numberBase_marked hmem rest).1⟩
    · have hnone : ∀ mark base, (mark, base) ∈ Literal.marks → ¬mark <+: text :=
        fun mark base hmem hprefix => hmark ⟨mark, base, hmem, hprefix⟩
      exact .inr ⟨hnone, Literal.numberBase_unmarked hnone⟩
  · simp only [HasBase, tokenAt, if_neg hkind]

/-- The token that is made of the bytes of a lexeme, at its place, stands for it. -/
theorem marks_tokenAt {source : Text} {lexeme : Lexeme} (h : lexeme.Shaped source) :
    Marks source (tokenAt (.behind (source.take lexeme.start)) lexeme.kind (lexeme.text source))
      lexeme := by
  have hlt := h.start_lt
  have hle := h.stop_le
  have hstart : (source.take lexeme.start).length = lexeme.start := by
    rw [List.length_take]
    omega
  have hlength : (lexeme.text source).length = lexeme.stop - lexeme.start := length_slice hle
  refine ⟨rfl, ?_, ?_, rfl, hasBase_tokenAt _ _ _⟩
  · simp only [tokenAt, Position.span, Position.behind, hstart]
  · simp only [tokenAt, Position.span, Position.behind, hstart, hlength]
    omega

/-! ### The scanner and the cuts -/

/-- The place behind blanks of a source. -/
theorem pass_slice {source : Text} {start stop : Nat} (h : OnlyBlanks source start stop) :
    (Position.behind (source.take start)).pass ((source.take stop).drop start) =
      .behind (source.take stop) := by
  obtain ⟨hle, hblank⟩ := h
  rw [Int.toNat_natCast, Int.toNat_natCast] at hblank
  rw [Position.pass_behind _ (startsPlain_of_blanks hblank),
    take_append_slice (Int.ofNat_le.1 hle)]

/-- Behind the last lexeme of a cut comes the last item. -/
theorem scan_of_cut_nil {source : Text} {history : List TokenKind} {start stop : Nat}
    (h : Cut source history start [] stop) (hstop : stop = source.length ∨ Refused source stop) :
    ∃ last, scan (lineOpen history) (.behind (source.take start)) (source.drop start) = [last] ∧
      Ending source stop last := by
  obtain ⟨hblanks, hle⟩ := cut_nil_iff.1 h
  have hpass := pass_slice hblanks
  obtain ⟨hstart, hblank⟩ := hblanks
  rw [Int.toNat_natCast, Int.toNat_natCast] at hblank
  have hsplit := @slice_append_drop source start stop (Int.ofNat_le.1 hstart)
  rcases hstop with rfl | hrefused
  · rw [List.drop_length, List.append_nil] at hsplit
    rw [← hsplit, scan_of_blanks _ _ hblank, hpass, List.take_length]
    exact ⟨_, rfl, rfl, rfl, rfl, rfl⟩
  · obtain ⟨⟨c, hc, hvisible⟩, hnone⟩ := hrefused
    obtain ⟨hlt, rfl⟩ := List.getElem?_eq_some_iff.1 hc
    have hnone' := (lexeme?_eq_none_iff (lineOpen history)).2 hnone
    rw [List.drop_eq_getElem_cons hlt] at hsplit hnone'
    rw [← hsplit, scan_refused _ hblank hvisible hnone', hpass]
    refine ⟨_, rfl, ⟨_, _, rfl⟩, ?_, ⟨_, hc, hvisible⟩, hnone⟩
    simp only [errorAt, SourceError.span, Position.span, Position.behind, List.length_take,
      Nat.min_eq_left hle]

/-- **The scanner follows every cut** that goes to the end of the source or to a place that is
refused. -/
theorem scan_of_cut {source : Text} {history : List TokenKind} {start stop : Nat}
    {lexemes : List Lexeme} (h : Cut source history start lexemes stop)
    (hstop : stop = source.length ∨ Refused source stop) :
    ∃ tokens last,
      scan (lineOpen history) (.behind (source.take start)) (source.drop start) =
          tokens.map .ok ++ [last] ∧
        List.Forall₂ (Marks source) tokens lexemes ∧ Ending source stop last := by
  induction lexemes generalizing history start with
  | nil =>
      obtain ⟨last, hscan, hending⟩ := scan_of_cut_nil h hstop
      exact ⟨[], last, hscan, .nil, hending⟩
  | cons lexeme lexemes ih =>
      obtain ⟨hblanks, hshaped, hfits, hrest⟩ := h.uncons
      obtain ⟨tokens, last, hscan, hmarks, hending⟩ := ih hrest
      have hpass := pass_slice hblanks
      obtain ⟨hstart, hblank⟩ := hblanks
      rw [Int.toNat_natCast, Int.toNat_natCast] at hblank
      have hle := Nat.le_of_lt hshaped.start_lt
      -- from here on the source is the blanks, the lexeme, and what the rest of the cut is about
      have hsplit : source.drop start = (source.take lexeme.start).drop start ++
          (lexeme.text source ++ source.drop lexeme.stop) := by
        rw [Lexeme.text, slice_append_drop hle, slice_append_drop (Int.ofNat_le.1 hstart)]
      have hnext : (Position.behind (source.take lexeme.start)).pass (lexeme.text source) =
          .behind (source.take lexeme.stop) := by
        rw [Position.pass_behind _ (startsPlain_of_spells hshaped.spells), Lexeme.text,
          take_append_slice hle]
      refine ⟨_ :: tokens, last, ?_, .cons (marks_tokenAt hshaped) hmarks, hending⟩
      rw [hsplit, scan_token _ hblank hshaped.spells hshaped.ends hfits, hpass, hnext,
        ← lineOpen_append, hscan]
      rfl

/-- Bytes that stand in a source behind others, spelled and ended as a class demands, are a
lexeme. -/
theorem shaped_of_spells {source before lexeme rest : Text} {kind : TokenKind}
    (hspells : Spells kind lexeme) (hends : Ends kind rest)
    (hsource : before ++ (lexeme ++ rest) = source) :
    Lexeme.Shaped ⟨kind, before.length, (before ++ lexeme).length⟩ source := by
  rw [← List.append_assoc] at hsource
  subst hsource
  refine ⟨by simp, ?_, ?_⟩
  · simpa only [Lexeme.text, List.take_left, List.drop_left] using hspells
  · simpa only [List.drop_left] using hends

/-- **Every source can be cut**, from every place on, up to its end or to a place that is
refused. -/
theorem exists_cut {source before text : Text} {history : List TokenKind} {fresh : Bool}
    (hsource : before ++ text = source) (hfresh : lineOpen history = fresh) :
    ∃ lexemes stop, Cut source history before.length lexemes stop ∧
      (stop = source.length ∨ Refused source stop) := by
  induction fresh, text using text_induction generalizing before history with
  | finish fresh blanks hblanks =>
      have hgap := @onlyBlanks_between source before blanks [] hblanks (by simpa using hsource)
      rw [hsource] at hgap
      exact ⟨[], source.length, cut_nil_iff.2 ⟨hgap, le_rfl⟩, .inl rfl⟩
  | refuse fresh blanks c rest hblanks hc hnone =>
      rw [← List.append_assoc] at hsource
      have hgap := onlyBlanks_between hblanks hsource
      have hdrop : source.drop (before ++ blanks).length = c :: rest := by
        rw [← hsource, List.drop_left]
      have hget : source[(before ++ blanks).length]? = some c := by
        rw [← List.head?_drop, hdrop, List.head?_cons]
      rw [← hdrop] at hnone
      refine ⟨[], (before ++ blanks).length, cut_nil_iff.2 ⟨hgap, ?_⟩,
        .inr ⟨⟨c, hget, hc⟩, (lexeme?_eq_none_iff fresh).1 hnone⟩⟩
      rw [← hsource]
      simp
  | token fresh blanks kind lexeme rest hblanks hspells hends hfits ih =>
      rw [← List.append_assoc] at hsource
      have hgap := onlyBlanks_between hblanks hsource
      have hshaped := shaped_of_spells hspells hends hsource
      obtain ⟨lexemes, stop, hcut, hstop⟩ :=
        @ih (before ++ blanks ++ lexeme) (history ++ [kind]) (by rw [← hsource]; simp)
          (by rw [lineOpen_append, hfresh])
      exact ⟨_ :: lexemes, stop, .cons hgap hshaped (hfresh ▸ hfits) hcut, hstop⟩

/-- A token stands for one lexeme only. -/
theorem Marks.unique {source : Text} {token : Token} {lexeme lexeme' : Lexeme}
    (h : Marks source token lexeme) (h' : Marks source token lexeme') : lexeme = lexeme' := by
  have hkind := h.kind.symm.trans h'.kind
  have hstart := Int.ofNat.inj (h.start.symm.trans h'.start)
  have hstop := Int.ofNat.inj (h.stop.symm.trans h'.stop)
  exact Lexeme.ext hkind hstart hstop

theorem Ending.start_eq {source : Text} {stop : Nat} {last : Except SourceError Token}
    (h : Ending source stop last) : (place last).start = stop := by
  cases last with
  | ok token => exact h.2.2.1
  | error error => exact h.2.1

/-- **The tokens of a source are its only cut.**  All items but the last are tokens.  They stand for
the lexemes of a cut that goes to the end of the source, where the last item is the end of input, or
else to a place where a byte that is no blank starts no lexeme, and there the last item is the
error.  No other lexemes cut the source up to its end or up to such a place. -/
theorem tokenize_unique_cut (source : Text) :
    ∃ tokens last lexemes stop,
      tokenize source = tokens.map .ok ++ [last] ∧
        List.Forall₂ (Marks source) tokens lexemes ∧ Cut source [] 0 lexemes stop ∧
          Ending source stop last ∧
            ∀ others stop', Cut source [] 0 others stop' →
              stop' = source.length ∨ Refused source stop' → others = lexemes ∧ stop' = stop := by
  obtain ⟨lexemes, stop, hcut, hstop⟩ := @exists_cut source [] source [] true rfl rfl
  obtain ⟨tokens, last, hscan, hmarks, hending⟩ := scan_of_cut hcut hstop
  refine ⟨tokens, last, lexemes, stop, hscan, hmarks, hcut, hending, ?_⟩
  intro others stop' hcut' hstop'
  -- the scanner follows the other cut too, with the same items
  obtain ⟨tokens', last', hscan', hmarks', hending'⟩ := scan_of_cut hcut' hstop'
  obtain ⟨htokens, hlast⟩ := List.append_inj' (hscan'.symm.trans hscan) rfl
  obtain rfl := List.map_injective_iff.2 (fun _ _ => Except.ok.inj) htokens
  obtain rfl := List.cons.inj hlast |>.1
  refine ⟨List.right_unique_forall₂' (fun _ _ _ h h' => h.unique h') hmarks' hmarks, ?_⟩
  exact Int.ofNat.inj (hending'.start_eq.symm.trans hending.start_eq)

end Lexer

end TableAssembler
