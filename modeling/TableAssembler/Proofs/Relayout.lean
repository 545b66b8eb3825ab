/-
**The layout of a source does not matter.**

What a source is made into depends on the skeleton of its tokens only: comments and ends of empty
lines are not in it, and blanks are not even tokens.  So much follows from the parser.  That
everyday changes of the layout keep the skeleton is up to the scanner, and there is one change for
which it takes both.  A newline behind a label makes the next name a mnemonic, which it might not
have been before; but if it was not, then the label stands where the parser takes none, and the
source is refused with the newline and without it.

Main definitions:

* `Relayout.IsIdle` — a line with nothing on it, or only a comment;
* `Relayout.Relaid` — **one change of the layout** of a source;
* `Relayout.SameBytes` — sources that no assembler tells apart by the bytes.

Main results:

* `Relayout.statements_of_skeleton` — sources with the same skeleton have like statements;
* `Relayout.sameBytes_of_relaid` — no change of the layout changes the bytes;
* `Relayout.layout_does_not_matter` — **both together**.
-/

import Mathlib.Logic.Relation
import TableAssembler.Proofs.Token.Outline

set_option relaxedAutoImplicit false
set_option autoImplicit false

namespace TableAssembler

namespace Relayout

open Text (byte newline utf8)
open TableAssembler.Parser TableAssembler.Lexer

/-! ### Sources with the same skeleton -/

/-- The statements of a source are those of the skeleton of its tokens. -/
theorem toOption_statements {source : Text} {tokens : List Token}
    (h : tokenize source = tokens.map .ok) :
    (statements source).toOption =
      (Statement.parse ((skeleton Token.kind true tokens).map .ok)).toOption := by
  have hskeleton := accepted_skeleton (runsOut_scan h)
  rw [statements, h]
  exact hskeleton.symm

/-- **Sources with the same skeleton have like statements**, or both have none. -/
theorem statements_of_skeleton {source source' : Text} {tokens tokens' : List Token}
    (h : tokenize source = tokens.map .ok) (h' : tokenize source' = tokens'.map .ok)
    (hskeleton : skeleton Prod.fst true (tokens.map piece) =
      skeleton Prod.fst true (tokens'.map piece)) :
    Outcome.Alike (fun _ _ => True) (List.Forall₂ (Statement.Alike .butSpans)) (statements source)
      (statements source') := by
  have hbase {source : Text} {tokens : List Token} (h : tokenize source = tokens.map .ok) :
      ∀ token ∈ skeleton Token.kind true tokens,
        token.base = if token.kind = .number then numberBase token.text else 0 := by
    intro token htoken
    have hmem : .ok token ∈ tokenize source :=
      h ▸ List.mem_map_of_mem ((skeleton_sublist true tokens).mem htoken)
    exact base_of_mem_scan hmem
  have hpieces : (skeleton Token.kind true tokens).map piece =
      (skeleton Token.kind true tokens').map piece := by
    have hmap (tokens : List Token) : (skeleton Token.kind true tokens).map piece =
        skeleton Prod.fst true (tokens.map piece) :=
      @map_skeleton _ _ Token.kind Prod.fst piece (fun _ => rfl) true tokens
    rw [hmap, hmap, hskeleton]
  have hlike := Printing.alike_of_pieces (hbase h) (hbase h') hpieces
  exact (Printing.parse_tokens_alike hlike).of_toOption (toOption_statements h)
    (toOption_statements h')

/-- Sources with like statements have like programs, or both have none. -/
theorem program_of_statements {source source' : Text}
    (h : Outcome.Alike (fun _ _ => True) (List.Forall₂ (Statement.Alike .butSpans))
      (statements source) (statements source')) (assembler : Assembler) :
    Outcome.Alike (fun _ _ => True) (Program.Alike .butSpans) (assembler.program source)
      (assembler.program source') := by
  refine h.bind fun parsed parsed' halike => ?_
  exact (Program.resolve_alike Likeness.faithful_butSpans assembler.table halike).of_toOption
    rfl rfl

/-! ### Sources with the same bytes -/

/-- **Sources that no assembler tells apart by the bytes.** -/
def SameBytes (source source' : Text) : Prop :=
  ∀ (assembler : Assembler) (bytes : Text),
    assembler.binary source = .ok bytes ↔ assembler.binary source' = .ok bytes

theorem sameBytes_of_statements {source source' : Text}
    (h : Outcome.Alike (fun _ _ => True) (List.Forall₂ (Statement.Alike .butSpans))
      (statements source) (statements source')) : SameBytes source source' := by
  intro assembler bytes
  rw [Assembler.binary, Assembler.binary]
  rcases (program_of_statements h assembler).cases_eq with
    ⟨program, program', hprogram, hprogram', halike⟩ | ⟨error, error', herror, herror', -⟩
  · rw [hprogram, hprogram', Outcome.map_ok, Outcome.map_ok, halike.binary]
  · rw [herror, herror', Outcome.map_error, Outcome.map_error]
    simp

/-- What a source assembles to is decided by its statements, if it has any. -/
theorem binary_eq_ok_iff {assembler : Assembler} {source bytes : Text} :
    assembler.binary source = .ok bytes ↔
      ∃ parsed ∈ (statements source).toOption,
        Program.emit assembler.table parsed = .ok bytes := by
  rw [Assembler.binary, Assembler.program]
  cases statements source with
  | error error =>
      constructor
      · intro h
        cases h
      · rintro ⟨parsed, hparsed, -⟩
        cases hparsed
  | ok parsed =>
      constructor
      · intro h
        exact ⟨parsed, rfl, h⟩
      · rintro ⟨other, hother, h⟩
        cases hother
        exact h

theorem sameBytes_of_toOption {source source' : Text}
    (h : (statements source).toOption = (statements source').toOption) :
    SameBytes source source' := by
  intro assembler bytes
  rw [binary_eq_ok_iff, binary_eq_ok_iff, h]

/-- A source that is refused by the scanner has no statements. -/
theorem statements_of_outline {source : Text} (h : outline true source = none) :
    (statements source).toOption = none := by
  cases hparse : statements source with
  | error error => rfl
  | ok parsed => exact absurd (parse_eq_ok_iff.1 hparse).1 (not_atEnd_of_outline h {})

/-- **The skeleton of a source decides its bytes.** -/
theorem sameBytes_of_skeletonOf {source source' : Text}
    (h : skeletonOf true true source = skeletonOf true true source') :
    SameBytes source source' := by
  cases houtline : outline true source with
  | none =>
      have houtline' : outline true source' = none := by
        rwa [skeletonOf, houtline, Option.map_none, eq_comm, skeletonOf,
          Option.map_eq_none_iff] at h
      refine sameBytes_of_toOption ?_
      rw [statements_of_outline houtline, statements_of_outline houtline']
  | some pieces =>
      rw [skeletonOf, houtline, Option.map_some, eq_comm, skeletonOf, Option.map_eq_some_iff] at h
      obtain ⟨pieces', houtline', hskeleton⟩ := h
      obtain ⟨tokens, htokens, rfl⟩ := exists_tokens houtline
      obtain ⟨tokens', htokens', rfl⟩ := exists_tokens houtline'
      exact sameBytes_of_statements (statements_of_skeleton htokens htokens' hskeleton.symm)

/-! ### Changes of the layout -/

/-- A line with nothing but blanks on it, and perhaps a comment. -/
def IsIdle (line : Text) : Prop :=
  ∃ blanks rest : Text, line = blanks ++ rest ∧ (∀ c ∈ blanks, isBlank c = true) ∧
    (rest = [] ∨ Spells .comment rest)

/-- **One change of the layout of a source.**  The blanks between tokens may be changed wherever a
token ends, so long as some remain, and in front of the source. -/
inductive Relaid : Text → Text → Prop
  /-- A carriage return before each newline. -/
  | returns (source : Text) : Relaid source (withReturns source)
  /-- Other blanks in front of the source. -/
  | front {blanks blanks' : Text} (hblanks : ∀ c ∈ blanks, isBlank c = true)
      (hblanks' : ∀ c ∈ blanks', isBlank c = true) (after : Text) :
      Relaid (blanks ++ after) (blanks' ++ after)
  /-- Some blanks behind a token, in the place of those that stood there, if any.  Behind a comment
  they would be part of it. -/
  | between {source blanks blanks' after : Text} {token : Token}
      (htoken : .ok token ∈ tokenize source) (hkind : token.kind ≠ .endOfInput)
      (hcomment : token.kind ≠ .comment)
      (hafter : source.drop token.span.stop.toNat = blanks ++ after)
      (hblanks : ∀ c ∈ blanks, isBlank c = true) (hblanks' : ∀ c ∈ blanks', isBlank c = true)
      (hsome : blanks' ≠ []) :
      Relaid source (source.take token.span.stop.toNat ++ (blanks' ++ after))
  /-- One more idle line in front of the source. -/
  | firstLine {line : Text} (hline : IsIdle line) (source : Text) :
      Relaid source (line ++ newline :: source)
  /-- One more idle line behind another line. -/
  | nextLine {line : Text} (hline : IsIdle line) (before after : Text) :
      Relaid (before ++ newline :: after) (before ++ newline :: (line ++ newline :: after))
  /-- A newline at the end, behind which more idle lines can follow. -/
  | lastLine (source : Text) : Relaid source (source ++ [newline])
  /-- A newline behind a label, which leaves it on a line of its own. -/
  | label {source : Text} {token : Token} (htoken : .ok token ∈ tokenize source)
      (hkind : token.kind = .label) :
      Relaid source (source.take token.span.stop.toNat ++
        newline :: source.drop token.span.stop.toNat)

/-- An idle line is not in the skeleton. -/
theorem skeletonOf_idle {line : Text} (h : IsIdle line) (source : Text) :
    skeletonOf true true (line ++ newline :: source) = skeletonOf true true source := by
  have hend : skeletonOf true true (newline :: source) = skeletonOf true true source := by
    rw [skeletonOf_newline]
    exact Option.map_id_apply
  obtain ⟨blanks, rest, rfl, hblanks, rfl | hspells⟩ := h
  · rw [List.append_nil, skeletonOf_blanks true true hblanks, hend]
  · have hends : Ends .comment (newline :: source) := by
      rintro c ⟨rfl⟩
      rfl
    rw [List.append_assoc, skeletonOf_blanks true true hblanks, skeletonOf_comment hspells hends,
      hend]

/-- Behind an end of line or a label the skeleton starts afresh. -/
theorem skeleton_behind {token : Token} (h : token.kind = .newline ∨ token.kind = .label)
    (front : List Token) (later : List (TokenKind × Text)) :
    skeleton Prod.fst true ((front ++ [token]).map piece ++ later) =
      skeleton Prod.fst true ((front ++ [token]).map piece) ++ skeleton Prod.fst true later := by
  rw [skeleton_append, List.map_append, List.foldl_append]
  rcases h with h | h <;> simp [piece, skipAfter, h]

/-- The tokens of a source that is not refused, and those of the source with a newline and more text
behind it. -/
theorem exists_seam {source : Text} {pieces : List (TokenKind × Text)}
    (h : outline true source = some pieces) :
    ∃ (front : List Token) (line : Token) (rest : List (Except SourceError Token))
      (position : Position), (∀ token ∈ front ++ [line], token.kind ≠ .endOfInput) ∧
        line.kind = .newline ∧ AtEnd rest ∧ tokenize source = front.map .ok ++ rest ∧
          ∀ more, tokenize (source ++ newline :: more) =
            (front ++ [line]).map .ok ++ scan true position more := by
  obtain ⟨tokens, htokens, -⟩ := exists_tokens h
  have hend : AtEnd (ending (scan true (.behind []) source)) := by
    rw [Position.behind_nil, htokens]
    exact atEnd_ending_map_ok tokens
  refine ⟨leading (scan true (.behind []) source), tokenAt (.behind ([] ++ source)) .newline
    [newline], ending (scan true (.behind []) source), .behind ([] ++ source ++ [newline]),
    List.forall_mem_append.2 ⟨kind_of_mem_leading, by simp [tokenAt]⟩, rfl, hend, ?_, ?_⟩
  · rw [leading_append_ending, tokenize, Position.behind_nil]
  · intro more
    rw [tokenize, ← Position.behind_nil, scan_seam true hend more, List.map_append,
      List.map_singleton, List.append_assoc (List.map _ _), List.singleton_append]

/-- Behind a newline the skeleton of a source starts afresh. -/
theorem exists_skeletonOf_seam {source : Text} {pieces : List (TokenKind × Text)}
    (h : outline true source = some pieces) :
    ∃ front, ∀ more, skeletonOf true true (source ++ newline :: more) =
      (skeletonOf true true more).map (front ++ ·) := by
  obtain ⟨front, line, -, position, -, hline, -, -, hseam⟩ := exists_seam h
  refine ⟨skeleton Prod.fst true ((front ++ [line]).map piece), fun more => ?_⟩
  have houtline : outline true (source ++ newline :: more) =
      (outline true more).map ((front ++ [line]).map piece ++ ·) := by
    rw [← pieces?_scan true position more, ← pieces?_append, ← hseam more]
    rfl
  rw [skeletonOf, houtline, skeletonOf, Option.map_map, Option.map_map]
  congr 1
  funext later
  exact skeleton_behind (.inl hline) front later

/-- An idle line behind another line. -/
theorem skeletonOf_nextLine {line : Text} (h : IsIdle line) (before after : Text) :
    skeletonOf true true (before ++ newline :: after) =
      skeletonOf true true (before ++ newline :: (line ++ newline :: after)) := by
  cases houtline : outline true before with
  | none =>
      rw [skeletonOf, outline_append_newline houtline, skeletonOf,
        outline_append_newline houtline]
  | some pieces =>
      obtain ⟨front, hfront⟩ := exists_skeletonOf_seam houtline
      rw [hfront, hfront, skeletonOf_idle h]

/-- **A source can be cut behind each of its tokens.** -/
theorem tokenize_cut {source : Text} {token : Token} (htoken : .ok token ∈ tokenize source)
    (hkind : token.kind ≠ .endOfInput) :
    Ends token.kind (source.drop token.span.stop.toNat) ∧
      ∃ front : List Token, (∀ other ∈ front ++ [token], other.kind ≠ .endOfInput) ∧
        ∀ more, Ends token.kind more → ∃ position,
          tokenize (source.take token.span.stop.toNat ++ more) = (front ++ [token]).map .ok ++
            scan (freshBehind true (front ++ [token])) position more := by
  rw [tokenize, ← Position.behind_nil] at htoken
  obtain ⟨front, first, second, rfl, -, hstop, hends, hfront, hcut⟩ := scan_cut htoken hkind
  have hlength : token.span.stop.toNat = first.length := by
    rw [hstop, Int.toNat_natCast, List.nil_append]
  rw [hlength, List.take_left, List.drop_left]
  refine ⟨hends, front, List.forall_mem_append.2 ⟨hfront, by simpa using hkind⟩,
    fun more hmore => ⟨.behind ([] ++ first), ?_⟩⟩
  rw [tokenize, ← Position.behind_nil, hcut more hmore]

/-- Other blanks behind a token. -/
theorem skeletonOf_between {source blanks blanks' after : Text} {token : Token}
    (htoken : .ok token ∈ tokenize source) (hkind : token.kind ≠ .endOfInput)
    (hcomment : token.kind ≠ .comment)
    (hafter : source.drop token.span.stop.toNat = blanks ++ after)
    (hblanks : ∀ c ∈ blanks, isBlank c = true) (hblanks' : ∀ c ∈ blanks', isBlank c = true)
    (hsome : blanks' ≠ []) :
    skeletonOf true true source =
      skeletonOf true true (source.take token.span.stop.toNat ++ (blanks' ++ after)) := by
  obtain ⟨hends, front, -, hcut⟩ := tokenize_cut htoken hkind
  have hends' : Ends token.kind (blanks' ++ after) := by
    obtain ⟨c, more, rfl⟩ := List.exists_cons_of_ne_nil hsome
    have hc := isNamePart_of_isBlank (hblanks' c List.mem_cons_self)
    exact Printing.ends_of_stops (Printing.stops_cons hc _) hcomment
  obtain ⟨position, hsource⟩ := hcut _ hends
  obtain ⟨position', hsource'⟩ := hcut _ hends'
  rw [List.take_append_drop] at hsource
  have houtline : outline true source =
      outline true (source.take token.span.stop.toNat ++ (blanks' ++ after)) := by
    change pieces? (tokenize source) = pieces? (tokenize _)
    rw [hsource, hsource', pieces?_append, pieces?_append, pieces?_scan, pieces?_scan, hafter,
      outline_blanks _ hblanks, outline_blanks _ hblanks']
  rw [skeletonOf, houtline, skeletonOf]

/-- A newline at the end. -/
theorem sameBytes_lastLine (source : Text) : SameBytes source (source ++ [newline]) := by
  refine sameBytes_of_toOption ?_
  cases houtline : outline true source with
  | none =>
      rw [statements_of_outline houtline,
        statements_of_outline (outline_append_newline houtline [])]
  | some pieces =>
      obtain ⟨front, line, rest, position, hkinds, hline, hend, hsource, hseam⟩ :=
        exists_seam houtline
      have hfront : ∀ token ∈ front, token.kind ≠ .endOfInput :=
        fun token htoken => hkinds token (List.mem_append_left _ htoken)
      have hlast : AtEnd (scan true position []) := by
        rw [scan_of_blanks true position (by simp)]
        exact .inr ⟨_, _, rfl, rfl⟩
      have hbefore : (statements source).toOption = accepted (.line []) (front ++ []) := by
        rw [statements, Statement.parse, Statement.parseWith, hsource,
          run_append_atEnd hfront hend, List.append_nil]
        rfl
      have hbehind : (statements (source ++ [newline])).toOption =
          accepted (.line []) (front ++ [line]) := by
        rw [statements, Statement.parse, Statement.parseWith, hseam [],
          run_append_atEnd hkinds hlast]
        rfl
      rw [hbefore, hbehind, accepted_append hfront, accepted_append hfront]
      cases advance (.line []) front with
      | error error => rfl
      | ok result =>
          dsimp only
          rw [accepted_newline hline]

/-- A newline behind a label.  If the parser takes the label, then the scanner expects a mnemonic
behind it with the newline and without it, and the newline is not in the skeleton. -/
theorem sameBytes_label {source : Text} {token : Token} (htoken : .ok token ∈ tokenize source)
    (hkind : token.kind = .label) :
    SameBytes source (source.take token.span.stop.toNat ++
      newline :: source.drop token.span.stop.toNat) := by
  have hends (more : Text) : Ends token.kind more := by
    rw [hkind]
    trivial
  obtain ⟨-, front, hfront, hcut⟩ := tokenize_cut htoken (by simp [hkind])
  obtain ⟨position, hsource⟩ := hcut _ (hends (source.drop token.span.stop.toNat))
  obtain ⟨position', hsource'⟩ := hcut _ (hends (newline :: source.drop token.span.stop.toNat))
  rw [List.take_append_drop] at hsource
  cases hadvance : advance (.line []) (front ++ [token]) with
  | error error =>
      refine sameBytes_of_toOption ?_
      rw [statements, statements, Statement.parse, Statement.parse, Statement.parseWith,
        Statement.parseWith, hsource, hsource', run_advance id _ _ hfront,
        run_advance id _ _ hfront, hadvance]
  | ok result =>
      obtain ⟨state, done⟩ := result
      have hfresh : freshBehind true (front ++ [token]) = true := by
        have hstate := isLine_of_advance_label hadvance hkind
        rwa [isLine_advance hadvance] at hstate
      rw [hfresh] at hsource hsource'
      refine sameBytes_of_skeletonOf ?_
      have hline : outline true (newline :: source.drop token.span.stop.toNat) =
          (outline true (source.drop token.span.stop.toNat)).map ((.newline, [newline]) :: ·) :=
        @outline_token true [] [newline] _ .newline (by simp) .newline trivial (by simp [Fits])
      change (pieces? (tokenize source)).map _ = (pieces? (tokenize _)).map _
      rw [hsource, hsource', pieces?_append, pieces?_append, pieces?_scan, pieces?_scan, hline,
        Option.map_map, Option.map_map, Option.map_map]
      congr 1
      funext later
      simp only [Function.comp_apply, skeleton_behind (.inr hkind)]
      rw [skeleton_cons]
      rfl

/-- **No change of the layout changes the bytes.** -/
theorem sameBytes_of_relaid {source source' : Text} (h : Relaid source source') :
    SameBytes source source' := by
  cases h with
  | returns source => exact sameBytes_of_skeletonOf (skeletonOf_withReturns true true source).symm
  | front hblanks hblanks' after =>
      refine sameBytes_of_skeletonOf ?_
      rw [skeletonOf_blanks true true hblanks, skeletonOf_blanks true true hblanks']
  | between htoken hkind hcomment hafter hblanks hblanks' hsome =>
      exact sameBytes_of_skeletonOf
        (skeletonOf_between htoken hkind hcomment hafter hblanks hblanks' hsome)
  | firstLine hline source => exact sameBytes_of_skeletonOf (skeletonOf_idle hline source).symm
  | nextLine hline before after =>
      exact sameBytes_of_skeletonOf (skeletonOf_nextLine hline before after)
  | lastLine source => exact sameBytes_lastLine source
  | label htoken hkind => exact sameBytes_label htoken hkind

/-- No number of changes of the layout changes the bytes, whether they are made or undone. -/
theorem sameBytes_of_eqvGen {source source' : Text} (h : Relation.EqvGen Relaid source source') :
    SameBytes source source' := by
  induction h with
  | rel source source' h => exact sameBytes_of_relaid h
  | refl source => exact fun _ _ => Iff.rfl
  | symm source source' _ ih => exact fun assembler bytes => (ih assembler bytes).symm
  | trans source middle source' _ _ ih ih' =>
      exact fun assembler bytes => (ih assembler bytes).trans (ih' assembler bytes)

/-- **The layout of a source does not matter.**  Take two sources without lexical errors whose
tokens have the same classes and texts once the comments are dropped, and then every end of line
that comes first or directly behind an end of line or a label.  Then both are refused by the parser,
or their statements are the same in everything but spans, and under every opcode table both assemble
to programs that are the same in everything but spans, or both are refused.

In particular no change of the layout, and no number of them made or undone, changes the bytes that
a source assembles to: not a carriage return before each newline, other blanks between the tokens,
more blank lines or lines of comment, or a label moved to its own line. -/
theorem layout_does_not_matter :
    (∀ (source source' : Text) (tokens tokens' : List Token),
      tokenize source = tokens.map .ok → tokenize source' = tokens'.map .ok →
      skeleton Prod.fst true (tokens.map piece) = skeleton Prod.fst true (tokens'.map piece) →
        Outcome.Alike (fun _ _ => True) (List.Forall₂ (Statement.Alike .butSpans))
            (statements source) (statements source') ∧
          ∀ assembler : Assembler,
            Outcome.Alike (fun _ _ => True) (Program.Alike .butSpans) (assembler.program source)
              (assembler.program source')) ∧
      ∀ source source' : Text, Relation.EqvGen Relaid source source' →
        ∀ (assembler : Assembler) (bytes : Text),
          assembler.binary source = .ok bytes ↔ assembler.binary source' = .ok bytes := by
  constructor
  · intro source source' tokens tokens' htokens htokens' hskeleton
    have hstatements := statements_of_skeleton htokens htokens' hskeleton
    exact ⟨hstatements, program_of_statements hstatements⟩
  · intro source source' hrelaid
    exact sameBytes_of_eqvGen hrelaid

/-- An assembler for one opcode without operands. -/
def idleAssembler : Assembler := { table := ⟨[⟨utf8 "NOP", 1, []⟩]⟩ }

/-- The token of the label in `a: NOP`. -/
def startLabel : Token := { kind := .label, text := utf8 "a:", span := ⟨0, 2, 1, 1⟩ }

theorem relaid_start : Relation.EqvGen Relaid (utf8 "a: NOP") (utf8 "a:\r\n NOP") := by
  have hlabel : Relaid (utf8 "a: NOP") (utf8 "a:\n NOP") :=
    @Relaid.label (utf8 "a: NOP") startLabel (by decide +kernel) rfl
  exact .trans _ _ _ (.rel _ _ hlabel) (.rel _ _ (.returns (utf8 "a:\n NOP")))

/-- A label with a comment, an empty line and its instruction on a line of its own, and the same in
one line: the skeletons agree.  And a label on its own line with a carriage return behind it. -/
theorem layout_of_start_does_not_matter :
    Outcome.Alike (fun _ _ => True) (Program.Alike .butSpans)
        (idleAssembler.program (utf8 "a: // start\n\n\tNOP"))
        (idleAssembler.program (utf8 "a:NOP")) ∧
      idleAssembler.binary (utf8 "a: NOP") = .ok [1] ∧
      idleAssembler.binary (utf8 "a:\r\n NOP") = .ok [1] := by
  have hassembles : idleAssembler.binary (utf8 "a: NOP") = .ok [1] := by decide +kernel
  refine ⟨(layout_does_not_matter.1 _ _
    ((tokenize (utf8 "a: // start\n\n\tNOP")).filterMap Except.toOption)
    ((tokenize (utf8 "a:NOP")).filterMap Except.toOption) (by decide +kernel) (by decide +kernel)
    (by decide +kernel)).2 idleAssembler, hassembles, ?_⟩
  exact (layout_does_not_matter.2 _ _ relaid_start idleAssembler [1]).1 hassembles

end Relayout

end TableAssembler
