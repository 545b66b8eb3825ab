/-
**The outline of a text: its tokens without their places.**

Where a text stands in a source does not matter to the classes and the texts of its tokens, and
neither do the blanks between them.  Two more things are said about changes of a text.  It can be
cut behind any of its tokens, and what comes before the cut is scanned as before, whatever is put
behind the token so long as it does not prolong it.  And with a carriage return before each of its
newlines a text keeps its tokens, comments apart.

Main definitions:

* `Lexer.outline` — **the classes and texts of the tokens of a text**, if it has no error;
* `Lexer.skeletonOf` — the same without comments and ends of empty lines;
* `Lexer.withReturns` — a text with a carriage return before each newline.

Main results:

* `Lexer.text_induction` — induction over a text, token by token;
* `Lexer.outline_blanks`, `Lexer.outline_token` — the outline of a text, token by token;
* `Lexer.runsOut_scan` — nothing but an end of line follows a comment;
* `Lexer.skeletonOf_withReturns` — **carriage returns before newlines change no skeleton**;
* `Lexer.scan_cut` — **a text can be cut behind each of its tokens**.
-/

import TableAssembler.Proofs.Seam
import TableAssembler.Proofs.Statement.Printing
import TableAssembler.Proofs.Statement.Skeleton

set_option relaxedAutoImplicit false
set_option autoImplicit false

namespace TableAssembler

namespace Lexer

open Text (byte isDigit isNamePart isNameStart newline)
open TableAssembler.Parser (AtEnd ending ending_append skeleton skipAfter RunsOut)

/-! ### Token by token -/

/-- **Induction over a text**, token by token: the text is blank, or is refused behind some blanks,
or starts with a token behind some blanks. -/
theorem text_induction {P : Bool → Text → Prop}
    (finish : ∀ (fresh : Bool) (blanks : Text), (∀ c ∈ blanks, isBlank c = true) → P fresh blanks)
    (refuse : ∀ (fresh : Bool) (blanks : Text) (c : UInt8) (rest : Text),
      (∀ c ∈ blanks, isBlank c = true) → isBlank c = false → lexeme? fresh (c :: rest) = none →
        P fresh (blanks ++ c :: rest))
    (token : ∀ (fresh : Bool) (blanks : Text) (kind : TokenKind) (lexeme rest : Text),
      (∀ c ∈ blanks, isBlank c = true) → Spells kind lexeme → Ends kind rest → Fits fresh kind →
        P (freshAfter kind fresh) rest → P fresh (blanks ++ (lexeme ++ rest)))
    (fresh : Bool) (text : Text) : P fresh text := by
  generalize hposition : ({} : Position) = position
  clear hposition
  induction fresh, position, text using scan.induct with
  | case1 fresh position text hnil =>
      have hblanks := isBlank_of_mem_blanks text
      rw [takeWhile_isBlank_of_nil hnil] at hblanks
      exact finish fresh text hblanks
  | case2 fresh position text c rest hcons hnone =>
      have hblank : isBlank c = false := head?_dropWhile isBlank text c (by rw [hcons]; rfl)
      have hrefuse := refuse fresh _ c rest (isBlank_of_mem_blanks text) hblank hnone
      rwa [← hcons, List.takeWhile_append_dropWhile] at hrefuse
  | case3 fresh position text here c rest hcons kind n hlex hlt lexeme ih =>
      obtain ⟨hspells, hends, hfits⟩ := spells_of_lexeme? hlex
      have htoken := token fresh _ kind _ _ (isBlank_of_mem_blanks text) hspells hends hfits ih
      rwa [List.take_append_drop, ← hcons, List.takeWhile_append_dropWhile] at htoken

theorem scan_of_blanks (fresh : Bool) (position : Position) {blanks : Text}
    (h : ∀ c ∈ blanks, isBlank c = true) :
    scan fresh position blanks = [.ok (tokenAt (position.pass blanks) .endOfInput [])] := by
  have hnil : blanks.dropWhile isBlank = [] := List.dropWhile_eq_nil_iff.2 h
  rw [scan_of_nil fresh position hnil, takeWhile_isBlank_of_nil hnil]

theorem scan_refused {fresh : Bool} (position : Position) {blanks rest : Text} {c : UInt8}
    (hblanks : ∀ c ∈ blanks, isBlank c = true) (hc : isBlank c = false)
    (h : lexeme? fresh (c :: rest) = none) :
    scan fresh position (blanks ++ c :: rest) =
      [.error (errorAt (position.pass blanks) c rest)] := by
  have hstop : ∀ d ∈ (c :: rest).head?, isBlank d = false := by
    rintro d ⟨rfl⟩
    exact hc
  rw [scan_of_none position (dropWhile_run hblanks hstop) h, takeWhile_run hblanks hstop]

/-! ### Outlines -/

/-- The tokens of a sequence of items without their places, if none of the items is an error. -/
def pieces? : List (Except SourceError Token) → Option (List (TokenKind × Text))
  | [] => some []
  | .error _ :: _ => none
  | .ok token :: rest => (pieces? rest).map (piece token :: ·)

theorem pieces?_append (tokens : List Token) (items : List (Except SourceError Token)) :
    pieces? (tokens.map .ok ++ items) = (pieces? items).map (tokens.map piece ++ ·) := by
  induction tokens with
  | nil => exact Option.map_id_apply.symm
  | cons token tokens ih =>
      rw [List.map_cons, List.cons_append, pieces?, ih, Option.map_map]
      rfl

theorem exists_tokens {items : List (Except SourceError Token)}
    {pieces : List (TokenKind × Text)} (h : pieces? items = some pieces) :
    ∃ tokens : List Token, items = tokens.map .ok ∧ tokens.map piece = pieces := by
  induction items generalizing pieces with
  | nil =>
      cases h
      exact ⟨[], rfl, rfl⟩
  | cons item items ih =>
      cases item with
      | error error => cases h
      | ok token =>
          obtain ⟨more, hmore, rfl⟩ := Option.map_eq_some_iff.1 h
          obtain ⟨tokens, rfl, rfl⟩ := ih hmore
          exact ⟨token :: tokens, rfl, rfl⟩

/-- **The classes and texts of the tokens of a text**, the end of input included, if the text has
no error. -/
def outline (fresh : Bool) (text : Text) : Option (List (TokenKind × Text)) :=
  pieces? (scan fresh {} text)

/-- The outline of a text does not depend on where it stands. -/
theorem pieces?_scan (fresh : Bool) (position : Position) (text : Text) :
    pieces? (scan fresh position text) = outline fresh text := by
  have hplaces : ∀ here there : Position,
      pieces? (scan fresh here text) = pieces? (scan fresh there text) := by
    induction fresh, text using text_induction with
    | finish fresh blanks hblanks =>
        intro here there
        rw [scan_of_blanks fresh here hblanks, scan_of_blanks fresh there hblanks]
        rfl
    | refuse fresh blanks c rest hblanks hc hnone =>
        intro here there
        rw [scan_refused here hblanks hc hnone, scan_refused there hblanks hc hnone]
        rfl
    | token fresh blanks kind lexeme rest hblanks hspells hends hfits ih =>
        intro here there
        rw [scan_token here hblanks hspells hends hfits, scan_token there hblanks hspells hends
          hfits, pieces?, pieces?, ih _ ((there.pass blanks).pass lexeme)]
        rfl
  exact hplaces position {}

theorem outline_of_blanks (fresh : Bool) {blanks : Text} (h : ∀ c ∈ blanks, isBlank c = true) :
    outline fresh blanks = some [(.endOfInput, [])] := by
  rw [outline, scan_of_blanks fresh {} h]
  rfl

theorem outline_refused {fresh : Bool} {blanks rest : Text} {c : UInt8}
    (hblanks : ∀ c ∈ blanks, isBlank c = true) (hc : isBlank c = false)
    (h : lexeme? fresh (c :: rest) = none) : outline fresh (blanks ++ c :: rest) = none := by
  rw [outline, scan_refused {} hblanks hc h]
  rfl

theorem outline_token {fresh : Bool} {blanks lexeme rest : Text} {kind : TokenKind}
    (hblanks : ∀ c ∈ blanks, isBlank c = true) (hspells : Spells kind lexeme)
    (hends : Ends kind rest) (hfits : Fits fresh kind) :
    outline fresh (blanks ++ (lexeme ++ rest)) =
      (outline (freshAfter kind fresh) rest).map ((kind, lexeme) :: ·) := by
  rw [outline, scan_token {} hblanks hspells hends hfits, pieces?, pieces?_scan]
  rfl

/-- **Blanks in front of a text** are not seen. -/
theorem outline_blanks (fresh : Bool) {blanks : Text} (h : ∀ c ∈ blanks, isBlank c = true)
    (text : Text) : outline fresh (blanks ++ text) = outline fresh text := by
  have hall {more : Text} (hmore : ∀ c ∈ more, isBlank c = true) :
      ∀ c ∈ blanks ++ more, isBlank c = true :=
    List.forall_mem_append.2 ⟨h, hmore⟩
  induction fresh, text using text_induction with
  | finish fresh more hmore =>
      rw [outline_of_blanks fresh (hall hmore), outline_of_blanks fresh hmore]
  | refuse fresh more c rest hmore hc hnone =>
      rw [← List.append_assoc, outline_refused (hall hmore) hc hnone,
        outline_refused hmore hc hnone]
  | token fresh more kind lexeme rest hmore hspells hends hfits _ =>
      rw [← List.append_assoc, outline_token (hall hmore) hspells hends hfits,
        outline_token hmore hspells hends hfits]

/-- Every token of a text has the base that its class and text give it. -/
theorem base_of_mem_scan {fresh : Bool} {position : Position} {text : Text} {token : Token}
    (h : .ok token ∈ scan fresh position text) :
    token.base = if token.kind = .number then numberBase token.text else 0 := by
  induction fresh, text using text_induction generalizing position with
  | finish fresh blanks hblanks =>
      rw [scan_of_blanks fresh position hblanks, List.mem_singleton] at h
      cases h
      rfl
  | refuse fresh blanks c rest hblanks hc hnone =>
      rw [scan_refused position hblanks hc hnone, List.mem_singleton] at h
      cases h
  | token fresh blanks kind lexeme rest hblanks hspells hends hfits ih =>
      rw [scan_token position hblanks hspells hends hfits, List.mem_cons] at h
      rcases h with h | h
      · cases h
        rfl
      · exact ih h

/-- A text that is refused has an error where its tokens end. -/
theorem not_atEnd_of_outline {fresh : Bool} {text : Text} (h : outline fresh text = none)
    (position : Position) : ¬AtEnd (ending (scan fresh position text)) := by
  induction fresh, text using text_induction generalizing position with
  | finish fresh blanks hblanks =>
      rw [outline_of_blanks fresh hblanks] at h
      cases h
  | refuse fresh blanks c rest hblanks hc hnone =>
      rw [scan_refused position hblanks hc hnone]
      rintro (hnil | ⟨token, more, htoken, -⟩)
      · cases hnil
      · cases htoken
  | token fresh blanks kind lexeme rest hblanks hspells hends hfits ih =>
      rw [outline_token hblanks hspells hends hfits, Option.map_eq_none_iff] at h
      have hkind : ∀ token ∈ [tokenAt (position.pass blanks) kind lexeme],
          token.kind ≠ .endOfInput :=
        List.forall_mem_singleton.2 (Lexical.kind_ne ⟨hspells, rfl⟩)
      have hskip := ending_append hkind
        (scan (freshAfter kind fresh) ((position.pass blanks).pass lexeme) rest)
      rw [List.map_singleton, List.singleton_append] at hskip
      rw [scan_token position hblanks hspells hends hfits, hskip]
      exact ih h _

/-- **Nothing but an end of line follows a comment.** -/
theorem runsOut_scan {fresh : Bool} {position : Position} {text : Text} {tokens : List Token}
    (h : scan fresh position text = tokens.map .ok) : tokens.IsChain RunsOut := by
  induction fresh, text using text_induction generalizing position tokens with
  | finish fresh blanks hblanks =>
      rw [scan_of_blanks fresh position hblanks, eq_comm, List.map_eq_cons_iff] at h
      obtain ⟨token, rest, rfl, -, hrest⟩ := h
      rw [List.map_eq_nil_iff.1 hrest]
      exact .singleton token
  | refuse fresh blanks c rest hblanks hc hnone =>
      rw [scan_refused position hblanks hc hnone, eq_comm, List.map_eq_cons_iff] at h
      obtain ⟨token, rest, -, hitem, -⟩ := h
      cases hitem
  | token fresh blanks kind lexeme rest hblanks hspells hends hfits ih =>
      rw [scan_token position hblanks hspells hends hfits, eq_comm, List.map_eq_cons_iff] at h
      obtain ⟨token, later, rfl, hitem, hlater⟩ := h
      obtain rfl := Except.ok.inj hitem
      refine List.isChain_cons.2 ⟨fun next hnext hcomment => ?_, ih hlater.symm⟩
      -- what follows a comment is empty or starts with a newline
      obtain rfl : kind = .comment := hcomment
      obtain ⟨more, rfl⟩ := List.head?_eq_some_iff.1 hnext
      cases rest with
      | nil =>
          rw [scan_of_blanks _ _ (by simp), List.map_cons, List.cons.injEq] at hlater
          obtain rfl := Except.ok.inj hlater.1
          exact .inr rfl
      | cons c rest =>
          obtain rfl : c = newline := hends c rfl
          have hline := @scan_token (freshAfter .comment fresh)
            ((position.pass blanks).pass lexeme) [] [newline] rest .newline (by simp) .newline
            trivial (by simp [Fits])
          rw [List.nil_append, List.singleton_append] at hline
          rw [hline, List.map_cons, List.cons.injEq] at hlater
          obtain rfl := Except.ok.inj hlater.1
          exact .inl rfl

/-! ### What follows a token, or a rune that starts none -/

/-- Whether a token ends is said by the next byte alone. -/
theorem ends_cons {kind : TokenKind} {c : UInt8} {rest : Text} (h : Ends kind (c :: rest))
    (rest' : Text) : Ends kind (c :: rest') := by
  cases kind <;> exact h

theorem isNamePart_of_isBlank {c : UInt8} (h : isBlank c = true) :
    isNamePart c = false ∧ c ≠ byte ':' := by
  simp only [isBlank, Bool.or_eq_true, decide_eq_true_eq] at h
  rcases h with (rfl | rfl) | rfl <;> decide

/-- A rune that starts no token still starts none if what follows it is changed, unless to a slash
or to a letter. -/
theorem lexeme?_none_of_head {fresh : Bool} {c : UInt8} {rest rest' : Text}
    (h : lexeme? fresh (c :: rest) = none)
    (hhead : ∀ d ∈ rest'.head?, d ∈ rest.head? ∨ (d ≠ byte '/' ∧ isNameStart d = false)) :
    lexeme? fresh (c :: rest') = none := by
  rw [lexeme?] at h
  split_ifs at h with hnewline hcomma hslash hname hdot hdigit
  have hslash' : ¬(c = byte '/' ∧ rest'.head? = some (byte '/')) := by
    rintro ⟨hc, hd⟩
    rcases hhead _ hd with hd | hd
    · exact hslash ⟨hc, hd⟩
    · exact hd.1 rfl
  have hdot' : ¬(c = byte '.' ∧ rest'.head?.any isNameStart = true) := by
    rintro ⟨hc, hany⟩
    cases hd : rest'.head? with
    | none => simp [hd] at hany
    | some d =>
        rw [hd, Option.any_some] at hany
        rcases hhead d hd with hsame | hother
        · exact hdot ⟨hc, by rw [Option.mem_def.1 hsame, Option.any_some, hany]⟩
        · rw [hother.2] at hany
          cases hany
  rw [lexeme?, if_neg hnewline, if_neg hcomma, if_neg hslash', if_neg hname, if_neg hdot',
    if_neg hdigit]

/-- A text that is refused is refused with more lines behind it. -/
theorem outline_append_newline {fresh : Bool} {text : Text} (h : outline fresh text = none)
    (more : Text) : outline fresh (text ++ newline :: more) = none := by
  induction fresh, text using text_induction with
  | finish fresh blanks hblanks =>
      rw [outline_of_blanks fresh hblanks] at h
      cases h
  | refuse fresh blanks c rest hblanks hc hnone =>
      have hhead : ∀ d ∈ (rest ++ newline :: more).head?,
          d ∈ rest.head? ∨ (d ≠ byte '/' ∧ isNameStart d = false) := by
        cases rest with
        | nil => rintro d ⟨rfl⟩; exact .inr (by decide)
        | cons e rest => exact fun d hd => .inl hd
      rw [List.append_assoc, List.cons_append]
      exact outline_refused hblanks hc (lexeme?_none_of_head hnone hhead)
  | token fresh blanks kind lexeme rest hblanks hspells hends hfits ih =>
      rw [outline_token hblanks hspells hends hfits, Option.map_eq_none_iff] at h
      rw [List.append_assoc, List.append_assoc,
        outline_token hblanks hspells (ends_append_newline hends more) hfits, ih h]
      rfl

/-! ### Skeletons of texts -/

/-- **The skeleton of the tokens of a text**, if the text has no error. -/
def skeletonOf (fresh skip : Bool) (text : Text) : Option (List (TokenKind × Text)) :=
  (outline fresh text).map (skeleton Prod.fst skip)

theorem skeletonOf_blanks (fresh skip : Bool) {blanks : Text}
    (h : ∀ c ∈ blanks, isBlank c = true) (text : Text) :
    skeletonOf fresh skip (blanks ++ text) = skeletonOf fresh skip text := by
  rw [skeletonOf, outline_blanks fresh h, skeletonOf]

/-- A carriage return is a blank. -/
theorem skeletonOf_return (fresh skip : Bool) (text : Text) :
    skeletonOf fresh skip (byte '\r' :: text) = skeletonOf fresh skip text :=
  skeletonOf_blanks fresh skip (List.forall_mem_singleton.2 (by decide)) text

theorem skeletonOf_token {fresh : Bool} {lexeme rest : Text} {kind : TokenKind}
    (hspells : Spells kind lexeme) (hends : Ends kind rest) (hfits : Fits fresh kind)
    (skip : Bool) :
    skeletonOf fresh skip (lexeme ++ rest) =
      (skeletonOf (freshAfter kind fresh) (skipAfter kind skip) rest).map
        (skeleton Prod.fst skip [(kind, lexeme)] ++ ·) := by
  have htoken := @outline_token fresh [] lexeme rest kind (by simp) hspells hends hfits
  rw [List.nil_append] at htoken
  rw [skeletonOf, htoken, skeletonOf, Option.map_map, Option.map_map]
  congr 1
  funext pieces
  exact Parser.skeleton_append skip [(kind, lexeme)] pieces

/-- A comment in front of a text is not in its skeleton. -/
theorem skeletonOf_comment {lexeme rest : Text} (hspells : Spells .comment lexeme)
    (hends : Ends .comment rest) (fresh skip : Bool) :
    skeletonOf fresh skip (lexeme ++ rest) = skeletonOf fresh skip rest := by
  rw [skeletonOf_token hspells hends (by simp [Fits])]
  exact Option.map_id_apply

/-- An end of line in front of a text. -/
theorem skeletonOf_newline (fresh skip : Bool) (rest : Text) :
    skeletonOf fresh skip (newline :: rest) =
      (skeletonOf true true rest).map (skeleton Prod.fst skip [(.newline, [newline])] ++ ·) :=
  skeletonOf_token .newline trivial (by simp [Fits]) skip

/-! ### Carriage returns -/

/-- A text with a carriage return before each newline. -/
def withReturns (text : Text) : Text :=
  text.flatMap fun c => if c = newline then [byte '\r', newline] else [c]

theorem withReturns_append (first second : Text) :
    withReturns (first ++ second) = withReturns first ++ withReturns second :=
  List.flatMap_append

theorem withReturns_newline (rest : Text) :
    withReturns (newline :: rest) = byte '\r' :: newline :: withReturns rest := by
  rw [withReturns, List.flatMap_cons, if_pos rfl]
  rfl

theorem withReturns_cons {c : UInt8} (h : c ≠ newline) (rest : Text) :
    withReturns (c :: rest) = c :: withReturns rest := by
  rw [withReturns, List.flatMap_cons, if_neg h]
  rfl

theorem withReturns_eq_self {text : Text} (h : newline ∉ text) : withReturns text = text := by
  induction text with
  | nil => rfl
  | cons c text ih =>
      obtain ⟨hc, htext⟩ := not_or.1 (mt List.mem_cons.2 h)
      rw [withReturns_cons (Ne.symm hc), ih htext]

/-- A text with carriage returns starts as before, or with a carriage return. -/
theorem head?_withReturns {rest : Text} {d : UInt8} (h : d ∈ (withReturns rest).head?) :
    d ∈ rest.head? ∨ d = byte '\r' := by
  cases rest with
  | nil => exact .inl h
  | cons c rest =>
      by_cases hc : c = newline
      · subst hc
        rw [withReturns_newline] at h
        cases h
        exact .inr rfl
      · rw [withReturns_cons hc] at h
        exact .inl h

theorem newline_notMem_of_isName {name : Text} (h : Text.isName name = true) : newline ∉ name := by
  obtain ⟨c, rest, rfl, hstart, hrest⟩ := exists_of_isName h
  intro hmem
  rcases List.mem_cons.1 hmem with rfl | hmem
  · exact absurd hstart (by decide)
  · exact absurd (hrest _ hmem) (by decide)

/-- No token but the end of a line holds a newline. -/
theorem newline_notMem_of_spells {kind : TokenKind} {lexeme : Text} (h : Spells kind lexeme)
    (hkind : kind ≠ .newline) : newline ∉ lexeme := by
  cases h with
  | newline => exact absurd rfl hkind
  | comma => decide
  | comment hbody =>
      intro hmem
      rcases List.mem_cons.1 hmem with hslash | hmem
      · exact absurd hslash (by decide)
      · rcases List.mem_cons.1 hmem with hslash | hmem
        · exact absurd hslash (by decide)
        · exact hbody hmem
  | label hname =>
      intro hmem
      rcases List.mem_append.1 hmem with hmem | hmem
      · exact newline_notMem_of_isName hname hmem
      · exact absurd hmem (by decide)
  | mnemonic hname => exact newline_notMem_of_isName hname
  | identifier hname => exact newline_notMem_of_isName hname
  | directive hname =>
      intro hmem
      rcases List.mem_cons.1 hmem with hdot | hmem
      · exact absurd hdot (by decide)
      · exact newline_notMem_of_isName hname hmem
  | number hdigit hmore =>
      intro hmem
      rcases List.mem_cons.1 hmem with rfl | hmem
      · exact absurd hdigit (by decide)
      · exact absurd (hmore _ hmem) (by decide)

theorem newline_notMem_of_blanks {blanks : Text} (h : ∀ c ∈ blanks, isBlank c = true) :
    newline ∉ blanks :=
  fun hmem => absurd (h newline hmem) (by decide)

/-- A token in front of a text: with carriage returns behind it, and without them. -/
theorem skeletonOf_withReturns_token {fresh : Bool} {kind : TokenKind} {lexeme rest : Text}
    (hspells : Spells kind lexeme) (hends : Ends kind rest) (hfits : Fits fresh kind)
    (h : ∀ skip, skeletonOf (freshAfter kind fresh) skip (withReturns rest) =
      skeletonOf (freshAfter kind fresh) skip rest) (skip : Bool) :
    skeletonOf fresh skip (withReturns (lexeme ++ rest)) =
      skeletonOf fresh skip (lexeme ++ rest) := by
  by_cases hnewline : kind = .newline
  · subst hnewline
    cases hspells
    rw [List.singleton_append, withReturns_newline, skeletonOf_return, skeletonOf_newline,
      skeletonOf_newline]
    exact congrArg _ (h true)
  · have hlexeme := withReturns_eq_self (newline_notMem_of_spells hspells hnewline)
    rw [withReturns_append, hlexeme]
    by_cases hcomment : kind = .comment
    · subst hcomment
      have hrest : skeletonOf fresh skip (withReturns rest) = skeletonOf fresh skip rest := h skip
      rw [skeletonOf_comment hspells hends, ← hrest]
      cases rest with
      | nil => exact skeletonOf_comment hspells hends fresh skip
      | cons c rest =>
          -- the carriage return becomes the last byte of the comment
          obtain rfl : c = newline := hends c rfl
          have hlonger : Spells .comment (lexeme ++ [byte '\r']) := by
            cases hspells with
            | comment hbody => exact .comment (by simpa using ⟨hbody, by decide⟩)
          have hends' : Ends .comment (newline :: withReturns rest) := by
            rintro d ⟨rfl⟩
            rfl
          have hlong := skeletonOf_comment hlonger hends' fresh skip
          rw [List.append_assoc, List.singleton_append] at hlong
          rw [withReturns_newline, hlong, skeletonOf_return]
    · have hends' : Ends kind (withReturns rest) := by
        cases rest with
        | nil => exact hends
        | cons c rest =>
            by_cases hc : c = newline
            · subst hc
              rw [withReturns_newline]
              exact Printing.ends_of_stops (Printing.stops_cons (by decide) _) hcomment
            · rw [withReturns_cons hc]
              exact ends_cons hends _
      rw [skeletonOf_token hspells hends' hfits, skeletonOf_token hspells hends hfits, h]

/-- **Carriage returns before newlines change no skeleton.** -/
theorem skeletonOf_withReturns (fresh skip : Bool) (text : Text) :
    skeletonOf fresh skip (withReturns text) = skeletonOf fresh skip text := by
  induction fresh, text using text_induction generalizing skip with
  | finish fresh blanks hblanks => rw [withReturns_eq_self (newline_notMem_of_blanks hblanks)]
  | refuse fresh blanks c rest hblanks hc hnone =>
      have hne : c ≠ newline := by
        rintro rfl
        cases hnone
      have hhead : ∀ d ∈ (withReturns rest).head?,
          d ∈ rest.head? ∨ (d ≠ byte '/' ∧ isNameStart d = false) := by
        intro d hd
        rcases head?_withReturns hd with hd | rfl
        · exact .inl hd
        · exact .inr (by decide)
      rw [withReturns_append, withReturns_eq_self (newline_notMem_of_blanks hblanks),
        withReturns_cons hne, skeletonOf, skeletonOf, outline_refused hblanks hc hnone,
        outline_refused hblanks hc (lexeme?_none_of_head hnone hhead)]
  | token fresh blanks kind lexeme rest hblanks hspells hends hfits ih =>
      rw [withReturns_append, withReturns_eq_self (newline_notMem_of_blanks hblanks),
        skeletonOf_blanks fresh skip hblanks, skeletonOf_blanks fresh skip hblanks]
      exact skeletonOf_withReturns_token hspells hends hfits (fun skip => ih skip) skip

/-! ### Cutting behind a token -/

/-- Whether a name would be a mnemonic behind some tokens. -/
def freshBehind (fresh : Bool) (tokens : List Token) : Bool :=
  tokens.foldl (fun fresh token => freshAfter token.kind fresh) fresh

/-- **A text can be cut behind each of its tokens**: whatever follows there and does not prolong the
token, what comes before is scanned as it was. -/
theorem scan_cut {fresh : Bool} {before text : Text} {token : Token}
    (h : .ok token ∈ scan fresh (.behind before) text) (hkind : token.kind ≠ .endOfInput) :
    ∃ (front : List Token) (first second : Text), text = first ++ second ∧ first ≠ [] ∧
      token.span.stop = ((before ++ first).length : Int) ∧ Ends token.kind second ∧
      (∀ other ∈ front, other.kind ≠ .endOfInput) ∧
        ∀ more, Ends token.kind more →
          scan fresh (.behind before) (first ++ more) = (front ++ [token]).map .ok ++
            scan (freshBehind fresh (front ++ [token])) (.behind (before ++ first)) more := by
  induction fresh, text using text_induction generalizing before with
  | finish fresh blanks hblanks =>
      rw [scan_of_blanks fresh _ hblanks, List.mem_singleton] at h
      cases h
      exact absurd rfl hkind
  | refuse fresh blanks c rest hblanks hc hnone =>
      rw [scan_refused _ hblanks hc hnone, List.mem_singleton] at h
      cases h
  | token fresh blanks kind lexeme rest hblanks hspells hends hfits ih =>
      have hblank : (Position.behind before).pass blanks = .behind (before ++ blanks) :=
        Position.pass_behind before (startsPlain_of_blanks hblanks)
      have hlexeme : (Position.behind (before ++ blanks)).pass lexeme =
          .behind (before ++ (blanks ++ lexeme)) := by
        rw [Position.pass_behind _ (startsPlain_of_spells hspells), List.append_assoc]
      -- the first token, whatever may follow it
      have hfirst (more : Text) (hmore : Ends kind more) :
          scan fresh (.behind before) (blanks ++ lexeme ++ more) =
            .ok (tokenAt (.behind (before ++ blanks)) kind lexeme) ::
              scan (freshAfter kind fresh) (.behind (before ++ (blanks ++ lexeme))) more := by
        rw [List.append_assoc, scan_token _ hblanks hspells hmore hfits, hblank, hlexeme]
      have hne : blanks ++ lexeme ≠ [] := by simp [ne_nil_of_spells hspells]
      rw [← List.append_assoc, hfirst rest hends, List.mem_cons] at h
      rcases h with h | h
      · cases h
        refine ⟨[], blanks ++ lexeme, rest, (List.append_assoc _ _ _).symm, hne, ?_, hends,
          by simp, hfirst⟩
        simp only [tokenAt, Position.span, Position.behind, List.length_append]
        omega
      · obtain ⟨front, first, second, rfl, hfirst', hstop, hends', hfront, hcut⟩ := ih h
        obtain ⟨c, first, rfl⟩ := List.exists_cons_of_ne_nil hfirst'
        refine ⟨tokenAt (.behind (before ++ blanks)) kind lexeme :: front,
          blanks ++ lexeme ++ c :: first, second, by simp, by simp, ?_, hends',
          List.forall_mem_cons.2 ⟨Lexical.kind_ne ⟨hspells, rfl⟩, hfront⟩, fun more hmore => ?_⟩
        · rw [hstop, List.append_assoc]
        · rw [List.append_assoc, hfirst (c :: first ++ more) (ends_cons hends _), hcut more hmore,
            List.append_assoc before]
          rfl

end Lexer

end TableAssembler
