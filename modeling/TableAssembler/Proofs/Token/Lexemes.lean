/-
**The lexical grammar.**

Each class of tokens has its spelling, says what may not follow a token of it, and, for names,
whether a mnemonic may still come on the line.  The scanner takes the token at the start of a text
exactly according to these rules, so its tokens are those into which the grammar cuts the text.

Main definitions:

* `Lexer.Spells` — the spellings of a class;
* `Lexer.Ends` — what may follow a token, so that it is the longest;
* `Lexer.Fits` — where on a line a name is a mnemonic and where it is an identifier;
* `Lexer.Scanned` — **a text cut into tokens**.

Main results:

* `Lexer.spells_of_lexeme?`, `Lexer.lexeme?_of_spells` — the token at the start of a text;
* `Lexer.lexical_of_mem_scan` — every token of a text is spelled as its class demands;
* `Lexer.scan_of_scanned` — the tokens of a text are those that it is cut into.
-/

import Mathlib.Data.List.TakeWhile
import TableAssembler.Token.Lexer

set_option relaxedAutoImplicit false
set_option autoImplicit false

namespace TableAssembler

open Text (byte isDigit isNameStart isNamePart isName)

namespace Lexer

/-! ### The grammar -/

/-- **The spellings of a class of tokens.** -/
inductive Spells : TokenKind → Text → Prop
  | newline : Spells .newline [Text.newline]
  | comma : Spells .comma [byte ',']
  | comment {body : Text} (h : Text.newline ∉ body) :
      Spells .comment (byte '/' :: byte '/' :: body)
  | label {name : Text} (h : isName name = true) : Spells .label (name ++ [byte ':'])
  | mnemonic {name : Text} (h : isName name = true) : Spells .mnemonic name
  | identifier {name : Text} (h : isName name = true) : Spells .identifier name
  | directive {name : Text} (h : isName name = true) : Spells .directive (byte '.' :: name)
  | number {digit : UInt8} {more : Text} (hdigit : isDigit digit = true)
      (hmore : ∀ c ∈ more, isNamePart c = true) : Spells .number (digit :: more)

/-- What may follow a token of a class. -/
def Ends : TokenKind → Text → Prop
  | .comment, rest => ∀ c ∈ rest.head?, c = Text.newline
  | .mnemonic, rest | .identifier, rest =>
      ∀ c ∈ rest.head?, isNamePart c = false ∧ c ≠ byte ':'
  | .directive, rest | .number, rest => ∀ c ∈ rest.head?, isNamePart c = false
  | _, _ => True

/-- Mnemonics come first on their line, and identifiers do not. -/
def Fits (fresh : Bool) (kind : TokenKind) : Prop :=
  (kind = .mnemonic → fresh = true) ∧ (kind = .identifier → fresh = false)

theorem spells_label_iff {t : Text} :
    Spells .label t ↔ ∃ name, isName name = true ∧ t = name ++ [byte ':'] := by
  constructor
  · rintro ⟨h⟩
    exact ⟨_, by assumption, rfl⟩
  · rintro ⟨name, h, rfl⟩
    exact .label h

/-! ### Runs of bytes -/

section Runs

variable {p : UInt8 → Bool}

theorem take_run (p : UInt8 → Bool) (c : UInt8) (rest : Text) :
    (c :: rest).take (1 + (rest.takeWhile p).length) = c :: rest.takeWhile p := by
  rw [Nat.add_comm, List.take_succ_cons,
    ← List.prefix_iff_eq_take.1 (List.takeWhile_prefix p)]

theorem drop_run (p : UInt8 → Bool) (c : UInt8) (rest : Text) :
    (c :: rest).drop (1 + (rest.takeWhile p).length) = rest.dropWhile p := by
  have h := @List.drop_left _ (rest.takeWhile p) (rest.dropWhile p)
  rw [List.takeWhile_append_dropWhile] at h
  rw [Nat.add_comm, List.drop_succ_cons, h]

theorem head?_dropWhile (p : UInt8 → Bool) (t : Text) :
    ∀ c ∈ (t.dropWhile p).head?, p c = false := by
  intro c hc
  have h := List.head?_dropWhile_not p t
  rw [Option.mem_def.1 hc] at h
  exact h

theorem takeWhile_run {run rest : Text} (hrun : ∀ c ∈ run, p c = true)
    (hrest : ∀ c ∈ rest.head?, p c = false) : (run ++ rest).takeWhile p = run := by
  rw [List.takeWhile_append_of_pos hrun]
  cases rest with
  | nil => simp
  | cons c rest => simp [hrest c rfl]

theorem dropWhile_run {run rest : Text} (hrun : ∀ c ∈ run, p c = true)
    (hrest : ∀ c ∈ rest.head?, p c = false) : (run ++ rest).dropWhile p = rest := by
  rw [List.dropWhile_append_of_pos hrun]
  cases rest with
  | nil => rfl
  | cons c rest => simp [hrest c rfl]

end Runs

/-! ### Classes of bytes -/

theorem isName_cons_iff {c : UInt8} {rest : Text} :
    isName (c :: rest) = true ↔ isNameStart c = true ∧ ∀ d ∈ rest, isNamePart d = true := by
  simp [isName]

theorem exists_of_isName {name : Text} (h : isName name = true) :
    ∃ c rest, name = c :: rest ∧ isNameStart c = true ∧ ∀ d ∈ rest, isNamePart d = true := by
  cases name with
  | nil => cases h
  | cons c rest => exact ⟨c, rest, rfl, isName_cons_iff.1 h⟩

/-- Digits come before all letters and before the underscore. -/
theorem not_isNameStart_of_isDigit {c : UInt8} (h : isDigit c = true) : isNameStart c = false := by
  simp only [isDigit, Bool.and_eq_true, decide_eq_true_eq, UInt8.le_iff_toNat_le] at h
  have hlate : ∀ d : UInt8, 57 < d.toNat → ¬ d ≤ c := by
    intro d hd hle
    have hnine : c.toNat ≤ 57 := h.2
    have hle := UInt8.le_iff_toNat_le.1 hle
    omega
  have hunderscore : c ≠ byte '_' := by
    rintro rfl
    exact hlate (byte '_') (by decide) (by decide)
  simp [isNameStart, hunderscore, hlate (byte 'a') (by decide), hlate (byte 'A') (by decide)]

theorem ne_of_class {p : UInt8 → Bool} {c d : UInt8} (h : p c = true) (hd : p d = false) :
    c ≠ d := by
  rintro rfl
  rw [h] at hd
  cases hd

theorem not_isBlank_of_class {p : UInt8 → Bool} {c : UInt8} (h : p c = true)
    (hspace : p (byte ' ') = false) (htab : p (byte '\t') = false)
    (hreturn : p (byte '\r') = false) : isBlank c = false := by
  simp [isBlank, ne_of_class h hspace, ne_of_class h htab, ne_of_class h hreturn]

/-! ### The token at the start of a text, by its first byte -/

theorem lexeme?_comment (fresh : Bool) (rest : Text) :
    lexeme? fresh (byte '/' :: byte '/' :: rest) =
      some (.comment, 1 + ((byte '/' :: rest).takeWhile (· != Text.newline)).length) := by
  rw [lexeme?, if_neg (by decide), if_neg (by decide), if_pos ⟨rfl, rfl⟩]

theorem lexeme?_name (fresh : Bool) {c : UInt8} (h : isNameStart c = true) (rest : Text) :
    lexeme? fresh (c :: rest) = some (nameLexeme fresh rest) := by
  have hslash : ¬ (c = byte '/' ∧ rest.head? = some (byte '/')) :=
    fun hboth => ne_of_class h (by decide) hboth.1
  rw [lexeme?, if_neg (ne_of_class h (by decide)), if_neg (ne_of_class h (by decide)),
    if_neg hslash, if_pos h]

theorem lexeme?_directive (fresh : Bool) {d : UInt8} (h : isNameStart d = true) (rest : Text) :
    lexeme? fresh (byte '.' :: d :: rest) =
      some (.directive, 1 + ((d :: rest).takeWhile isNamePart).length) := by
  have hslash : ¬ (byte '.' = byte '/' ∧ (d :: rest).head? = some (byte '/')) :=
    fun hboth => absurd hboth.1 (by decide)
  rw [lexeme?, if_neg (by decide), if_neg (by decide), if_neg hslash, if_neg (by decide),
    if_pos ⟨rfl, h⟩]

theorem lexeme?_number (fresh : Bool) {c : UInt8} (h : isDigit c = true) (rest : Text) :
    lexeme? fresh (c :: rest) = some (.number, 1 + (rest.takeWhile isNamePart).length) := by
  have hslash : ¬ (c = byte '/' ∧ rest.head? = some (byte '/')) :=
    fun hboth => ne_of_class h (by decide) hboth.1
  have hdot : ¬ (c = byte '.' ∧ rest.head?.any isNameStart = true) :=
    fun hboth => ne_of_class h (by decide) hboth.1
  rw [lexeme?, if_neg (ne_of_class h (by decide)), if_neg (ne_of_class h (by decide)),
    if_neg hslash, if_neg (by simp [not_isNameStart_of_isDigit h]), if_neg hdot, if_pos h]

/-- A name that no colon follows is a mnemonic on a fresh line and else an identifier. -/
theorem lexeme?_plain_name (fresh : Bool) {name rest : Text} (hname : isName name = true)
    (hends : ∀ c ∈ rest.head?, isNamePart c = false ∧ c ≠ byte ':') :
    lexeme? fresh (name ++ rest) =
      some (if fresh then .mnemonic else .identifier, name.length) := by
  obtain ⟨c, more, rfl, hstart, hmore⟩ := exists_of_isName hname
  have hstop : ∀ d ∈ rest.head?, isNamePart d = false := fun d hd => (hends d hd).1
  have hcolon : rest.head? ≠ some (byte ':') := fun h => (hends _ h).2 rfl
  rw [List.cons_append, lexeme?_name fresh hstart, nameLexeme, takeWhile_run hmore hstop,
    dropWhile_run hmore hstop, if_neg hcolon]
  cases fresh <;> simp [Nat.add_comm]

/-- **Completeness**: a token that is spelled right and that nothing prolongs is taken. -/
theorem lexeme?_of_spells {fresh : Bool} {kind : TokenKind} {lexeme rest : Text}
    (hspells : Spells kind lexeme) (hends : Ends kind rest) (hfits : Fits fresh kind) :
    lexeme? fresh (lexeme ++ rest) = some (kind, lexeme.length) := by
  cases hspells with
  | newline => rfl
  | comma => rfl
  | @comment body hbody =>
      have hline : ∀ c ∈ byte '/' :: body, (c != Text.newline) = true := by
        rw [List.forall_mem_cons]
        refine ⟨by decide, fun c hc => ?_⟩
        simpa using ne_of_mem_of_not_mem hc hbody
      have hstop : ∀ c ∈ rest.head?, (c != Text.newline) = false := by
        intro c hc
        simpa using hends c hc
      have hrun := takeWhile_run hline hstop
      rw [List.cons_append] at hrun
      rw [List.cons_append, List.cons_append, lexeme?_comment, hrun]
      simp [Nat.add_comm]
  | label hname =>
      obtain ⟨c, more, rfl, hstart, hmore⟩ := exists_of_isName hname
      have hcolon : ∀ d ∈ (byte ':' :: rest).head?, isNamePart d = false := by
        rintro d ⟨rfl⟩
        decide
      rw [List.append_assoc, List.cons_append, List.singleton_append, lexeme?_name fresh hstart,
        nameLexeme, takeWhile_run hmore hcolon, dropWhile_run hmore hcolon]
      simp [Nat.add_comm]
  | mnemonic hname =>
      rw [lexeme?_plain_name fresh hname hends, hfits.1 rfl]
      rfl
  | identifier hname =>
      rw [lexeme?_plain_name fresh hname hends, hfits.2 rfl]
      rfl
  | directive hname =>
      obtain ⟨c, more, rfl, hstart, hmore⟩ := exists_of_isName hname
      have hparts : ∀ d ∈ c :: more, isNamePart d = true :=
        List.forall_mem_cons.2 ⟨by simp [isNamePart, hstart], hmore⟩
      have hrun := takeWhile_run hparts hends
      rw [List.cons_append] at hrun
      rw [List.cons_append, List.cons_append, lexeme?_directive fresh hstart, hrun]
      simp [Nat.add_comm]
  | number hdigit hmore =>
      rw [List.cons_append, lexeme?_number fresh hdigit, takeWhile_run hmore hends]
      simp [Nat.add_comm]

theorem isName_run {c : UInt8} (h : isNameStart c = true) (rest : Text) :
    isName (c :: rest.takeWhile isNamePart) = true :=
  isName_cons_iff.2 ⟨h, fun _ hd => List.mem_takeWhile_imp hd⟩

theorem spells_of_nameLexeme {fresh : Bool} {c : UInt8} {rest : Text} {kind : TokenKind} {n : Nat}
    (hstart : isNameStart c = true) (h : nameLexeme fresh rest = (kind, n)) :
    Spells kind ((c :: rest).take n) ∧ Ends kind ((c :: rest).drop n) ∧ Fits fresh kind := by
  have hname := isName_run hstart rest
  have hstop := head?_dropWhile isNamePart rest
  unfold nameLexeme at h
  by_cases hcolon : (rest.dropWhile isNamePart).head? = some (byte ':')
  · rw [if_pos hcolon] at h
    cases h
    obtain ⟨after, hafter⟩ := List.head?_eq_some_iff.1 hcolon
    have hsplit : c :: rest =
        (c :: rest.takeWhile isNamePart ++ [byte ':']) ++ after := by
      rw [List.append_assoc, List.singleton_append, ← hafter, List.cons_append,
        List.takeWhile_append_dropWhile]
    have hlength : (c :: rest.takeWhile isNamePart ++ [byte ':']).length =
        1 + (rest.takeWhile isNamePart).length + 1 := by
      simp [Nat.add_comm]
    refine ⟨?_, trivial, by simp [Fits]⟩
    rw [hsplit, List.take_left' hlength]
    exact .label hname
  · have hends : ∀ d ∈ (rest.dropWhile isNamePart).head?, isNamePart d = false ∧ d ≠ byte ':' := by
      intro d hd
      refine ⟨hstop d hd, ?_⟩
      rintro rfl
      exact hcolon hd
    rw [if_neg hcolon] at h
    cases fresh with
    | true =>
        cases h
        rw [take_run, drop_run]
        exact ⟨.mnemonic hname, hends, by simp [Fits]⟩
    | false =>
        cases h
        rw [take_run, drop_run]
        exact ⟨.identifier hname, hends, by simp [Fits]⟩

/-- **Soundness**: the token taken is spelled right, and what follows does not prolong it. -/
theorem spells_of_lexeme? {fresh : Bool} {t : Text} {kind : TokenKind} {n : Nat}
    (h : lexeme? fresh t = some (kind, n)) :
    Spells kind (t.take n) ∧ Ends kind (t.drop n) ∧ Fits fresh kind := by
  cases t with
  | nil => cases h
  | cons c rest =>
      -- the branches in the order in which the scanner tries them
      rw [lexeme?] at h
      split at h
      next hnewline =>
        cases h
        subst hnewline
        exact ⟨.newline, trivial, by simp [Fits]⟩
      split at h
      next hcomma =>
        cases h
        subst hcomma
        exact ⟨.comma, trivial, by simp [Fits]⟩
      split at h
      next hcomment =>
        cases h
        obtain ⟨rfl, hslash⟩ := hcomment
        obtain ⟨after, rfl⟩ := List.head?_eq_some_iff.1 hslash
        rw [take_run, drop_run, List.takeWhile_cons_of_pos (by decide)]
        have hbody : Text.newline ∉ after.takeWhile (· != Text.newline) := by
          intro hmem
          simpa using List.mem_takeWhile_imp hmem
        have hstop := head?_dropWhile (· != Text.newline) (byte '/' :: after)
        exact ⟨.comment hbody, fun d hd => by simpa using hstop d hd, by simp [Fits]⟩
      split at h
      next hstart => exact spells_of_nameLexeme hstart (Option.some.inj h)
      split at h
      next hdirective =>
        cases h
        obtain ⟨rfl, hname⟩ := hdirective
        rw [take_run, drop_run]
        cases rest with
        | nil => cases hname
        | cons d after =>
            have hstart : isNameStart d = true := hname
            rw [List.takeWhile_cons_of_pos (by simp [isNamePart, hstart])]
            exact ⟨.directive (isName_run hstart after), head?_dropWhile _ _, by simp [Fits]⟩
      split at h
      next hdigit =>
        cases h
        rw [take_run, drop_run]
        have hmore : ∀ d ∈ rest.takeWhile isNamePart, isNamePart d = true :=
          fun _ hd => List.mem_takeWhile_imp hd
        exact ⟨.number hdigit hmore, head?_dropWhile _ _, by simp [Fits]⟩
      cases h

/-! ### Tokens of a text -/

/-- A token as the scanner makes it: spelled as its class demands, and a number with its base. -/
structure Lexical (token : Token) : Prop where
  spells : Spells token.kind token.text
  base : token.base = if token.kind = .number then numberBase token.text else 0

theorem scan_of_nil (fresh : Bool) (position : Position) {text : Text}
    (h : text.dropWhile isBlank = []) :
    scan fresh position text =
      [.ok (tokenAt (position.pass (text.takeWhile isBlank)) .endOfInput [])] := by
  rw [scan]
  split
  next => rfl
  next c rest hcons => simp [h] at hcons

theorem scan_of_none {fresh : Bool} (position : Position) {text rest : Text} {c : UInt8}
    (hcons : text.dropWhile isBlank = c :: rest) (h : lexeme? fresh (c :: rest) = none) :
    scan fresh position text =
      [.error (errorAt (position.pass (text.takeWhile isBlank)) c rest)] := by
  rw [scan]
  split
  next hnil => simp [hcons] at hnil
  next c' rest' hcons' =>
    obtain ⟨rfl, rfl⟩ : c = c' ∧ rest = rest' := by simpa [hcons] using hcons'
    split
    next => rfl
    next kind n hsome => simp [h] at hsome

theorem scan_of_some {fresh : Bool} (position : Position) {text : Text} {kind : TokenKind} {n : Nat}
    (h : lexeme? fresh (text.dropWhile isBlank) = some (kind, n)) :
    scan fresh position text =
      .ok (tokenAt (position.pass (text.takeWhile isBlank)) kind
          ((text.dropWhile isBlank).take n)) ::
        scan (freshAfter kind fresh)
          ((position.pass (text.takeWhile isBlank)).pass ((text.dropWhile isBlank).take n))
          ((text.dropWhile isBlank).drop n) := by
  rw [scan]
  split
  next hnil =>
    rw [hnil] at h
    cases h
  next c rest hcons =>
    rw [hcons] at h
    split
    next hnone => simp [h] at hnone
    next kind' n' hsome =>
      obtain ⟨rfl, rfl⟩ : kind = kind' ∧ n = n' := by simpa [h] using hsome
      simp only [hcons]

theorem Lexical.kind_ne {token : Token} (h : Lexical token) : token.kind ≠ .endOfInput := by
  intro hkind
  have hspells := h.spells
  rw [hkind] at hspells
  cases hspells

/-- Every token of a text is as the scanner makes it. -/
theorem lexical_of_mem_scan {fresh : Bool} {position : Position} {text : Text} {token : Token}
    (h : .ok token ∈ scan fresh position text) (hkind : token.kind ≠ .endOfInput) :
    Lexical token := by
  induction fresh, position, text using scan.induct with
  | case1 fresh position text hnil =>
      rw [scan_of_nil fresh position hnil, List.mem_singleton] at h
      cases h
      exact absurd rfl hkind
  | case2 fresh position text c rest hcons hnone =>
      rw [scan_of_none position hcons hnone, List.mem_singleton] at h
      cases h
  | case3 fresh position text here c rest hcons kind n hlex hlt lexeme ih =>
      -- the first token, or one of those behind it
      rw [scan_of_some position (hcons ▸ hlex), hcons, List.mem_cons] at h
      rcases h with h | h
      · cases h
        exact ⟨(spells_of_lexeme? hlex).1, rfl⟩
      · exact ih h

/-- What is left of a token without its place. -/
def piece (token : Token) : TokenKind × Text := (token.kind, token.text)

/-- **A text cut into tokens**: blanks may stand before each of them and at the end. -/
inductive Scanned : Bool → Text → List (TokenKind × Text) → Prop
  | finish {fresh : Bool} {blanks : Text} (hblanks : ∀ c ∈ blanks, isBlank c = true) :
      Scanned fresh blanks []
  | token {fresh : Bool} {blanks lexeme rest : Text} {kind : TokenKind}
      {more : List (TokenKind × Text)} (hblanks : ∀ c ∈ blanks, isBlank c = true)
      (hspells : Spells kind lexeme) (hends : Ends kind rest) (hfits : Fits fresh kind)
      (hrest : Scanned (freshAfter kind fresh) rest more) :
      Scanned fresh (blanks ++ (lexeme ++ rest)) ((kind, lexeme) :: more)

theorem Scanned.blank {fresh : Bool} {text : Text} {pieces : List (TokenKind × Text)} {c : UInt8}
    (h : Scanned fresh text pieces) (hc : isBlank c = true) : Scanned fresh (c :: text) pieces := by
  cases h with
  | finish hblanks => exact .finish (List.forall_mem_cons.2 ⟨hc, hblanks⟩)
  | token hblanks hspells hends hfits hrest =>
      exact .token (List.forall_mem_cons.2 ⟨hc, hblanks⟩) hspells hends hfits hrest

theorem not_isBlank_of_isName {name : Text} (h : isName name = true) :
    ∃ c more, name = c :: more ∧ isBlank c = false := by
  obtain ⟨c, more, rfl, hstart, -⟩ := exists_of_isName h
  exact ⟨c, more, rfl, not_isBlank_of_class hstart (by decide) (by decide) (by decide)⟩

/-- A token starts with no blank. -/
theorem not_isBlank_of_spells {kind : TokenKind} {lexeme : Text} (h : Spells kind lexeme) :
    ∃ c more, lexeme = c :: more ∧ isBlank c = false := by
  cases h with
  | newline => exact ⟨_, _, rfl, by decide⟩
  | comma => exact ⟨_, _, rfl, by decide⟩
  | comment hbody => exact ⟨_, _, rfl, by decide⟩
  | label hname =>
      obtain ⟨c, more, rfl, hblank⟩ := not_isBlank_of_isName hname
      exact ⟨_, _, rfl, hblank⟩
  | mnemonic hname => exact not_isBlank_of_isName hname
  | identifier hname => exact not_isBlank_of_isName hname
  | directive hname => exact ⟨_, _, rfl, by decide⟩
  | number hdigit hmore =>
      exact ⟨_, _, rfl, not_isBlank_of_class hdigit (by decide) (by decide) (by decide)⟩

/-- A token behind some blanks is scanned, and then what follows it. -/
theorem scan_token {fresh : Bool} (position : Position) {blanks lexeme rest : Text}
    {kind : TokenKind} (hblanks : ∀ c ∈ blanks, isBlank c = true) (hspells : Spells kind lexeme)
    (hends : Ends kind rest) (hfits : Fits fresh kind) :
    scan fresh position (blanks ++ (lexeme ++ rest)) =
      .ok (tokenAt (position.pass blanks) kind lexeme) ::
        scan (freshAfter kind fresh) ((position.pass blanks).pass lexeme) rest := by
  have hstop : ∀ d ∈ (lexeme ++ rest).head?, isBlank d = false := by
    obtain ⟨c, more, rfl, hblank⟩ := not_isBlank_of_spells hspells
    rintro d ⟨rfl⟩
    exact hblank
  have hlex : lexeme? fresh ((blanks ++ (lexeme ++ rest)).dropWhile isBlank) =
      some (kind, lexeme.length) := by
    rw [dropWhile_run hblanks hstop]
    exact lexeme?_of_spells hspells hends hfits
  rw [scan_of_some position hlex, takeWhile_run hblanks hstop, dropWhile_run hblanks hstop,
    List.take_left, List.drop_left]

/-- **The tokens of a text are those that it is cut into**, and the end of input. -/
theorem scan_of_scanned {fresh : Bool} {text : Text} {pieces : List (TokenKind × Text)}
    (h : Scanned fresh text pieces) (position : Position) :
    ∃ tokens last, scan fresh position text = (tokens ++ [last]).map .ok ∧
      tokens.map piece = pieces ∧
        (∀ token ∈ tokens, Lexical token) ∧ last.kind = .endOfInput := by
  induction h generalizing position with
  | finish hblanks =>
      refine ⟨[], _, scan_of_nil _ position (List.dropWhile_eq_nil_iff.2 hblanks), rfl, ?_, rfl⟩
      simp
  | @token fresh blanks lexeme rest kind more hblanks hspells hends hfits _ ih =>
      obtain ⟨tokens, last, hscan, hpieces, hlexical, hlast⟩ :=
        ih ((position.pass blanks).pass lexeme)
      refine ⟨tokenAt (position.pass blanks) kind lexeme :: tokens, last, ?_, ?_, ?_, hlast⟩
      · rw [scan_token position hblanks hspells hends hfits, hscan]
        rfl
      · rw [List.map_cons, hpieces]
        rfl
      · exact List.forall_mem_cons.2 ⟨⟨hspells, rfl⟩, hlexical⟩

end Lexer

end TableAssembler
