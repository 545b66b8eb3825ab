/-
**Reading a listing back.**

A listing has a line for each instruction: its offset, its bytes and its statement, in columns that
are as wide as they have to be and no narrower than usual.  Nothing marks where a column ends but
two blanks.  This is enough: no two blanks come together within an offset or within the bytes, and a
statement starts with none and holds no end of line.  So the lines can be told apart and taken apart
again, however long an offset or a run of bytes is, and also where an instruction has no bytes.

Main definitions:

* `Listing.splitGap`, `Listing.number?`, `Listing.bytes?` — a text cut at its first two blanks, and
  hexadecimal numbers and bytes in print;
* `Listing.readLine?`, `Listing.read?` — **the reading of a line and of a listing**.

Main results:

* `Listing.number?_hex`, `Listing.bytes?_hexBytes` — numbers and bytes are read as they are written;
* `Listing.readLine?_printed`, `Listing.read?_listing` — so are lines and listings;
* `Listing.listing_reads_back` — **the listing of a source has everything about its instructions**.
-/

import TableAssembler.Proofs.Excerpt
import TableAssembler.Proofs.Joining
import TableAssembler.Proofs.Program.Tiling
import TableAssembler.Proofs.Statement.Printing
import TableAssembler.Proofs.Token.Literal
import TableAssembler.Proofs.Token.Outline

set_option relaxedAutoImplicit false
set_option autoImplicit false

namespace TableAssembler

namespace Listing

open Text (byte newline utf8)
open TableAssembler.Parser TableAssembler.Lexer TableAssembler.Grammar

/-! ### The reader -/

/-- A line of a listing. -/
structure Line where
  offset : Nat
  bytes : Text
  text : Text
  deriving DecidableEq

/-- The byte that fills columns. -/
def blank : UInt8 := byte ' '

/-- A text up to its first two blanks, and what stands behind them. -/
def splitGap : Text → Option (Text × Text)
  | first :: second :: rest =>
      if first = blank ∧ second = blank then some ([], rest)
      else (splitGap (second :: rest)).map fun cut => (first :: cut.1, cut.2)
  | _ => none

/-- The value of a hexadecimal digit. -/
def digit? (c : UInt8) : Option Nat := Literal.smallDigits.idxOf? c

/-- The number that hexadecimal digits make behind a number read already. -/
def digitsFrom? : Nat → Text → Option Nat
  | read, [] => some read
  | read, c :: rest => (digit? c).bind fun digit => digitsFrom? (16 * read + digit) rest

/-- A hexadecimal number. -/
def number? (t : Text) : Option Nat := if t = [] then none else digitsFrom? 0 t

/-- A byte as two hexadecimal digits. -/
def pair? : Text → Option UInt8
  | [high, low] =>
      (digit? high).bind fun upper => (digit? low).map fun lower => UInt8.ofNat (16 * upper + lower)
  | _ => none

/-- Bytes as pairs of hexadecimal digits with a blank between neighbours. -/
def bytes? (t : Text) : Option Text :=
  if t = [] then some [] else (t.splitOn blank).mapM pair?

/-- **A line of a listing, without its end**: the offset up to the first two blanks; the bytes up to
the next two blanks, which further blanks fill up to twelve columns; and the statement. -/
def readLine? (line : Text) : Option Line := do
  let (offset, columns) ← splitGap line
  let (bytes, padded) ← splitGap columns
  let text := padded.dropWhile (· = blank)
  if bytes.length + (padded.length - text.length) = max 12 bytes.length then
    return ⟨← number? offset, ← bytes? bytes, text⟩
  else none

/-- **A listing**, every line of which ends in a newline. -/
def read? (listing : Text) : Option (List Line) :=
  let lines := listing.splitOn newline
  if lines.getLast? = some [] then lines.dropLast.mapM readLine? else none

/-! ### Hexadecimal digits -/

theorem digit?_digitChar {digit : Nat} (h : digit < 16) :
    digit? digit.digitChar.toUInt8 = some digit := by
  have hall : ∀ d : Fin 16, digit? (Nat.digitChar d).toUInt8 = some d.val := by decide
  exact hall ⟨digit, h⟩

theorem digit?_blank : digit? blank = none := by decide

theorem digit?_newline : digit? newline = none := by decide

theorem digitsFrom?_append (read : Nat) (first second : Text) :
    digitsFrom? read (first ++ second) =
      (digitsFrom? read first).bind fun middle => digitsFrom? middle second := by
  induction first generalizing read with
  | nil => rfl
  | cons c first ih =>
      cases hdigit : digit? c with
      | none => simp [digitsFrom?, hdigit]
      | some digit => simp [digitsFrom?, hdigit, ih]

theorem digitsFrom?_zeros (count : Nat) :
    digitsFrom? 0 (List.replicate count (byte '0')) = some 0 := by
  induction count with
  | zero => rfl
  | succ count ih =>
      have hzero : digit? (byte '0') = some 0 := by decide
      simp [List.replicate_succ, digitsFrom?, hzero, ih]

/-- What is read as digits holds only digits. -/
theorem notMem_of_digitsFrom? {c : UInt8} (hc : digit? c = none) {t : Text} {read number : Nat}
    (h : digitsFrom? read t = some number) : c ∉ t := by
  induction t generalizing read with
  | nil => simp
  | cons d t ih =>
      obtain ⟨digit, hdigit, hrest⟩ := Option.bind_eq_some_iff.1 h
      rw [List.mem_cons, not_or]
      refine ⟨?_, ih hrest⟩
      rintro rfl
      simp [hc] at hdigit

theorem digitsFrom?_numeral (n : Nat) : digitsFrom? 0 (Text.numeral 16 n) = some n := by
  induction n using Nat.strongRecOn with
  | ind n ih =>
      rw [Text.numeral, Nat.toDigits_eq_if (by omega)]
      split
      · rename_i hsmall
        simp [digitsFrom?, digit?_digitChar hsmall]
      · rename_i hlarge
        have hupper := ih (n / 16) (by omega)
        have hlower := digit?_digitChar (Nat.mod_lt n (by omega : 0 < 16))
        rw [List.map_append, digitsFrom?_append, ← Text.numeral, hupper]
        simp [digitsFrom?, hlower]
        omega

theorem digitsFrom?_hex (width n : Nat) : digitsFrom? 0 (Text.hex width n) = some n := by
  rw [Text.hex, List.leftpad, digitsFrom?_append, digitsFrom?_zeros]
  exact digitsFrom?_numeral n

/-- **A number is read as it is written**, with as many digits as it takes. -/
theorem number?_hex (width n : Nat) : number? (Text.hex width n) = some n := by
  have hne : Text.hex width n ≠ [] := by
    simp [Text.hex, Text.numeral, List.leftpad]
  rw [number?, if_neg hne, digitsFrom?_hex]

theorem blank_notMem_hex (width n : Nat) : blank ∉ Text.hex width n :=
  notMem_of_digitsFrom? digit?_blank (digitsFrom?_hex width n)

theorem newline_notMem_hex (width n : Nat) : newline ∉ Text.hex width n :=
  notMem_of_digitsFrom? digit?_newline (digitsFrom?_hex width n)

/-! ### Bytes -/

/-- A byte takes two digits. -/
theorem hex_byte (b : UInt8) :
    Text.hex 2 b.toNat =
      [(b.toNat / 16).digitChar.toUInt8, (b.toNat % 16).digitChar.toUInt8] := by
  have hlt : b.toNat < 256 := b.toNat_lt
  rw [Text.hex, Text.numeral, Nat.toDigits_eq_if (by omega)]
  split
  · rename_i hsmall
    rw [Nat.div_eq_of_lt hsmall, Nat.mod_eq_of_lt hsmall]
    rfl
  · rw [Nat.toDigits_of_lt_base (by omega)]
    rfl

theorem pair?_hex (b : UInt8) : pair? (Text.hex 2 b.toNat) = some b := by
  have hlt : b.toNat < 256 := b.toNat_lt
  have hupper := digit?_digitChar (by omega : b.toNat / 16 < 16)
  have hlower := digit?_digitChar (by omega : b.toNat % 16 < 16)
  have hsum : 16 * (b.toNat / 16) + b.toNat % 16 = b.toNat := Nat.div_add_mod _ 16
  rw [hex_byte, pair?, hupper, hlower, Option.bind_some, Option.map_some, hsum, UInt8.ofNat_toNat]

/-- Items are read back from their prints if each one is. -/
theorem mapM_map_eq_some {α β γ : Type} {print : α → β} {read? : β → Option γ} {result : α → γ}
    {items : List α} (h : ∀ item ∈ items, read? (print item) = some (result item)) :
    (items.map print).mapM read? = some (items.map result) := by
  induction items with
  | nil => rfl
  | cons item items ih =>
      rw [List.forall_mem_cons] at h
      simp [h.1, ih h.2]

/-- **Bytes are read as they are written.** -/
theorem bytes?_hexBytes (bytes : Text) :
    bytes? (Text.hexBytes (utf8 " ") bytes) = some bytes := by
  have hblank : utf8 " " = [blank] := by decide
  cases bytes with
  | nil => rfl
  | cons b bytes =>
      have hpieces : ∀ piece ∈ (b :: bytes).map fun b => Text.hex 2 b.toNat, blank ∉ piece := by
        intro piece hpiece
        obtain ⟨c, -, rfl⟩ := List.mem_map.1 hpiece
        exact blank_notMem_hex 2 c.toNat
      have hne : Text.hexBytes (utf8 " ") (b :: bytes) ≠ [] := by
        simp [Text.hexBytes, Printing.join_cons, hex_byte]
      rw [bytes?, if_neg hne, Text.hexBytes, Text.join, hblank,
        List.splitOn_intercalate blank hpieces (by simp),
        mapM_map_eq_some fun c _ => pair?_hex c, List.map_id']

theorem newline_notMem_hexBytes (bytes : Text) : newline ∉ Text.hexBytes (utf8 " ") bytes := by
  cases bytes with
  | nil => exact List.not_mem_nil
  | cons b bytes =>
      have hblank : newline ∉ utf8 " " := by decide
      have hmore : ∀ c : UInt8, newline ∉ Text.hex 2 c.toNat := by
        intro c
        exact newline_notMem_hex 2 c.toNat
      simp [Text.hexBytes, Printing.join_cons, hblank, hmore]

/-! ### Gaps -/

theorem splitGap_gap (rest : Text) : splitGap (blank :: blank :: rest) = some ([], rest) := by
  simp [splitGap]

theorem splitGap_cons {c : UInt8} (hc : c ≠ blank) {t front back : Text}
    (h : splitGap t = some (front, back)) : splitGap (c :: t) = some (c :: front, back) := by
  cases t with
  | nil => simp [splitGap] at h
  | cons d t => simp [splitGap, hc, h]

/-- A word in front of a text does not change where it is cut. -/
theorem splitGap_word {word : Text} (hword : blank ∉ word) {t front back : Text}
    (h : splitGap t = some (front, back)) : splitGap (word ++ t) = some (word ++ front, back) := by
  induction word with
  | nil => exact h
  | cons c word ih =>
      rw [List.mem_cons, not_or] at hword
      exact splitGap_cons (Ne.symm hword.1) (ih hword.2)

/-- A single blank does not end a column. -/
theorem splitGap_blank {c : UInt8} (hc : c ≠ blank) {t front back : Text}
    (h : splitGap (c :: t) = some (front, back)) :
    splitGap (blank :: c :: t) = some (blank :: front, back) := by
  rw [splitGap, if_neg (fun hboth => hc hboth.2), h]
  rfl

/-- Bytes in print, each behind a blank, end at the first two blanks behind them. -/
theorem splitGap_pairs (bytes rest : Text) :
    splitGap ((bytes.map fun b => Text.hex 2 b.toNat).flatMap ([blank] ++ ·) ++
        blank :: blank :: rest) =
      some ((bytes.map fun b => Text.hex 2 b.toNat).flatMap ([blank] ++ ·), rest) := by
  induction bytes with
  | nil => exact splitGap_gap rest
  | cons b bytes ih =>
      have hpair := splitGap_word (blank_notMem_hex 2 b.toNat) ih
      have hdigit : (b.toNat / 16).digitChar.toUInt8 ≠ blank := by
        intro heq
        have hnotMem := blank_notMem_hex 2 b.toNat
        simp [hex_byte, heq] at hnotMem
      rw [hex_byte] at hpair
      simpa [hex_byte] using splitGap_blank hdigit hpair

/-- **Bytes in print end at the first two blanks behind them.** -/
theorem splitGap_hexBytes (bytes rest : Text) :
    splitGap (Text.hexBytes (utf8 " ") bytes ++ blank :: blank :: rest) =
      some (Text.hexBytes (utf8 " ") bytes, rest) := by
  have hblank : utf8 " " = [blank] := by decide
  cases bytes with
  | nil => exact splitGap_gap rest
  | cons b bytes =>
      rw [Text.hexBytes, hblank, List.map_cons, Printing.join_cons, List.append_assoc]
      exact splitGap_word (blank_notMem_hex 2 b.toNat) (splitGap_pairs bytes rest)

/-! ### Statements in print -/

/-- A text that can stand behind blanks at the end of a line: it starts with no blank, and holds no
newline. -/
structure Inline (t : Text) : Prop where
  start : ∀ c ∈ t.head?, c ≠ blank
  oneLine : newline ∉ t

theorem inline_token {token : Token} (h : Lexical token) (hkind : token.kind ≠ .newline) :
    token.text ≠ [] ∧ Inline token.text := by
  obtain ⟨c, more, htext, hblank⟩ := not_isBlank_of_spells h.spells
  refine ⟨by simp [htext], ?_, newline_notMem_of_spells h.spells hkind⟩
  rw [htext]
  rintro d ⟨rfl⟩ rfl
  exact absurd hblank (by decide)

theorem Inline.append {first second : Text} (hne : first ≠ []) (hfirst : Inline first)
    (hsecond : newline ∉ second) : Inline (first ++ second) where
  start := by
    rw [List.head?_append_of_ne_nil first hne]
    exact hfirst.start
  oneLine := by
    rw [List.mem_append, not_or]
    exact ⟨hfirst.oneLine, hsecond⟩

/-- The operands of a phrase in print hold no newline. -/
theorem newline_notMem_renderOperands {phrase : Phrase}
    (hlexical : ∀ token ∈ phrase.operandTokens, Lexical token) :
    newline ∉ Statement.renderOperands phrase.operands := by
  have htoken : ∀ token, Lexical token → IsOperand token → newline ∉ token.text := by
    intro token hlex hoperand
    exact (inline_token hlex (by rcases hoperand with h | h <;> simp [h])).2.oneLine
  rw [Printing.renderOperands_eq, List.mem_append, List.mem_flatMap, List.mem_flatMap]
  rintro (⟨token, hmem, hnewline⟩ | ⟨pair, hmem, hnewline⟩)
  · have hfirst := htoken token (hlexical token (by simp_all [Phrase.operandTokens]))
      (phrase.first_kind token (by simpa using hmem))
    rcases List.mem_cons.1 hnewline with heq | hnewline
    · exact absurd heq (by decide)
    · exact hfirst hnewline
  · have hmore := htoken pair.2 (hlexical pair.2 (Printing.operand_mem hmem))
      (phrase.more_kind pair hmem).2
    rcases List.mem_cons.1 hnewline with heq | hnewline
    · exact absurd heq (by decide)
    · rcases List.mem_cons.1 hnewline with heq | hnewline
      · exact absurd heq (by decide)
      · exact hmore hnewline

/-- Labels in print change nothing about what stands behind them. -/
theorem inline_labels {labels : List Token}
    (h : ∀ token ∈ labels, token.text ≠ [] ∧ Inline token.text) {rest : Text}
    (hrest : Inline rest) :
    Inline (labels.flatMap (fun token => token.text ++ [byte ' ']) ++ rest) := by
  induction labels with
  | nil => exact hrest
  | cons token labels ih =>
      rw [List.forall_mem_cons] at h
      obtain ⟨⟨hne, htoken⟩, hlabels⟩ := h
      have hblank : newline ≠ byte ' ' := by decide
      have hmore := (ih hlabels).oneLine
      rw [List.flatMap_cons, List.append_assoc, List.append_assoc]
      refine htoken.append hne ?_
      rw [List.singleton_append, List.mem_cons, not_or]
      exact ⟨hblank, hmore⟩

/-- **The statement of a phrase can stand at the end of a line.** -/
theorem inline_render {phrase : Phrase} (hlexical : ∀ token ∈ phrase.tokens, Lexical token) :
    Inline phrase.statement.render := by
  have hlead : ∀ token ∈ phrase.lead, Lexical token := by
    intro token htoken
    exact hlexical token (by simp [Phrase.tokens, htoken])
  have hargs : ∀ token ∈ phrase.operandTokens, Lexical token := by
    intro token htoken
    exact hlexical token (by simp [Phrase.tokens, htoken])
  have hlabels : ∀ token ∈ phrase.lead.filter fun token => token.kind = .label,
      token.text ≠ [] ∧ Inline token.text := by
    intro token htoken
    obtain ⟨hmem, hkind⟩ := List.mem_filter.1 htoken
    have hlabel : token.kind = .label := by simpa using hkind
    exact inline_token (hlead token hmem) (by simp [hlabel])
  obtain ⟨hne, hhead⟩ := inline_token (hlexical phrase.head (by simp [Phrase.tokens]))
    (by rcases phrase.head_kind with h | h <;> simp [h])
  have hrender : phrase.statement.render =
      (phrase.lead.filter fun token => token.kind = .label).flatMap
          (fun token => token.text ++ [byte ' ']) ++
        (phrase.head.text ++ Statement.renderOperands phrase.operands) := by
    rw [← Printing.renderLabels_eq hlead, ← List.append_assoc]
    rfl
  rw [hrender]
  exact inline_labels hlabels (hhead.append hne (newline_notMem_renderOperands hargs))

theorem inline_of_statements {source : Text} {parsed : List Statement}
    (h : statements source = .ok parsed) : ∀ statement ∈ parsed, Inline statement.render := by
  obtain ⟨phrases, rfl, hlexical⟩ := Printing.exists_phrases h
  intro statement hstatement
  obtain ⟨phrase, hphrase, rfl⟩ := List.mem_map.1 hstatement
  exact inline_render (hlexical phrase hphrase)

/-! ### Lines -/

/-- What the line of an instruction says. -/
def lineOf (binary : Text) (instruction : Instruction) : Line :=
  ⟨instruction.offset, instruction.bytes binary, instruction.statement.render⟩

/-- A statement behind the blanks that fill the column of bytes before it. -/
def padded (bytes text : Text) : Text :=
  List.replicate (12 - (Text.hexBytes (utf8 " ") bytes).length) blank ++ text

/-- The line of an instruction without its end, cut at the first two blanks and the next two. -/
def printed (binary : Text) (instruction : Instruction) : Text :=
  Text.hex 4 instruction.offset ++ blank :: blank ::
    (Text.hexBytes (utf8 " ") (instruction.bytes binary) ++ blank :: blank ::
      padded (instruction.bytes binary) instruction.statement.render)

/-- It is all the same whether a gap stands behind other blanks or before them. -/
theorem replicate_append_gap (count : Nat) (rest : Text) :
    List.replicate count blank ++ blank :: blank :: rest =
      blank :: blank :: (List.replicate count blank ++ rest) := by
  induction count with
  | zero => rfl
  | succ count ih => simp [List.replicate_succ, ih]

theorem listingLine_eq (binary : Text) (instruction : Instruction) :
    Program.listingLine binary instruction = printed binary instruction ++ [newline] := by
  have hgap : utf8 "  " = [blank, blank] := by decide
  have hpad := replicate_append_gap
    (12 - (Text.hexBytes (utf8 " ") (instruction.bytes binary)).length)
    (instruction.statement.render ++ [newline])
  rw [blank] at hgap hpad
  simp only [Program.listingLine, Program.byteColumn, List.rightpad, hgap, printed, padded, blank,
    List.append_assoc, List.cons_append, List.nil_append, hpad]

theorem dropWhile_padded {text : Text} (h : Inline text) (bytes : Text) :
    (padded bytes text).dropWhile (· = blank) = text := by
  refine dropWhile_run ?_ ?_
  · intro c hc
    simp [List.eq_of_mem_replicate hc]
  · intro c hc
    simpa using h.start c hc

/-- **A line is read as it is written.** -/
theorem readLine?_printed (binary : Text) {instruction : Instruction}
    (h : Inline instruction.statement.render) :
    readLine? (printed binary instruction) = some (lineOf binary instruction) := by
  have hoffset := splitGap_word (blank_notMem_hex 4 instruction.offset) (splitGap_gap
    (Text.hexBytes (utf8 " ") (instruction.bytes binary) ++ blank :: blank ::
      padded (instruction.bytes binary) instruction.statement.render))
  have hwidth : (Text.hexBytes (utf8 " ") (instruction.bytes binary)).length +
      ((padded (instruction.bytes binary) instruction.statement.render).length -
        instruction.statement.render.length) =
      max 12 (Text.hexBytes (utf8 " ") (instruction.bytes binary)).length := by
    simp only [padded, List.length_append, List.length_replicate]
    omega
  rw [List.append_nil] at hoffset
  simp only [readLine?, printed, hoffset, Option.bind_eq_bind, Option.bind_some, splitGap_hexBytes,
    dropWhile_padded h, hwidth, if_true, number?_hex, bytes?_hexBytes]
  rfl

theorem newline_notMem_printed (binary : Text) {instruction : Instruction}
    (h : Inline instruction.statement.render) : newline ∉ printed binary instruction := by
  have hblank : newline ≠ blank := by decide
  have hpad : newline ∉ List.replicate
      (12 - (Text.hexBytes (utf8 " ") (instruction.bytes binary)).length) blank := by
    intro hmem
    exact hblank (List.eq_of_mem_replicate hmem)
  simp only [printed, padded, List.mem_append, List.mem_cons, not_or]
  exact ⟨newline_notMem_hex 4 _, hblank, hblank, newline_notMem_hexBytes _, hblank, hblank, hpad,
    h.oneLine⟩

/-! ### Listings -/

/-- The pieces of a listing between its newlines are its lines, and nothing behind the last. -/
theorem splitOn_lines (binary : Text) {instructions : List Instruction}
    (h : ∀ instruction ∈ instructions, Inline instruction.statement.render) :
    (instructions.flatMap (Program.listingLine binary)).splitOn newline =
      instructions.map (printed binary) ++ [[]] := by
  induction instructions with
  | nil => rfl
  | cons instruction rest ih =>
      rw [List.forall_mem_cons] at h
      have hline := List.splitOn_eq_singleton (newline_notMem_printed binary h.1)
      rw [List.flatMap_cons, listingLine_eq, List.append_assoc, List.singleton_append,
        Excerpt.splitOn_append_newline, hline, ih h.2]
      rfl

/-- **A listing is read as it is written**, line by line. -/
theorem read?_listing {program : Program}
    (h : ∀ instruction ∈ program.instructions, Inline instruction.statement.render) :
    read? program.listing = some (program.instructions.map (lineOf program.binary)) := by
  have hread := mapM_map_eq_some fun instruction hinstruction =>
    readLine?_printed program.binary (h instruction hinstruction)
  rw [read?, Program.listing, splitOn_lines program.binary h]
  simp [hread]

/-- The instructions of a program tile its binary. -/
theorem tiles_of_resolve {table : Table} {statements : List Statement} {program : Program}
    (h : Program.resolve table statements = .ok program) :
    Tiling.Tiles 0 program.instructions program.binary.length := by
  have htiles := Tiling.tiles_place (Layout.symbols table statements)
    (Linking.valid_of_resolve h).fits
  obtain rfl := Linking.eq_program_of_resolve h
  rwa [Nat.zero_add] at htiles

/-- **The listing of a source has everything about its instructions.**  The listing of a program
that was assembled from a source has a line for each instruction, in order, and nothing else.  Read
back, each line gives the offset of its instruction, its bytes in the binary, and its statement in
print.  The bytes are as many as the instruction has, and those of all lines, one behind the other,
are the binary. -/
theorem listing_reads_back (assembler : Assembler) (source : Text) (program : Program)
    (h : assembler.program source = .ok program) :
    ∃ lines, read? program.listing = some lines ∧
      lines = program.instructions.map (lineOf program.binary) ∧
      (∀ instruction ∈ program.instructions,
        (lineOf program.binary instruction).bytes.length = instruction.size) ∧
      lines.flatMap Line.bytes = program.binary := by
  obtain ⟨parsed, hparsed, hresolve⟩ := Outcome.bind_eq_ok.1 h
  have htiles := tiles_of_resolve hresolve
  have hinline : ∀ instruction ∈ program.instructions, Inline instruction.statement.render := by
    intro instruction hinstruction
    refine inline_of_statements hparsed _ ?_
    rw [Linking.eq_program_of_resolve hresolve] at hinstruction
    rw [← Joining.map_statement_program assembler.table parsed]
    exact List.mem_map_of_mem hinstruction
  refine ⟨_, read?_listing hinline, rfl, ?_, ?_⟩
  · intro instruction hinstruction
    have hbounds := htiles.bounds hinstruction
    simp only [lineOf, Instruction.bytes, List.length_take, List.length_drop]
    omega
  · have hbytes := htiles.flatMap_bytes program.binary
    rw [Nat.sub_zero, List.drop_zero, List.take_length] at hbytes
    rw [List.flatMap_map]
    exact hbytes

/-- A jump. -/
def jump : Opcode := ⟨utf8 "JMP", 0x40, [.label]⟩

/-- Five bytes, a directive without bytes behind a label, and a jump to it. -/
def mixed : Text := utf8 ".byte 1, 2,3,4, 0xFF // five\nhere: .org 5\n\n\tJMP here"

/-- The lines of the listing of `mixed`. -/
def mixedLines : List Line :=
  [⟨0, [1, 2, 3, 4, 255], utf8 ".byte 1, 2, 3, 4, 0xFF"⟩, ⟨5, [], utf8 "here: .org 5"⟩,
    ⟨5, [0x40, 0, 5], utf8 "JMP here"⟩]

theorem mixed_reads_back :
    ∃ program, Assembler.program { table := ⟨[jump]⟩ } mixed = .ok program ∧
      read? program.listing = some mixedLines ∧ mixedLines.flatMap Line.bytes = program.binary := by
  have hlines : (Assembler.program { table := ⟨[jump]⟩ } mixed).toOption.map
      (fun program => program.instructions.map (lineOf program.binary)) = some mixedLines := by
    decide +kernel
  obtain ⟨program, hprogram, hmixed⟩ := Option.map_eq_some_iff.1 hlines
  rw [Outcome.toOption_eq_some] at hprogram
  obtain ⟨lines, hread, rfl, -, hbytes⟩ := listing_reads_back _ _ _ hprogram
  rw [hmixed] at hread hbytes
  exact ⟨program, hprogram, hread, hbytes⟩

end Listing

end TableAssembler
