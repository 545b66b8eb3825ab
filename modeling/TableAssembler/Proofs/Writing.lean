/-
**Writing an instruction down.**

An instruction without labels is its mnemonic and its numbers, each in any writing.  On the level of
tokens it is a phrase that stands alone (`Writing.phrase`), and the text is cut into just the tokens
of this phrase.  What the resolver makes of it is decided by the first number that its place in the
instruction cannot hold: if there is one the instruction is refused for it, and if there is none the
numbers are written behind the opcode.

Main definitions:

* `Writing.source` — **an instruction in writing**;
* `Writing.bigEndian` — the bytes of a number, by the powers of 256;
* `Writing.Exceeds` — a number that its kind cannot hold.

Main results:

* `Writing.statements_source` — an instruction in writing parses to its statement;
* `Writing.resolve_fitting`, `Writing.resolve_exceeding` — what the resolver makes of it;
* `Writing.binary_source` — **every opcode can be written, and is encoded exactly**.
-/

import TableAssembler.Proofs.Opcode.Config
import TableAssembler.Proofs.Program.Faults
import TableAssembler.Proofs.Statement.Printing
import TableAssembler.Proofs.Token.Literal

set_option relaxedAutoImplicit false
set_option autoImplicit false

namespace TableAssembler

namespace Writing

open Text (byte isName utf8)
open TableAssembler.Lexer TableAssembler.Grammar

/-- **An instruction in writing**: the mnemonic, a blank, and the numbers between commas. -/
def source (mnemonic : Text) (literals : List Literal) : Text :=
  mnemonic ++ utf8 " " ++ Text.join (utf8 ", ") (literals.map Literal.text)

/-- The bytes of a number, that of the highest power of 256 first. -/
def bigEndian (value width : Nat) : Text :=
  (List.range width).reverse.map fun power => UInt8.ofNat (value / 256 ^ power)

/-- A number is too great for an operand of its kind. -/
def Exceeds (field : OperandKind × Literal) : Prop := field.1.limit < field.2.value

instance (field : OperandKind × Literal) : Decidable (Exceeds field) :=
  inferInstanceAs (Decidable (_ < _))

/-! ### The statement of an instruction in writing -/

/-- A number as an operand. -/
def operand (literal : Literal) : Token where
  kind := .number
  text := literal.text
  base := numberBase literal.text

theorem isOperand_operand (literal : Literal) : Parser.IsOperand (operand literal) :=
  .inr ⟨rfl, literal.writes.isMalformed_eq rfl rfl rfl⟩

theorem first_kind (literals : List Literal) :
    ∀ token ∈ literals.head?.map operand, Parser.IsOperand token := by
  intro token htoken
  obtain ⟨literal, -, rfl⟩ := Option.map_eq_some_iff.1 htoken
  exact isOperand_operand literal

theorem more_kind (literals : List Literal) :
    ∀ pair ∈ literals.tail.map fun literal => (Printing.comma, operand literal),
      pair.1.kind = .comma ∧ Parser.IsOperand pair.2 := by
  intro pair hpair
  obtain ⟨literal, -, rfl⟩ := List.mem_map.1 hpair
  exact ⟨rfl, isOperand_operand literal⟩

theorem more_nil (literals : List Literal) (h : literals.head?.map operand = none) :
    literals.tail.map (fun literal => (Printing.comma, operand literal)) = [] := by
  rw [Option.map_eq_none_iff, List.head?_eq_none_iff] at h
  rw [h, List.tail_nil, List.map_nil]

/-- **The phrase of an instruction in writing.** -/
def phrase (mnemonic : Text) (literals : List Literal) : Phrase where
  lead := []
  head := { kind := .mnemonic, text := mnemonic }
  first := literals.head?.map operand
  more := literals.tail.map fun literal => (Printing.comma, operand literal)
  comment := none
  newline := none
  lead_kind := List.forall_mem_nil _
  head_kind := .inl rfl
  first_kind := first_kind literals
  more_kind := more_kind literals
  more_nil := more_nil literals
  comment_kind := Printing.kind_comment
  newline_kind := Printing.kind_newline false

section Phrase

variable (mnemonic : Text) (literals : List Literal)

@[simp] theorem labels_phrase : (phrase mnemonic literals).statement.labels = [] := rfl

@[simp] theorem mnemonic_phrase : (phrase mnemonic literals).statement.mnemonic = mnemonic := rfl

@[simp] theorem directive_phrase : (phrase mnemonic literals).statement.directive = false := rfl

@[simp] theorem operands_phrase :
    (phrase mnemonic literals).statement.operands = literals.map operand := by
  change (phrase mnemonic literals).operands = literals.map operand
  cases literals <;> simp [Phrase.operands, phrase, Function.comp_def]

end Phrase

theorem lexical_phrase {mnemonic : Text} (h : isName mnemonic = true) (literals : List Literal) :
    ∀ token ∈ (phrase mnemonic literals).tokens, Lexical token := by
  have hoperand (literal : Literal) : Lexical (operand literal) := ⟨literal.writes.spells, rfl⟩
  intro token htoken
  simp only [Phrase.tokens, Phrase.operandTokens, phrase, List.nil_append, List.mem_append,
    List.mem_cons, List.mem_flatMap, List.mem_map, Option.mem_toList, Option.map_eq_some_iff,
    Option.toList_none, List.not_mem_nil, or_false] at htoken
  rcases htoken with rfl | ⟨literal, -, rfl⟩ | ⟨_, ⟨literal, -, rfl⟩, rfl | rfl⟩
  · exact ⟨.mnemonic h, rfl⟩
  · exact hoperand literal
  · exact ⟨.comma, rfl⟩
  · exact hoperand literal

/-- An instruction in writing is its statement in print; without numbers a blank remains. -/
theorem source_eq (mnemonic : Text) (literals : List Literal) :
    source mnemonic literals =
      (phrase mnemonic literals).statement.render ++ if literals = [] then utf8 " " else [] := by
  rw [Statement.render, labels_phrase, mnemonic_phrase, operands_phrase]
  cases literals with
  | nil => simp [source, Statement.renderOperands, Text.join]
  | cons literal literals =>
      simp [source, Statement.renderOperands, operand, Function.comp_def]

/-- **An instruction in writing parses to its statement**, spans apart. -/
theorem statements_source {mnemonic : Text} (h : isName mnemonic = true)
    (literals : List Literal) :
    ∃ parsed, statements (source mnemonic literals) = .ok parsed ∧
      List.Forall₂ (Statement.Alike .butSpans) [(phrase mnemonic literals).statement] parsed := by
  have hlexical := lexical_phrase h literals
  -- behind the statement there is a blank at most
  have hrest : ∀ rest : Text, rest = utf8 " " ∨ rest = [] →
      Printing.Stops rest ∧ Scanned false rest [] := by
    rintro rest (rfl | rfl)
    · exact ⟨Printing.stops_cons (by decide) [], .finish (List.forall_mem_singleton.2 (by decide))⟩
    · exact ⟨by simp [Printing.Stops], .finish (by simp)⟩
  obtain ⟨hstops, hblank⟩ :=
    hrest (if literals = [] then utf8 " " else []) (ite_eq_or_eq _ _ _)
  have hscanned := Printing.scanned_statement hlexical hstops hblank
  rw [← source_eq] at hscanned
  have hplain : (Printing.plainAll [phrase mnemonic literals]).flatMap Phrase.tokens =
      (Printing.plain false (phrase mnemonic literals)).tokens := by
    simp [Printing.plainAll]
  refine Printing.statements_of_scanned (List.forall_mem_singleton.2 hlexical) ?_
  rw [hplain]
  simpa using hscanned

/-! ### Its fields -/

theorem limit_lt_valueBound (kind : OperandKind) : kind.limit < valueBound := by
  cases kind <;> simp [OperandKind.limit, valueBound]

theorem value_operand (literal : Literal) :
    (operand literal).value =
      if literal.value < valueBound then .ok literal.value
      else .error ⟨(operand literal).digits, .outOfRange⟩ :=
  literal.writes.value_eq rfl rfl rfl

/-- The values that a number in writing can have as an operand: none that is out of range is within
the limit of a kind. -/
theorem fitsKind_operand_iff {kind : OperandKind} (hkind : kind ≠ .label) (literal : Literal) :
    Layout.FitsKind kind (operand literal) ↔ literal.value ≤ kind.limit := by
  have hlimit := limit_lt_valueBound kind
  rw [Layout.FitsKind, if_neg hkind, Layout.IsNumber, value_operand]
  by_cases hrange : literal.value < valueBound
  · rw [if_pos hrange]
    constructor
    · rintro ⟨-, value, ⟨rfl⟩, hle⟩
      exact hle
    · exact fun hle => ⟨rfl, literal.value, rfl, hle⟩
  · rw [if_neg hrange]
    constructor
    · rintro ⟨-, value, ⟨⟩, -⟩
    · intro hle
      omega

/-- A number that fits is written in the bytes of its kind. -/
theorem fieldBytes_operand (symbols : List Symbol) {kind : OperandKind} (hkind : kind ≠ .label)
    {literal : Literal} (h : literal.value ≤ kind.limit) :
    Layout.fieldBytes symbols (kind, operand literal) = bigEndian literal.value kind.width := by
  have hlimit := limit_lt_valueBound kind
  have hvalue := value_operand literal
  rw [if_pos (by omega)] at hvalue
  have hfield : Layout.fieldValue symbols (kind, operand literal) = literal.value := by
    rw [Layout.fieldValue, if_neg hkind, Encoding.numberOf_eq hvalue]
  unfold Layout.fieldBytes
  rw [hfield]
  rcases Layout.width_eq_one_or_two kind with hwidth | hwidth
  · simp [hwidth, bigEndian, List.range_succ]
  · simp [hwidth, bigEndian, List.range_succ, Encoding.ofNat_mod]

/-- A number that exceeds the limit of its kind is refused as an operand. -/
theorem encodeOperand_exceeding {kind : OperandKind} (hkind : kind ≠ .label) {literal : Literal}
    (h : kind.limit < literal.value) :
    Resolver.encodeOperand kind (operand literal) =
      .error (Resolver.invalidOperand (operand literal) kind) := by
  cases hencode : Resolver.encodeOperand kind (operand literal) with
  | error error => rw [Faults.encodeOperand_error hencode]
  | ok bytes =>
      have hfits := (Encoding.encodeOperand_eq_ok_iff.1 hencode).1
      rw [fitsKind_operand_iff hkind] at hfits
      omega

/-! ### What the resolver makes of it -/

section Resolving

variable {table : Table} {opcode : Opcode} {literals : List Literal}

/-- The fields of an instruction in writing. -/
theorem zip_operands :
    opcode.operands.zip (phrase opcode.mnemonic literals).statement.operands =
      (opcode.operands.zip literals).map (Prod.map id operand) := by
  rw [operands_phrase, List.zip_map_right]

theorem ne_label_of_mem (hlabels : OperandKind.label ∉ opcode.operands)
    {field : OperandKind × Literal} (h : field ∈ opcode.operands.zip literals) :
    field.1 ≠ .label := by
  intro hkind
  exact hlabels (hkind ▸ (List.of_mem_zip h).1)

/-- An instruction whose numbers fit keeps the rules. -/
theorem valid_fitting (hfound : table.lookup? opcode.mnemonic = some opcode)
    (hlabels : OperandKind.label ∉ opcode.operands)
    (hcount : literals.length = opcode.operands.length)
    (hfit : ∀ field ∈ opcode.operands.zip literals, ¬Exceeds field) :
    Layout.Valid table [(phrase opcode.mnemonic literals).statement] where
  fits := by
    refine List.forall_mem_singleton.2 (.instruction opcode rfl hfound ?_)
    rw [List.forall₂_iff_zip]
    refine ⟨by rw [operands_phrase, List.length_map, hcount], fun {kind token} hmem => ?_⟩
    rw [zip_operands] at hmem
    obtain ⟨field, hfield, ⟨rfl⟩⟩ := List.mem_map.1 hmem
    exact (fitsKind_operand_iff (ne_label_of_mem hlabels hfield) field.2).2
      (Nat.not_lt.1 (hfit field hfield))
  distinct := List.nodup_nil
  linked := by
    refine List.forall_mem_singleton.2 fun token htoken => ?_
    rw [Layout.references, if_pos (directive_phrase _ _), Layout.fields_eq hfound,
      zip_operands] at htoken
    obtain ⟨field, hfield, -⟩ := List.mem_map.1 htoken
    obtain ⟨hmem, hkind⟩ := List.mem_filter.1 hfield
    obtain ⟨written, hwritten, rfl⟩ := List.mem_map.1 hmem
    exact absurd (of_decide_eq_true hkind) (ne_label_of_mem hlabels hwritten)

/-- **Numbers that fit** are written behind the opcode. -/
theorem resolve_fitting (hfound : table.lookup? opcode.mnemonic = some opcode)
    (hlabels : OperandKind.label ∉ opcode.operands)
    (hcount : literals.length = opcode.operands.length)
    (hfit : ∀ field ∈ opcode.operands.zip literals, ¬Exceeds field) :
    ∃ program, Program.resolve table [(phrase opcode.mnemonic literals).statement] = .ok program ∧
      program.binary = opcode.binary ::
        (opcode.operands.zip literals).flatMap fun field =>
          bigEndian field.2.value field.1.width := by
  refine ⟨_, Linking.resolve_of_valid (valid_fitting hfound hlabels hcount hfit), ?_⟩
  simp only [Layout.program, Layout.place, List.flatMap_cons, List.flatMap_nil, List.append_nil]
  rw [Layout.bytes, if_pos (directive_phrase _ _), Layout.instructionBytes,
    Layout.fields_eq hfound, zip_operands, List.flatMap_map, mnemonic_phrase, hfound]
  refine congrArg (opcode.binary :: ·) (List.flatMap_congr fun field hfield => ?_)
  exact fieldBytes_operand _ (ne_label_of_mem hlabels hfield)
    (Nat.not_lt.1 (hfit field hfield))

/-- **The first number that does not fit** is what the instruction is refused for. -/
theorem resolve_exceeding (hfound : table.lookup? opcode.mnemonic = some opcode)
    (hlabels : OperandKind.label ∉ opcode.operands)
    (hcount : literals.length = opcode.operands.length)
    {before after : List (OperandKind × Literal)} {kind : OperandKind} {literal : Literal}
    (hzip : opcode.operands.zip literals = before ++ (kind, literal) :: after)
    (hbefore : ∀ field ∈ before, ¬Exceeds field) (h : Exceeds (kind, literal)) :
    Program.resolve table [(phrase opcode.mnemonic literals).statement] =
      .error (Resolver.invalidOperand (operand literal) kind) := by
  have hne : ∀ field ∈ before ++ (kind, literal) :: after, field.1 ≠ .label :=
    fun field hfield => ne_label_of_mem hlabels (hzip ▸ hfield)
  rw [List.forall_mem_append, List.forall_mem_cons] at hne
  have hearlier : ∀ field ∈ before.map (Prod.map id operand), Layout.FitsKind field.1 field.2 := by
    intro field hfield
    obtain ⟨written, hwritten, rfl⟩ := List.mem_map.1 hfield
    exact (fitsKind_operand_iff (hne.1 written hwritten) written.2).2
      (Nat.not_lt.1 (hbefore written hwritten))
  have hfields : opcode.operands.zip (literals.map operand) = before.map (Prod.map id operand) ++
      (kind, operand literal) :: after.map (Prod.map id operand) := by
    rw [List.zip_map_right, hzip]
    simp
  have hencode : Resolver.encodeOperands 1 opcode.operands (literals.map operand) =
      .error (Resolver.invalidOperand (operand literal) kind) := by
    have hfirst := Faults.encodeOperands_first hearlier (encodeOperand_exceeding hne.2.1 h)
      (after.map (Prod.map id operand)) 1
    rwa [← hfields, List.map_fst_zip (by simp [hcount]), List.map_snd_zip (by simp [hcount])]
      at hfirst
  simp [Program.resolve, Resolver.statement, Resolver.instruction, Resolver.define,
    Resolver.offset, hfound, hcount, hencode, bind, Except.bind, pure, Except.pure]

end Resolving

/-! ### From the text to the bytes -/

/-- A source whose statements are known, spans apart, has the outcome of these statements. -/
theorem binary_of_statements {assembler : Assembler} {source : Text}
    {parsed statements' : List Statement} (hparse : statements source = .ok parsed)
    (halike : List.Forall₂ (Statement.Alike .butSpans) statements' parsed) :
    Outcome.Alike (SourceError.Alike .butSpans) (· = ·)
      (Program.emit assembler.table statements') (assembler.binary source) := by
  have hprogram : assembler.program source = Program.resolve assembler.table parsed := by
    rw [Assembler.program, hparse]
    rfl
  rw [Assembler.binary, hprogram]
  exact (Program.resolve_alike Likeness.faithful_butSpans assembler.table halike).map
    fun _ _ h => h.binary

/-- **Every opcode can be written, and is encoded exactly.**  An opcode of a table that takes no
labels is written with one number for each operand, in any writing.  If every number is within the
limit of its kind the instruction assembles to the opcode and the numbers, each in as many bytes as
its kind takes; else it is refused for the first number that is not, which the error names as it is
written, with the kind expected in its place. -/
theorem binary_source (opcodes : List Opcode) (assembler : Assembler)
    (h : Assembler.ofOpcodes opcodes = .ok assembler) (opcode : Opcode) (hopcode : opcode ∈ opcodes)
    (hlabels : OperandKind.label ∉ opcode.operands) (literals : List Literal)
    (hcount : literals.length = opcode.operands.length) :
    match (opcode.operands.zip literals).find? fun field => Exceeds field with
    | none =>
        assembler.binary (source opcode.mnemonic literals) =
          .ok (opcode.binary :: (opcode.operands.zip literals).flatMap fun field =>
            bigEndian field.2.value field.1.width)
    | some (kind, literal) =>
        ∃ span, assembler.binary (source opcode.mnemonic literals) =
          .error (.invalidOperand span literal.text kind) := by
  obtain ⟨hformed, rfl⟩ := Assembler.ofOpcodes_eq_ok_iff.1 h
  have hfound : (⟨opcodes⟩ : Table).lookup? opcode.mnemonic = some opcode :=
    (Table.lookup?_eq_some_iff hformed).2 ⟨hopcode, rfl⟩
  obtain ⟨parsed, hparse, halike⟩ := statements_source (hformed.isName opcode hopcode) literals
  have hbinary := @binary_of_statements { table := ⟨opcodes⟩ } _ _ _ hparse halike
  cases hfind : (opcode.operands.zip literals).find? fun field => Exceeds field with
  | none =>
      have hfit : ∀ field ∈ opcode.operands.zip literals, ¬Exceeds field := by
        simpa using List.find?_eq_none.1 hfind
      obtain ⟨program, hresolve, hbytes⟩ := resolve_fitting hfound hlabels hcount hfit
      have hemit : Program.emit ⟨opcodes⟩ [(phrase opcode.mnemonic literals).statement] =
          .ok program.binary := by
        rw [Program.emit, hresolve, Outcome.map_ok]
      obtain ⟨bytes, hok, rfl⟩ := hbinary.exists_ok hemit
      rw [hok, hbytes]
  | some field =>
      obtain ⟨kind, literal⟩ := field
      obtain ⟨hexceeds, before, after, hzip, hbefore⟩ := List.find?_eq_some_iff_append.1 hfind
      have hresolve := resolve_exceeding hfound hlabels hcount hzip (by simpa using hbefore)
        (of_decide_eq_true hexceeds)
      rw [Program.emit, hresolve, Outcome.map_error] at hbinary
      generalize Assembler.binary _ _ = outcome at hbinary
      cases hbinary with
      | error herror =>
          cases herror with
          | invalidOperand _ htext _ =>
              obtain rfl : literal.text = _ := htext.elim id id
              exact ⟨_, rfl⟩

/-- An opcode with a register and an address. -/
def load : Opcode := ⟨utf8 "LD", 0x20, [.register, .address]⟩

theorem writes_hexadecimal : Literal.Writes (utf8 "0x_fF") 255 := by
  have hdigits : Literal.Digits 16 [byte '_', byte 'f', byte 'F'] [15, 15] :=
    .underscore (.digit (by decide) (by decide) (.digit (by decide) (by decide) .nil))
  exact @Literal.Writes.marked (utf8 "0x") 16 _ _ (by decide) hdigits (by decide)

theorem writes_decimal : Literal.Writes (utf8 "02_58") 258 := by
  have hdigits : Literal.Digits 10 [byte '2', byte '_', byte '5', byte '8'] [2, 5, 8] :=
    .digit (by decide) (by decide) (.underscore
      (.digit (by decide) (by decide) (.digit (by decide) (by decide) .nil)))
  exact .decimal (c := byte '0') (d := 0) (by decide) (by decide) hdigits

/-- The greatest number of one byte. -/
def hexadecimal : Literal := ⟨utf8 "0x_fF", 255, writes_hexadecimal⟩

/-- A number of two bytes. -/
def decimal : Literal := ⟨utf8 "02_58", 258, writes_decimal⟩

/-- A register can be 255 and an address 258, but the register cannot be 258. -/
theorem binary_load :
    Assembler.ofOpcodes [load] = .ok { table := ⟨[load]⟩ } ∧
      Assembler.binary { table := ⟨[load]⟩ } (utf8 "LD 0x_fF, 02_58") =
        .ok [0x20, 0xFF, 0x01, 0x02] ∧
      ∃ span, Assembler.binary { table := ⟨[load]⟩ } (utf8 "LD 02_58, 0x_fF") =
        .error (.invalidOperand span (utf8 "02_58") .register) :=
  ⟨by decide,
    binary_source [load] { table := ⟨[load]⟩ } (by decide) load (by decide) (by decide)
      [hexadecimal, decimal] rfl,
    binary_source [load] { table := ⟨[load]⟩ } (by decide) load (by decide) (by decide)
      [decimal, hexadecimal] rfl⟩

end Writing

end TableAssembler
