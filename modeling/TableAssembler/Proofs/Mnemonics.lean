/-
**What a mnemonic is.**

Three parts of the assembler have to agree on it.  A configuration takes an opcode only if its
mnemonic passes a check byte by byte; the scanner makes a mnemonic of a name at the start of a line
that no colon follows; and the parser takes mnemonics and directives for the heads of statements.
They do agree: the check passes names, which are the texts that the scanner reads as a mnemonic and
nothing else, and also the mnemonics of the instructions of all sources.  A directive starts with a
dot, which no name does.

So every opcode of a table can be used (`Mnemonics.exists_program`): a line with a label of the same
name in front takes that label where a label is expected, and zero elsewhere.

Main definitions:

* `Mnemonics.usage` — an instruction that uses an opcode.

Main results:

* `Mnemonics.isName_iff_tokenize` — names are what the scanner reads as one mnemonic;
* `Mnemonics.isName_mnemonic_iff` — the mnemonic of a statement is a name unless it is a directive;
* `Mnemonics.exists_program` — every opcode of a table is used by some source;
* `Mnemonics.isMnemonic_iff` — **what a mnemonic is**.
-/

import TableAssembler.Proofs.Opcode.Config
import TableAssembler.Proofs.Program.Linking
import TableAssembler.Proofs.Statement.Printing

set_option relaxedAutoImplicit false
set_option autoImplicit false

namespace TableAssembler

namespace Mnemonics

open Text (byte isName utf8)
open TableAssembler.Lexer TableAssembler.Grammar

/-! ### The scanner -/

/-- A name alone is scanned as a mnemonic. -/
theorem tokenize_name {name : Text} (h : isName name = true) :
    ∃ last, tokenize name = [.ok (tokenAt {} .mnemonic name), .ok last] ∧
      last.kind = .endOfInput := by
  have hends : Ends .mnemonic [] := by simp [Ends]
  have hscan := @scan_token true {} [] name [] .mnemonic (by simp) (.mnemonic h) hends
    (by simp [Fits])
  rw [List.nil_append, List.append_nil, scan_of_nil _ _ List.dropWhile_nil] at hscan
  exact ⟨_, hscan, rfl⟩

theorem isName_of_spells {text : Text} (h : Spells .mnemonic text) : isName text = true := by
  cases h with
  | mnemonic hname => exact hname

/-- **The names are the texts that the scanner reads as a mnemonic and nothing else.** -/
theorem isName_iff_tokenize {text : Text} :
    isName text = true ↔
      ∃ token last, tokenize text = [.ok token, .ok last] ∧ token.kind = .mnemonic ∧
        token.text = text ∧ last.kind = .endOfInput := by
  constructor
  · intro h
    obtain ⟨last, htokens, hlast⟩ := tokenize_name h
    exact ⟨_, last, htokens, rfl, rfl, hlast⟩
  · rintro ⟨token, last, htokens, hkind, rfl, -⟩
    have hmem : .ok token ∈ tokenize token.text := by
      rw [htokens]
      exact List.mem_cons_self
    have hlexical := lexical_of_mem_scan hmem (by simp [hkind])
    exact isName_of_spells (hkind ▸ hlexical.spells)

/-! ### The parser -/

/-- A directive starts with a dot, and no name does. -/
theorem not_isName_of_directive {text : Text} (h : Spells .directive text) :
    isName text = false := by
  cases h with
  | directive hname => rfl

/-- **The mnemonic of a statement is a name unless the statement is a directive.** -/
theorem isName_mnemonic_iff {source : Text} {parsed : List Statement} {statement : Statement}
    (h : statements source = .ok parsed) (hmem : statement ∈ parsed) :
    isName statement.mnemonic = true ↔ statement.directive = false := by
  obtain ⟨phrases, rfl, hlexical⟩ := Printing.exists_phrases h
  obtain ⟨phrase, hphrase, rfl⟩ := List.mem_map.1 hmem
  have hspells := (hlexical phrase hphrase phrase.head (by simp [Phrase.tokens])).spells
  change isName phrase.head.text = true ↔ decide (phrase.head.kind = .directive) = false
  rcases phrase.head_kind with hkind | hkind
  · rw [hkind] at hspells ⊢
    exact iff_of_true (isName_of_spells hspells) rfl
  · rw [hkind] at hspells ⊢
    simp [not_isName_of_directive hspells]

/-- A name alone parses as an instruction. -/
theorem statements_name {name : Text} (h : isName name = true) :
    ∃ statement, statements name = .ok [statement] ∧ statement.directive = false ∧
      statement.mnemonic = name := by
  obtain ⟨last, htokens, hlast⟩ := tokenize_name h
  refine ⟨Parser.startStatement [] (tokenAt {} .mnemonic name), ?_, rfl, rfl⟩
  rw [statements, htokens, Statement.parse, Statement.parseWith,
    Parser.run_step _ _ _ (by simp [tokenAt])]
  simp only [Parser.step, tokenAt, Parser.run_end _ _ _ hlast]
  rfl

/-! ### The table -/

/-- What is written where an operand of a kind is expected: a label of the given name, or zero. -/
def operandOf (name : Text) (kind : OperandKind) : Token :=
  if kind = .label then { kind := .identifier, text := name }
  else { kind := .number, text := utf8 "0", base := 10 }

theorem isOperand_operandOf (name : Text) (kind : OperandKind) :
    Parser.IsOperand (operandOf name kind) := by
  unfold operandOf
  split
  next => exact .inl rfl
  next => exact .inr ⟨rfl, by decide⟩

theorem lexical_operandOf {name : Text} (h : isName name = true) (kind : OperandKind) :
    Lexical (operandOf name kind) := by
  unfold operandOf
  split
  next => exact ⟨.identifier h, rfl⟩
  next => exact ⟨.number (by decide) (List.forall_mem_nil _), rfl⟩

theorem fitsKind_operandOf (name : Text) (kind : OperandKind) :
    Layout.FitsKind kind (operandOf name kind) := by
  unfold Layout.FitsKind operandOf
  split
  next => rfl
  next => exact ⟨rfl, 0, by decide, Nat.zero_le _⟩

/-- The token that defines a label of the given name. -/
def labelToken (name : Text) : Token := { kind := .label, text := name ++ [byte ':'] }

theorem name_labelToken {name : Text} (h : isName name = true) : (labelToken name).name = name :=
  List.append_cancel_right (@Printing.name_of_label (labelToken name) ⟨.label h, rfl⟩ rfl)

theorem isLead_labelToken (name : Text) : ∀ token ∈ [labelToken name], IsLead token :=
  List.forall_mem_singleton.2 (.inl rfl)

theorem isOperand_map_operandOf (name : Text) (kinds : List OperandKind) :
    ∀ token ∈ kinds.map (operandOf name), Parser.IsOperand token :=
  List.forall_mem_map.2 fun kind _ => isOperand_operandOf name kind

/-- **An instruction that uses an opcode**, behind a label of the same name. -/
def usage (opcode : Opcode) : Phrase :=
  @Printing.line [labelToken opcode.mnemonic] (opcode.operands.map (operandOf opcode.mnemonic))
    { kind := .mnemonic, text := opcode.mnemonic } (isLead_labelToken opcode.mnemonic) (.inl rfl)
    (isOperand_map_operandOf opcode.mnemonic opcode.operands)

section Usage

variable {opcode : Opcode} {table : Table}

@[simp] theorem directive_usage : (usage opcode).statement.directive = false := rfl

@[simp] theorem mnemonic_usage : (usage opcode).statement.mnemonic = opcode.mnemonic := rfl

@[simp] theorem operands_usage :
    (usage opcode).statement.operands = opcode.operands.map (operandOf opcode.mnemonic) := by
  rw [usage, Printing.statement_line]
  rfl

theorem names_usage (h : isName opcode.mnemonic = true) :
    (usage opcode).statement.labels.map LabelDef.name = [opcode.mnemonic] :=
  congrArg (fun name => [name]) (name_labelToken h)

theorem lexical_usage (h : isName opcode.mnemonic = true) :
    ∀ token ∈ (usage opcode).tokens, Lexical token := by
  refine Printing.lexical_line _ _ _ ?_ ⟨.mnemonic h, rfl⟩ ?_
  · exact List.forall_mem_singleton.2 ⟨.label h, rfl⟩
  · exact List.forall_mem_map.2 fun kind _ => lexical_operandOf h kind

/-- The label operands of the instruction name the label in front of it. -/
theorem text_of_mem_references (hfound : table.lookup? opcode.mnemonic = some opcode)
    {token : Token} (h : token ∈ Layout.references table (usage opcode).statement) :
    token.text = opcode.mnemonic := by
  rw [Layout.references, if_pos directive_usage, Layout.fields_eq hfound, operands_usage,
    ← List.map_prod_left_eq_zip] at h
  obtain ⟨field, hfield, rfl⟩ := List.mem_map.1 h
  obtain ⟨hmem, hkind⟩ := List.mem_filter.1 hfield
  obtain ⟨kind, -, rfl⟩ := List.mem_map.1 hmem
  obtain rfl : kind = .label := of_decide_eq_true hkind
  rfl

/-- The instruction keeps the rules. -/
theorem valid_usage (hname : isName opcode.mnemonic = true)
    (hfound : table.lookup? opcode.mnemonic = some opcode) :
    Layout.Valid table [(usage opcode).statement] where
  fits := by
    refine List.forall_mem_singleton.2 (.instruction opcode rfl hfound ?_)
    rw [operands_usage, List.forall₂_map_right_iff, List.forall₂_same]
    exact fun kind _ => fitsKind_operandOf opcode.mnemonic kind
  distinct := by
    rw [Layout.definedNames, List.flatMap_singleton, names_usage hname]
    exact List.nodup_singleton _
  linked := by
    refine List.forall_mem_singleton.2 fun token htoken => ?_
    have hlabel : opcode.mnemonic ∈ (usage opcode).statement.labels.map LabelDef.name := by
      rw [names_usage hname]
      exact List.mem_singleton_self _
    obtain ⟨label, hmem, hlabel⟩ := List.mem_map.1 hlabel
    refine ⟨⟨label.name, 0, label.span⟩, ?_, ?_, Int.natCast_nonneg _⟩
    · refine List.mem_flatMap.2 ⟨_, List.mem_singleton_self _, List.mem_map.2 ⟨label, hmem, ?_⟩⟩
      simp [Layout.labelOffset]
    · rw [text_of_mem_references hfound htoken]
      exact hlabel

theorem head?_binary_usage (hfound : table.lookup? opcode.mnemonic = some opcode) :
    (Layout.program table [(usage opcode).statement]).binary.head? = some opcode.binary := by
  simp only [Layout.program, Layout.place, List.flatMap_cons, List.flatMap_nil, List.append_nil]
  rw [Layout.bytes, if_pos directive_usage, Layout.instructionBytes, mnemonic_usage, hfound]
  rfl

end Usage

/-- **Every opcode of a table is used by some source**, whose program starts with the byte of the
opcode. -/
theorem exists_program {assembler : Assembler} (h : Table.WellFormed assembler.table.opcodes)
    {opcode : Opcode} (hopcode : opcode ∈ assembler.table.opcodes) :
    ∃ source program instruction, assembler.program source = .ok program ∧
      program.instructions = [instruction] ∧ instruction.statement.directive = false ∧
        assembler.table.lookup? instruction.statement.mnemonic = some opcode ∧
          program.binary.head? = some opcode.binary := by
  have hname := h.isName opcode hopcode
  have hfound := (Table.lookup?_eq_some_iff h).2 ⟨hopcode, rfl⟩
  obtain ⟨parsed, hparse, halike⟩ :=
    @Printing.statements_text [usage opcode] (List.forall_mem_singleton.2 (lexical_usage hname))
  rw [List.map_singleton] at hparse halike
  have hresolve := Linking.resolve_of_valid (valid_usage hname hfound)
  obtain ⟨program, hprogram, hlike⟩ := (Program.resolve_alike Likeness.faithful_butSpans
    assembler.table halike).exists_ok hresolve
  obtain ⟨instruction, others, hinstruction, hnone, hinstructions⟩ :=
    List.forall₂_cons_left_iff.1 hlike.instructions
  obtain rfl := List.forall₂_nil_left_iff.1 hnone
  refine ⟨Printing.text [(usage opcode).statement], program, instruction, ?_, hinstructions, ?_, ?_,
    ?_⟩
  · rw [Assembler.program, hparse]
    exact hprogram
  · rw [← hinstruction.statement.directive]
    rfl
  · rw [← hinstruction.statement.mnemonic]
    exact hfound
  · rw [← hlike.binary, head?_binary_usage hfound]

/-- **What a mnemonic is.**  A text is valid as a mnemonic exactly when the scanner reads it as a
mnemonic and nothing else, and exactly when it is the mnemonic of an instruction of some source.  So
every opcode of a table is used by some source, and no directive of any source has an opcode. -/
theorem isMnemonic_iff (text : Text) :
    (Config.isMnemonic text = true ↔
      ∃ token last, tokenize text = [.ok token, .ok last] ∧ token.kind = .mnemonic ∧
        token.text = text ∧ last.kind = .endOfInput) ∧
    (Config.isMnemonic text = true ↔
      ∃ source parsed statement, statements source = .ok parsed ∧ statement ∈ parsed ∧
        statement.directive = false ∧ statement.mnemonic = text) ∧
    ∀ (opcodes : List Opcode) (assembler : Assembler),
      Assembler.ofOpcodes opcodes = .ok assembler →
        (∀ opcode ∈ opcodes, ∃ source program instruction,
          assembler.program source = .ok program ∧ program.instructions = [instruction] ∧
            instruction.statement.directive = false ∧
              assembler.table.lookup? instruction.statement.mnemonic = some opcode ∧
                program.binary.head? = some opcode.binary) ∧
        ∀ source parsed statement, statements source = .ok parsed → statement ∈ parsed →
          statement.directive = true → assembler.table.lookup? statement.mnemonic = none := by
  rw [Config.isMnemonic_eq_isName]
  refine ⟨isName_iff_tokenize, ?_, ?_⟩
  · constructor
    · intro h
      obtain ⟨statement, hparse, hdirective, hmnemonic⟩ := statements_name h
      exact ⟨text, [statement], statement, hparse, List.mem_singleton_self _, hdirective, hmnemonic⟩
    · rintro ⟨source, parsed, statement, hparse, hmem, hdirective, rfl⟩
      exact (isName_mnemonic_iff hparse hmem).2 hdirective
  · intro opcodes assembler h
    obtain ⟨hwell, rfl⟩ := Assembler.ofOpcodes_eq_ok_iff.1 h
    refine ⟨fun opcode hopcode => exists_program hwell hopcode, ?_⟩
    intro source parsed statement hparse hmem hdirective
    rw [Option.eq_none_iff_forall_ne_some]
    intro opcode hfound
    -- the mnemonic of an opcode is a name, that of a directive is none
    obtain ⟨hopcode, hmnemonic⟩ := (Table.lookup?_eq_some_iff hwell).1 hfound
    have hname := hwell.isName opcode hopcode
    rw [hmnemonic, isName_mnemonic_iff hparse hmem, hdirective] at hname
    cases hname

/-- A jump is used by some source, although it takes a label. -/
theorem jump_used :
    Assembler.ofOpcodes Linking.jumpTable.opcodes = .ok { table := Linking.jumpTable } ∧
      ∃ source program instruction,
        Assembler.program { table := Linking.jumpTable } source = .ok program ∧
          program.instructions = [instruction] ∧ instruction.statement.directive = false ∧
            Linking.jumpTable.lookup? instruction.statement.mnemonic =
              some ⟨utf8 "JMP", 0x10, [.label]⟩ ∧ program.binary.head? = some 0x10 := by
  have htable : Assembler.ofOpcodes Linking.jumpTable.opcodes =
      .ok { table := Linking.jumpTable } := by decide
  have hjump : ⟨utf8 "JMP", 0x10, [.label]⟩ ∈ Linking.jumpTable.opcodes :=
    List.mem_singleton_self _
  exact ⟨htable, ((isMnemonic_iff []).2.2 _ _ htable).1 _ hjump⟩

end Mnemonics

end TableAssembler
