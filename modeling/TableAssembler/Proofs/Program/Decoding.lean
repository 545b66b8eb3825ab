/-
**The binary of a program can be read back.**

An instruction says by its first byte how many fields follow and how wide they are.  So a binary
without raw bytes and gaps can be swept from its start: read a byte, find the opcode it belongs to,
read its fields, and go on behind them.  If no two opcodes share their byte, the sweep gets to the
end of the binary of a program and finds the mnemonics and the operand values that the program was
made of; hence programs with the same binary differ in spelling only.

Main definitions:

* `Decoding.sweep` — **the sweep** over a binary, `none` where it gets stuck;
* `Decoding.operandValue?` — what an operand stands for in a program;
* `Decoding.Reads`, `Decoding.Agree` — an instruction read off a binary is that of a statement, and
  two statements say the same.

Main results:

* `Decoding.readFields_fields` — the fields of an instruction read back;
* `Decoding.sweep_bytes` — the sweep over the bytes of statements;
* `Decoding.binary_reads_back` — **the binary of a program reads back, so that it determines the
  program**.
-/

import TableAssembler.Proofs.Program.Linking

set_option relaxedAutoImplicit false
set_option autoImplicit false

namespace TableAssembler

namespace Decoding

open Layout Linking
open Text (utf8)

/-! ### The sweep -/

/-- The number that bytes spell, the first of them the most significant. -/
def wordOf (bytes : Text) : Nat := bytes.foldl (fun value byte => value * 256 + byte.toNat) 0

/-- The values of the fields that a binary starts with, one for each kind, and what follows them;
nothing if the binary is too short. -/
def readFields : List OperandKind → Text → Option (List Nat × Text)
  | [], rest => some ([], rest)
  | kind :: kinds, bytes =>
      if bytes.length < kind.width then none
      else
        (readFields kinds (bytes.drop kind.width)).map fun read =>
          (wordOf (bytes.take kind.width) :: read.1, read.2)

theorem length_readFields {kinds : List OperandKind} {bytes rest : Text} {values : List Nat}
    (h : readFields kinds bytes = some (values, rest)) : rest.length ≤ bytes.length := by
  induction kinds generalizing bytes values with
  | nil =>
      cases h
      exact Nat.le_refl _
  | cons kind kinds ih =>
      rw [readFields] at h
      split at h
      · cases h
      · obtain ⟨read, hread, heq⟩ := Option.map_eq_some_iff.1 h
        cases heq
        have htail := ih hread
        rw [List.length_drop] at htail
        omega

/-- An instruction read off a binary. -/
structure Decoded where
  mnemonic : Text
  values : List Nat
  deriving DecidableEq, Repr

/-- **The sweep over a binary**: the instructions that it is made of.  There is no result if a byte
that should be an opcode is none, or if the binary ends within an instruction. -/
def sweep (table : Table) : Text → Option (List Decoded)
  | [] => some []
  | code :: bytes =>
      match table.opcodes.find? fun opcode => opcode.binary = code with
      | none => none
      | some opcode =>
          match h : readFields opcode.operands bytes with
          | none => none
          | some (values, rest) =>
              have := length_readFields h
              (sweep table rest).map (⟨opcode.mnemonic, values⟩ :: ·)
termination_by bytes => bytes.length
decreasing_by
  rw [List.length_cons]
  omega

theorem sweep_instruction {table : Table} {opcode : Opcode} {bytes rest : Text} {values : List Nat}
    (hfind : (table.opcodes.find? fun other => other.binary = opcode.binary) = some opcode)
    (hread : readFields opcode.operands bytes = some (values, rest)) :
    sweep table (opcode.binary :: bytes) =
      (sweep table rest).map (⟨opcode.mnemonic, values⟩ :: ·) := by
  rw [sweep, hfind]
  dsimp only
  split
  next hnone => simp [hread] at hnone
  next found more hsome =>
    rw [hread] at hsome
    cases hsome
    rfl

/-! ### Fields -/

/-- What an operand stands for: the offset of a label, or the value of a number. -/
def operandValue? (program : Program) (token : Token) : Option Int :=
  if token.kind = .identifier then program.offset? token.text
  else token.value.toOption.map Int.ofNat

/-- A field holds its value, if the value is in the range of its kind. -/
theorem wordOf_fieldBytes {symbols : List Symbol} {field : OperandKind × Token}
    (h : fieldValue symbols field ≤ field.1.limit) :
    wordOf (fieldBytes symbols field) = fieldValue symbols field := by
  have hlimit : (field.1.width = 1 ∧ field.1.limit = 0xFF) ∨
      (field.1.width = 2 ∧ field.1.limit = 0xFFFF) := by
    cases field.1 <;> simp [OperandKind.width, OperandKind.limit]
  rcases hlimit with ⟨hwidth, hle⟩ | ⟨hwidth, hle⟩
  · rw [fieldBytes, if_neg (by omega)]
    simp only [wordOf, List.foldl_cons, List.foldl_nil, UInt8.toNat_ofNat']
    omega
  · rw [fieldBytes, if_pos hwidth]
    simp only [wordOf, List.foldl_cons, List.foldl_nil, UInt8.toNat_ofNat']
    omega

/-- The fields of an instruction read back. -/
theorem readFields_fields {symbols : List Symbol} {kinds : List OperandKind} {tokens : List Token}
    (hlength : kinds.length = tokens.length)
    (hbound : ∀ field ∈ kinds.zip tokens, fieldValue symbols field ≤ field.1.limit) (rest : Text) :
    readFields kinds ((kinds.zip tokens).flatMap (fieldBytes symbols) ++ rest) =
      some ((kinds.zip tokens).map (fieldValue symbols), rest) := by
  induction kinds generalizing tokens with
  | nil => rfl
  | cons kind kinds ih =>
      cases tokens with
      | nil => simp at hlength
      | cons token tokens =>
          rw [List.zip_cons_cons, List.forall_mem_cons] at hbound
          have hwidth : (fieldBytes symbols (kind, token)).length = kind.width :=
            length_fieldBytes symbols (kind, token)
          have htail := ih (by simpa using hlength) hbound.2
          rw [List.zip_cons_cons, List.flatMap_cons, List.append_assoc, readFields,
            if_neg (by rw [List.length_append, hwidth]; omega)]
          rw [← hwidth, List.drop_left, List.take_left, htail, wordOf_fieldBytes hbound.1]
          rfl

/-! ### Instructions -/

/-- A statement that keeps the rules and is no directive is an instruction of the table. -/
theorem exists_opcode {table : Table} {offset : Nat} {statement : Statement}
    (h : Fits table offset statement) (plain : statement.directive = false) :
    ∃ opcode, table.lookup? statement.mnemonic = some opcode ∧
      List.Forall₂ FitsKind opcode.operands statement.operands := by
  cases h with
  | instruction opcode _ found operands => exact ⟨opcode, found, operands⟩
  | raw directive _ _ _ => simp [plain] at directive
  | origin _ _ directive _ _ _ _ _ _ => simp [plain] at directive

/-- What is to be read for a statement. -/
def decoded (table : Table) (symbols : List Symbol) (statement : Statement) : Decoded where
  mnemonic := statement.mnemonic
  values := (fields table statement).map (fieldValue symbols)

/-- **The sweep over the bytes of instructions** finds them, if no two opcodes share their byte and
every value is in the range of its kind. -/
theorem sweep_bytes {table : Table} {symbols : List Symbol}
    (hcodes : (table.opcodes.map Opcode.binary).Nodup) {statements : List Statement}
    (hfits : ∀ statement ∈ statements, ∃ opcode, table.lookup? statement.mnemonic = some opcode ∧
      List.Forall₂ FitsKind opcode.operands statement.operands)
    (hbound : ∀ statement ∈ statements, ∀ field ∈ fields table statement,
      fieldValue symbols field ≤ field.1.limit) :
    sweep table (statements.flatMap (instructionBytes table symbols)) =
      some (statements.map (decoded table symbols)) := by
  induction statements with
  | nil => rw [List.flatMap_nil, sweep, List.map_nil]
  | cons statement rest ih =>
      rw [List.forall_mem_cons] at hfits hbound
      obtain ⟨⟨opcode, hfound, hoperands⟩, hfits⟩ := hfits
      -- the opcode that the byte leads to is the one that the mnemonic led to
      have hmnemonic : opcode.mnemonic = statement.mnemonic := by
        simpa using List.find?_some hfound
      have hfind : (table.opcodes.find? fun other => other.binary = opcode.binary) = some opcode :=
        (find?_key_eq_some_iff hcodes).2 ⟨List.mem_of_find?_eq_some hfound, rfl⟩
      have hread := readFields_fields hoperands.length_eq (fields_eq hfound ▸ hbound.1)
        (rest.flatMap (instructionBytes table symbols))
      have hbytes : instructionBytes table symbols statement = opcode.binary ::
          (opcode.operands.zip statement.operands).flatMap (fieldBytes symbols) := by
        simp only [instructionBytes, hfound, fields_eq hfound]
      rw [List.flatMap_cons, hbytes, List.cons_append, sweep_instruction hfind hread,
        ih hfits hbound.2, hmnemonic, List.map_cons, decoded, fields_eq hfound]
      rfl

/-! ### Programs -/

/-- **An instruction read off a binary is that of a statement** of a program: it has its mnemonic
and the values of its operands. -/
structure Reads (program : Program) (statement : Statement) (decoded : Decoded) : Prop where
  mnemonic : decoded.mnemonic = statement.mnemonic
  values : List.Forall₂ (fun token (value : Nat) => operandValue? program token = some ↑value)
    statement.operands decoded.values

/-- Statements of two programs say the same: mnemonics and operand values are equal. -/
structure Agree (program other : Program) (a b : Statement) : Prop where
  mnemonic : a.mnemonic = b.mnemonic
  values : a.operands.map (operandValue? program) = b.operands.map (operandValue? other)

/-- In a program that keeps the rules every field holds what its operand stands for, and that is in
the range of its kind. -/
theorem fieldValue_of_valid {table : Table} {statements : List Statement}
    (hvalid : Valid table statements) {statement : Statement} (hmem : statement ∈ statements)
    (plain : statement.directive = false) {field : OperandKind × Token}
    (hfield : field ∈ fields table statement) (hfits : FitsKind field.1 field.2) :
    operandValue? (Layout.program table statements) field.2 =
        some ↑(fieldValue (symbols table statements) field) ∧
      fieldValue (symbols table statements) field ≤ field.1.limit := by
  by_cases hlabel : field.1 = .label
  · have hreference : field.2 ∈ references table statement := mem_references plain (hlabel ▸ hfield)
    obtain ⟨symbol, hsymbol, hname, hbound⟩ := hvalid.linked statement hmem _ hreference
    -- names are distinct, so the label that is looked up is the one that is in range
    have hfind := (find?_eq_some_iff_mem (nodup_symbols hvalid.distinct)).2 ⟨hsymbol, hname⟩
    rw [FitsKind, if_pos hlabel] at hfits
    have hvalue : ↑(fieldValue (symbols table statements) field) = symbol.offset := by
      rw [fieldValue, if_pos hlabel, ← hname, offsetOf_of_mem hvalid.distinct hsymbol]
    rw [operandValue?, if_pos hfits, Program.offset?, Layout.program, hfind, hvalue]
    exact ⟨rfl, Int.ofNat_le.1 (hvalue ▸ hlabel ▸ hbound)⟩
  · rw [FitsKind, if_neg hlabel] at hfits
    obtain ⟨hkind, value, hok, hbound⟩ := hfits
    have hvalue : fieldValue (symbols table statements) field = value := by
      rw [fieldValue, if_neg hlabel, numberOf, hok]
      rfl
    rw [hvalue, operandValue?, if_neg (by simp [hkind]), hok]
    exact ⟨rfl, hbound⟩

/-- The binary of instructions is made of their bytes alone. -/
theorem binary_of_plain {table : Table} {statements : List Statement}
    (hplain : ∀ statement ∈ statements, statement.directive = false) :
    (Layout.program table statements).binary =
      statements.flatMap (instructionBytes table (symbols table statements)) := by
  have hplace := map_snd_place table 0 statements
  rw [← hplace, List.flatMap_map, hplace, Layout.program]
  refine List.flatMap_congr fun placed hplaced => ?_
  have hmem : placed.2 ∈ statements := hplace ▸ List.mem_map_of_mem hplaced
  exact if_pos (hplain placed.2 hmem)

/-- What is to be read for a statement is its mnemonic and what its operands stand for. -/
theorem reads_decoded {program : Program} {table : Table} {symbols : List Symbol}
    {statement : Statement} {opcode : Opcode}
    (hfound : table.lookup? statement.mnemonic = some opcode)
    (hlength : opcode.operands.length = statement.operands.length)
    (hvalue : ∀ field ∈ fields table statement,
      operandValue? program field.2 = some ↑(fieldValue symbols field)) :
    Reads program statement (decoded table symbols statement) := by
  refine ⟨rfl, ?_⟩
  rw [fields_eq hfound] at hvalue
  have hoperands : statement.operands = (opcode.operands.zip statement.operands).map Prod.snd :=
    (List.map_snd_zip (Nat.le_of_eq hlength.symm)).symm
  change List.Forall₂ _ _ ((fields table statement).map (fieldValue symbols))
  rw [fields_eq hfound, List.forall₂_map_right_iff]
  nth_rewrite 1 [hoperands]
  rw [List.forall₂_map_left_iff, List.forall₂_same]
  exact hvalue

/-- **The binary of instructions reads back.** -/
theorem sweep_program {table : Table} (hcodes : (table.opcodes.map Opcode.binary).Nodup)
    {statements : List Statement} {program : Program}
    (hplain : ∀ statement ∈ statements, statement.directive = false)
    (h : Program.resolve table statements = .ok program) :
    ∃ found, sweep table program.binary = some found ∧
      List.Forall₂ (Reads program) statements found := by
  have hvalid := valid_of_resolve h
  obtain rfl := eq_program_of_resolve h
  have hopcode : ∀ statement ∈ statements, ∃ opcode,
      table.lookup? statement.mnemonic = some opcode ∧
        List.Forall₂ FitsKind opcode.operands statement.operands := by
    intro statement hmem
    rw [← map_snd_place table 0 statements] at hmem
    obtain ⟨placed, hplaced, rfl⟩ := List.mem_map.1 hmem
    refine exists_opcode (hvalid.fits placed hplaced) (hplain placed.2 ?_)
    rwa [map_snd_place] at hmem
  have hfields : ∀ statement ∈ statements, ∀ field ∈ fields table statement,
      operandValue? (Layout.program table statements) field.2 =
          some ↑(fieldValue (symbols table statements) field) ∧
        fieldValue (symbols table statements) field ≤ field.1.limit := by
    intro statement hmem field hfield
    obtain ⟨opcode, hfound, hoperands⟩ := hopcode statement hmem
    refine fieldValue_of_valid hvalid hmem (hplain statement hmem) hfield ?_
    rw [fields_eq hfound] at hfield
    exact (List.forall₂_iff_zip.1 hoperands).2 hfield
  refine ⟨statements.map (decoded table (symbols table statements)), ?_, ?_⟩
  · rw [binary_of_plain hplain]
    exact sweep_bytes hcodes hopcode fun statement hmem field hfield =>
      (hfields statement hmem field hfield).2
  · rw [List.forall₂_map_right_iff, List.forall₂_same]
    intro statement hmem
    obtain ⟨opcode, hfound, hoperands⟩ := hopcode statement hmem
    exact reads_decoded hfound hoperands.length_eq fun field hfield =>
      (hfields statement hmem field hfield).1

theorem Reads.map_operandValue? {program : Program} {statement : Statement} {decoded : Decoded}
    (h : Reads program statement decoded) :
    statement.operands.map (operandValue? program) =
      decoded.values.map fun value : Nat => some (value : Int) := by
  rw [← List.forall₂_eq_eq_eq, List.forall₂_map_left_iff, List.forall₂_map_right_iff]
  exact h.values

/-- Statements for which the same is read say the same. -/
theorem agree_of_reads {program other : Program} {statements others : List Statement}
    {found : List Decoded} (h : List.Forall₂ (Reads program) statements found)
    (hother : List.Forall₂ (Reads other) others found) :
    List.Forall₂ (Agree program other) statements others := by
  induction h generalizing others with
  | nil =>
      cases hother
      exact .nil
  | cons hread _ ih =>
      cases hother with
      | cons hread' hrest =>
          refine .cons ⟨hread.mnemonic.symm.trans hread'.mnemonic, ?_⟩ (ih hrest)
          rw [hread.map_operandValue?, hread'.map_operandValue?]

/-- **The binary of a program determines the program.**  Under a table in which no two opcodes share
their byte, the sweep over the binary of a program without directives ends with the binary, and it
finds the statements of the program in order, each by its mnemonic and the values of its operands.
So two such programs with the same binary have the same mnemonics and operand values. -/
theorem binary_reads_back (table : Table) (hcodes : (table.opcodes.map Opcode.binary).Nodup)
    (statements : List Statement) (program : Program)
    (hplain : ∀ statement ∈ statements, statement.directive = false)
    (h : Program.resolve table statements = .ok program) :
    (∃ found, sweep table program.binary = some found ∧
      List.Forall₂ (Reads program) statements found) ∧
      ∀ others other, (∀ statement ∈ others, statement.directive = false) →
        Program.resolve table others = .ok other → other.binary = program.binary →
          List.Forall₂ (Agree program other) statements others := by
  obtain ⟨found, hsweep, hreads⟩ := sweep_program hcodes hplain h
  refine ⟨⟨found, hsweep, hreads⟩, fun others other hplain' hother hbinary => ?_⟩
  obtain ⟨found', hsweep', hreads'⟩ := sweep_program hcodes hplain' hother
  obtain rfl : found' = found := by
    rw [hbinary, hsweep] at hsweep'
    exact (Option.some.inj hsweep').symm
  exact agree_of_reads hreads hreads'

/-- A table with fields of one byte and of two. -/
def moveTable : Table :=
  ⟨[⟨utf8 "JMP", 0x10, [.label]⟩, ⟨utf8 "MOV", 0x20, [.register, .address]⟩]⟩

/-- A move, and a jump back to it. -/
def moves (name number : Text) : List Statement :=
  [{ labels := [⟨name, {}⟩]
     mnemonic := utf8 "MOV"
     operands := [⟨.number, utf8 "1", {}, 0⟩, ⟨.number, number, {}, 0⟩] },
   { mnemonic := utf8 "JMP", operands := [⟨.identifier, name, {}, 0⟩] }]

/-- Two spellings of a program have the same binary, and it reads back as either. -/
theorem moves_read_back :
    let first := moves (utf8 "again") (utf8 "0x1234")
    let second := moves (utf8 "back") (utf8 "4660")
    (moveTable.opcodes.map Opcode.binary).Nodup ∧
      (Layout.program moveTable first).binary = [0x20, 1, 0x12, 0x34, 0x10, 0, 0] ∧
        (∃ found, sweep moveTable (Layout.program moveTable first).binary = some found ∧
          List.Forall₂ (Reads (Layout.program moveTable first)) first found) ∧
          List.Forall₂
            (Agree (Layout.program moveTable first) (Layout.program moveTable second))
            first second := by
  intro first second
  have hcodes : (moveTable.opcodes.map Opcode.binary).Nodup := by decide
  have hfirst : Program.resolve moveTable first = .ok (Layout.program moveTable first) := by decide
  have hsecond : Program.resolve moveTable second = .ok (Layout.program moveTable second) := by
    decide
  have hback := binary_reads_back moveTable hcodes first _ (by decide) hfirst
  exact ⟨hcodes, by decide, hback.1, hback.2 second _ (by decide) hsecond (by decide)⟩

end Decoding

end TableAssembler
