/-
**Backpatching is a second pass.**

Once every statement is encoded, the resolver writes the offsets of the labels over the zeros it
left for them.  A fixup addresses the field of a label operand, whatever stands before and after
the field, so that patching the fixups of a statement turns its encoding without labels into the
one with labels (`Linking.patch_statement`); by induction the same holds of a list of statements
(`Linking.patch_place`).  With `Proofs/Program/Encoding.lean` it follows that the resolver computes
the two-pass layout of `Proofs/Program/Layout.lean`, and refuses exactly what breaks its rules.

Main definitions:

* `Linking.Links` — a name that can be linked: the offset of its label fits into two bytes;
* `Linking.patchAll` — the binary with the fixups of a list patched.

Main results:

* `Linking.link_eq_ok_iff` — linking succeeds exactly when the name of every fixup can be linked;
* `Linking.valid_of_resolve`, `Linking.resolve_of_valid` — the two directions;
* `Linking.resolve_two_pass` — **the resolver is the two-pass layout**.
-/

import TableAssembler.Proofs.Opcode.Table
import TableAssembler.Proofs.Program.Encoding

set_option relaxedAutoImplicit false
set_option autoImplicit false

namespace TableAssembler

namespace Linking

open Layout Encoding
open Text (utf8)

/-! ### Patching -/

/-- A name can be linked: it has a label, whose offset fits into two bytes. -/
def Links (symbols : List Symbol) (name : Text) : Prop :=
  ∃ symbol, (symbols.find? fun symbol => symbol.name = name) = some symbol ∧
    symbol.offset ≤ 0xFFFF

/-- The binary with one fixup patched. -/
def patchOne (symbols : List Symbol) (binary : Text) (fixup : Fixup) : Text :=
  let value := offsetOf symbols fixup.operand.text
  (binary.set fixup.offset (UInt8.ofNat (value / 256))).set (fixup.offset + 1) (UInt8.ofNat value)

/-- The binary with the fixups of a list patched, in order. -/
def patchAll (symbols : List Symbol) (binary : Text) (fixups : List Fixup) : Text :=
  fixups.foldl (patchOne symbols) binary

theorem patchAll_append (symbols : List Symbol) (binary : Text) (first second : List Fixup) :
    patchAll symbols binary (first ++ second) =
      patchAll symbols (patchAll symbols binary first) second := List.foldl_append

/-- One fixup is patched exactly when its name can be linked. -/
theorem linkOne_eq_ok_iff {symbols : Array Symbol} {binary after : Array UInt8} {fixup : Fixup} :
    Resolver.linkOne symbols binary fixup = .ok after ↔
      Links symbols.toList fixup.operand.text ∧
        after.toList = patchOne symbols.toList binary.toList fixup := by
  unfold Resolver.linkOne Links patchOne offsetOf
  rw [← Array.find?_toList]
  cases hfind : symbols.toList.find? fun symbol => symbol.name = fixup.operand.text with
  | none => simp
  | some symbol =>
      by_cases hlimit : OperandKind.label.limit < symbol.offset
      · have hnot : ¬symbol.offset ≤ 0xFFFF := by
          simpa [OperandKind.limit] using hlimit
        simp [hlimit, hnot]
      · have hle : symbol.offset ≤ 0xFFFF := by
          simpa [OperandKind.limit] using hlimit
        simp only [hlimit, if_false, Except.ok.injEq, Option.some.injEq, exists_eq_left', hle,
          true_and, Option.map_some, Option.getD_some, ← Array.toList_inj, Resolver.patch,
          Array.toList_setIfInBounds]
        exact eq_comm

/-- Fixups are patched exactly when the names of all of them can be linked. -/
theorem foldlM_linkOne_eq_ok_iff {symbols : Array Symbol} {fixups : List Fixup}
    {binary after : Array UInt8} :
    fixups.foldlM (Resolver.linkOne symbols) binary = .ok after ↔
      (∀ fixup ∈ fixups, Links symbols.toList fixup.operand.text) ∧
        after.toList = patchAll symbols.toList binary.toList fixups := by
  induction fixups generalizing binary with
  | nil => simp [patchAll, pure, Except.pure, eq_comm]
  | cons fixup fixups ih =>
      rw [List.foldlM_cons, Outcome.bind_eq_ok, List.forall_mem_cons]
      constructor
      · rintro ⟨middle, hfirst, hrest⟩
        obtain ⟨hlink, hmiddle⟩ := linkOne_eq_ok_iff.1 hfirst
        obtain ⟨hlinks, hafter⟩ := ih.1 hrest
        rw [hmiddle] at hafter
        exact ⟨⟨hlink, hlinks⟩, hafter⟩
      · rintro ⟨⟨hlink, hlinks⟩, hafter⟩
        refine ⟨(patchOne symbols.toList binary.toList fixup).toArray,
          linkOne_eq_ok_iff.2 ⟨hlink, rfl⟩, ih.2 ⟨hlinks, ?_⟩⟩
        exact hafter

/-- **Linking succeeds exactly when the name of every fixup can be linked.** -/
theorem link_eq_ok_iff {resolver after : Resolver} :
    resolver.link = .ok after ↔
      (∀ fixup ∈ resolver.fixups.toList, Links resolver.symbols.toList fixup.operand.text) ∧
        after = { resolver with
          binary := (patchAll resolver.symbols.toList resolver.binary.toList
            resolver.fixups.toList).toArray } := by
  rw [Resolver.link, Outcome.map_eq_ok, ← Array.foldlM_toList]
  constructor
  · rintro ⟨binary, hfold, rfl⟩
    obtain ⟨hlinks, hbinary⟩ := foldlM_linkOne_eq_ok_iff.1 hfold
    refine ⟨hlinks, ?_⟩
    rw [← hbinary]
  · rintro ⟨hlinks, rfl⟩
    exact ⟨_, foldlM_linkOne_eq_ok_iff.2 ⟨hlinks, rfl⟩, rfl⟩

/-! ### Patching fields -/

/-- Patching a field of two bytes leaves what stands before and after it alone. -/
theorem patchOne_label (symbols : List Symbol) (before after : Text) (token : Token) :
    patchOne symbols (before ++ fieldBytes [] (.label, token) ++ after) ⟨before.length, token⟩ =
      before ++ fieldBytes symbols (.label, token) ++ after := by
  simp [patchOne, fieldBytes, fieldValue, OperandKind.width, ofNat_mod]

/-- Only the field of a label depends on the labels. -/
theorem fieldBytes_of_ne_label (symbols : List Symbol) {field : OperandKind × Token}
    (h : field.1 ≠ .label) : fieldBytes symbols field = fieldBytes [] field := by
  simp only [fieldBytes, fieldValue, h, if_false]

/-- Patching the fixups of some fields fills in their labels. -/
theorem patch_fields (symbols : List Symbol) (fields : List (OperandKind × Token))
    (before after : Text) :
    patchAll symbols (before ++ fields.flatMap (fieldBytes []) ++ after)
        (fieldFixups before.length fields) =
      before ++ fields.flatMap (fieldBytes symbols) ++ after := by
  -- induction on the fields: what is already patched joins the text before the rest
  induction fields generalizing before with
  | nil => simp [fieldFixups, patchAll]
  | cons field fields ih =>
      have hrest := ih (before ++ fieldBytes symbols field)
      rw [List.length_append, length_fieldBytes] at hrest
      have hhead : patchAll symbols
          (before ++ (field :: fields).flatMap (fieldBytes []) ++ after)
          (if field.1 = .label then [⟨before.length, field.2⟩] else []) =
          before ++ fieldBytes symbols field ++ fields.flatMap (fieldBytes []) ++ after := by
        by_cases hlabel : field.1 = .label
        · obtain ⟨kind, token⟩ := field
          obtain rfl : kind = .label := hlabel
          have := patchOne_label symbols before (fields.flatMap (fieldBytes []) ++ after) token
          simpa [patchAll] using this
        · simp [patchAll, hlabel, fieldBytes_of_ne_label symbols hlabel]
      rw [fieldFixups, patchAll_append, hhead, hrest]
      simp

/-- **Patching the fixups of a statement fills in its labels.** -/
theorem patch_statement (table : Table) (symbols : List Symbol) (statement : Statement)
    (before after : Text) :
    patchAll symbols (before ++ bytes table [] before.length statement ++ after)
        (fixupsAt table before.length statement) =
      before ++ bytes table symbols before.length statement ++ after := by
  cases plain : statement.directive with
  | true => simp [bytes, fixupsAt, patchAll, plain]
  | false =>
      simp only [bytes, fixupsAt, plain, if_true, instructionBytes]
      cases found : table.lookup? statement.mnemonic with
      | none => simp [fields, found, fieldFixups, patchAll]
      | some opcode =>
          have := patch_fields symbols (fields table statement) (before ++ [opcode.binary]) after
          simpa using this

/-- **Patching the fixups of a list of statements fills in their labels.** -/
theorem patch_place {table : Table} (symbols : List Symbol) {statements : List Statement}
    {before : Text}
    (hfits : ∀ placed ∈ place table before.length statements, Fits table placed.1 placed.2) :
    patchAll symbols
        (before ++ (place table before.length statements).flatMap fun placed =>
          bytes table [] placed.1 placed.2)
        ((place table before.length statements).flatMap fun placed =>
          fixupsAt table placed.1 placed.2) =
      before ++ (place table before.length statements).flatMap fun placed =>
        bytes table symbols placed.1 placed.2 := by
  induction statements generalizing before with
  | nil => simp [place, patchAll]
  | cons statement rest ih =>
      rw [place, List.forall_mem_cons] at hfits
      obtain ⟨hhead, hrest⟩ := hfits
      have hlength : (before ++ bytes table symbols before.length statement).length =
          before.length + size table before.length statement := by
        rw [List.length_append, length_bytes hhead]
      have htail := @ih (before ++ bytes table symbols before.length statement)
      rw [hlength] at htail
      rw [place, List.flatMap_cons, List.flatMap_cons, List.flatMap_cons, patchAll_append,
        ← List.append_assoc, patch_statement, htail hrest, List.append_assoc]

/-! ### Linking the encoded statements -/

/-- The fixups of fields belong to their label operands. -/
theorem operand_fieldFixups (offset : Nat) (fields : List (OperandKind × Token)) :
    (fieldFixups offset fields).map Fixup.operand =
      (fields.filter fun field => field.1 = .label).map Prod.snd := by
  induction fields generalizing offset with
  | nil => rfl
  | cons field fields ih =>
      by_cases hlabel : field.1 = .label <;> simp [fieldFixups, hlabel, ih]

/-- The fixups of a statement belong to its label operands. -/
theorem operand_fixupsAt (table : Table) (offset : Nat) (statement : Statement) :
    (fixupsAt table offset statement).map Fixup.operand = references table statement := by
  cases plain : statement.directive with
  | true => simp [fixupsAt, references, plain]
  | false => simp [fixupsAt, references, plain, operand_fieldFixups]

/-- A table without labels makes no fixups. -/
theorem fixupsAt_of_not_usesLabels {table : Table} (h : table.usesLabels = false) (offset : Nat)
    (statement : Statement) : fixupsAt table offset statement = [] := by
  have hnone : references table statement = [] := by
    unfold references fields
    cases found : table.lookup? statement.mnemonic with
    | none => simp
    | some opcode =>
        have hmem : opcode ∈ table.opcodes := List.mem_of_find?_eq_some found
        have hkinds : .label ∉ opcode.operands := by
          simp only [Table.usesLabels, List.any_eq_false, Opcode.usesLabels] at h
          simpa using h opcode hmem
        have hfields : (opcode.operands.zip statement.operands).filter
            (fun field => field.1 = .label) = [] := by
          rw [List.filter_eq_nil_iff]
          intro field hfield
          have hkind : field.1 ∈ opcode.operands := (List.of_mem_zip hfield).1
          rw [decide_eq_true_eq]
          intro heq
          exact hkinds (heq ▸ hkind)
        simp [hfields]
  rw [← operand_fixupsAt table offset, List.map_eq_nil_iff] at hnone
  exact hnone

theorem map_snd_place (table : Table) (offset : Nat) (statements : List Statement) :
    (place table offset statements).map Prod.snd = statements := by
  induction statements generalizing offset with
  | nil => rfl
  | cons statement rest ih => rw [place, List.map_cons, ih]

/-- The names that linking looks up are those of the labels of the statements. -/
theorem map_name_symbols (table : Table) (statements : List Statement) :
    (symbols table statements).map Symbol.name = definedNames statements := by
  have hplace : definedNames ((place table 0 statements).map Prod.snd) =
      (symbols table statements).map Symbol.name := by
    simp [definedNames, symbols, symbolsAt, List.map_flatMap, List.flatMap_map, Function.comp_def]
  rw [← hplace, map_snd_place]

theorem nodup_symbols {table : Table} {statements : List Statement}
    (h : (definedNames statements).Nodup) :
    ((symbols table statements).map Symbol.name).Nodup := by
  rwa [map_name_symbols]

/-- No label of statements stands for an offset in front of the binary. -/
theorem offset_nonneg {table : Table} {statements : List Statement} {symbol : Symbol}
    (h : symbol ∈ symbols table statements) : 0 ≤ symbol.offset := by
  obtain ⟨placed, -, hsymbol⟩ := List.mem_flatMap.1 h
  obtain ⟨label, -, rfl⟩ := List.mem_map.1 hsymbol
  exact Int.natCast_nonneg _

/-- With distinct names, looking a name up finds the only label that has it. -/
theorem find?_eq_some_iff_mem {symbols : List Symbol} (h : (symbols.map Symbol.name).Nodup)
    {name : Text} {symbol : Symbol} :
    (symbols.find? fun other => other.name = name) = some symbol ↔
      symbol ∈ symbols ∧ symbol.name = name :=
  find?_key_eq_some_iff h

/-- Looking up the name of a label gives its offset. -/
theorem offsetOf_of_mem {table : Table} {statements : List Statement}
    (h : (definedNames statements).Nodup) {symbol : Symbol}
    (hmem : symbol ∈ symbols table statements) :
    ↑(offsetOf (symbols table statements) symbol.name) = symbol.offset := by
  rw [offsetOf, (find?_eq_some_iff_mem (nodup_symbols h)).2 ⟨hmem, rfl⟩]
  exact Int.toNat_of_nonneg (offset_nonneg hmem)

theorem links_iff {symbols : List Symbol} (h : (symbols.map Symbol.name).Nodup) {name : Text} :
    Links symbols name ↔ ∃ symbol ∈ symbols, symbol.name = name ∧ symbol.offset ≤ 0xFFFF := by
  simp only [Links, find?_eq_some_iff_mem h, and_assoc]

/-- What the statements of a list make of an empty resolver. -/
def encoded (table : Table) (statements : List Statement) : Resolver :=
  extend table {} (place table 0 statements)

theorem symbols_encoded (table : Table) (statements : List Statement) :
    (encoded table statements).symbols.toList = symbols table statements := by
  simp [encoded, extend, symbols]

/-- There is one fixup for each label operand, in order. -/
theorem map_operand_fixups (table : Table) (statements : List Statement) :
    (encoded table statements).fixups.toList.map Fixup.operand =
      statements.flatMap (references table) := by
  have hfixups : (encoded table statements).fixups.toList.map Fixup.operand =
      ((place table 0 statements).map Prod.snd).flatMap (references table) := by
    simp [encoded, extend, List.map_flatMap, List.flatMap_map, operand_fixupsAt]
  rw [hfixups, map_snd_place]

theorem mem_fixups_encoded {table : Table} {statements : List Statement} {token : Token} :
    (∃ fixup ∈ (encoded table statements).fixups.toList, fixup.operand = token) ↔
      ∃ statement ∈ statements, token ∈ references table statement := by
  rw [← List.mem_map, map_operand_fixups, List.mem_flatMap]

/-- The names of all fixups can be linked exactly when every label operand names a label in
reach. -/
theorem links_encoded_iff {table : Table} {statements : List Statement}
    (distinct : (definedNames statements).Nodup) :
    (∀ fixup ∈ (encoded table statements).fixups.toList,
        Links (encoded table statements).symbols.toList fixup.operand.text) ↔
      ∀ statement ∈ statements, ∀ token ∈ references table statement,
        ∃ symbol ∈ symbols table statements, symbol.name = token.text ∧ symbol.offset ≤ 0xFFFF := by
  simp only [symbols_encoded, links_iff (nodup_symbols distinct)]
  constructor
  · intro h statement hstatement token htoken
    obtain ⟨fixup, hfixup, rfl⟩ := mem_fixups_encoded.2 ⟨statement, hstatement, htoken⟩
    exact h fixup hfixup
  · intro h fixup hfixup
    obtain ⟨statement, hstatement, htoken⟩ := mem_fixups_encoded.1 ⟨fixup, hfixup, rfl⟩
    exact h statement hstatement _ htoken

/-- Linking the encoded statements gives the program of the layout. -/
theorem program_encoded {table : Table} {statements : List Statement}
    (hfits : ∀ placed ∈ place table 0 statements, Fits table placed.1 placed.2) :
    Resolver.program { encoded table statements with
      binary := (patchAll (encoded table statements).symbols.toList
        (encoded table statements).binary.toList
        (encoded table statements).fixups.toList).toArray } = Layout.program table statements := by
  have hpatch := @patch_place table (symbols table statements) statements [] hfits
  simp only [List.nil_append, List.length_nil] at hpatch
  rw [symbols_encoded]
  simp only [Resolver.program, Layout.program, symbols_encoded, ← hpatch]
  simp [encoded, extend]

theorem link_of_no_fixups {resolver : Resolver} (h : resolver.fixups = #[]) :
    resolver.link = .ok resolver := by
  obtain ⟨binary, instructions, symbols, fixups⟩ := resolver
  obtain rfl : fixups = #[] := h
  exact link_eq_ok_iff.2 ⟨by simp, by simp [patchAll]⟩

/-- A table without labels makes nothing to link, so that linking may as well always be done. -/
theorem resolve_eq_link (table : Table) (statements : List Statement) :
    Program.resolve table statements =
      statements.foldlM (Resolver.statement table) {} >>= fun resolver =>
        resolver.link.map Resolver.program := by
  unfold Program.resolve
  cases hrun : statements.foldlM (Resolver.statement table) {} with
  | error error => rfl
  | ok resolver =>
      cases huses : table.usesLabels with
      | true => simp [bind, Except.bind]
      | false =>
          obtain ⟨-, -, rfl⟩ := run_eq_ok_iff.1 hrun
          have hempty : (encoded table statements).fixups = #[] := by
            simp [encoded, extend, fixupsAt_of_not_usesLabels huses]
          have hlink : (encoded table statements).link = .ok (encoded table statements) :=
            link_of_no_fixups hempty
          simp [bind, Except.bind, encoded, Resolver.offset] at hlink ⊢
          rw [hlink]
          rfl

/-! ### The two passes -/

/-- The statements of a list that keeps the rules are encoded. -/
theorem run_of_valid {table : Table} {statements : List Statement}
    (h : Valid table statements) :
    statements.foldlM (Resolver.statement table) {} = .ok (encoded table statements) := by
  refine run_eq_ok_iff.2 ⟨h.fits, ⟨h.distinct, ?_⟩, rfl⟩
  simp [labelNames]

/-- **Statements that keep the rules have a program, that of the layout.** -/
theorem resolve_of_valid {table : Table} {statements : List Statement}
    (h : Valid table statements) :
    Program.resolve table statements = .ok (Layout.program table statements) := by
  rw [resolve_eq_link, run_of_valid h]
  refine Outcome.map_eq_ok.2 ⟨_, link_eq_ok_iff.2 ⟨?_, rfl⟩, program_encoded h.fits⟩
  exact (links_encoded_iff h.distinct).2 h.linked

/-- **Statements that have a program keep the rules.** -/
theorem valid_of_resolve {table : Table} {statements : List Statement} {program : Program}
    (h : Program.resolve table statements = .ok program) : Valid table statements := by
  rw [resolve_eq_link] at h
  obtain ⟨resolver, hrun, hlink⟩ := Outcome.bind_eq_ok.1 h
  obtain ⟨hfits, ⟨hdistinct, -⟩, rfl⟩ := run_eq_ok_iff.1 hrun
  obtain ⟨after, hafter, -⟩ := Outcome.map_eq_ok.1 hlink
  obtain ⟨hlinks, -⟩ := link_eq_ok_iff.1 hafter
  exact ⟨hfits, hdistinct, (links_encoded_iff hdistinct).1 hlinks⟩

/-- The program of a list of statements is that of the layout. -/
theorem eq_program_of_resolve {table : Table} {statements : List Statement} {program : Program}
    (h : Program.resolve table statements = .ok program) :
    program = Layout.program table statements :=
  Except.ok.inj (h.symm.trans (resolve_of_valid (valid_of_resolve h)))

/-- With distinct names, a program knows exactly the offsets that its labels stand for. -/
theorem offset?_program_iff {table : Table} {statements : List Statement}
    (h : (definedNames statements).Nodup) {name : Text} {offset : Int} :
    (Layout.program table statements).offset? name = some offset ↔
      ∃ placed ∈ place table 0 statements, ∃ label ∈ placed.2.labels,
        label.name = name ∧ labelOffset placed.1 placed.2 = offset := by
  rw [Program.offset?, Option.map_eq_some_iff]
  simp only [Layout.program, find?_eq_some_iff_mem (nodup_symbols h)]
  constructor
  · rintro ⟨symbol, ⟨hmem, rfl⟩, rfl⟩
    obtain ⟨placed, hplaced, hsymbol⟩ := List.mem_flatMap.1 hmem
    obtain ⟨label, hlabel, rfl⟩ := List.mem_map.1 hsymbol
    exact ⟨placed, hplaced, label, hlabel, rfl, rfl⟩
  · rintro ⟨placed, hplaced, label, hlabel, rfl, rfl⟩
    refine ⟨⟨label.name, labelOffset placed.1 placed.2, label.span⟩, ⟨?_, rfl⟩, rfl⟩
    exact List.mem_flatMap.2 ⟨placed, hplaced, List.mem_map_of_mem hlabel⟩

/-- **Backpatching is a direct assembly in two passes.**  Under any opcode table, a list of
statements has a program exactly when it keeps the rules; the program is then that of the layout,
and its labels stand for the offsets that the layout gives them. -/
theorem resolve_two_pass (table : Table) (statements : List Statement) :
    ((∃ program, Program.resolve table statements = .ok program) ↔ Valid table statements) ∧
      ∀ program, Program.resolve table statements = .ok program →
        program = Layout.program table statements ∧
          ∀ name offset, program.offset? name = some offset ↔
            ∃ placed ∈ place table 0 statements, ∃ label ∈ placed.2.labels,
              label.name = name ∧ labelOffset placed.1 placed.2 = offset := by
  refine ⟨⟨fun ⟨_, h⟩ => valid_of_resolve h, fun h => ⟨_, resolve_of_valid h⟩⟩, ?_⟩
  intro program h
  have hvalid := valid_of_resolve h
  obtain rfl : Layout.program table statements = program :=
    Except.ok.inj ((resolve_of_valid hvalid).symm.trans h)
  exact ⟨rfl, fun _ _ => offset?_program_iff hvalid.distinct⟩

/-- A table with a jump to a label. -/
def jumpTable : Table := ⟨[⟨utf8 "JMP", 0x10, [.label]⟩]⟩

/-- A jump to a label behind it. -/
def jump : Statement where
  labels := [⟨utf8 "start", {}⟩]
  mnemonic := utf8 "JMP"
  operands := [{ kind := .identifier, text := utf8 "end" }]

/-- A label in front of a `.org` directive. -/
def landing : Statement where
  labels := [⟨utf8 "end", {}⟩]
  mnemonic := orgDirective
  directive := true
  operands := [{ kind := .number, text := utf8 "5" }]

/-- The jump, patched with the address of the `.org` directive. -/
def jumpProgram : Program where
  binary := [0x10, 0, 5, 0, 0]
  instructions := [⟨jump, 0, 3⟩, ⟨landing, 3, 2⟩]
  symbols := [⟨utf8 "start", 0, {}⟩, ⟨utf8 "end", 5, {}⟩]

theorem resolve_jump :
    Program.resolve jumpTable [jump, landing] = .ok jumpProgram ∧
      jumpProgram = Layout.program jumpTable [jump, landing] := by
  have h : Program.resolve jumpTable [jump, landing] = .ok jumpProgram := by decide
  exact ⟨h, ((resolve_two_pass jumpTable [jump, landing]).2 _ h).1⟩

end Linking

end TableAssembler
