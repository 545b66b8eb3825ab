/-
**What the resolver makes of its statements before it links them.**

Each function of the resolver succeeds exactly when the rules of `Proofs/Program/Layout.lean` hold,
and then its result is the one of the layout in which no label is known: an unknown label stands
for zero, and zeros are what the resolver leaves where a label has to come.  The statements of a
list are taken one after the other, so that a single step, `Encoding.statement_eq_ok_iff`, carries
the whole run, `Encoding.run_eq_ok_iff`.

Main definitions:

* `Encoding.fixupsAt` — the fixups that a statement at an offset needs;
* `Encoding.Fresh` — labels that are new and distinct;
* `Encoding.extend` — the resolver with some placed statements added.

Main results:

* `Encoding.number_eq_ok_iff`, `Encoding.encodeOperands_eq_ok_iff`,
  `Encoding.encodeBytes_eq_ok_iff`, `Encoding.define_eq_ok_iff` — the parts of a statement;
* `Encoding.statement_eq_ok_iff` — **one statement** is accepted exactly when it keeps the rules at
  the end of the binary and its labels are new;
* `Encoding.run_eq_ok_iff` — **a list of statements**, by induction.
-/

import Mathlib.Data.List.Nodup
import TableAssembler.Proofs.Outcome
import TableAssembler.Proofs.Program.Layout

set_option relaxedAutoImplicit false
set_option autoImplicit false

namespace TableAssembler

namespace Encoding

open Layout

/-! ### Operands -/

/-- An operand has a number exactly when it is a literal whose value its kind can hold. -/
theorem number_eq_ok_iff {token : Token} {kind : OperandKind} {value : Nat} :
    Resolver.number token kind = .ok value ↔
      token.kind = .number ∧ token.value = .ok value ∧ value ≤ kind.limit := by
  unfold Resolver.number
  by_cases hkind : token.kind = .number
  · cases hvalue : token.value with
    | error error => simp [hkind]
    | ok found =>
        by_cases hlimit : kind.limit < found
        · simp only [hkind, ne_eq, not_true_eq_false, if_false, hlimit, if_true, reduceCtorEq,
            Except.ok.injEq, true_and, false_iff, not_and]
          omega
        · simp only [hkind, ne_eq, not_true_eq_false, if_false, hlimit, Except.ok.injEq, true_and]
          constructor
          · rintro rfl
            exact ⟨rfl, by omega⟩
          · exact fun h => h.1
  · simp [hkind]

theorem numberOf_eq {token : Token} {value : Nat} (h : token.value = .ok value) :
    numberOf token = value := by
  simp [numberOf, h, Except.toOption]

/-- A number operand fits its kind exactly when the resolver reads its number. -/
theorem isNumber_limit_iff {token : Token} {kind : OperandKind} :
    IsNumber kind.limit token ↔ Resolver.number token kind = .ok (numberOf token) := by
  rw [number_eq_ok_iff]
  constructor
  · rintro ⟨hkind, value, hvalue, hle⟩
    rw [numberOf_eq hvalue]
    exact ⟨hkind, hvalue, hle⟩
  · rintro ⟨hkind, hvalue, hle⟩
    exact ⟨hkind, _, hvalue, hle⟩

theorem ofNat_mod (value : Nat) : UInt8.ofNat (value % 256) = UInt8.ofNat value := by
  apply UInt8.toNat_inj.1
  simp

/-- The field of a value, in the number of bytes of its kind. -/
theorem bigEndian_width (kind : OperandKind) (value : Nat) :
    Resolver.bigEndian value kind.width =
      if kind.width = 2 then [UInt8.ofNat (value / 256), UInt8.ofNat (value % 256)]
      else [UInt8.ofNat value] := by
  rcases width_eq_one_or_two kind with h | h <;> simp [h, Resolver.bigEndian, ofNat_mod]

/-- An operand is encoded exactly when it fits; a label is encoded as if it were unknown. -/
theorem encodeOperand_eq_ok_iff {kind : OperandKind} {token : Token} {field : Text} :
    Resolver.encodeOperand kind token = .ok field ↔
      FitsKind kind token ∧ field = fieldBytes [] (kind, token) := by
  by_cases hlabel : kind = .label
  · subst hlabel
    by_cases hident : token.kind = .identifier
    · have hfield : fieldBytes [] (.label, token) =
          Resolver.bigEndian 0 OperandKind.label.width := by
        rw [bigEndian_width]
        rfl
      simp [Resolver.encodeOperand, FitsKind, hident, hfield, eq_comm]
    · simp [Resolver.encodeOperand, FitsKind, hident]
  · have hfield : fieldBytes [] (kind, token) =
        Resolver.bigEndian (numberOf token) kind.width := by
      rw [bigEndian_width]
      simp only [fieldBytes, fieldValue, hlabel, if_false]
    simp only [Resolver.encodeOperand, FitsKind, hlabel, if_false, Outcome.map_eq_ok, hfield,
      isNumber_limit_iff]
    constructor
    · rintro ⟨value, hnumber, rfl⟩
      have hvalue := numberOf_eq (number_eq_ok_iff.1 hnumber).2.1
      rw [hvalue]
      exact ⟨hnumber, rfl⟩
    · rintro ⟨hnumber, rfl⟩
      exact ⟨_, hnumber, rfl⟩

/-- The fixups of fields that start at `offset`. -/
def fieldFixups : Nat → List (OperandKind × Token) → List Fixup
  | _, [] => []
  | offset, field :: rest =>
      (if field.1 = .label then [⟨offset, field.2⟩] else []) ++
        fieldFixups (offset + field.1.width) rest

/-- Operands, one for each kind, are encoded exactly when all of them fit. -/
theorem encodeOperands_eq_ok_iff {kinds : List OperandKind} {tokens : List Token}
    (hlength : tokens.length = kinds.length) {offset : Nat} {result : Text × List Fixup} :
    Resolver.encodeOperands offset kinds tokens = .ok result ↔
      List.Forall₂ FitsKind kinds tokens ∧
        result =
          ((kinds.zip tokens).flatMap (fieldBytes []), fieldFixups offset (kinds.zip tokens)) := by
  induction kinds generalizing tokens offset result with
  | nil =>
      obtain rfl : tokens = [] := by simpa using hlength
      simp [Resolver.encodeOperands, fieldFixups, eq_comm]
  | cons kind kinds ih =>
      cases tokens with
      | nil => simp at hlength
      | cons token tokens =>
          have htail : tokens.length = kinds.length := by simpa using hlength
          simp only [Resolver.encodeOperands, List.forall₂_cons, List.zip_cons_cons,
            List.flatMap_cons, fieldFixups]
          cases hfield : Resolver.encodeOperand kind token with
          | error error =>
              have hnot : ¬FitsKind kind token := fun hfits => by
                have := encodeOperand_eq_ok_iff.2 ⟨hfits, rfl⟩
                rw [hfield] at this
                cases this
              simp [hnot]
          | ok field =>
              obtain ⟨hfits, rfl⟩ := encodeOperand_eq_ok_iff.1 hfield
              simp only [Outcome.map_eq_ok, ih htail, hfits, true_and]
              constructor
              · rintro ⟨_, ⟨hrest, rfl⟩, rfl⟩
                exact ⟨hrest, rfl⟩
              · rintro ⟨hrest, rfl⟩
                exact ⟨_, ⟨hrest, rfl⟩, rfl⟩

/-- The operands of a `.byte` directive are encoded exactly when all are numbers of one byte. -/
theorem encodeBytes_eq_ok_iff {tokens : List Token} {bytes : Text} :
    Resolver.encodeBytes tokens = .ok bytes ↔
      (∀ token ∈ tokens, IsNumber 0xFF token) ∧
        bytes = tokens.map fun token => UInt8.ofNat (numberOf token) := by
  induction tokens generalizing bytes with
  | nil => simp [Resolver.encodeBytes, eq_comm]
  | cons token tokens ih =>
      have hhead : IsNumber 0xFF token ↔ Resolver.number token .immediate = .ok (numberOf token) :=
        @isNumber_limit_iff token .immediate
      rw [List.forall_mem_cons, List.map_cons, hhead, Resolver.encodeBytes]
      cases hnumber : Resolver.number token .immediate with
      | error error => simp
      | ok value =>
          obtain rfl := numberOf_eq (number_eq_ok_iff.1 hnumber).2.1
          simp only [Outcome.map_eq_ok, ih, true_and]
          constructor
          · rintro ⟨_, ⟨hrest, rfl⟩, rfl⟩
            exact ⟨hrest, rfl⟩
          · rintro ⟨hrest, rfl⟩
            exact ⟨_, ⟨hrest, rfl⟩, rfl⟩

/-! ### Labels -/

/-- The names of the labels that a resolver has defined. -/
def labelNames (resolver : Resolver) : List Text := resolver.symbols.toList.map Symbol.name

/-- Names that are distinct and not among those known. -/
def Fresh (known names : List Text) : Prop := names.Nodup ∧ known.Disjoint names

theorem fresh_nil (known : List Text) : Fresh known [] := ⟨List.nodup_nil, by simp⟩

/-- Names are fresh if each part is, once the first part is known. -/
theorem fresh_append {known first second : List Text} :
    Fresh known (first ++ second) ↔ Fresh known first ∧ Fresh (known ++ first) second := by
  simp only [Fresh, List.nodup_append', List.disjoint_append_right, List.disjoint_append_left]
  tauto

theorem fresh_singleton {known : List Text} {name : Text} : Fresh known [name] ↔ name ∉ known := by
  simp [Fresh]

/-- A label is defined exactly when its name is new. -/
theorem defineLabel_eq_ok_iff {resolver after : Resolver} {label : LabelDef} :
    resolver.defineLabel label = .ok after ↔
      label.name ∉ labelNames resolver ∧
        after = { resolver with
          symbols := resolver.symbols ++
            [(⟨label.name, resolver.offset, label.span⟩ : Symbol)] } := by
  unfold Resolver.defineLabel labelNames
  cases hfind : resolver.symbols.find? fun symbol => symbol.name = label.name with
  | some previous =>
      have hmem : label.name ∈ resolver.symbols.toList.map Symbol.name := by
        have hname : previous.name = label.name := by simpa using Array.find?_some hfind
        rw [← hname]
        exact List.mem_map_of_mem (Array.mem_toList_iff.2 (Array.mem_of_find?_eq_some hfind))
      simp [hmem]
  | none =>
      have hnot : label.name ∉ resolver.symbols.toList.map Symbol.name := by
        simp only [Array.find?_eq_none, decide_eq_true_eq] at hfind
        simpa using hfind
      simp only [hnot, not_false_eq_true, true_and, Except.ok.injEq]
      constructor
      · rintro rfl
        simp
      · rintro rfl
        simp

/-- **The labels of a statement are defined exactly when their names are fresh.** -/
theorem define_eq_ok_iff {resolver after : Resolver} {labels : List LabelDef} :
    labels.foldlM Resolver.defineLabel resolver = .ok after ↔
      Fresh (labelNames resolver) (labels.map LabelDef.name) ∧
        after = { resolver with
          symbols := resolver.symbols ++
            labels.map fun label => (⟨label.name, resolver.offset, label.span⟩ : Symbol) } := by
  induction labels generalizing resolver with
  | nil =>
      simp [fresh_nil, pure, Except.pure, eq_comm]
  | cons label labels ih =>
      rw [List.foldlM_cons, Outcome.bind_eq_ok, List.map_cons, ← List.singleton_append,
        fresh_append, fresh_singleton]
      constructor
      · rintro ⟨middle, hfirst, hrest⟩
        obtain ⟨hnew, rfl⟩ := defineLabel_eq_ok_iff.1 hfirst
        obtain ⟨hfresh, rfl⟩ := ih.1 hrest
        refine ⟨⟨hnew, by simpa [labelNames] using hfresh⟩, ?_⟩
        simp [Resolver.offset]
      · rintro ⟨⟨hnew, hfresh⟩, rfl⟩
        refine ⟨_, defineLabel_eq_ok_iff.2 ⟨hnew, rfl⟩, ih.2 ⟨?_, ?_⟩⟩
        · simpa [labelNames] using hfresh
        · simp [Resolver.offset]

/-! ### Statements -/

/-- The fixups of a statement at `offset`: those of its fields, which follow the opcode byte. -/
def fixupsAt (table : Table) (offset : Nat) (statement : Statement) : List Fixup :=
  if statement.directive = false then fieldFixups (offset + 1) (fields table statement) else []

/-- Two lists are appended to an array one after the other. -/
theorem appendList_append {α : Type} (items : Array α) (first second : List α) :
    items ++ (first ++ second) = items ++ first ++ second := Array.ext' (by simp)

theorem size_appendList {α : Type} (items : Array α) (more : List α) :
    (items ++ more).size = items.size + more.length := by
  rw [← Array.length_toList, Array.toList_appendList, List.length_append, Array.length_toList]

/-- **The resolver with some placed statements added**, none of their labels known. -/
def extend (table : Table) (resolver : Resolver) (placed : List (Nat × Statement)) : Resolver where
  binary := resolver.binary ++ placed.flatMap fun item => bytes table [] item.1 item.2
  instructions := resolver.instructions ++
    placed.map fun item => (⟨item.2, item.1, size table item.1 item.2⟩ : Instruction)
  symbols := resolver.symbols ++ placed.flatMap fun item => symbolsAt item.1 item.2
  fixups := resolver.fixups ++ placed.flatMap fun item => fixupsAt table item.1 item.2

theorem extend_nil (table : Table) (resolver : Resolver) : extend table resolver [] = resolver := by
  simp [extend]

theorem extend_cons (table : Table) (resolver : Resolver) (item : Nat × Statement)
    (placed : List (Nat × Statement)) :
    extend table resolver (item :: placed) =
      extend table (extend table resolver [item]) placed := by
  simp [extend, appendList_append]

theorem labelNames_extend (table : Table) (resolver : Resolver) (offset : Nat)
    (statement : Statement) :
    labelNames (extend table resolver [(offset, statement)]) =
      labelNames resolver ++ statement.labels.map LabelDef.name := by
  simp [extend, labelNames, symbolsAt, Function.comp_def]

/-- A statement that keeps the rules moves the end of the binary by its size. -/
theorem offset_extend {table : Table} {resolver : Resolver} {statement : Statement}
    (h : Fits table resolver.offset statement) :
    (extend table resolver [(resolver.offset, statement)]).offset =
      resolver.offset + size table resolver.offset statement := by
  rw [← length_bytes h []]
  simp [extend, Resolver.offset, size_appendList]

/-- Appending the encoding of a statement that keeps the rules, and its labels, extends the
resolver by that statement. -/
theorem extend_singleton {table : Table} {resolver : Resolver} {statement : Statement}
    (h : Fits table resolver.offset statement) :
    extend table resolver [(resolver.offset, statement)] =
      { resolver.emit statement (bytes table [] resolver.offset statement)
          (fixupsAt table resolver.offset statement) with
        symbols := resolver.symbols ++ symbolsAt resolver.offset statement } := by
  simp [extend, Resolver.emit, length_bytes h]

/-- The resolver with the labels of a statement defined at the end of the binary. -/
def withLabels (resolver : Resolver) (statement : Statement) : Resolver :=
  { resolver with
    symbols := resolver.symbols ++ statement.labels.map fun label =>
      (⟨label.name, resolver.offset, label.span⟩ : Symbol) }

@[simp] theorem offset_withLabels (resolver : Resolver) (statement : Statement) :
    (withLabels resolver statement).offset = resolver.offset := rfl

/-- Appending the encoding of an instruction extends the resolver by it. -/
theorem emit_instruction {table : Table} {resolver : Resolver} {statement : Statement}
    {opcode : Opcode} (plain : statement.directive = false)
    (found : table.lookup? statement.mnemonic = some opcode)
    (operands : List.Forall₂ FitsKind opcode.operands statement.operands) :
    (withLabels resolver statement).emit statement
        (opcode.binary :: (opcode.operands.zip statement.operands).flatMap (fieldBytes []))
        (fieldFixups (resolver.offset + 1) (opcode.operands.zip statement.operands)) =
      extend table resolver [(resolver.offset, statement)] := by
  rw [extend_singleton (.instruction opcode plain found operands)]
  simp [withLabels, Resolver.emit, Resolver.offset, bytes, plain, instructionBytes, found,
    fields_eq found, fixupsAt, symbolsAt, labelOffset]

/-- An instruction is accepted exactly when it keeps the rules and its labels are new. -/
theorem instruction_eq_ok_iff {table : Table} {resolver after : Resolver} {statement : Statement}
    (plain : statement.directive = false) :
    resolver.instruction table statement = .ok after ↔
      Fits table resolver.offset statement ∧
        Fresh (labelNames resolver) (statement.labels.map LabelDef.name) ∧
          after = extend table resolver [(resolver.offset, statement)] := by
  unfold Resolver.instruction Resolver.define
  rw [Outcome.bind_eq_ok]
  constructor
  · rintro ⟨defined, hdefine, hencode⟩
    obtain ⟨hfresh, rfl⟩ := define_eq_ok_iff.1 hdefine
    cases found : table.lookup? statement.mnemonic with
    | none => simp [found] at hencode
    | some opcode =>
        by_cases hlength : statement.operands.length = opcode.operands.length
        · simp only [found, ne_eq, hlength, not_true_eq_false, if_false, Outcome.bind_eq_ok,
            Except.ok.injEq] at hencode
          obtain ⟨result, hoperands, rfl⟩ := hencode
          obtain ⟨hfits, rfl⟩ := (encodeOperands_eq_ok_iff hlength).1 hoperands
          exact ⟨.instruction opcode plain found hfits, hfresh, emit_instruction plain found hfits⟩
        · simp [found, hlength] at hencode
  · rintro ⟨h, hfresh, rfl⟩
    refine ⟨withLabels resolver statement, define_eq_ok_iff.2 ⟨hfresh, rfl⟩, ?_⟩
    cases h with
    | instruction opcode _ found hfits =>
        have hlength : statement.operands.length = opcode.operands.length := hfits.length_eq.symm
        simp only [found, ne_eq, hlength, not_true_eq_false, if_false, Outcome.bind_eq_ok,
          Except.ok.injEq]
        exact ⟨_, (encodeOperands_eq_ok_iff hlength).2 ⟨hfits, rfl⟩,
          emit_instruction plain found hfits⟩
    | raw directive => simp [plain] at directive
    | origin _ _ directive => simp [plain] at directive

/-- Appending the encoding of a `.byte` directive extends the resolver by it. -/
theorem emit_raw {table : Table} {resolver : Resolver} {statement : Statement}
    (directive : statement.directive = true) (name : statement.mnemonic = byteDirective)
    (h : Fits table resolver.offset statement) :
    (withLabels resolver statement).emit statement
        (statement.operands.map fun token => UInt8.ofNat (numberOf token)) [] =
      extend table resolver [(resolver.offset, statement)] := by
  have hne : byteDirective ≠ orgDirective := by decide
  rw [extend_singleton h]
  simp [withLabels, Resolver.emit, Resolver.offset, bytes, directive, name, fixupsAt, symbolsAt,
    labelOffset, hne]

/-- A `.byte` directive is accepted exactly when it keeps the rules and its labels are new. -/
theorem byteStatement_eq_ok_iff {table : Table} {resolver after : Resolver} {statement : Statement}
    (directive : statement.directive = true) (name : statement.mnemonic = byteDirective) :
    resolver.byteStatement statement = .ok after ↔
      Fits table resolver.offset statement ∧
        Fresh (labelNames resolver) (statement.labels.map LabelDef.name) ∧
          after = extend table resolver [(resolver.offset, statement)] := by
  unfold Resolver.byteStatement Resolver.define
  rw [Outcome.bind_eq_ok]
  constructor
  · rintro ⟨defined, hdefine, hencode⟩
    obtain ⟨hfresh, rfl⟩ := define_eq_ok_iff.1 hdefine
    by_cases nonempty : statement.operands = []
    · simp [nonempty] at hencode
    · simp only [nonempty, if_false, Outcome.bind_eq_ok, Except.ok.injEq] at hencode
      obtain ⟨_, hoperands, rfl⟩ := hencode
      obtain ⟨numbers, rfl⟩ := encodeBytes_eq_ok_iff.1 hoperands
      have h : Fits table resolver.offset statement := .raw directive name nonempty numbers
      exact ⟨h, hfresh, emit_raw directive name h⟩
  · rintro ⟨h, hfresh, rfl⟩
    refine ⟨withLabels resolver statement, define_eq_ok_iff.2 ⟨hfresh, rfl⟩, ?_⟩
    have hemit := emit_raw directive name h
    cases h with
    | instruction _ plain => simp [directive] at plain
    | raw _ _ nonempty numbers =>
        simp only [nonempty, if_false, Outcome.bind_eq_ok, Except.ok.injEq]
        exact ⟨_, encodeBytes_eq_ok_iff.2 ⟨numbers, rfl⟩, hemit⟩
    | origin _ _ _ name' =>
        rw [name] at name'
        exact absurd name' (by decide)

/-- The resolver filled up with zeros by a `.org` directive. -/
def filled (resolver : Resolver) (statement : Statement) (target : Nat) : Resolver :=
  resolver.emit statement (List.replicate (target - resolver.offset) 0) []

theorem offset_filled {resolver : Resolver} {statement : Statement} {target : Nat}
    (ahead : resolver.offset ≤ target) : (filled resolver statement target).offset = target := by
  have hsize : (filled resolver statement target).offset =
      resolver.offset + (target - resolver.offset) := by
    simp [filled, Resolver.emit, Resolver.offset, size_appendList]
  omega

/-- Filling up to the address of a `.org` directive and defining its labels there extends the
resolver by it. -/
theorem withLabels_filled {table : Table} {resolver : Resolver} {statement : Statement}
    {token : Token} {target : Nat} (directive : statement.directive = true)
    (name : statement.mnemonic = orgDirective) (only : statement.operands = [token])
    (value : token.value = .ok target) (ahead : resolver.offset ≤ target)
    (h : Fits table resolver.offset statement) :
    withLabels (filled resolver statement target) statement =
      extend table resolver [(resolver.offset, statement)] := by
  have hne : orgDirective ≠ byteDirective := by decide
  have haddress : address statement = target := by simp [address, only, numberOf_eq value]
  rw [extend_singleton h, withLabels, offset_filled ahead]
  simp [filled, Resolver.emit, bytes, size, directive, name, fixupsAt, symbolsAt, labelOffset, hne,
    haddress]

/-- A `.org` directive is accepted exactly when it keeps the rules and its labels are new. -/
theorem orgStatement_eq_ok_iff {table : Table} {resolver after : Resolver} {statement : Statement}
    (directive : statement.directive = true) (name : statement.mnemonic = orgDirective) :
    resolver.orgStatement statement = .ok after ↔
      Fits table resolver.offset statement ∧
        Fresh (labelNames resolver) (statement.labels.map LabelDef.name) ∧
          after = extend table resolver [(resolver.offset, statement)] := by
  constructor
  · intro hafter
    unfold Resolver.orgStatement at hafter
    split at hafter
    · rename_i token only
      obtain ⟨target, hnumber, hafter⟩ := Outcome.bind_eq_ok.1 hafter
      obtain ⟨number, value, bounded⟩ := number_eq_ok_iff.1 hnumber
      by_cases hpassed : target < resolver.offset
      · simp [hpassed] at hafter
      · have ahead : resolver.offset ≤ target := by omega
        have h : Fits table resolver.offset statement :=
          .origin token target directive name only number value ahead bounded
        rw [if_neg hpassed] at hafter
        obtain ⟨hfresh, rfl⟩ := define_eq_ok_iff.1 hafter
        exact ⟨h, hfresh, withLabels_filled directive name only value ahead h⟩
    · cases hafter
  · rintro ⟨h, hfresh, rfl⟩
    cases h with
    | instruction _ plain => simp [directive] at plain
    | raw _ name' =>
        rw [name] at name'
        exact absurd name' (by decide)
    | origin token target _ _ only number value ahead bounded =>
        have hnumber : Resolver.number token .address = .ok target :=
          number_eq_ok_iff.2 ⟨number, value, bounded⟩
        have hpassed : ¬target < resolver.offset := by omega
        rw [Resolver.orgStatement, only]
        refine Outcome.bind_eq_ok.2 ⟨target, hnumber, ?_⟩
        rw [if_neg hpassed]
        refine define_eq_ok_iff.2 ⟨hfresh, ?_⟩
        exact (withLabels_filled directive name only value ahead
          (.origin token target directive name only number value ahead bounded)).symm

/-- **One statement** is accepted exactly when it keeps the rules at the end of the binary and its
labels are new; it then extends the resolver. -/
theorem statement_eq_ok_iff {table : Table} {resolver after : Resolver} {statement : Statement} :
    resolver.statement table statement = .ok after ↔
      Fits table resolver.offset statement ∧
        Fresh (labelNames resolver) (statement.labels.map LabelDef.name) ∧
          after = extend table resolver [(resolver.offset, statement)] := by
  unfold Resolver.statement
  cases directive : statement.directive with
  | false => simpa using instruction_eq_ok_iff directive
  | true =>
      by_cases hbyte : statement.mnemonic = byteDirective
      · simpa [hbyte] using byteStatement_eq_ok_iff directive hbyte
      · by_cases horg : statement.mnemonic = orgDirective
        · simp only [Bool.true_eq_false, if_false, if_neg hbyte, if_pos horg]
          exact orgStatement_eq_ok_iff directive horg
        · have hnot : ¬Fits table resolver.offset statement := by
            intro h
            cases h with
            | instruction _ plain => simp [directive] at plain
            | raw _ name => exact hbyte name
            | origin _ _ _ name => exact horg name
          simp [hbyte, horg, hnot]

/-! ### Lists of statements -/

/-- **A list of statements** is accepted exactly when each of them keeps the rules at its offset
and all labels are new. -/
theorem run_eq_ok_iff {table : Table} {statements : List Statement} {resolver after : Resolver} :
    statements.foldlM (Resolver.statement table) resolver = .ok after ↔
      (∀ placed ∈ place table resolver.offset statements, Fits table placed.1 placed.2) ∧
        Fresh (labelNames resolver) (definedNames statements) ∧
          after = extend table resolver (place table resolver.offset statements) := by
  induction statements generalizing resolver with
  | nil => simp [place, definedNames, fresh_nil, extend_nil, pure, Except.pure, eq_comm]
  | cons statement rest ih =>
      rw [List.foldlM_cons, Outcome.bind_eq_ok, place, List.forall_mem_cons, extend_cons,
        definedNames, List.flatMap_cons, fresh_append]
      constructor
      · rintro ⟨middle, hfirst, hrest⟩
        obtain ⟨h, hfresh, rfl⟩ := statement_eq_ok_iff.1 hfirst
        obtain ⟨hfits, hnew, rfl⟩ := ih.1 hrest
        rw [offset_extend h] at hfits ⊢
        rw [labelNames_extend] at hnew
        exact ⟨⟨h, hfits⟩, ⟨hfresh, hnew⟩, rfl⟩
      · rintro ⟨⟨h, hfits⟩, ⟨hfresh, hnew⟩, rfl⟩
        refine ⟨_, statement_eq_ok_iff.2 ⟨h, hfresh, rfl⟩, ih.2 ?_⟩
        rw [offset_extend h, labelNames_extend]
        exact ⟨hfits, hnew, rfl⟩

end Encoding

end TableAssembler
