/-
**Which error wins.**

A list of statements can break several rules at once, and the resolver reports one of them.  Here
the rules of a statement are listed in the order in which they count, each with the error of
breaking it: an instruction and a `.byte` directive have their labels looked at first, a `.org`
directive its labels last.  The rules of the statements follow one another, and those of the label
operands come behind all of them.  The resolver then reports the first rule of the whole list that
is broken.

An outcome *follows* a list of rules if it fails just as the list says (`Rules.Follows`).  Steps
taken one after the other follow their rules put one behind the other (`Rules.Follows.bind`), so
that each function of the resolver is treated once and the rest is put together from the parts.

Main definitions:

* `Rules.Rule`, `Rules.FirstBroken` — a rule with its error, and **the error of the first rule of a
  list that is broken**;
* `Rules.rules` — the rules of a statement, in their order;
* `Rules.Passes` — every statement of a list keeps its rules;
* `Rules.linkRules` — the rules of the label operands of a list of statements.

Main results:

* `Rules.statement_follows`, `Rules.run_follows` — one statement, and a list of them;
* `Rules.resolve_follows` — the resolver follows the rules of the statements and then those of the
  label operands;
* `Rules.resolve_first_broken` — **which error wins**.
-/

import TableAssembler.Proofs.Program.Faults
import TableAssembler.Proofs.Program.Relocation

set_option relaxedAutoImplicit false
set_option autoImplicit false

namespace TableAssembler

namespace Rules

open Layout Encoding Linking Faults
open Relocation (extent)
open Text (utf8)

/-! ### Rules in order -/

/-- A rule, and the error of breaking it. -/
structure Rule where
  kept : Prop
  error : SourceError

/-- Every rule of a list is kept. -/
def AllKept (rules : List Rule) : Prop := ∀ rule ∈ rules, rule.kept

/-- **The error of the first rule of a list that is broken.** -/
inductive FirstBroken : List Rule → SourceError → Prop
  | here {rule : Rule} (rest : List Rule) (h : ¬rule.kept) : FirstBroken (rule :: rest) rule.error
  | later {rule : Rule} {rest : List Rule} {error : SourceError} (h : rule.kept)
      (hrest : FirstBroken rest error) : FirstBroken (rule :: rest) error

theorem firstBroken_cons_iff {rule : Rule} {rest : List Rule} {error : SourceError} :
    FirstBroken (rule :: rest) error ↔
      (¬rule.kept ∧ error = rule.error) ∨ (rule.kept ∧ FirstBroken rest error) := by
  constructor
  · intro h
    cases h with
    | here _ h => exact .inl ⟨h, rfl⟩
    | later h hrest => exact .inr ⟨h, hrest⟩
  · rintro (⟨h, rfl⟩ | ⟨h, hrest⟩)
    · exact .here rest h
    · exact .later h hrest

/-- Of two lists of rules the second counts only if the first is kept. -/
theorem firstBroken_append {first second : List Rule} {error : SourceError} :
    FirstBroken (first ++ second) error ↔
      FirstBroken first error ∨ (AllKept first ∧ FirstBroken second error) := by
  induction first with
  | nil =>
      constructor
      · intro h
        exact .inr ⟨by simp [AllKept], h⟩
      · rintro (h | ⟨-, h⟩)
        · cases h
        · exact h
  | cons rule first ih =>
      have hall : AllKept (rule :: first) ↔ rule.kept ∧ AllKept first := List.forall_mem_cons
      rw [List.cons_append, firstBroken_cons_iff, firstBroken_cons_iff, ih, hall, and_or_left,
        or_assoc, and_assoc]

theorem FirstBroken.exists_rule {rules : List Rule} {error : SourceError}
    (h : FirstBroken rules error) : ∃ rule ∈ rules, ¬rule.kept ∧ rule.error = error := by
  induction h with
  | here rest h => exact ⟨_, List.mem_cons_self, h, rfl⟩
  | later _ _ ih =>
      obtain ⟨rule, hrule, found⟩ := ih
      exact ⟨rule, List.mem_cons_of_mem _ hrule, found⟩

theorem exists_firstBroken {rules : List Rule} (h : ¬AllKept rules) :
    ∃ error, FirstBroken rules error := by
  induction rules with
  | nil => exact absurd (by simp [AllKept]) h
  | cons rule rules ih =>
      by_cases hrule : rule.kept
      · have hrest : ¬AllKept rules := by
          intro hall
          exact h (List.forall_mem_cons.2 ⟨hrule, hall⟩)
        obtain ⟨error, herror⟩ := ih hrest
        exact ⟨error, .later hrule herror⟩
      · exact ⟨rule.error, .here rules hrule⟩

/-! ### The rules of a statement -/

/-- The place where a name is defined first. -/
def firstDefinition (known : List LabelDef) (name : Text) : Span :=
  ((known.find? fun label => label.name = name).map LabelDef.span).getD {}

/-- **The rules of labels**, in order: the name of each is new. -/
def labelRules : (known labels : List LabelDef) → List Rule
  | _, [] => []
  | known, label :: rest =>
      { kept := label.name ∉ known.map LabelDef.name
        error := .duplicateLabel label.span label.name (firstDefinition known label.name) } ::
          labelRules (known ++ [label]) rest

/-- The rule of an operand: it fits the kind expected in its place. -/
def operandRule (field : OperandKind × Token) : Rule where
  kept := FitsKind field.1 field.2
  error := .invalidOperand field.2.span field.2.text field.1

/-- The rules of an instruction behind its labels: the table has it, its operands are as many as the
table says, and each of them fits. -/
def opcodeRules (table : Table) (statement : Statement) : List Rule :=
  match table.lookup? statement.mnemonic with
  | none =>
      [{ kept := False
         error := .unknownOpcode statement.mnemonicSpan statement.mnemonic }]
  | some opcode =>
      { kept := statement.operands.length = opcode.operands.length
        error := .operandCount statement.mnemonicSpan statement.mnemonic opcode.operands.length
          statement.operands.length false } ::
        (opcode.operands.zip statement.operands).map operandRule

/-- The rules of a `.byte` directive behind its labels: there are operands, and each of them is a
number of one byte. -/
def rawRules (statement : Statement) : List Rule :=
  { kept := statement.operands ≠ []
    error := .operandCount statement.mnemonicSpan statement.mnemonic 1 0 true } ::
    statement.operands.map fun token =>
      { kept := IsNumber 0xFF token
        error := .invalidOperand token.span token.text .immediate }

/-- The rules of the operand of a `.org` directive: it is a number, of two bytes, and not below the
offset. -/
def addressRules (offset : Nat) (token : Token) : List Rule :=
  let error := SourceError.invalidOperand token.span token.text .address
  [⟨token.kind = .number, error⟩, ⟨IsNumber 0xFFFF token, error⟩, ⟨offset ≤ numberOf token, error⟩]

/-- The rules of a `.org` directive in front of its labels: it has one operand, and this is an
address that the offset has not passed. -/
def originRules (offset : Nat) (statement : Statement) : List Rule :=
  { kept := statement.operands.length = 1
    error := .operandCount statement.mnemonicSpan statement.mnemonic 1 statement.operands.length
      false } ::
    statement.operands.flatMap (addressRules offset)

/-- **The rules of a statement** at an offset, some labels being known. -/
def rules (table : Table) (known : List LabelDef) (offset : Nat) (statement : Statement) :
    List Rule :=
  if statement.directive = false then
    labelRules known statement.labels ++ opcodeRules table statement
  else if statement.mnemonic = byteDirective then
    labelRules known statement.labels ++ rawRules statement
  else if statement.mnemonic = orgDirective then
    originRules offset statement ++ labelRules known statement.labels
  else
    [{ kept := False
       error := .unknownOpcode statement.mnemonicSpan statement.mnemonic }]

/-- The rules of a statement behind others, whose labels are known and at whose end it stands. -/
def rulesBehind (table : Table) (before : List Statement) (statement : Statement) : List Rule :=
  rules table (before.flatMap Statement.labels) (extent table 0 before) statement

/-- **Every statement of a list keeps its rules.** -/
def Passes (table : Table) (statements : List Statement) : Prop :=
  ∀ before statement after, statements = before ++ statement :: after →
    AllKept (rulesBehind table before statement)

/-- The rules of a label operand: it names a label, and one whose offset fits into two bytes. -/
def referenceRules (symbols : List Symbol) (token : Token) : List Rule :=
  [{ kept := token.text ∈ symbols.map Symbol.name
     error := .undefinedLabel token.span token.text },
    { kept := offsetOf symbols token.text ≤ 0xFFFF
      error := .invalidOperand token.span token.text .label }]

/-- **The rules of the label operands** of a list of statements, in the order of the source. -/
def linkRules (table : Table) (statements : List Statement) : List Rule :=
  (statements.flatMap (references table)).flatMap (referenceRules (symbols table statements))

/-! ### Outcomes that follow rules -/

section Follows

variable {α β : Type}

/-- **An outcome follows rules**: it fails exactly with the error of the first that is broken. -/
def Follows (outcome : Except SourceError α) (rules : List Rule) : Prop :=
  ∀ error, outcome = .error error ↔ FirstBroken rules error

theorem follows_ok (a : α) : Follows (.ok a) [] := by
  intro error
  constructor
  · rintro ⟨⟩
  · rintro ⟨⟩

/-- What follows rules succeeds exactly when all of them are kept. -/
theorem Follows.allKept_iff {outcome : Except SourceError α} {rules : List Rule}
    (h : Follows outcome rules) : AllKept rules ↔ ∃ a, outcome = .ok a := by
  constructor
  · intro hall
    cases outcome with
    | ok a => exact ⟨a, rfl⟩
    | error error =>
        obtain ⟨rule, hrule, hbroken, -⟩ := ((h error).1 rfl).exists_rule
        exact absurd (hall rule hrule) hbroken
  · rintro ⟨a, rfl⟩
    by_contra hbroken
    obtain ⟨error, herror⟩ := exists_firstBroken hbroken
    cases (h error).2 herror

/-- A step with only one error follows the rule that says when it succeeds. -/
theorem follows_singleton {outcome : Except SourceError α} {rule : Rule}
    (hok : rule.kept ↔ ∃ a, outcome = .ok a)
    (herror : ∀ error, outcome = .error error → error = rule.error) : Follows outcome [rule] := by
  intro error
  rw [firstBroken_cons_iff]
  cases outcome with
  | ok a =>
      have hkept : rule.kept := hok.2 ⟨a, rfl⟩
      constructor
      · rintro ⟨⟩
      · rintro (⟨hbroken, -⟩ | ⟨-, ⟨⟩⟩)
        exact absurd hkept hbroken
  | error found =>
      have hbroken : ¬rule.kept := by
        intro hkept
        obtain ⟨a, ⟨⟩⟩ := hok.1 hkept
      constructor
      · intro h
        exact .inl ⟨hbroken, herror error h⟩
      · rintro (⟨-, rfl⟩ | ⟨hkept, -⟩)
        · rw [herror found rfl]
        · exact absurd hkept hbroken

/-- A rule that is kept does not count. -/
theorem Follows.kept {outcome : Except SourceError α} {rules : List Rule} {P : Prop}
    {error : SourceError} (h : Follows outcome rules) (hkept : P) :
    Follows outcome (⟨P, error⟩ :: rules) := by
  intro found
  rw [h found, firstBroken_cons_iff]
  simp [hkept]

/-- A rule that is broken makes the rules behind it idle. -/
theorem follows_broken {P : Prop} {error : SourceError} (h : ¬P) (rules : List Rule) :
    Follows (.error error : Except SourceError α) (⟨P, error⟩ :: rules) := by
  intro found
  rw [firstBroken_cons_iff]
  simp [h, eq_comm]

/-- **Two steps follow the rules of the first and then those of the second.** -/
theorem Follows.bind {outcome : Except SourceError α} {next : α → Except SourceError β}
    {first second : List Rule} (h : Follows outcome first)
    (hnext : ∀ a, outcome = .ok a → Follows (next a) second) :
    Follows (outcome >>= next) (first ++ second) := by
  intro error
  rw [Outcome.bind_eq_error, firstBroken_append, h.allKept_iff, h error]
  refine or_congr_right ?_
  constructor
  · rintro ⟨a, ha, herror⟩
    exact ⟨⟨a, ha⟩, (hnext a ha error).1 herror⟩
  · rintro ⟨⟨a, ha⟩, hbroken⟩
    exact ⟨a, ha, (hnext a ha error).2 hbroken⟩

theorem Follows.map {outcome : Except SourceError α} {rules : List Rule}
    (h : Follows outcome rules) (f : α → β) : Follows (outcome.map f) rules := by
  intro error
  rw [Outcome.map_eq_error, h error]

end Follows

/-! ### The parts of a statement -/

theorem number_follows (token : Token) (kind : OperandKind) :
    Follows (Resolver.number token kind)
      [⟨IsNumber kind.limit token, .invalidOperand token.span token.text kind⟩] := by
  refine follows_singleton ?_ fun error herror => number_error herror
  rw [isNumber_limit_iff]
  constructor
  · intro h
    exact ⟨_, h⟩
  · rintro ⟨value, hvalue⟩
    rw [numberOf_eq (number_eq_ok_iff.1 hvalue).2.1]
    exact hvalue

theorem encodeOperand_follows (field : OperandKind × Token) :
    Follows (Resolver.encodeOperand field.1 field.2) [operandRule field] := by
  refine follows_singleton ?_ fun error herror => encodeOperand_error herror
  constructor
  · intro hfits
    exact ⟨_, encodeOperand_eq_ok_iff.2 ⟨hfits, rfl⟩⟩
  · rintro ⟨bytes, hbytes⟩
    exact (encodeOperand_eq_ok_iff.1 hbytes).1

theorem encodeOperands_follows (offset : Nat) (kinds : List OperandKind) (tokens : List Token) :
    Follows (Resolver.encodeOperands offset kinds tokens) ((kinds.zip tokens).map operandRule) := by
  induction kinds generalizing offset tokens with
  | nil => simpa [Resolver.encodeOperands] using follows_ok _
  | cons kind kinds ih =>
      cases tokens with
      | nil => simpa [Resolver.encodeOperands] using follows_ok _
      | cons token tokens =>
          have hstep : Resolver.encodeOperands offset (kind :: kinds) (token :: tokens) =
              Resolver.encodeOperand kind token >>= fun field =>
                (Resolver.encodeOperands (offset + kind.width) kinds tokens).map fun result =>
                  (field ++ result.1, Resolver.operandFixups offset kind token ++ result.2) := by
            rw [Resolver.encodeOperands]
            cases Resolver.encodeOperand kind token <;> rfl
          rw [hstep]
          exact (encodeOperand_follows (kind, token)).bind fun _ _ => (ih _ tokens).map _

theorem encodeBytes_follows (tokens : List Token) :
    Follows (Resolver.encodeBytes tokens) (tokens.map fun token =>
      ⟨IsNumber 0xFF token, .invalidOperand token.span token.text .immediate⟩) := by
  induction tokens with
  | nil => exact follows_ok _
  | cons token tokens ih =>
      have hstep : Resolver.encodeBytes (token :: tokens) =
          Resolver.number token .immediate >>= fun value =>
            (Resolver.encodeBytes tokens).map (UInt8.ofNat value :: ·) := by
        rw [Resolver.encodeBytes]
        cases Resolver.number token .immediate <;> rfl
      rw [hstep]
      exact (number_follows token .immediate).bind fun _ _ => ih.map _

theorem map_name_known (resolver : Resolver) :
    (known resolver).map LabelDef.name = labelNames resolver := by
  simp [known, labelNames, Function.comp_def]

/-- The label that a new label repeats is the first known one of its name. -/
theorem defineLabel_follows (resolver : Resolver) (label : LabelDef) :
    Follows (resolver.defineLabel label)
      [⟨label.name ∉ (known resolver).map LabelDef.name,
        .duplicateLabel label.span label.name (firstDefinition (known resolver) label.name)⟩] := by
  refine follows_singleton ?_ fun error herror => ?_
  · rw [map_name_known]
    constructor
    · intro hnew
      exact ⟨_, defineLabel_eq_ok_iff.2 ⟨hnew, rfl⟩⟩
    · rintro ⟨after, hafter⟩
      exact (defineLabel_eq_ok_iff.1 hafter).1
  · -- symbols stand in the order of their definition, so that the search finds the first
    unfold Resolver.defineLabel at herror
    rw [← Array.find?_toList] at herror
    cases hfind : resolver.symbols.toList.find? fun symbol => symbol.name = label.name with
    | none =>
        rw [hfind] at herror
        cases herror
    | some previous =>
        rw [hfind] at herror
        cases herror
        have hknown : ((known resolver).find? fun other => other.name = label.name) =
            some ⟨previous.name, previous.span⟩ := by
          rw [known, List.find?_map]
          exact congrArg (Option.map _) hfind
        rw [firstDefinition, hknown]
        rfl

theorem define_follows (resolver : Resolver) (labels : List LabelDef) :
    Follows (labels.foldlM Resolver.defineLabel resolver) (labelRules (known resolver) labels) := by
  induction labels generalizing resolver with
  | nil => exact follows_ok resolver
  | cons label labels ih =>
      rw [List.foldlM_cons]
      refine (defineLabel_follows resolver label).bind fun after hafter => ?_
      have hknown : known after = known resolver ++ [label] := by
        refine known_of_define ?_
        rw [List.foldlM_cons, hafter]
        rfl
      rw [← hknown]
      exact ih after

/-! ### Statements -/

theorem instruction_follows (table : Table) (resolver : Resolver) (statement : Statement) :
    Follows (resolver.instruction table statement)
      (labelRules (known resolver) statement.labels ++ opcodeRules table statement) := by
  refine (define_follows resolver statement.labels).bind fun defined _ => ?_
  unfold opcodeRules
  cases hfound : table.lookup? statement.mnemonic with
  | none => exact follows_broken id []
  | some opcode =>
      have hemit := (encodeOperands_follows (defined.offset + 1) opcode.operands
        statement.operands).bind fun result _ =>
          follows_ok (defined.emit statement (opcode.binary :: result.1) result.2)
      rw [List.append_nil] at hemit
      by_cases hcount : statement.operands.length = opcode.operands.length
      · dsimp only
        rw [if_neg (not_not.2 hcount)]
        exact hemit.kept hcount
      · dsimp only
        rw [if_pos hcount]
        exact follows_broken hcount _

theorem byteStatement_follows (resolver : Resolver) (statement : Statement) :
    Follows (resolver.byteStatement statement)
      (labelRules (known resolver) statement.labels ++ rawRules statement) := by
  refine (define_follows resolver statement.labels).bind fun defined _ => ?_
  have hemit := (encodeBytes_follows statement.operands).bind fun bytes _ =>
    follows_ok (defined.emit statement bytes [])
  rw [List.append_nil] at hemit
  by_cases hnone : statement.operands = []
  · have herror : Resolver.wrongCount statement 1 true =
        .operandCount statement.mnemonicSpan statement.mnemonic 1 0 true := by
      simp [Resolver.wrongCount, hnone]
    rw [if_pos hnone, herror]
    exact follows_broken (fun hsome => hsome hnone) _
  · rw [if_neg hnone]
    exact hemit.kept hnone

/-- The number of an address is looked at in two rules. -/
theorem address_follows (token : Token) :
    Follows (Resolver.number token .address)
      [⟨token.kind = .number, .invalidOperand token.span token.text .address⟩,
        ⟨IsNumber 0xFFFF token, .invalidOperand token.span token.text .address⟩] := by
  intro error
  rw [number_follows token .address error]
  have hkind : IsNumber 0xFFFF token → token.kind = .number := And.left
  have hlimit : OperandKind.address.limit = 0xFFFF := rfl
  simp only [firstBroken_cons_iff, hlimit]
  by_cases h : token.kind = .number
  · simp [h]
  · simp [h, mt hkind h]

theorem orgStatement_follows (resolver : Resolver) (statement : Statement) :
    Follows (resolver.orgStatement statement)
      (originRules resolver.offset statement ++
        labelRules (known resolver) statement.labels) := by
  unfold Resolver.orgStatement originRules
  split
  · rename_i token honly
    -- the labels are defined at the address, and so behind it
    rw [honly, List.flatMap_singleton, List.cons_append]
    refine Follows.kept ?_ rfl
    refine (address_follows token).bind fun address haddress => ?_
    have hvalue : numberOf token = address := numberOf_eq (number_eq_ok_iff.1 haddress).2.1
    by_cases hpassed : address < resolver.offset
    · rw [if_pos hpassed]
      refine follows_broken ?_ _
      omega
    · rw [if_neg hpassed]
      refine Follows.kept ?_ (show resolver.offset ≤ numberOf token by omega)
      exact define_follows _ statement.labels
  · rename_i hmany
    refine follows_broken ?_ _
    intro hone
    obtain ⟨token, honly⟩ := List.length_eq_one_iff.1 hone
    exact hmany token honly

/-- **One statement follows its rules.** -/
theorem statement_follows (table : Table) (resolver : Resolver) (statement : Statement) :
    Follows (resolver.statement table statement)
      (rules table (known resolver) resolver.offset statement) := by
  unfold Resolver.statement rules
  split
  · exact instruction_follows table resolver statement
  · split
    · exact byteStatement_follows resolver statement
    · split
      · exact orgStatement_follows resolver statement
      · exact follows_broken id []

/-! ### Lists of statements -/

/-- The rules of the statements of a list, one behind the other. -/
def listRules (table : Table) : List LabelDef → Nat → List Statement → List Rule
  | _, _, [] => []
  | known, offset, statement :: rest =>
      rules table known offset statement ++
        listRules table (known ++ statement.labels) (offset + size table offset statement) rest

/-- **A list of statements follows their rules.** -/
theorem run_follows (table : Table) (resolver : Resolver) (statements : List Statement) :
    Follows (statements.foldlM (Resolver.statement table) resolver)
      (listRules table (known resolver) resolver.offset statements) := by
  induction statements generalizing resolver with
  | nil => exact follows_ok resolver
  | cons statement rest ih =>
      rw [List.foldlM_cons, listRules]
      refine (statement_follows table resolver statement).bind fun after hafter => ?_
      obtain ⟨hfits, -, rfl⟩ := statement_eq_ok_iff.1 hafter
      -- the labels and the offset that the next statement finds
      have hknown : known (extend table resolver [(resolver.offset, statement)]) =
          known resolver ++ statement.labels := by
        simp [known, extend, symbolsAt, Function.comp_def]
      rw [← hknown, ← offset_extend hfits]
      exact ih _

theorem listRules_append (table : Table) (known : List LabelDef) (offset : Nat)
    (first second : List Statement) :
    listRules table known offset (first ++ second) =
      listRules table known offset first ++
        listRules table (known ++ first.flatMap Statement.labels) (extent table offset first)
          second := by
  induction first generalizing known offset with
  | nil => simp [listRules, extent]
  | cons statement rest ih => simp [listRules, extent, ih]

/-- The rules of a list are those of its statements, each behind those in front of it. -/
theorem allKept_listRules_iff {table : Table} {known : List LabelDef} {offset : Nat}
    {statements : List Statement} :
    AllKept (listRules table known offset statements) ↔
      ∀ before statement after, statements = before ++ statement :: after →
        AllKept (rules table (known ++ before.flatMap Statement.labels)
          (extent table offset before) statement) := by
  constructor
  · rintro h before statement after rfl rule hrule
    refine h rule ?_
    rw [listRules_append, listRules]
    exact List.mem_append_right _ (List.mem_append_left _ hrule)
  · intro h
    induction statements generalizing known offset with
    | nil => simp [AllKept, listRules]
    | cons statement rest ih =>
        have hhead : AllKept (rules table known offset statement) := by
          simpa [extent] using h [] statement rest rfl
        refine List.forall_mem_append.2 ⟨hhead, ih ?_⟩
        rintro before other after rfl
        simpa [extent] using h (statement :: before) other after rfl

/-! ### Linking -/

theorem linkOne_follows (symbols : Array Symbol) (binary : Array UInt8) (fixup : Fixup) :
    Follows (Resolver.linkOne symbols binary fixup)
      (referenceRules symbols.toList fixup.operand) := by
  unfold Resolver.linkOne referenceRules offsetOf
  rw [← Array.find?_toList]
  cases hfind : symbols.toList.find? fun symbol => symbol.name = fixup.operand.text with
  | none =>
      refine follows_broken ?_ _
      simpa using hfind
  | some symbol =>
      have hname : symbol.name = fixup.operand.text := by simpa using List.find?_some hfind
      have hmem : fixup.operand.text ∈ symbols.toList.map Symbol.name :=
        List.mem_map.2 ⟨symbol, List.mem_of_find?_eq_some hfind, hname⟩
      refine Follows.kept ?_ hmem
      dsimp only
      by_cases hlimit : OperandKind.label.limit < symbol.offset
      · rw [if_pos hlimit]
        exact follows_broken (fun hle => Int.not_le.2 hlimit (Int.toNat_le.1 hle)) _
      · rw [if_neg hlimit]
        exact (follows_ok _).kept (Int.toNat_le.2 (Int.not_lt.1 hlimit))

/-- **Linking follows the rules of the label operands.** -/
theorem link_follows (table : Table) (statements : List Statement) :
    Follows (encoded table statements).link (linkRules table statements) := by
  have hfold : ∀ (fixups : List Fixup) (binary : Array UInt8),
      Follows (fixups.foldlM (Resolver.linkOne (encoded table statements).symbols) binary)
        ((fixups.map Fixup.operand).flatMap (referenceRules (symbols table statements))) := by
    intro fixups
    induction fixups with
    | nil =>
        intro binary
        exact follows_ok binary
    | cons fixup fixups ih =>
        intro binary
        have hone := linkOne_follows (encoded table statements).symbols binary fixup
        rw [symbols_encoded] at hone
        rw [List.foldlM_cons, List.map_cons, List.flatMap_cons]
        exact hone.bind fun after _ => ih after
  rw [Resolver.link, ← Array.foldlM_toList, linkRules, ← map_operand_fixups]
  exact (hfold _ _).map _

/-! ### Programs -/

/-- **The resolver follows the rules of the statements and then those of the label operands.** -/
theorem resolve_follows (table : Table) (statements : List Statement) :
    Follows (Program.resolve table statements)
      (listRules table [] 0 statements ++ linkRules table statements) := by
  rw [resolve_eq_link]
  refine (run_follows table {} statements).bind fun resolver hrun => ?_
  obtain ⟨-, -, rfl⟩ := run_eq_ok_iff.1 hrun
  exact (link_follows table statements).map Resolver.program

/-- A rule does not look at what labels stand for: an operand that is refused as a label is none. -/
def Rule.Local (statement : Statement) (rule : Rule) : Prop :=
  match rule.error with
  | .undefinedLabel _ _ => False
  | .invalidOperand span text .label =>
      ∃ token ∈ statement.operands, token.span = span ∧ token.text = text ∧
        (token.kind = .identifier → rule.kept)
  | _ => True

theorem local_of_mem_labelRules (statement : Statement) {known labels : List LabelDef} {rule : Rule}
    (h : rule ∈ labelRules known labels) : rule.Local statement := by
  induction labels generalizing known with
  | nil => cases h
  | cons label labels ih =>
      rcases List.mem_cons.1 h with rfl | h
      · trivial
      · exact ih h

theorem local_of_mem_opcodeRules {table : Table} {statement : Statement} {rule : Rule}
    (h : rule ∈ opcodeRules table statement) : rule.Local statement := by
  unfold opcodeRules at h
  split at h
  · obtain rfl := List.mem_singleton.1 h
    trivial
  · rcases List.mem_cons.1 h with rfl | h
    · trivial
    · obtain ⟨⟨kind, token⟩, hfield, rfl⟩ := List.mem_map.1 h
      cases kind with
      | label => exact ⟨token, (List.of_mem_zip hfield).2, rfl, rfl, id⟩
      | _ => trivial

/-- The rules of a statement do not look at what labels stand for. -/
theorem local_of_mem_rules {table : Table} {known : List LabelDef} {offset : Nat}
    {statement : Statement} {rule : Rule} (h : rule ∈ rules table known offset statement) :
    rule.Local statement := by
  unfold rules at h
  -- an instruction, a `.byte` directive, a `.org` directive, or another one
  split at h
  · rcases List.mem_append.1 h with h | h
    · exact local_of_mem_labelRules statement h
    · exact local_of_mem_opcodeRules h
  · split at h
    · rcases List.mem_append.1 h with h | h
      · exact local_of_mem_labelRules statement h
      · rcases List.mem_cons.1 h with rfl | h
        · trivial
        · obtain ⟨token, -, rfl⟩ := List.mem_map.1 h
          trivial
    · split at h
      · rcases List.mem_append.1 h with h | h
        · rcases List.mem_cons.1 h with rfl | h
          · trivial
          · obtain ⟨token, -, hrule⟩ := List.mem_flatMap.1 h
            simp only [addressRules, List.mem_cons, List.not_mem_nil, or_false] at hrule
            rcases hrule with rfl | rfl | rfl <;> trivial
        · exact local_of_mem_labelRules statement h
      · obtain rfl := List.mem_singleton.1 h
        trivial

/-- The first broken rule of a list of statements is that of a statement whose predecessors keep all
of theirs. -/
theorem exists_broken_statement {table : Table} {known : List LabelDef} {offset : Nat}
    {statements : List Statement} {error : SourceError}
    (h : FirstBroken (listRules table known offset statements) error) :
    ∃ before statement after, statements = before ++ statement :: after ∧
      AllKept (listRules table known offset before) ∧
        FirstBroken (rules table (known ++ before.flatMap Statement.labels)
          (extent table offset before) statement) error := by
  induction statements generalizing known offset with
  | nil => cases h
  | cons statement rest ih =>
      rcases firstBroken_append.1 h with hhead | ⟨hkept, hrest⟩
      · refine ⟨[], statement, rest, rfl, by simp [AllKept, listRules], ?_⟩
        simpa [extent] using hhead
      · obtain ⟨before, other, after, rfl, hbefore, hother⟩ := ih hrest
        refine ⟨statement :: before, other, after, rfl, ?_, ?_⟩
        · exact List.forall_mem_append.2 ⟨hkept, hbefore⟩
        · simpa [extent] using hother

theorem passes_iff {table : Table} {statements : List Statement} :
    Passes table statements ↔ AllKept (listRules table [] 0 statements) :=
  (@allKept_listRules_iff table [] 0 statements).symm

/-- The first statement that breaks its rules decides the outcome, whatever follows it. -/
theorem resolve_of_firstBroken {table : Table} {before : List Statement} {statement : Statement}
    {error : SourceError} (hbefore : Passes table before)
    (h : FirstBroken (rulesBehind table before statement) error) (after : List Statement) :
    Program.resolve table (before ++ statement :: after) = .error error := by
  refine (resolve_follows table _ error).2 ?_
  rw [listRules_append, listRules, List.append_assoc, List.append_assoc]
  exact firstBroken_append.2 (.inr ⟨passes_iff.1 hbefore, firstBroken_append.2 (.inl h)⟩)

/-- **Which error wins.**  The first statement that breaks a rule decides the outcome of every list
that starts with the same statements: the error is that of its first broken rule.  The label
operands count only if every statement keeps its rules: then the outcome is decided by the first of
them, in the order of the source, that names no label or one out of reach.  As long as some
statement breaks a rule, no label is reported as undefined, and none that is an identifier as unfit
for its place. -/
theorem resolve_first_broken (table : Table) (statements : List Statement) :
    (∀ before statement after, statements = before ++ statement :: after → Passes table before →
      ¬AllKept (rulesBehind table before statement) →
        ∃ error, FirstBroken (rulesBehind table before statement) error ∧
          ∀ others, Program.resolve table (before ++ statement :: others) = .error error) ∧
    (Passes table statements → ∀ error,
      Program.resolve table statements = .error error ↔
        FirstBroken (linkRules table statements) error) ∧
    (¬Passes table statements →
      ∃ error, Program.resolve table statements = .error error ∧
        (∀ span name, error ≠ .undefinedLabel span name) ∧
          ∀ span text, error = .invalidOperand span text .label →
            ∃ statement ∈ statements, ∃ token ∈ statement.operands,
              token.span = span ∧ token.text = text ∧ token.kind ≠ .identifier) := by
  refine ⟨?_, ?_, ?_⟩
  · intro before statement after _ hbefore hbroken
    obtain ⟨error, herror⟩ := exists_firstBroken hbroken
    exact ⟨error, herror, resolve_of_firstBroken hbefore herror⟩
  · intro hpasses error
    have hkept := passes_iff.1 hpasses
    rw [resolve_follows table statements error, firstBroken_append]
    constructor
    · rintro (hbroken | ⟨-, hlink⟩)
      · obtain ⟨rule, hrule, hnot, -⟩ := hbroken.exists_rule
        exact absurd (hkept rule hrule) hnot
      · exact hlink
    · intro hlink
      exact .inr ⟨hkept, hlink⟩
  · intro hfails
    obtain ⟨error, herror⟩ := exists_firstBroken (mt passes_iff.2 hfails)
    obtain ⟨before, statement, after, rfl, hbefore, hstatement⟩ := exists_broken_statement herror
    refine ⟨error, resolve_of_firstBroken (passes_iff.2 hbefore) hstatement after, ?_⟩
    obtain ⟨rule, hrule, hbroken, rfl⟩ := hstatement.exists_rule
    have hlocal := local_of_mem_rules hrule
    unfold Rule.Local at hlocal
    constructor
    · intro span name hundefined
      rw [hundefined] at hlocal
      exact hlocal
    · intro span text hoperand
      rw [hoperand] at hlocal
      obtain ⟨token, htoken, hspan, htext, hkept⟩ := hlocal
      exact ⟨statement, by simp, token, htoken, hspan, htext, mt hkept hbroken⟩

/-- A jump to a label that is defined nowhere. -/
def lost : Statement where
  labels := [⟨utf8 "start", ⟨0, 5, 1, 1⟩⟩]
  mnemonic := utf8 "JMP"
  operands := [{ kind := .identifier, text := utf8 "nowhere" }]

/-- An instruction that the table lacks, behind a label that is new and one that is not. -/
def again : Statement where
  labels := [⟨utf8 "end", ⟨19, 22, 2, 1⟩⟩, ⟨utf8 "start", ⟨24, 29, 2, 6⟩⟩]
  mnemonic := utf8 "HLT"

/-- A `.org` directive that the offset has passed, behind a label that is not new. -/
def backward : Statement where
  labels := [⟨utf8 "start", ⟨19, 24, 2, 1⟩⟩]
  mnemonic := orgDirective
  directive := true
  operands := [{ kind := .number, text := utf8 "1", span := ⟨31, 32, 2, 13⟩ }]

/-- A label defined twice wins over an unknown opcode and loses to the address of a `.org`
directive; a label that is defined nowhere is reported when nothing else is wrong. -/
theorem resolve_lost :
    Passes jumpTable [lost] ∧
      (∀ others, Program.resolve jumpTable (lost :: again :: others) =
        .error (.duplicateLabel ⟨24, 29, 2, 6⟩ (utf8 "start") ⟨0, 5, 1, 1⟩)) ∧
      (∀ others, Program.resolve jumpTable (lost :: backward :: others) =
        .error (.invalidOperand ⟨31, 32, 2, 13⟩ (utf8 "1") .address)) ∧
      FirstBroken (linkRules jumpTable [lost]) (.undefinedLabel {} (utf8 "nowhere")) := by
  have hpasses : Passes jumpTable [lost] :=
    passes_iff.2 ((run_follows jumpTable {} [lost]).allKept_iff.2
      ⟨encoded jumpTable [lost], by decide⟩)
  have hrefused : ∀ statement error,
      Resolver.statement jumpTable (encoded jumpTable [lost]) statement = .error error →
        ∀ others, Program.resolve jumpTable (lost :: statement :: others) = .error error := by
    intro statement error herror
    have hfollows := statement_follows jumpTable (encoded jumpTable [lost]) statement
    have hbroken : ¬AllKept (rulesBehind jumpTable [lost] statement) := by
      intro hkept
      obtain ⟨resolver, hok⟩ := hfollows.allKept_iff.1 hkept
      rw [herror] at hok
      cases hok
    obtain ⟨found, hfirst, hothers⟩ :=
      (resolve_first_broken jumpTable [lost, statement]).1 [lost] statement [] rfl hpasses hbroken
    obtain rfl : found = error := Except.error.inj (((hfollows found).2 hfirst).symm.trans herror)
    exact hothers
  refine ⟨hpasses, hrefused again _ (by decide), hrefused backward _ (by decide), ?_⟩
  exact ((resolve_first_broken jumpTable [lost]).2.1 hpasses _).1 (by decide)

end Rules

end TableAssembler
