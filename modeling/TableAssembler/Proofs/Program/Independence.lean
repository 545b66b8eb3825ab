/-
**Opcodes that a program does not use.**

A statement asks the opcode table for its own mnemonic and for nothing else, and a directive does
not ask at all.  The only question that goes to the table as a whole is whether any opcode takes a
label: if none does, linking is left out.  But then no statement has left anything to link, so the
answer makes no difference (`Linking.resolve_eq_link`), and tables that agree on the mnemonics of
the statements make the same of them.

Main definitions:

* `Independence.Agree` — **tables that agree on the mnemonics of a list of statements**.

Main results:

* `Independence.statement_congr`, `Independence.run_congr` — one statement, and a list of them;
* `Independence.agree_of_same_opcodes` — tables agree if they have the same opcodes of the mnemonics
  used;
* `Independence.resolve_unused` — **opcodes that are not used cannot influence a program**.
-/

import TableAssembler.Proofs.Opcode.Config
import TableAssembler.Proofs.Program.Linking

set_option relaxedAutoImplicit false
set_option autoImplicit false

namespace TableAssembler

namespace Independence

open Text (utf8)

/-- **Tables that agree on a list of statements**: each mnemonic that is no directive finds the same
in both. -/
def Agree (table table' : Table) (statements : List Statement) : Prop :=
  ∀ statement ∈ statements, statement.directive = false →
    table.lookup? statement.mnemonic = table'.lookup? statement.mnemonic

/-- One statement is encoded alike under tables that agree on its mnemonic. -/
theorem statement_congr {table table' : Table} {statement : Statement}
    (h : statement.directive = false →
      table.lookup? statement.mnemonic = table'.lookup? statement.mnemonic) (resolver : Resolver) :
    resolver.statement table statement = resolver.statement table' statement := by
  unfold Resolver.statement
  by_cases plain : statement.directive = false
  · rw [if_pos plain, if_pos plain]
    unfold Resolver.instruction
    rw [h plain]
  · rw [if_neg plain, if_neg plain]

/-- **A list of statements** is encoded alike under tables that agree on it. -/
theorem run_congr {table table' : Table} {statements : List Statement}
    (h : Agree table table' statements) (resolver : Resolver) :
    statements.foldlM (Resolver.statement table) resolver =
      statements.foldlM (Resolver.statement table') resolver := by
  induction statements generalizing resolver with
  | nil => rfl
  | cons statement rest ih =>
      obtain ⟨hfirst, hrest⟩ := List.forall_mem_cons.1 h
      rw [List.foldlM_cons, List.foldlM_cons, statement_congr hfirst]
      congr 1
      funext next
      exact ih hrest next

/-- Tables that agree on a list of statements resolve it to the same outcome, whatever else is in
them. -/
theorem resolve_congr {table table' : Table} {statements : List Statement}
    (h : Agree table table' statements) :
    Program.resolve table statements = Program.resolve table' statements := by
  rw [Linking.resolve_eq_link, Linking.resolve_eq_link, run_congr h]

/-- Tables agree if each opcode with a mnemonic of the statements is in both or in none, wherever it
stands. -/
theorem agree_of_same_opcodes {opcodes opcodes' : List Opcode} {table table' : Table}
    (htable : Table.ofOpcodes opcodes = .ok table)
    (htable' : Table.ofOpcodes opcodes' = .ok table') {statements : List Statement}
    (h : ∀ statement ∈ statements, statement.directive = false → ∀ opcode : Opcode,
      opcode.mnemonic = statement.mnemonic → (opcode ∈ opcodes ↔ opcode ∈ opcodes')) :
    Agree table table' statements := by
  obtain ⟨hformed, rfl⟩ := Table.ofOpcodes_eq_ok_iff.1 htable
  obtain ⟨hformed', rfl⟩ := Table.ofOpcodes_eq_ok_iff.1 htable'
  intro statement hstatement plain
  refine Option.ext fun opcode => ?_
  rw [Table.lookup?_eq_some_iff hformed, Table.lookup?_eq_some_iff hformed']
  exact and_congr_left fun hmnemonic => h statement hstatement plain opcode hmnemonic

/-- **Opcodes that are not used cannot influence a program.**  Under two tables that find the same
for every mnemonic of a list of statements, directives apart, the list resolves to the same program
or to the same error.  So it does, in particular, under two tables made of lists of opcodes that
differ in opcodes of other mnemonics and in the order: it does not matter whether only one of them
has an opcode that takes a label. -/
theorem resolve_unused (statements : List Statement) :
    (∀ table table' : Table,
      (∀ statement ∈ statements, statement.directive = false →
        table.lookup? statement.mnemonic = table'.lookup? statement.mnemonic) →
        Program.resolve table statements = Program.resolve table' statements) ∧
      ∀ (opcodes opcodes' : List Opcode) (table table' : Table),
        Table.ofOpcodes opcodes = .ok table → Table.ofOpcodes opcodes' = .ok table' →
        (∀ statement ∈ statements, statement.directive = false → ∀ opcode : Opcode,
          opcode.mnemonic = statement.mnemonic → (opcode ∈ opcodes ↔ opcode ∈ opcodes')) →
        Program.resolve table statements = Program.resolve table' statements := by
  refine ⟨fun table table' h => resolve_congr h, ?_⟩
  intro opcodes opcodes' table table' htable htable' h
  exact resolve_congr (agree_of_same_opcodes htable htable' h)

/-- A statement with a label, under a mnemonic that takes no operands. -/
def idle : Statement where
  labels := [⟨utf8 "here", {}⟩]
  mnemonic := utf8 "NOP"

/-- The opcode of `idle`. -/
def idleOpcode : Opcode := ⟨utf8 "NOP", 1, []⟩

/-- An opcode that takes a label. -/
def jumpOpcode : Opcode := ⟨utf8 "JMP", 0x10, [.label]⟩

/-- An opcode of another mnemonic in front, by which the table comes to use labels, changes
nothing. -/
theorem resolve_idle :
    (⟨[idleOpcode]⟩ : Table).usesLabels = false ∧
      (⟨[jumpOpcode, idleOpcode]⟩ : Table).usesLabels = true ∧
      Program.resolve ⟨[idleOpcode]⟩ [idle] = Program.resolve ⟨[jumpOpcode, idleOpcode]⟩ [idle] ∧
      Program.resolve ⟨[jumpOpcode, idleOpcode]⟩ [idle] =
        .ok ⟨[1], [⟨idle, 0, 1⟩], [⟨utf8 "here", 0, {}⟩]⟩ := by
  have hagree : Agree ⟨[idleOpcode]⟩ ⟨[jumpOpcode, idleOpcode]⟩ [idle] :=
    List.forall_mem_singleton.2 fun _ => by decide
  exact ⟨by decide, by decide, (resolve_unused [idle]).1 _ _ hagree, by decide⟩

end Independence

end TableAssembler
