/-
**What a table finds.**

Mnemonics of a table are distinct, which makes looking up a mnemonic the same as asking for the
entry that has it, wherever in the list it stands.

Main definitions:

* `Table.WellFormed` — **the lists of opcodes that are tables**.

Main results:

* `Table.lookup?_eq_some_iff` — **a mnemonic finds the entry that has it**.
-/

import Mathlib.Data.List.Nodup
import TableAssembler.Opcode.Config

set_option relaxedAutoImplicit false
set_option autoImplicit false

namespace TableAssembler

/-- With distinct keys, looking a key up finds the only item that has it. -/
theorem find?_key_eq_some_iff {α β : Type} [DecidableEq β] {key : α → β} {items : List α}
    (h : (items.map key).Nodup) {value : β} {item : α} :
    (items.find? fun other => key other = value) = some item ↔ item ∈ items ∧ key item = value := by
  constructor
  · intro hfind
    exact ⟨List.mem_of_find?_eq_some hfind, by simpa using List.find?_some hfind⟩
  · rintro ⟨hmem, rfl⟩
    cases hfind : items.find? fun other => key other = key item with
    | none =>
        have := List.find?_eq_none.1 hfind item hmem
        simp at this
    | some found =>
        have hkey : key found = key item := by simpa using List.find?_some hfind
        rw [List.inj_on_of_nodup_map h (List.mem_of_find?_eq_some hfind) hmem hkey]

namespace Table

/-- **A list of opcodes that is a table**: mnemonics are valid and distinct, and operand kinds are
known. -/
structure WellFormed (opcodes : List Opcode) : Prop where
  mnemonics : ∀ opcode ∈ opcodes, Config.isMnemonic opcode.mnemonic = true
  distinct : (opcodes.map Opcode.mnemonic).Nodup
  kinds : ∀ opcode ∈ opcodes, ∀ kind ∈ opcode.operands, kind.isKnown = true

/-- **A mnemonic finds the entry that has it.** -/
theorem lookup?_eq_some_iff {table : Table} (h : WellFormed table.opcodes) {mnemonic : Text}
    {opcode : Opcode} :
    table.lookup? mnemonic = some opcode ↔ opcode ∈ table.opcodes ∧ opcode.mnemonic = mnemonic :=
  find?_key_eq_some_iff h.distinct

end Table

end TableAssembler
