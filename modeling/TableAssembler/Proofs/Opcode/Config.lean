/-
**How a configuration is made, and what it answers.**

Opcodes are taken in one by one, each checked against those in front of it.  The index holds for
every mnemonic the position of the entry that has it, and the mark says whether some entry takes a
label: one more opcode keeps it so, and hence a list of opcodes does.  So a configuration answers
from its index and its mark what a table answers from the whole list.

Said of the whole list, opcodes are taken in exactly when every mnemonic is valid, no two are the
same, and every operand kind is one of the four.

Main definitions:

* `Config.Built` — **a configuration in step with a list of opcodes**;
* `Config.Passes` — an opcode that can be taken in behind others;
* `Config.Refines` — a configuration that answers as a table does.

Main results:

* `Config.isMnemonic_eq_isName` — **valid mnemonics are names**;
* `Config.Built.add`, `Config.Built.addFrom` — one opcode, and a list of opcodes, keep a
  configuration in step;
* `Config.Built.refines` — **a configuration in step with a list answers as its table does**;
* `Config.exists_ofOpcodes_iff`, `Table.ofOpcodes_eq_ok_iff`, `Assembler.ofOpcodes_eq_ok_iff` — a
  list becomes a configuration, a table and an assembler exactly when it is well formed.
-/

import TableAssembler.Assembler
import TableAssembler.Proofs.Opcode.Table
import TableAssembler.Proofs.Outcome
import TableAssembler.Text.Name

set_option relaxedAutoImplicit false
set_option autoImplicit false

namespace TableAssembler

namespace Config

open Text (isDigit isName isNamePart isNameStart)

/-! ### Mnemonics -/

/-- A byte of a mnemonic at position `n`, in terms of the classes of bytes. -/
theorem mnemonicFrom_cons (n : Nat) (c : UInt8) (rest : Text) :
    mnemonicFrom n (c :: rest) =
      ((isNameStart c || (isDigit c && 0 < n)) && mnemonicFrom (n + 1) rest) := by
  have hstart : isNameStart c = true ↔ c = Text.byte '_' ∨
      (Text.byte 'a' ≤ c ∧ c ≤ Text.byte 'z') ∨ (Text.byte 'A' ≤ c ∧ c ≤ Text.byte 'Z') := by
    simp [isNameStart, or_assoc]
  rw [mnemonicFrom]
  cases hletter : isNameStart c with
  | true => rw [if_pos (hstart.1 hletter), Bool.true_or, Bool.true_and]
  | false =>
      rw [if_neg (mt hstart.2 (by simp [hletter])), Bool.false_or]
      by_cases hdigit : (Text.byte '0' ≤ c ∧ c ≤ Text.byte '9') ∧ 0 < n
      · rw [if_pos hdigit]
        simp [isDigit, hdigit]
      · rw [if_neg hdigit]
        have hnone : (isDigit c && decide (0 < n)) = false := by simpa [isDigit] using hdigit
        rw [hnone, Bool.false_and]

/-- Behind its first byte, a mnemonic goes on as a name does. -/
theorem mnemonicFrom_succ (n : Nat) (text : Text) :
    mnemonicFrom (n + 1) text = text.all isNamePart := by
  induction text generalizing n with
  | nil => rfl
  | cons c rest ih => simp [mnemonicFrom_cons, ih, isNamePart]

/-- **Valid mnemonics are names**: the check byte by byte agrees with the classes of bytes. -/
theorem isMnemonic_eq_isName (text : Text) : isMnemonic text = isName text := by
  cases text with
  | nil => rfl
  | cons c rest => simp [isMnemonic, isName, mnemonicFrom_cons, mnemonicFrom_succ]

/-! ### One opcode -/

/-- **A configuration in step with a list of opcodes.** -/
structure Built (config : Config) (opcodes : List Opcode) : Prop where
  listed : config.opcodes = opcodes
  index : ∀ mnemonic, config.position? mnemonic =
    opcodes.findIdx? fun opcode => opcode.mnemonic = mnemonic
  marked : config.labels = opcodes.any Opcode.usesLabels

/-- An opcode that can be taken in behind others: its mnemonic is valid and new, and its operand
kinds are known. -/
structure Passes (before : List Opcode) (opcode : Opcode) : Prop where
  mnemonic : isMnemonic opcode.mnemonic = true
  new : ∀ earlier ∈ before, earlier.mnemonic ≠ opcode.mnemonic
  kinds : ∀ kind ∈ opcode.operands, kind.isKnown = true

theorem built_empty : Built {} [] := ⟨rfl, fun _ => rfl, rfl⟩

/-- Operand kinds pass exactly when all are known, and then a label among them is marked. -/
theorem markKinds_eq_ok_iff {labels marked : Bool} {kinds : List OperandKind} :
    markKinds labels kinds = .ok marked ↔
      (∀ kind ∈ kinds, kind.isKnown = true) ∧ marked = (labels || kinds.contains .label) := by
  induction kinds generalizing labels with
  | nil =>
      rw [markKinds, Except.ok.injEq, List.contains_nil, Bool.or_false]
      exact ⟨fun h => ⟨by simp, h.symm⟩, fun h => h.2.symm⟩
  | cons kind kinds ih =>
      rw [markKinds]
      by_cases hkind : kind.isKnown = false
      · simp [hkind]
      · rw [if_neg hkind, ih, List.forall_mem_cons, List.contains_cons, Bool.or_assoc]
        rw [Bool.not_eq_false] at hkind
        have hlabel : decide (kind = .label) = (OperandKind.label == kind) := by
          rw [Bool.eq_iff_iff, decide_eq_true_iff, beq_iff_eq]
          exact eq_comm
        rw [hlabel]
        exact ⟨fun h => ⟨⟨hkind, h.1⟩, h.2⟩, fun h => ⟨h.1.2, h.2⟩⟩

/-- Operand kinds are refused exactly for the first of them that is unknown. -/
theorem markKinds_eq_error_iff {labels : Bool} {kinds : List OperandKind} {error : TableError} :
    markKinds labels kinds = .error error ↔
      ∃ known kind rest, kinds = known ++ kind :: rest ∧
        (∀ other ∈ known, other.isKnown = true) ∧ kind.isKnown = false ∧
        error = .operandKind kind.name := by
  induction kinds generalizing labels with
  | nil => simp [markKinds]
  | cons kind kinds ih =>
      rw [markKinds]
      by_cases hkind : kind.isKnown = false
      · rw [if_pos hkind]
        constructor
        · intro h
          cases h
          exact ⟨[], kind, kinds, rfl, by simp, hkind, rfl⟩
        · rintro ⟨known, other, rest, hsplit, hknown, -, rfl⟩
          cases known with
          | nil =>
              obtain ⟨rfl, rfl⟩ := List.cons.inj hsplit
              rfl
          | cons first known =>
              obtain ⟨rfl, rfl⟩ := List.cons.inj hsplit
              simp [hkind] at hknown
      · rw [if_neg hkind, ih]
        rw [Bool.not_eq_false] at hkind
        constructor
        · rintro ⟨known, other, rest, rfl, hknown, hother, rfl⟩
          exact ⟨kind :: known, other, rest, rfl, List.forall_mem_cons.2 ⟨hkind, hknown⟩, hother,
            rfl⟩
        · rintro ⟨known, other, rest, hsplit, hknown, hother, rfl⟩
          cases known with
          | nil =>
              obtain ⟨rfl, rfl⟩ := List.cons.inj hsplit
              simp [hkind] at hother
          | cons first known =>
              obtain ⟨rfl, rfl⟩ := List.cons.inj hsplit
              exact ⟨known, other, rest, rfl, (List.forall_mem_cons.1 hknown).2, hother, rfl⟩

section Step

variable {config : Config} {before : List Opcode} {opcode : Opcode}

/-- A mnemonic has no position exactly when no entry has it. -/
theorem Built.position?_eq_none_iff (h : Built config before) {mnemonic : Text} :
    config.position? mnemonic = none ↔ ∀ earlier ∈ before, earlier.mnemonic ≠ mnemonic := by
  simp [h.index]

/-- **One more opcode keeps a configuration in step**, and was fit to be taken in. -/
theorem Built.add (h : Built config before) {next : Config}
    (hadd : config.add before.length opcode = .ok next) :
    Passes before opcode ∧ Built next (before ++ [opcode]) := by
  unfold Config.add at hadd
  split at hadd
  · cases hadd
  · rename_i hmnemonic
    split at hadd
    · cases hadd
    · rename_i hposition
      have hnew := h.position?_eq_none_iff.1 hposition
      split at hadd
      · cases hadd
      · rename_i labels hkinds
        cases hadd
        obtain ⟨hknown, rfl⟩ := markKinds_eq_ok_iff.1 hkinds
        refine ⟨⟨by simpa using hmnemonic, hnew, hknown⟩, by simp [h.listed], ?_, ?_⟩
        · intro mnemonic
          rw [List.findIdx?_append, ← h.index]
          by_cases hsame : mnemonic = opcode.mnemonic
          · -- the new entry has it, and none in front of it
            subst hsame
            rw [hposition]
            simp [position?]
          · have hother : (mnemonic == opcode.mnemonic) = false := beq_eq_false_iff_ne.2 hsame
            simp [position?, List.lookup_cons, hother, Ne.symm hsame]
        · simp [h.marked, Opcode.usesLabels]

/-- An opcode that is fit to be taken in is. -/
theorem Built.exists_add (h : Built config before) (hpasses : Passes before opcode) :
    ∃ next, config.add before.length opcode = .ok next := by
  have hposition := h.position?_eq_none_iff.2 hpasses.new
  have hkinds : markKinds config.labels opcode.operands = .ok _ :=
    markKinds_eq_ok_iff.2 ⟨hpasses.kinds, rfl⟩
  rw [Config.add, if_neg (by simp [hpasses.mnemonic]), hposition]
  simp only [hkinds]
  exact ⟨_, rfl⟩

end Step

/-! ### Lists of opcodes -/

/-- A list is well formed and repeats no mnemonic in front of it exactly when its first entry passes
and the rest is so behind it. -/
theorem wellFormed_cons_iff {before rest : List Opcode} {opcode : Opcode} :
    (Table.WellFormed (opcode :: rest) ∧
        ∀ other ∈ opcode :: rest, ∀ earlier ∈ before, earlier.mnemonic ≠ other.mnemonic) ↔
      Passes before opcode ∧ Table.WellFormed rest ∧
        ∀ other ∈ rest, ∀ earlier ∈ before ++ [opcode], earlier.mnemonic ≠ other.mnemonic := by
  constructor
  · rintro ⟨⟨hmnemonics, hdistinct, hkinds⟩, hnew⟩
    rw [List.forall_mem_cons] at hmnemonics hkinds hnew
    rw [List.map_cons, List.nodup_cons] at hdistinct
    refine ⟨⟨hmnemonics.1, hnew.1, hkinds.1⟩, ⟨hmnemonics.2, hdistinct.2, hkinds.2⟩,
      fun other hother => List.forall_mem_append.2 ⟨hnew.2 other hother, ?_⟩⟩
    rw [List.forall_mem_singleton]
    intro heq
    exact hdistinct.1 (heq ▸ List.mem_map_of_mem hother)
  · rintro ⟨hpasses, hrest, hnew⟩
    refine ⟨⟨List.forall_mem_cons.2 ⟨hpasses.mnemonic, hrest.mnemonics⟩, ?_,
      List.forall_mem_cons.2 ⟨hpasses.kinds, hrest.kinds⟩⟩, List.forall_mem_cons.2 ⟨hpasses.new,
        fun other hother earlier hearlier =>
          hnew other hother earlier (List.mem_append_left _ hearlier)⟩⟩
    rw [List.map_cons, List.nodup_cons]
    refine ⟨fun hmem => ?_, hrest.distinct⟩
    obtain ⟨other, hother, heq⟩ := List.mem_map.1 hmem
    exact hnew other hother opcode (List.mem_append_right _ (List.mem_singleton_self _)) heq.symm

section Loop

variable {config : Config} {before opcodes : List Opcode}

/-- **A list of opcodes keeps a configuration in step.** -/
theorem Built.addFrom (h : Built config before) {last : Config}
    (hadd : config.addFrom before.length opcodes = .ok last) : Built last (before ++ opcodes) := by
  induction opcodes generalizing config before with
  | nil =>
      cases hadd
      rwa [List.append_nil]
  | cons opcode rest ih =>
      rw [Config.addFrom] at hadd
      split at hadd
      · cases hadd
      · rename_i next hnext
        have hlength : (before ++ [opcode]).length = before.length + 1 := by simp
        have hbuilt := (h.add hnext).2
        rw [← hlength] at hadd
        simpa using ih hbuilt hadd

/-- A list is taken in behind others exactly when it is well formed and repeats none of their
mnemonics. -/
theorem Built.exists_addFrom_iff (h : Built config before) :
    (∃ last, config.addFrom before.length opcodes = .ok last) ↔
      Table.WellFormed opcodes ∧
        ∀ opcode ∈ opcodes, ∀ earlier ∈ before, earlier.mnemonic ≠ opcode.mnemonic := by
  induction opcodes generalizing config before with
  | nil => exact ⟨fun _ => ⟨⟨by simp, by simp, by simp⟩, by simp⟩, fun _ => ⟨config, rfl⟩⟩
  | cons opcode rest ih =>
      have hlength : (before ++ [opcode]).length = before.length + 1 := by simp
      rw [wellFormed_cons_iff]
      constructor
      · rintro ⟨last, hlast⟩
        rw [Config.addFrom] at hlast
        split at hlast
        · cases hlast
        · rename_i next hnext
          obtain ⟨hpasses, hbuilt⟩ := h.add hnext
          rw [← hlength] at hlast
          exact ⟨hpasses, (ih hbuilt).1 ⟨last, hlast⟩⟩
      · rintro ⟨hpasses, hrest⟩
        obtain ⟨next, hnext⟩ := h.exists_add hpasses
        obtain ⟨last, hlast⟩ := (ih (h.add hnext).2).2 hrest
        rw [hlength] at hlast
        exact ⟨last, by rw [Config.addFrom, hnext]; exact hlast⟩

end Loop

/-- **A list becomes a configuration exactly when it is well formed.** -/
theorem exists_ofOpcodes_iff {opcodes : List Opcode} :
    (∃ config, ofOpcodes opcodes = .ok config) ↔ Table.WellFormed opcodes := by
  have hall := @Built.exists_addFrom_iff {} [] opcodes built_empty
  simpa [ofOpcodes] using hall

/-- The configuration of a list is in step with it. -/
theorem built_of_ofOpcodes {opcodes : List Opcode} {config : Config}
    (h : ofOpcodes opcodes = .ok config) : Built config opcodes :=
  built_empty.addFrom h

/-! ### Answers -/

/-- **A configuration that answers as a table does.** -/
structure Refines (config : Config) (table : Table) : Prop where
  opcodes : config.opcodes = table.opcodes
  size : config.size = table.size
  lookup : ∀ mnemonic, config.lookup? mnemonic = table.lookup? mnemonic
  labels : config.usesLabels = table.usesLabels

/-- **A configuration in step with a list answers as its table does.** -/
theorem Built.refines {config : Config} {opcodes : List Opcode} (h : Built config opcodes) :
    Refines config ⟨opcodes⟩ where
  opcodes := h.listed
  size := congrArg List.length h.listed
  lookup := by
    intro mnemonic
    rw [lookup?, h.index, h.listed, Table.lookup?, List.find?_eq_bind_findIdx?_getElem?]
  labels := h.marked

end Config

/-- **A list of opcodes becomes a table exactly when it is well formed**, and the table is the
list. -/
theorem Table.ofOpcodes_eq_ok_iff {opcodes : List Opcode} {table : Table} :
    ofOpcodes opcodes = .ok table ↔ WellFormed opcodes ∧ table.opcodes = opcodes := by
  rw [ofOpcodes, Outcome.map_eq_ok]
  constructor
  · rintro ⟨config, hconfig, rfl⟩
    exact ⟨Config.exists_ofOpcodes_iff.1 ⟨config, hconfig⟩,
      (Config.built_of_ofOpcodes hconfig).listed⟩
  · rintro ⟨hformed, rfl⟩
    obtain ⟨config, hconfig⟩ := Config.exists_ofOpcodes_iff.2 hformed
    refine ⟨config, hconfig, ?_⟩
    rw [Config.table, (Config.built_of_ofOpcodes hconfig).listed]

/-- A list of opcodes makes an assembler exactly when it is well formed. -/
theorem Assembler.ofOpcodes_eq_ok_iff {opcodes : List Opcode} {assembler : Assembler} :
    ofOpcodes opcodes = .ok assembler ↔
      Table.WellFormed opcodes ∧ assembler = { table := ⟨opcodes⟩ } := by
  rw [ofOpcodes, Outcome.map_eq_ok]
  constructor
  · rintro ⟨table, htable, rfl⟩
    obtain ⟨hformed, rfl⟩ := Table.ofOpcodes_eq_ok_iff.1 htable
    exact ⟨hformed, rfl⟩
  · rintro ⟨hformed, rfl⟩
    exact ⟨⟨opcodes⟩, Table.ofOpcodes_eq_ok_iff.2 ⟨hformed, rfl⟩, rfl⟩

/-- Mnemonics of a well-formed list are names. -/
theorem Table.WellFormed.isName {opcodes : List Opcode} (h : WellFormed opcodes) :
    ∀ opcode ∈ opcodes, Text.isName opcode.mnemonic = true := by
  intro opcode hopcode
  rw [← Config.isMnemonic_eq_isName]
  exact h.mnemonics opcode hopcode

end TableAssembler
