/-
**What a list of opcodes is refused for, and what a configuration answers.**

Entries are taken in in turn, and the first that breaks a rule is the one reported: all in front of
it are in order, so that a repeated mnemonic has been seen exactly once before.  Of a single entry
the mnemonic is looked at first, then whether it is new, then the operand kinds from left to right.
A list that is taken in answers every question from its entries.

Main definitions:

* `Config.Fault` — **the fault of an entry** behind others;
* `Config.Answers` — the answers of a configuration are those of its list.

Main results:

* `Config.Built.add_eq_error_iff`, `Config.addFrom_eq_error_iff` — one entry that is refused, and a
  list that is refused for its first such entry;
* `Config.Refines.answers` — the answers of a configuration;
* `Config.ofOpcodes_exact` — **a list becomes a configuration, or its first faulty entry is
  reported**;
* `Table.ofOpcodes_eq_error_iff` — the same of a table that is refused.
-/

import TableAssembler.Proofs.Opcode.Config

set_option relaxedAutoImplicit false
set_option autoImplicit false

namespace TableAssembler

theorem OperandKind.mem_all_iff {kind : OperandKind} :
    kind ∈ OperandKind.all ↔ kind.isKnown = true := by
  cases kind <;> simp [OperandKind.all, OperandKind.isKnown]

namespace Config

open Table (WellFormed)
open Text (utf8)

/-- **The fault of an entry behind others**: its mnemonic is not valid; or one of them, and no
other, has its mnemonic already; or an operand kind is none of the four, as those to the left of it
are. -/
inductive Fault (before : List Opcode) (opcode : Opcode) : TableError → Prop
  | mnemonic (bad : isMnemonic opcode.mnemonic = false) :
      Fault before opcode (.invalidMnemonic opcode.mnemonic)
  | duplicate {front back : List Opcode} {earlier : Opcode}
      (valid : isMnemonic opcode.mnemonic = true) (split : before = front ++ earlier :: back)
      (same : earlier.mnemonic = opcode.mnemonic)
      (alone : ∀ other ∈ front ++ back, other.mnemonic ≠ opcode.mnemonic) :
      Fault before opcode (.duplicateMnemonic opcode.mnemonic before.length front.length)
  | kind {known rest : List OperandKind} {kind : OperandKind}
      (valid : isMnemonic opcode.mnemonic = true)
      (new : ∀ earlier ∈ before, earlier.mnemonic ≠ opcode.mnemonic)
      (split : opcode.operands = known ++ kind :: rest)
      (fine : ∀ other ∈ known, other ∈ OperandKind.all) (bad : kind ∉ OperandKind.all) :
      Fault before opcode (.operandKind kind.name)

/-- **The answers of a configuration are those of a list of opcodes.** -/
structure Answers (config : Config) (opcodes : List Opcode) : Prop where
  listed : config.opcodes = opcodes
  counted : config.size = opcodes.length
  found : ∀ mnemonic opcode, config.lookup? mnemonic = some opcode ↔
    opcode ∈ opcodes ∧ opcode.mnemonic = mnemonic
  missing : ∀ mnemonic, config.lookup? mnemonic = none ↔
    ∀ opcode ∈ opcodes, opcode.mnemonic ≠ mnemonic
  labels : config.usesLabels = true ↔ ∃ opcode ∈ opcodes, OperandKind.label ∈ opcode.operands

/-! ### A single entry -/

section Entry

variable {config : Config} {before : List Opcode} {opcode : Opcode}

/-- Among distinct mnemonics, the first entry with a given one is the only one that has it. -/
theorem findIdx?_mnemonic_eq_some_iff (hdistinct : (before.map Opcode.mnemonic).Nodup)
    {mnemonic : Text} {previous : Nat} :
    (before.findIdx? fun earlier => earlier.mnemonic = mnemonic) = some previous ↔
      ∃ front earlier back, before = front ++ earlier :: back ∧ earlier.mnemonic = mnemonic ∧
        (∀ other ∈ front ++ back, other.mnemonic ≠ mnemonic) ∧ front.length = previous := by
  rw [List.findIdx?_eq_some_iff_getElem]
  constructor
  · rintro ⟨hlt, hsame, hfirst⟩
    have hsplit : before =
        before.take previous ++ before[previous] :: before.drop (previous + 1) := by
      rw [List.getElem_cons_drop, List.take_append_drop]
    refine ⟨before.take previous, before[previous], before.drop (previous + 1), hsplit,
      by simpa using hsame, ?_, List.length_take_of_le (Nat.le_of_lt hlt)⟩
    rw [hsplit, List.map_append, List.map_cons, List.nodup_middle, List.nodup_cons] at hdistinct
    intro other hother heq
    refine hdistinct.1 ?_
    rw [← List.map_append]
    have hkey : other.mnemonic = before[previous].mnemonic := by
      simpa [heq, eq_comm] using hsame
    exact hkey ▸ List.mem_map_of_mem hother
  · rintro ⟨front, earlier, back, rfl, hsame, halone, rfl⟩
    refine ⟨by simp, by simpa using hsame, ?_⟩
    intro index hindex
    rw [List.getElem_append_left hindex]
    have hne := halone front[index] (List.mem_append_left _ (List.getElem_mem hindex))
    simpa using hne

/-- Operand kinds are refused for the first that is none of the four. -/
theorem markKinds_eq_error_iff_mem_all {labels : Bool} {kinds : List OperandKind}
    {error : TableError} :
    markKinds labels kinds = .error error ↔
      ∃ known kind rest, kinds = known ++ kind :: rest ∧
        (∀ other ∈ known, other ∈ OperandKind.all) ∧ kind ∉ OperandKind.all ∧
        error = .operandKind kind.name := by
  simp only [markKinds_eq_error_iff, OperandKind.mem_all_iff, Bool.not_eq_true]

theorem Built.fault_of_add (h : Built config before)
    (hdistinct : (before.map Opcode.mnemonic).Nodup) {error : TableError}
    (hadd : config.add before.length opcode = .error error) : Fault before opcode error := by
  unfold Config.add at hadd
  split at hadd
  · rename_i hbad
    cases hadd
    exact .mnemonic hbad
  · rename_i hvalid
    rw [Bool.not_eq_false] at hvalid
    split at hadd
    · rename_i previous hposition
      cases hadd
      rw [h.index] at hposition
      obtain ⟨front, earlier, back, hsplit, hsame, halone, rfl⟩ :=
        (findIdx?_mnemonic_eq_some_iff hdistinct).1 hposition
      exact .duplicate hvalid hsplit hsame halone
    · rename_i hposition
      have hnew := h.position?_eq_none_iff.1 hposition
      split at hadd
      · rename_i kindError hkinds
        cases hadd
        obtain ⟨known, kind, rest, hsplit, hfine, hbad, rfl⟩ :=
          markKinds_eq_error_iff_mem_all.1 hkinds
        exact .kind hvalid hnew hsplit hfine hbad
      · cases hadd

theorem Fault.add_eq {error : TableError} (h : Fault before opcode error)
    (hbuilt : Built config before) (hdistinct : (before.map Opcode.mnemonic).Nodup) :
    config.add before.length opcode = .error error := by
  cases h with
  | mnemonic bad => rw [Config.add, if_pos bad]
  | @duplicate front _ _ valid split same alone =>
      have hposition : config.position? opcode.mnemonic = some front.length := by
        rw [hbuilt.index]
        exact (findIdx?_mnemonic_eq_some_iff hdistinct).2 ⟨_, _, _, split, same, alone, rfl⟩
      rw [Config.add, if_neg (by simp [valid]), hposition]
  | kind valid new split fine bad =>
      have hposition := hbuilt.position?_eq_none_iff.2 new
      have hkinds : markKinds config.labels opcode.operands = .error _ :=
        markKinds_eq_error_iff_mem_all.2 ⟨_, _, _, split, fine, bad, rfl⟩
      rw [Config.add, if_neg (by simp [valid]), hposition]
      simp only [hkinds]

/-- **An entry is refused exactly for its fault**, if those in front of it are distinct. -/
theorem Built.add_eq_error_iff (h : Built config before)
    (hdistinct : (before.map Opcode.mnemonic).Nodup) {error : TableError} :
    config.add before.length opcode = .error error ↔ Fault before opcode error :=
  ⟨h.fault_of_add hdistinct, fun hfault => hfault.add_eq h hdistinct⟩

end Entry

/-! ### Lists -/

/-- Taking in two lists is taking in the second after the first. -/
theorem addFrom_append (config : Config) (n : Nat) (opcodes more : List Opcode) :
    config.addFrom n (opcodes ++ more) =
      match config.addFrom n opcodes with
      | .error error => .error error
      | .ok next => next.addFrom (n + opcodes.length) more := by
  induction opcodes generalizing config n with
  | nil => rfl
  | cons opcode rest ih =>
      rw [List.cons_append, Config.addFrom, Config.addFrom]
      cases config.add n opcode with
      | error error => rfl
      | ok next =>
          simp only [ih, List.length_cons]
          rw [Nat.add_right_comm, Nat.add_assoc]

/-- A list is refused exactly for its first entry that is refused behind all in front of it. -/
theorem addFrom_eq_error_iff {config : Config} {n : Nat} {opcodes : List Opcode}
    {error : TableError} :
    config.addFrom n opcodes = .error error ↔
      ∃ front opcode back next, opcodes = front ++ opcode :: back ∧
        config.addFrom n front = .ok next ∧ next.add (n + front.length) opcode = .error error := by
  constructor
  · intro h
    induction opcodes generalizing config n with
    | nil => cases h
    | cons first rest ih =>
        rw [Config.addFrom] at h
        split at h
        · rename_i refused hfirst
          cases h
          exact ⟨[], first, rest, config, rfl, rfl, hfirst⟩
        · rename_i passed hfirst
          obtain ⟨front, opcode, back, next, rfl, hfront, hopcode⟩ := ih h
          refine ⟨first :: front, opcode, back, next, rfl, ?_, ?_⟩
          · rw [Config.addFrom, hfirst]
            exact hfront
          · rw [List.length_cons, Nat.add_comm front.length, ← Nat.add_assoc]
            exact hopcode
  · rintro ⟨front, opcode, back, next, rfl, hfront, hopcode⟩
    rw [addFrom_append, hfront]
    simp only [Config.addFrom, hopcode]

/-- **A list is refused exactly for its first faulty entry.** -/
theorem ofOpcodes_eq_error_iff {opcodes : List Opcode} {error : TableError} :
    ofOpcodes opcodes = .error error ↔
      ∃ before opcode after, opcodes = before ++ opcode :: after ∧ WellFormed before ∧
        Fault before opcode error := by
  rw [ofOpcodes, addFrom_eq_error_iff]
  constructor
  · rintro ⟨before, opcode, after, config, hsplit, hconfig, hopcode⟩
    have hformed : WellFormed before := exists_ofOpcodes_iff.1 ⟨config, hconfig⟩
    rw [Nat.zero_add, (built_of_ofOpcodes hconfig).add_eq_error_iff hformed.distinct] at hopcode
    exact ⟨before, opcode, after, hsplit, hformed, hopcode⟩
  · rintro ⟨before, opcode, after, hsplit, hformed, hfault⟩
    obtain ⟨config, hconfig⟩ := exists_ofOpcodes_iff.2 hformed
    refine ⟨before, opcode, after, config, hsplit, hconfig, ?_⟩
    rw [Nat.zero_add, (built_of_ofOpcodes hconfig).add_eq_error_iff hformed.distinct]
    exact hfault

theorem wellFormed_iff {opcodes : List Opcode} :
    WellFormed opcodes ↔
      (∀ opcode ∈ opcodes, isMnemonic opcode.mnemonic = true) ∧
        (opcodes.map Opcode.mnemonic).Nodup ∧
        ∀ opcode ∈ opcodes, ∀ kind ∈ opcode.operands, kind ∈ OperandKind.all := by
  simp only [OperandKind.mem_all_iff]
  exact ⟨fun h => ⟨h.mnemonics, h.distinct, h.kinds⟩, fun ⟨hmnemonics, hdistinct, hkinds⟩ =>
    ⟨hmnemonics, hdistinct, hkinds⟩⟩

/-- **A configuration that answers as a well-formed table answers from its list.** -/
theorem Refines.answers {config : Config} {table : Table} (h : Refines config table)
    (hformed : WellFormed table.opcodes) : Answers config table.opcodes where
  listed := h.opcodes
  counted := h.size
  found := by
    intro mnemonic opcode
    rw [h.lookup, Table.lookup?_eq_some_iff hformed]
  missing := by
    intro mnemonic
    simp [h.lookup, Table.lookup?]
  labels := by
    simp [h.labels, Table.usesLabels, Opcode.usesLabels]

/-- **A list becomes a configuration, or its first faulty entry is reported.**  A list of opcodes
becomes a configuration exactly when every mnemonic is valid, no two are the same, and every operand
kind is one of the four; the configuration then answers from the list, and as its table does.
Otherwise the error is that of an entry behind others that are all in order: its mnemonic is looked
at first, then whether an entry in front of it has the mnemonic, then its operand kinds from left to
right. -/
theorem ofOpcodes_exact (opcodes : List Opcode) :
    ((∃ config, ofOpcodes opcodes = .ok config) ↔
        (∀ opcode ∈ opcodes, isMnemonic opcode.mnemonic = true) ∧
          (opcodes.map Opcode.mnemonic).Nodup ∧
          ∀ opcode ∈ opcodes, ∀ kind ∈ opcode.operands, kind ∈ OperandKind.all) ∧
      (∀ config, ofOpcodes opcodes = .ok config →
        Answers config opcodes ∧ Refines config config.table) ∧
      ∀ error, ofOpcodes opcodes = .error error ↔
        ∃ before opcode after, opcodes = before ++ opcode :: after ∧ WellFormed before ∧
          Fault before opcode error := by
  refine ⟨?_, ?_, fun error => ofOpcodes_eq_error_iff⟩
  · rw [← wellFormed_iff]
    exact exists_ofOpcodes_iff
  · intro config hconfig
    have hformed : WellFormed opcodes := exists_ofOpcodes_iff.1 ⟨config, hconfig⟩
    have hbuilt := built_of_ofOpcodes hconfig
    refine ⟨hbuilt.refines.answers hformed, ?_⟩
    rw [table, hbuilt.listed]
    exact hbuilt.refines

/-- An opcode without operands. -/
def halt : Opcode := ⟨utf8 "HLT", 0x00, []⟩

/-- An opcode with a label. -/
def branch : Opcode := ⟨utf8 "BR", 0x10, [.register, .label]⟩

/-- An opcode that has the mnemonic of another, and an operand kind that means nothing. -/
def secondBranch : Opcode := ⟨utf8 "BR", 0x11, [.unknown 9]⟩

/-- The configuration of the first two. -/
def branches : Config where
  opcodes := [halt, branch]
  index := [(utf8 "BR", 1), (utf8 "HLT", 0)]
  labels := true

/-- Two opcodes are a configuration; of a third one the mnemonic is reported, not the operand
kind. -/
theorem branches_exact :
    ofOpcodes [halt, branch] = .ok branches ∧ Answers branches [halt, branch] ∧
      branches.lookup? (utf8 "BR") = some branch ∧
      ofOpcodes [halt, branch, secondBranch, halt] =
        .error (.duplicateMnemonic (utf8 "BR") 2 1) := by
  have hgood : ofOpcodes [halt, branch] = .ok branches := by decide
  have hanswers := ((ofOpcodes_exact [halt, branch]).2.1 _ hgood).1
  have hfault : Fault [halt, branch] secondBranch (.duplicateMnemonic (utf8 "BR") 2 1) :=
    @Fault.duplicate _ _ [halt] [] branch (by decide) rfl rfl (by decide)
  have hformed : WellFormed [halt, branch] := exists_ofOpcodes_iff.1 ⟨_, hgood⟩
  exact ⟨hgood, hanswers, (hanswers.found _ _).2 ⟨by decide, rfl⟩,
    ((ofOpcodes_exact _).2.2 _).2 ⟨[halt, branch], secondBranch, [halt], rfl, hformed, hfault⟩⟩

end Config

/-- A list becomes no table exactly for its first faulty entry. -/
theorem Table.ofOpcodes_eq_error_iff {opcodes : List Opcode} {error : TableError} :
    ofOpcodes opcodes = .error error ↔
      ∃ before opcode after, opcodes = before ++ opcode :: after ∧ WellFormed before ∧
        Config.Fault before opcode error := by
  rw [ofOpcodes, Outcome.map_eq_error, Config.ofOpcodes_eq_error_iff]

end TableAssembler
