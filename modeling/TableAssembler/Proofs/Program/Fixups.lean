/-
**Fixups are the label operands.**

The resolver notes a fixup while it is still putting an instruction together, and uses it only when
all statements are done.  What it relies on is said here as an invariant of the statements taken so
far: the fixups are the label operands of the instructions, in order, each at the place of its
field, and the two bytes there are still zero.  A statement keeps the invariant
(`Fixups.Sound.step`), whatever kind of statement it is, and so does a list of them
(`Fixups.Sound.run`).  Linking then writes every one of those bytes once, and no other.

Main definitions:

* `Fixups.labelOperands` — the label operands of an instruction, each with the place of its field;
* `Fixups.Sound` — **the invariant**;
* `Fixups.IsField` — a fixup for a given label operand;
* `Fixups.written` — the places that linking writes, in order;
* `Fixups.Plain` — the bytes of an instruction that are no part of a label operand;
* `Fixups.Confined` — linking stays within the label operands.

Main results:

* `Fixups.labelOperands_placedAs` — the fixups of a statement are its label operands;
* `Fixups.Sound.step`, `Fixups.Sound.run` — one statement, and a list of them;
* `Fixups.Sound.confined` — what the invariant says about linking;
* `Fixups.fixups_sound` — **fixups are the label operands, and linking touches nothing else**.
-/

import TableAssembler.Proofs.Program.Tiling

set_option relaxedAutoImplicit false
set_option autoImplicit false

namespace TableAssembler

namespace Tiling

/-- A tiling goes on where another ends. -/
theorem Tiles.append {start middle stop : Nat} {first second : List Instruction}
    (h : Tiles start first middle) (hsecond : Tiles middle second stop) :
    Tiles start (first ++ second) stop := by
  induction first generalizing start with
  | nil =>
      obtain rfl : start = middle := h
      exact hsecond
  | cons instruction rest ih => exact ⟨h.1, ih h.2⟩

end Tiling

namespace Fixups

open Layout Encoding Tiling
open Text (utf8)

/-- The field at position `n` of fields that start at `offset`, if it is that of a label. -/
def labelField? (offset : Nat) (kinds : List OperandKind) (tokens : List Token) (n : Nat) :
    Option Fixup :=
  match kinds[n]?, tokens[n]? with
  | some .label, some token => some ⟨offset + operandsSize (kinds.take n), token⟩
  | _, _ => none

/-- **The label operands of an instruction**, each with the place of its field. -/
def labelOperands (table : Table) (instruction : Instruction) : List Fixup :=
  if instruction.statement.directive = true then []
  else
    match table.lookup? instruction.statement.mnemonic with
    | some opcode =>
        (List.range opcode.operands.length).filterMap
          (labelField? (instruction.offset + 1) opcode.operands instruction.statement.operands)
    | none => []

/-- **The invariant of the fixups**, for the statements taken so far. -/
structure Sound (table : Table) (resolver : Resolver) : Prop where
  /-- The instructions lie one behind the other, up to the end of the binary. -/
  tiled : Tiles 0 resolver.instructions.toList resolver.binary.size
  sized : ∀ instruction ∈ resolver.instructions.toList, Sized table instruction
  /-- There is one fixup for each label operand, in order, at the place of its field. -/
  complete : resolver.fixups.toList = resolver.instructions.toList.flatMap (labelOperands table)
  /-- The fixups increase, by two bytes at least. -/
  spaced : resolver.fixups.toList.Pairwise fun fixup later => fixup.offset + 2 ≤ later.offset
  /-- The two bytes of a fixup are there, and zero. -/
  blank : ∀ fixup ∈ resolver.fixups.toList,
    resolver.binary[fixup.offset]? = some 0 ∧ resolver.binary[fixup.offset + 1]? = some 0
  /-- Without labels in the table there are no fixups. -/
  unused : table.usesLabels = false → resolver.fixups = #[]

/-- **A fixup is that of the label operand at position `n` of an instruction**: its place is behind
the opcode byte and the operands in front, and its token is the operand. -/
structure IsField (table : Table) (instruction : Instruction) (n : Nat) (fixup : Fixup) : Prop where
  plain : instruction.statement.directive = false
  label : ∃ opcode, table.lookup? instruction.statement.mnemonic = some opcode ∧
    opcode.operands[n]? = some .label ∧
      fixup.offset = instruction.offset + 1 + operandsSize (opcode.operands.take n)
  operand : instruction.statement.operands[n]? = some fixup.operand

/-- The places that linking writes, in order. -/
def written (fixups : List Fixup) : List Nat :=
  fixups.flatMap fun fixup => [fixup.offset, fixup.offset + 1]

/-- **The bytes of an instruction that are no part of a label operand**: all bytes of a directive,
the opcode byte, and the bytes of numbers. -/
inductive Plain (table : Table) (instruction : Instruction) : Nat → Prop
  | directive {k : Nat} (h : instruction.statement.directive = true) (lt : k < instruction.size) :
      Plain table instruction k
  | opcode (h : instruction.statement.directive = false) : Plain table instruction 0
  | number {opcode : Opcode} {n i : Nat} {kind : OperandKind}
      (h : instruction.statement.directive = false)
      (found : table.lookup? instruction.statement.mnemonic = some opcode)
      (operand : opcode.operands[n]? = some kind) (ne : kind ≠ .label) (lt : i < kind.width) :
      Plain table instruction (1 + operandsSize (opcode.operands.take n) + i)

/-- **Linking stays within the label operands.** -/
structure Confined (table : Table) (resolver : Resolver) : Prop where
  inside : ∀ place ∈ written resolver.fixups.toList, place < resolver.binary.size
  once : (written resolver.fixups.toList).Nodup
  /-- When a fixup is patched, the binary has its size and the two bytes are as they were. -/
  steps : ∀ before fixup after middle, resolver.fixups.toList = before ++ fixup :: after →
    before.foldlM (Resolver.linkOne resolver.symbols) resolver.binary = .ok middle →
      middle.size = resolver.binary.size ∧ middle[fixup.offset]? = some 0 ∧
        middle[fixup.offset + 1]? = some 0
  /-- Linking changes nothing but bytes of the binary. -/
  rest : ∀ linked, resolver.link = .ok linked →
    linked = { resolver with binary := linked.binary } ∧
      linked.binary.size = resolver.binary.size
  /-- A byte that linking changes is a byte of a label operand. -/
  outside : ∀ linked, resolver.link = .ok linked → ∀ place,
    linked.binary[place]? ≠ resolver.binary[place]? →
      ∃ instruction ∈ resolver.instructions.toList, ∃ n fixup,
        IsField table instruction n fixup ∧ (place = fixup.offset ∨ place = fixup.offset + 1)
  /-- Opcode bytes, numbers and the bytes of directives stay as they are. -/
  plain : ∀ linked, resolver.link = .ok linked → ∀ instruction ∈ resolver.instructions.toList,
    ∀ k, Plain table instruction k →
      linked.binary[instruction.offset + k]? = resolver.binary[instruction.offset + k]?

/-! ### Fields of label operands -/

theorem labelField?_eq_some_iff {offset n : Nat} {kinds : List OperandKind} {tokens : List Token}
    {fixup : Fixup} :
    labelField? offset kinds tokens n = some fixup ↔
      kinds[n]? = some .label ∧ tokens[n]? = some fixup.operand ∧
        fixup.offset = offset + operandsSize (kinds.take n) := by
  unfold labelField?
  split
  · rename_i token hkind htoken
    obtain ⟨place, operand⟩ := fixup
    simp only [Option.some.injEq, Fixup.mk.injEq, hkind, htoken, true_and]
    exact ⟨fun h => ⟨h.2, h.1.symm⟩, fun h => ⟨h.2.symm, h.1⟩⟩
  · rename_i hnot
    simp only [reduceCtorEq, false_iff, not_and]
    intro hkind htoken
    exact absurd htoken (hnot _ hkind)

theorem mem_labelOperands {table : Table} {instruction : Instruction} {fixup : Fixup} :
    fixup ∈ labelOperands table instruction ↔ ∃ n, IsField table instruction n fixup := by
  unfold labelOperands
  cases hdirective : instruction.statement.directive with
  | true =>
      simp only [if_true, List.not_mem_nil, false_iff, not_exists]
      intro n h
      simpa [hdirective] using h.plain
  | false =>
      rw [if_neg (by simp)]
      constructor
      · split
        · rename_i opcode found
          intro h
          obtain ⟨n, -, hn⟩ := List.mem_filterMap.1 h
          obtain ⟨hkind, htoken, hoffset⟩ := labelField?_eq_some_iff.1 hn
          exact ⟨n, hdirective, ⟨opcode, found, hkind, hoffset⟩, htoken⟩
        · simp
      · rintro ⟨n, -, ⟨opcode, found, hkind, hoffset⟩, htoken⟩
        rw [found]
        refine List.mem_filterMap.2 ⟨n, ?_, labelField?_eq_some_iff.2 ⟨hkind, htoken, hoffset⟩⟩
        exact List.mem_range.2 (List.getElem?_eq_some_iff.1 hkind).1

/-- The fixups of fields, by position. -/
theorem fieldFixups_zip (offset : Nat) (kinds : List OperandKind) (tokens : List Token) :
    fieldFixups offset (kinds.zip tokens) =
      (List.range kinds.length).filterMap (labelField? offset kinds tokens) := by
  induction kinds generalizing offset tokens with
  | nil => simp [fieldFixups]
  | cons kind kinds ih =>
      cases tokens with
      | nil => simp [fieldFixups, labelField?]
      | cons token tokens =>
          have hnext : labelField? offset (kind :: kinds) (token :: tokens) ∘ Nat.succ =
              labelField? (offset + kind.width) kinds tokens := by
            funext n
            simp [labelField?, operandsSize, Nat.add_assoc]
          rw [List.zip_cons_cons, fieldFixups, ih, List.length_cons, List.range_succ_eq_map,
            List.filterMap_cons, List.filterMap_map, hnext]
          by_cases hlabel : kind = .label
          · subst hlabel
            simp [labelField?, operandsSize]
          · have hnone : labelField? offset (kind :: kinds) (token :: tokens) 0 = none := by
              cases kind <;> simp_all [labelField?]
            simp [hlabel, hnone]

/-- **The fixups of a statement are its label operands.** -/
theorem labelOperands_placedAs (table : Table) (offset : Nat) (statement : Statement) :
    labelOperands table (placedAs table (offset, statement)) = fixupsAt table offset statement := by
  cases hdirective : statement.directive with
  | true => simp [labelOperands, placedAs, fixupsAt, hdirective]
  | false =>
      cases found : table.lookup? statement.mnemonic with
      | none => simp [labelOperands, placedAs, fixupsAt, hdirective, found, fields, fieldFixups]
      | some opcode =>
          simp only [labelOperands, placedAs, fixupsAt, hdirective, found, fields, if_true,
            Bool.false_eq_true, if_false, fieldFixups_zip]

theorem le_of_mem_fieldFixups {offset : Nat} {fields : List (OperandKind × Token)} {fixup : Fixup}
    (h : fixup ∈ fieldFixups offset fields) : offset ≤ fixup.offset := by
  induction fields generalizing offset with
  | nil => simp [fieldFixups] at h
  | cons field fields ih =>
      rw [fieldFixups, List.mem_append] at h
      rcases h with h | h
      · split at h
        · obtain rfl := List.mem_singleton.1 h
          exact Nat.le_refl _
        · cases h
      · have := ih h
        omega

/-- The fields of labels lie two bytes apart at least. -/
theorem spaced_fieldFixups (offset : Nat) (fields : List (OperandKind × Token)) :
    (fieldFixups offset fields).Pairwise fun fixup later => fixup.offset + 2 ≤ later.offset := by
  induction fields generalizing offset with
  | nil => simp [fieldFixups]
  | cons field fields ih =>
      rw [fieldFixups, List.pairwise_append]
      refine ⟨?_, ih _, ?_⟩
      · split <;> simp
      · intro fixup hfixup later hlater
        split at hfixup
        · rename_i hlabel
          obtain rfl := List.mem_singleton.1 hfixup
          have := le_of_mem_fieldFixups hlater
          simpa [hlabel, OperandKind.width] using this
        · cases hfixup

/-- The fields of labels are left zero. -/
theorem blank_fieldFixups {fields : List (OperandKind × Token)} {before : Text} {fixup : Fixup}
    (h : fixup ∈ fieldFixups before.length fields) :
    (before ++ fields.flatMap (fieldBytes []))[fixup.offset]? = some 0 ∧
      (before ++ fields.flatMap (fieldBytes []))[fixup.offset + 1]? = some 0 := by
  -- induction on the fields: each joins what stands before the rest
  induction fields generalizing before with
  | nil => simp [fieldFixups] at h
  | cons field fields ih =>
      rw [fieldFixups, List.mem_append] at h
      rcases h with h | h
      · split at h
        · rename_i hlabel
          obtain rfl := List.mem_singleton.1 h
          have hzero : fieldBytes [] field = [0, 0] := by
            simp [fieldBytes, fieldValue, hlabel, OperandKind.width, offsetOf]
          simp [hzero]
        · cases h
      · rw [← length_fieldBytes [], ← List.length_append] at h
        have := ih h
        rwa [List.append_assoc, ← List.flatMap_cons] at this

/-! ### Statements -/

theorem le_of_mem_fixupsAt {table : Table} {offset : Nat} {statement : Statement} {fixup : Fixup}
    (h : fixup ∈ fixupsAt table offset statement) : offset ≤ fixup.offset := by
  unfold fixupsAt at h
  split at h
  · have := le_of_mem_fieldFixups h
    omega
  · cases h

theorem spaced_fixupsAt (table : Table) (offset : Nat) (statement : Statement) :
    (fixupsAt table offset statement).Pairwise fun fixup later =>
      fixup.offset + 2 ≤ later.offset := by
  unfold fixupsAt
  split
  · exact spaced_fieldFixups _ _
  · exact List.Pairwise.nil

theorem blank_fixupsAt {table : Table} {before : Text} {statement : Statement} {fixup : Fixup}
    (h : fixup ∈ fixupsAt table before.length statement) :
    (before ++ bytes table [] before.length statement)[fixup.offset]? = some 0 ∧
      (before ++ bytes table [] before.length statement)[fixup.offset + 1]? = some 0 := by
  unfold fixupsAt at h
  split at h
  · rename_i plain
    cases found : table.lookup? statement.mnemonic with
    | none => simp [fields, found, fieldFixups] at h
    | some opcode =>
        have hlength : (before ++ [opcode.binary]).length = before.length + 1 := by simp
        rw [← hlength] at h
        have := blank_fieldFixups h
        simpa [bytes, plain, instructionBytes, found] using this
  · cases h

section Step

variable {table : Table} {resolver after : Resolver}

/-- **A statement keeps the invariant.** -/
theorem Sound.step (h : Sound table resolver) {statement : Statement}
    (hstep : resolver.statement table statement = .ok after) : Sound table after := by
  obtain ⟨hfits, -, rfl⟩ := statement_eq_ok_iff.1 hstep
  have hlength : resolver.binary.toList.length = resolver.offset := rfl
  have hsize : (extend table resolver [(resolver.offset, statement)]).binary.size =
      resolver.offset + size table resolver.offset statement := offset_extend hfits
  have hinstructions :
      (extend table resolver [(resolver.offset, statement)]).instructions.toList =
        resolver.instructions.toList ++ [placedAs table (resolver.offset, statement)] := by
    simp [extend, placedAs]
  have hbinary : (extend table resolver [(resolver.offset, statement)]).binary.toList =
      resolver.binary.toList ++ bytes table [] resolver.offset statement := by
    simp [extend]
  have hfixups : (extend table resolver [(resolver.offset, statement)]).fixups.toList =
      resolver.fixups.toList ++ fixupsAt table resolver.offset statement := by
    simp [extend]
  have hinside : ∀ fixup ∈ resolver.fixups.toList, fixup.offset + 1 < resolver.offset := by
    intro fixup hfixup
    exact (Array.getElem?_eq_some_iff.1 (h.blank fixup hfixup).2).1
  refine ⟨?_, ?_, ?_, ?_, ?_, ?_⟩
  · rw [hinstructions, hsize]
    exact h.tiled.append ⟨rfl, rfl⟩
  · rw [hinstructions, List.forall_mem_append]
    exact ⟨h.sized, List.forall_mem_singleton.2 (sized_of_fits hfits)⟩
  · rw [hfixups, hinstructions, List.flatMap_append, h.complete, List.flatMap_singleton,
      labelOperands_placedAs]
  · rw [hfixups, List.pairwise_append]
    refine ⟨h.spaced, spaced_fixupsAt _ _ _, fun fixup hfixup later hlater => ?_⟩
    have := hinside fixup hfixup
    have := le_of_mem_fixupsAt hlater
    omega
  · simp only [← Array.getElem?_toList, hbinary, hfixups, List.forall_mem_append]
    refine ⟨fun fixup hfixup => ?_, fun fixup hfixup => blank_fixupsAt hfixup⟩
    have hlt := hinside fixup hfixup
    rw [List.getElem?_append_left (by omega), List.getElem?_append_left (by omega)]
    simpa using h.blank fixup hfixup
  · intro hlabels
    rw [← Array.toList_eq_nil_iff, hfixups, h.unused hlabels,
      Linking.fixupsAt_of_not_usesLabels hlabels]
    rfl

theorem sound_empty (table : Table) : Sound table {} where
  tiled := rfl
  sized := by simp
  complete := rfl
  spaced := List.Pairwise.nil
  blank := by simp
  unused := fun _ => rfl

/-- **A list of statements keeps the invariant.** -/
theorem Sound.run {statements : List Statement} (h : Sound table resolver)
    (hrun : statements.foldlM (Resolver.statement table) resolver = .ok after) :
    Sound table after := by
  induction statements generalizing resolver with
  | nil =>
      obtain rfl : resolver = after := by simpa [pure, Except.pure] using hrun
      exact h
  | cons statement rest ih =>
      rw [List.foldlM_cons] at hrun
      obtain ⟨middle, hfirst, hrest⟩ := Outcome.bind_eq_ok.1 hrun
      exact ih (h.step hfirst) hrest

end Step

/-! ### Linking -/

theorem mem_written {fixups : List Fixup} {place : Nat} :
    place ∈ written fixups ↔
      ∃ fixup ∈ fixups, place = fixup.offset ∨ place = fixup.offset + 1 := by
  simp [written]

/-- Fixups that lie two bytes apart share no byte. -/
theorem nodup_written {fixups : List Fixup}
    (h : fixups.Pairwise fun fixup later => fixup.offset + 2 ≤ later.offset) :
    (written fixups).Nodup := by
  induction fixups with
  | nil => simp [written]
  | cons fixup rest ih =>
      rw [List.pairwise_cons] at h
      obtain ⟨hfirst, hrest⟩ := h
      have hdisjoint : [fixup.offset, fixup.offset + 1].Disjoint (written rest) := by
        intro place hplace hlater
        obtain ⟨later, hmem, hlater⟩ := mem_written.1 hlater
        have := hfirst later hmem
        have hplace : place = fixup.offset ∨ place = fixup.offset + 1 := by simpa using hplace
        omega
      rw [written, List.flatMap_cons]
      exact List.Nodup.append (by simp) (ih hrest) hdisjoint

theorem length_patchAll (symbols : List Symbol) (binary : Text) (fixups : List Fixup) :
    (Linking.patchAll symbols binary fixups).length = binary.length := by
  induction fixups generalizing binary with
  | nil => rfl
  | cons fixup rest ih =>
      have := ih (Linking.patchOne symbols binary fixup)
      simpa [Linking.patchAll, Linking.patchOne] using this

/-- **Patching leaves alone what it does not write.** -/
theorem getElem?_patchAll {symbols : List Symbol} {binary : Text} {fixups : List Fixup}
    {place : Nat} (h : place ∉ written fixups) :
    (Linking.patchAll symbols binary fixups)[place]? = binary[place]? := by
  induction fixups generalizing binary with
  | nil => rfl
  | cons fixup rest ih =>
      rw [written, List.flatMap_cons, List.mem_append, not_or] at h
      obtain ⟨hfirst, hrest⟩ := h
      have hne : fixup.offset ≠ place ∧ fixup.offset + 1 ≠ place := by
        simpa [eq_comm] using hfirst
      have hone : (Linking.patchOne symbols binary fixup)[place]? = binary[place]? := by
        rw [Linking.patchOne, List.getElem?_set_ne hne.2, List.getElem?_set_ne hne.1]
      exact (ih hrest).trans hone

/-- The sizes of operands in front of one, that one included, are those in front of a later one at
most. -/
theorem operandsSize_take_le {kinds : List OperandKind} {n m : Nat} {kind : OperandKind}
    (h : kinds[n]? = some kind) (hlt : n < m) :
    operandsSize (kinds.take n) + kind.width ≤ operandsSize (kinds.take m) := by
  induction kinds generalizing n m with
  | nil => simp at h
  | cons first rest ih =>
      obtain ⟨m, rfl⟩ : ∃ k, m = k + 1 := ⟨m - 1, by omega⟩
      cases n with
      | zero =>
          obtain rfl : first = kind := by simpa using h
          simp [operandsSize]
      | succ n =>
          have := ih (by simpa using h) (Nat.lt_of_succ_lt_succ hlt)
          simp only [List.take_succ_cons, operandsSize]
          omega

/-- An operand ends within the bytes of its instruction. -/
theorem operandsSize_take_add_lt {opcode : Opcode} {n i : Nat} {kind : OperandKind}
    (h : opcode.operands[n]? = some kind) (hlt : i < kind.width) :
    1 + operandsSize (opcode.operands.take n) + i < opcode.size := by
  have hle := operandsSize_take_le h (List.getElem?_eq_some_iff.1 h).1
  rw [List.take_length] at hle
  simp only [Opcode.size]
  omega

section Confined

variable {table : Table} {instruction : Instruction}

theorem size_eq (hsized : Sized table instruction) {opcode : Opcode}
    (plain : instruction.statement.directive = false)
    (found : table.lookup? instruction.statement.mnemonic = some opcode) :
    instruction.size = opcode.size := by
  obtain ⟨other, hother, hsize⟩ := hsized.opcode plain
  rwa [Option.some.inj (found.symm.trans hother)]

/-- The field of a label operand lies within its instruction. -/
theorem IsField.covers {n : Nat} {fixup : Fixup} (h : IsField table instruction n fixup)
    (hsized : Sized table instruction) {place : Nat}
    (hplace : place = fixup.offset ∨ place = fixup.offset + 1) : Covers place instruction := by
  obtain ⟨opcode, found, hkind, hoffset⟩ := h.label
  have hlt := operandsSize_take_add_lt (i := 1) hkind (by decide)
  have hsize := size_eq hsized h.plain found
  constructor <;> omega

/-- A byte that is no part of a label operand lies within its instruction. -/
theorem Plain.lt {k : Nat} (h : Plain table instruction k) (hsized : Sized table instruction) :
    k < instruction.size := by
  cases h with
  | directive _ lt => exact lt
  | opcode plain =>
      obtain ⟨opcode, found, hsize⟩ := hsized.opcode plain
      simp only [hsize, Opcode.size]
      omega
  | number plain found operand _ lt =>
      rw [size_eq hsized plain found]
      exact operandsSize_take_add_lt operand lt

/-- No byte of a label operand is a byte that is no part of one. -/
theorem Plain.ne {k : Nat} (h : Plain table instruction k) {n : Nat} {fixup : Fixup}
    (hfield : IsField table instruction n fixup) :
    ¬(instruction.offset + k = fixup.offset ∨ instruction.offset + k = fixup.offset + 1) := by
  obtain ⟨opcode, found, hlabel, hoffset⟩ := hfield.label
  cases h with
  | directive directive _ => simp [hfield.plain] at directive
  | opcode _ => omega
  | @number other m i kind _ found' operand ne lt =>
      obtain rfl : opcode = other := Option.some.inj (found.symm.trans found')
      -- one of the two operands stands in front of the other
      rcases Nat.lt_trichotomy m n with hlt | rfl | hlt
      · have := operandsSize_take_le operand hlt
        omega
      · exact absurd (Option.some.inj (operand.symm.trans hlabel)) ne
      · have hle := operandsSize_take_le hlabel hlt
        simp only [OperandKind.width] at hle
        omega

variable {resolver : Resolver}

/-- The places that linking writes are those of label operands. -/
theorem Sound.mem_written_iff (h : Sound table resolver) {place : Nat} :
    place ∈ written resolver.fixups.toList ↔
      ∃ instruction ∈ resolver.instructions.toList, ∃ n fixup,
        IsField table instruction n fixup ∧
          (place = fixup.offset ∨ place = fixup.offset + 1) := by
  rw [mem_written, h.complete]
  simp only [List.mem_flatMap, mem_labelOperands]
  constructor
  · rintro ⟨fixup, ⟨instruction, hmem, n, hfield⟩, hplace⟩
    exact ⟨instruction, hmem, n, fixup, hfield, hplace⟩
  · rintro ⟨instruction, hmem, n, fixup, hfield, hplace⟩
    exact ⟨fixup, ⟨instruction, hmem, n, hfield⟩, hplace⟩

/-- Linking does not write the bytes of an instruction that are no part of a label operand. -/
theorem Sound.notMem_written (h : Sound table resolver)
    (hmem : instruction ∈ resolver.instructions.toList) {k : Nat}
    (hplain : Plain table instruction k) :
    instruction.offset + k ∉ written resolver.fixups.toList := by
  intro hwritten
  obtain ⟨other, hother, n, fixup, hfield, hplace⟩ := h.mem_written_iff.1 hwritten
  have hcovers : Covers (instruction.offset + k : Nat) instruction := by
    have := hplain.lt (h.sized _ hmem)
    constructor <;> omega
  -- a place belongs to one instruction only, so that the field is one of this instruction
  obtain ⟨i, hi⟩ := List.mem_iff_getElem?.1 hmem
  obtain ⟨j, hj⟩ := List.mem_iff_getElem?.1 hother
  obtain rfl := h.tiled.covers_unique hi hj hcovers (hfield.covers (h.sized _ hother) hplace)
  obtain rfl := Option.some.inj (hi.symm.trans hj)
  exact hplain.ne hfield hplace

/-- **With the invariant, linking stays within the label operands.** -/
theorem Sound.confined (h : Sound table resolver) : Confined table resolver := by
  have hbinary : ∀ linked, resolver.link = .ok linked →
      linked = { resolver with binary := linked.binary } ∧
        linked.binary.toList = Linking.patchAll resolver.symbols.toList resolver.binary.toList
          resolver.fixups.toList := by
    intro linked hlinked
    obtain ⟨-, rfl⟩ := Linking.link_eq_ok_iff.1 hlinked
    exact ⟨rfl, rfl⟩
  have hnodup := nodup_written h.spaced
  refine ⟨?_, hnodup, ?_, ?_, ?_, ?_⟩
  · intro place hplace
    obtain ⟨fixup, hfixup, rfl | rfl⟩ := mem_written.1 hplace
    · exact (Array.getElem?_eq_some_iff.1 (h.blank fixup hfixup).1).1
    · exact (Array.getElem?_eq_some_iff.1 (h.blank fixup hfixup).2).1
  · intro before fixup after middle hsplit hbefore
    obtain ⟨-, hmiddle⟩ := Linking.foldlM_linkOne_eq_ok_iff.1 hbefore
    have hblank := h.blank fixup (by simp [hsplit])
    rw [hsplit, written, List.flatMap_append, List.flatMap_cons] at hnodup
    have hfresh := List.disjoint_of_nodup_append hnodup
    have hkept : ∀ place, place = fixup.offset ∨ place = fixup.offset + 1 →
        middle[place]? = resolver.binary[place]? := by
      intro place hplace
      have hnew : place ∉ written before := fun hmem =>
        hfresh hmem (List.mem_append_left _ (by simpa using hplace))
      rw [← Array.getElem?_toList, hmiddle, getElem?_patchAll hnew, Array.getElem?_toList]
    refine ⟨?_, (hkept _ (.inl rfl)).trans hblank.1, (hkept _ (.inr rfl)).trans hblank.2⟩
    rw [← Array.length_toList, hmiddle, length_patchAll, Array.length_toList]
  · intro linked hlinked
    obtain ⟨hrest, hpatched⟩ := hbinary linked hlinked
    exact ⟨hrest, by rw [← Array.length_toList, hpatched, length_patchAll, Array.length_toList]⟩
  · intro linked hlinked place hchanged
    refine h.mem_written_iff.1 ?_
    by_contra hplace
    rw [← Array.getElem?_toList, (hbinary linked hlinked).2, getElem?_patchAll hplace,
      Array.getElem?_toList] at hchanged
    exact hchanged rfl
  · intro linked hlinked instruction hmem k hplain
    rw [← Array.getElem?_toList, (hbinary linked hlinked).2,
      getElem?_patchAll (h.notMem_written hmem hplain), Array.getElem?_toList]

end Confined

/-- The instructions of the statements taken so far are those statements, in order. -/
theorem map_statement_of_run {table : Table} {statements : List Statement} {resolver : Resolver}
    (h : statements.foldlM (Resolver.statement table) {} = .ok resolver) :
    resolver.instructions.toList.map Instruction.statement = statements := by
  obtain ⟨-, -, rfl⟩ := run_eq_ok_iff.1 h
  have hplace := Linking.map_snd_place table (Resolver.offset {}) statements
  simpa [extend, Function.comp_def] using hplace

/-- **Fixups are the label operands, and linking touches nothing else.**  After any number of
statements, the fixups increase by two bytes at least, and address two bytes of the binary that are
still zero.  There is one of them for each label operand of the instructions made so far, in the
order of the source: its place is the field of that operand and its token is the operand itself.
A table without labels has none.  So linking writes inside of the binary only and no byte twice, and
every byte that is no part of a label operand stays as it is. -/
theorem fixups_sound (table : Table) (statements : List Statement) (resolver : Resolver)
    (h : statements.foldlM (Resolver.statement table) {} = .ok resolver) :
    resolver.instructions.toList.map Instruction.statement = statements ∧
      Sound table resolver ∧
      (∀ fixup ∈ resolver.fixups.toList, ∃ instruction ∈ resolver.instructions.toList, ∃ n,
        IsField table instruction n fixup) ∧
      Confined table resolver := by
  have hsound : Sound table resolver := (sound_empty table).run h
  refine ⟨map_statement_of_run h, hsound, ?_, hsound.confined⟩
  intro fixup hfixup
  rw [hsound.complete] at hfixup
  obtain ⟨instruction, hmem, hfield⟩ := List.mem_flatMap.1 hfixup
  exact ⟨instruction, hmem, mem_labelOperands.1 hfield⟩

/-- A table with an opcode that takes two labels and a number between them. -/
def callTable : Table := ⟨[⟨utf8 "CALL", 0x20, [.label, .register, .label]⟩]⟩

/-- A use of that opcode, with a label in front. -/
def call (label first number second : String) : Statement where
  labels := [⟨utf8 label, {}⟩]
  mnemonic := utf8 "CALL"
  operands := [{ kind := .identifier, text := utf8 first },
    { kind := .number, text := utf8 number }, { kind := .identifier, text := utf8 second }]

/-- Two such instructions with a directive between them have four fixups, each at its field. -/
theorem calls_sound :
    ∃ resolver, [call "a" "b" "7" "a", fillTo "8", call "b" "a" "9" "b"].foldlM
        (Resolver.statement callTable) {} = .ok resolver ∧
      resolver.fixups.toList.map (fun fixup => (fixup.offset, fixup.operand.text)) =
        [(1, utf8 "b"), (4, utf8 "a"), (9, utf8 "a"), (12, utf8 "b")] ∧
      Sound callTable resolver ∧ Confined callTable resolver := by
  obtain ⟨resolver, hrun, hfixups⟩ : ∃ resolver,
      [call "a" "b" "7" "a", fillTo "8", call "b" "a" "9" "b"].foldlM
        (Resolver.statement callTable) {} = .ok resolver ∧
      resolver.fixups.toList.map (fun fixup => (fixup.offset, fixup.operand.text)) =
        [(1, utf8 "b"), (4, utf8 "a"), (9, utf8 "a"), (12, utf8 "b")] :=
    Outcome.map_eq_ok.1 (by decide)
  obtain ⟨-, hsound, -, hconfined⟩ := fixups_sound callTable _ resolver hrun
  exact ⟨resolver, hrun, hfixups, hsound, hconfined⟩

end Fixups

end TableAssembler
