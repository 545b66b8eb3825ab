/-
**Entries of opcode files, and the opcodes that they describe.**

An entry describes an opcode if its number is that of the opcode and its names are those of the
opcode's operand kinds.  An entry that describes none has a fault, and the first fault of the first
such entry is the one reported: the number is looked at before the names, and the names from left to
right.

Main definitions:

* `Entry.Describes` — the opcode of an entry;
* `Entry.Fault` — **the fault of an entry** that describes no opcode;
* `Opcode.entry` — the entry that an opcode is written down as.

Main results:

* `OperandKind.ofName?_eq_some_iff` — the names of the four kinds are told apart;
* `Entry.toOpcode_eq_ok_iff`, `Entry.toOpcode_eq_error_iff` — one entry;
* `Entry.toOpcodesFrom_eq_ok_iff`, `Entry.toOpcodesFrom_eq_error_iff` — **a list of entries is
  refused for the first of them that has a fault**;
* `Opcode.describes_entry` — an opcode is described by the entry that it is written down as.
-/

import TableAssembler.OpcodeFile.Entry
import TableAssembler.Proofs.Opcode.Validation

set_option relaxedAutoImplicit false
set_option autoImplicit false

namespace TableAssembler

/-! ### Names of operand kinds -/

namespace OperandKind

theorem ofName?_eq_some_iff {name : Text} {kind : OperandKind} :
    ofName? name = some kind ↔ kind ∈ all ∧ kind.name = name :=
  find?_key_eq_some_iff (by decide)

end OperandKind

namespace Entry

/-- A name is that of an operand kind. -/
def Spells (name : Text) (kind : OperandKind) : Prop := kind ∈ OperandKind.all ∧ kind.name = name

/-- **An entry describes an opcode.** -/
structure Describes (entry : Entry) (opcode : Opcode) : Prop where
  mnemonic : entry.mnemonic = opcode.mnemonic
  binary : entry.binary = opcode.binary.toNat
  operands : List.Forall₂ Spells entry.operands opcode.operands

/-- **The fault of an entry**: its number does not fit in a byte; or, if it does, a name is none of
an operand kind, as those to the left of it are. -/
inductive Fault (entry : Entry) : TableError → Prop
  | binary (outside : entry.binary < 0 ∨ 0xFF < entry.binary) :
      Fault entry (.opcodeBinary entry.binary)
  | operand {known rest : List Text} {name : Text}
      (inside : 0 ≤ entry.binary ∧ entry.binary ≤ 0xFF)
      (split : entry.operands = known ++ name :: rest)
      (fine : ∀ other ∈ known, ∃ kind, Spells other kind) (bad : ∀ kind, ¬Spells name kind) :
      Fault entry (.operandKind name)

theorem Describes.kinds {entry : Entry} {opcode : Opcode} (h : entry.Describes opcode) :
    ∀ kind ∈ opcode.operands, kind ∈ OperandKind.all :=
  ((List.forall₂_and_left _ _).1 h.operands.flip).1

/-- Operand kinds of opcodes that are described are known. -/
theorem kinds_of_describes {entries : List Entry} {opcodes : List Opcode}
    (h : List.Forall₂ Describes entries opcodes) :
    ∀ opcode ∈ opcodes, ∀ kind ∈ opcode.operands, kind ∈ OperandKind.all := by
  have hboth := h.flip.imp fun _ _ hdescribes => And.intro hdescribes.kinds hdescribes
  exact ((List.forall₂_and_left _ _).1 hboth).1

/-! ### Operands -/

/-- The operand kind with a given name, or an error with the name. -/
def operandKind (name : Text) : Except TableError OperandKind :=
  match OperandKind.ofName? name with
  | none => .error (.operandKind name)
  | some kind => .ok kind

theorem operandKinds_eq_mapM (names : List Text) : operandKinds names = names.mapM operandKind := by
  induction names with
  | nil => rfl
  | cons name names ih =>
      rw [List.mapM_cons, ← ih, operandKinds, operandKind]
      cases OperandKind.ofName? name <;> rfl

theorem operandKind_eq_ok_iff {name : Text} {kind : OperandKind} :
    operandKind name = .ok kind ↔ Spells name kind := by
  rw [Spells, ← OperandKind.ofName?_eq_some_iff, operandKind]
  cases OperandKind.ofName? name <;> simp

theorem operandKind_eq_error_iff {name : Text} {error : TableError} :
    operandKind name = .error error ↔ (∀ kind, ¬Spells name kind) ∧ error = .operandKind name := by
  simp only [Spells, ← OperandKind.ofName?_eq_some_iff, operandKind]
  cases OperandKind.ofName? name <;> simp [eq_comm]

theorem operandKinds_eq_ok_iff {names : List Text} {kinds : List OperandKind} :
    operandKinds names = .ok kinds ↔ List.Forall₂ Spells names kinds := by
  simp only [operandKinds_eq_mapM, Outcome.mapM_eq_ok, operandKind_eq_ok_iff]

/-- Names are refused for the first that is none of an operand kind. -/
theorem operandKinds_eq_error_iff {names : List Text} {error : TableError} :
    operandKinds names = .error error ↔
      ∃ known name rest, names = known ++ name :: rest ∧
        (∀ other ∈ known, ∃ kind, Spells other kind) ∧ (∀ kind, ¬Spells name kind) ∧
          error = .operandKind name := by
  simp only [operandKinds_eq_mapM, Outcome.mapM_eq_error, operandKind_eq_ok_iff,
    operandKind_eq_error_iff]

/-! ### A single entry -/

/-- A number from zero to 255 is that of one byte. -/
theorem eq_ofNat_iff {number : Int} (h : 0 ≤ number ∧ number ≤ 0xFF) {byte : UInt8} :
    UInt8.ofNat number.toNat = byte ↔ number = byte.toNat := by
  rw [← UInt8.toNat_inj, UInt8.toNat_ofNat']
  omega

/-- **An entry is taken for the opcode that it describes.** -/
theorem toOpcode_eq_ok_iff {entry : Entry} {opcode : Opcode} :
    entry.toOpcode = .ok opcode ↔ entry.Describes opcode := by
  unfold toOpcode
  by_cases houtside : entry.binary < 0 ∨ 0xFF < entry.binary
  · rw [if_pos houtside]
    constructor
    · intro h
      cases h
    · intro h
      have hbinary := h.binary
      have hbyte := opcode.binary.toNat_lt
      omega
  · rw [if_neg houtside, Outcome.map_eq_ok]
    have hinside : 0 ≤ entry.binary ∧ entry.binary ≤ 0xFF := by omega
    constructor
    · rintro ⟨kinds, hkinds, rfl⟩
      exact ⟨rfl, (eq_ofNat_iff hinside).1 rfl, operandKinds_eq_ok_iff.1 hkinds⟩
    · rintro ⟨hmnemonic, hbinary, hoperands⟩
      refine ⟨opcode.operands, operandKinds_eq_ok_iff.2 hoperands, ?_⟩
      rw [hmnemonic, (eq_ofNat_iff hinside).2 hbinary]

/-- **An entry is refused for its fault.** -/
theorem toOpcode_eq_error_iff {entry : Entry} {error : TableError} :
    entry.toOpcode = .error error ↔ entry.Fault error := by
  unfold toOpcode
  constructor
  · intro h
    by_cases houtside : entry.binary < 0 ∨ 0xFF < entry.binary
    · rw [if_pos houtside] at h
      cases h
      exact .binary houtside
    · rw [if_neg houtside, Outcome.map_eq_error] at h
      obtain ⟨known, name, rest, hsplit, hfine, hbad, rfl⟩ := operandKinds_eq_error_iff.1 h
      exact .operand (by omega) hsplit hfine hbad
  · intro h
    cases h with
    | binary outside => rw [if_pos outside]
    | operand inside split fine bad =>
        rw [if_neg (by omega), Outcome.map_eq_error]
        exact operandKinds_eq_error_iff.2 ⟨_, _, _, split, fine, bad, rfl⟩

/-! ### Lists of entries -/

theorem toOpcodesFrom_eq_mapM (entries : List Entry) :
    toOpcodesFrom entries = entries.mapM toOpcode := by
  induction entries with
  | nil => rfl
  | cons entry entries ih =>
      rw [List.mapM_cons, ← ih, toOpcodesFrom]
      rfl

theorem toOpcodesFrom_eq_ok_iff {entries : List Entry} {opcodes : List Opcode} :
    toOpcodesFrom entries = .ok opcodes ↔ List.Forall₂ Describes entries opcodes := by
  simp only [toOpcodesFrom_eq_mapM, Outcome.mapM_eq_ok, toOpcode_eq_ok_iff]

/-- **Entries are refused for the fault of the first that has one.** -/
theorem toOpcodesFrom_eq_error_iff {entries : List Entry} {error : TableError} :
    toOpcodesFrom entries = .error error ↔
      ∃ before entry after, entries = before ++ entry :: after ∧
        (∀ earlier ∈ before, ∃ opcode, earlier.Describes opcode) ∧ entry.Fault error := by
  simp only [toOpcodesFrom_eq_mapM, Outcome.mapM_eq_error, toOpcode_eq_ok_iff,
    toOpcode_eq_error_iff]

end Entry

/-! ### Writing opcodes down -/

/-- The entry that an opcode is written down as. -/
def Opcode.entry (opcode : Opcode) : Entry where
  mnemonic := opcode.mnemonic
  binary := opcode.binary.toNat
  operands := opcode.operands.map OperandKind.name

theorem Opcode.describes_entry {opcode : Opcode}
    (h : ∀ kind ∈ opcode.operands, kind ∈ OperandKind.all) : opcode.entry.Describes opcode := by
  refine ⟨rfl, rfl, ?_⟩
  rw [Opcode.entry, List.forall₂_map_left_iff, List.forall₂_same]
  exact fun kind hkind => ⟨h kind hkind, rfl⟩

end TableAssembler
