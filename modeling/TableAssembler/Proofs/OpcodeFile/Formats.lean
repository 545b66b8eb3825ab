/-
**The formats of opcode files mean the same.**

A document lists its entries, a script makes a call for each and ends at the first that is refused.
If the entries are the same, then so are the opcodes, and if there are none, the reason is the same:
there is no entry at all, or the first entry that describes no opcode has a fault.  How documents
and scripts are read does not matter for this.

Main definitions:

* `OpcodeFile.Agree` — two formats have the same opcodes, or none for the same reason;
* `OpcodeFile.MeanSame` — **a document and a script mean the same**.

Main results:

* `OpcodeFile.ofDocument_of_entries`, `OpcodeFile.ofScript_of_entries` — the opcodes of a document
  and of a script, entry by entry;
* `OpcodeFile.formats_agree` — **the formats agree**, and opcodes that are written down in either of
  them come back as they were.
-/

import TableAssembler.Proofs.OpcodeFile.Calls

set_option relaxedAutoImplicit false
set_option autoImplicit false

namespace TableAssembler

namespace OpcodeFile

open Text (utf8)

/-- **Two formats agree on entries**: both have the opcodes that the entries describe; or both have
none, because there is no entry, or because of the first entry that describes no opcode. -/
inductive Agree (entries : List Entry) :
    (document script : Except Failure (List Opcode)) → Prop
  | empty (none : entries = []) :
      Agree entries (.error (.table .noOpcodes)) (.error (.table .noOpcodes))
  | loaded {opcodes : List Opcode} (some : entries ≠ [])
      (described : List.Forall₂ Entry.Describes entries opcodes) :
      Agree entries (.ok opcodes) (.ok opcodes)
  | refused {before after : List Entry} {entry : Entry} {error : TableError}
      (split : entries = before ++ entry :: after)
      (fine : ∀ earlier ∈ before, ∃ opcode, earlier.Describes opcode) (fault : entry.Fault error) :
      Agree entries (.error (.table error)) (.error (.script (.definition error)))

/-- **A document and a script mean the same**: they agree on entries, miss opcodes only if there is
no entry, and give opcodes back if the entries are those that the opcodes are written down as. -/
structure MeanSame (readers : Readers) (entries : List Entry) (document script : Text) : Prop where
  agree : Agree entries (readers.ofDocument document) (readers.ofScript script)
  document_missing : readers.ofDocument document = .error (.table .noOpcodes) ↔ entries = []
  script_missing : readers.ofScript script = .error (.table .noOpcodes) ↔ entries = []
  written : ∀ opcodes : List Opcode, opcodes ≠ [] →
    (∀ opcode ∈ opcodes, ∀ kind ∈ opcode.operands, kind ∈ OperandKind.all) →
    entries = opcodes.map Opcode.entry →
      readers.ofDocument document = .ok opcodes ∧ readers.ofScript script = .ok opcodes

/-- **Formats miss opcodes exactly when there is no entry.** -/
theorem Agree.noOpcodes_iff {entries : List Entry} {document script : Except Failure (List Opcode)}
    (h : Agree entries document script) :
    (document = .error (.table .noOpcodes) ↔ entries = []) ∧
      (script = .error (.table .noOpcodes) ↔ entries = []) := by
  cases h with
  | empty none => simp [none]
  | loaded some => simp [some]
  | refused split fine fault =>
      subst split
      cases fault <;> simp

/-! ### Entries -/

theorem ofDocument_of_entries {readers : Readers} {document : Text} {entries : List Entry}
    (h : readers.document? document = some ([], entries)) :
    readers.ofDocument document = (Entry.toOpcodes entries).mapError .table := by
  rw [Readers.ofDocument, h, ofDecoded]

/-- **The opcodes of a script**, entry by entry. -/
theorem ofScript_of_entries {readers : Readers} {script : Text} {entries : List Entry}
    (hrange : ∀ entry ∈ entries, -0x80000000 ≤ entry.binary ∧ entry.binary < 0x80000000)
    (h : readers.Makes script (entries.map Entry.call)) :
    readers.ofScript script =
      ofOutcome (.ofReached ((Entry.toOpcodesFrom entries).mapError .definition)) := by
  have hcalls : (entries.map Entry.call).mapM opcodeOf =
      (Entry.toOpcodesFrom entries).mapError .definition := by
    clear h
    induction entries with
    | nil => rfl
    | cons entry entries ih =>
        rw [List.map_cons, List.mapM_cons, opcodeOf_call (hrange entry List.mem_cons_self),
          ih fun other hother => hrange other (List.mem_cons_of_mem _ hother), Entry.toOpcodesFrom]
        cases entry.toOpcode with
        | error error => rfl
        | ok opcode => cases Entry.toOpcodesFrom entries <;> rfl
  rw [Readers.ofScript, h, ofOutcome_replay, hcalls]

section Agreement

variable {readers : Readers} {entries : List Entry} {document script : Text}
  (hrange : ∀ entry ∈ entries, -0x80000000 ≤ entry.binary ∧ entry.binary < 0x80000000)
  (hdocument : readers.document? document = some ([], entries))
  (hscript : readers.Makes script (entries.map Entry.call))

include hrange hdocument hscript

theorem agree_of_entries :
    Agree entries (readers.ofDocument document) (readers.ofScript script) := by
  rw [ofDocument_of_entries hdocument, ofScript_of_entries hrange hscript, Entry.toOpcodes]
  cases hopcodes : Entry.toOpcodesFrom entries with
  | error error =>
      obtain ⟨before, entry, after, hsplit, hfine, hfault⟩ :=
        Entry.toOpcodesFrom_eq_error_iff.1 hopcodes
      exact .refused hsplit hfine hfault
  | ok opcodes =>
      have hdescribed := Entry.toOpcodesFrom_eq_ok_iff.1 hopcodes
      cases hdescribed with
      | nil => exact .empty rfl
      | cons hfirst hrest => exact .loaded (List.cons_ne_nil _ _) (.cons hfirst hrest)

/-- Entries that describe opcodes are loaded as these opcodes in both formats. -/
theorem loaded_of_describes {opcodes : List Opcode} (hsome : opcodes ≠ [])
    (h : List.Forall₂ Entry.Describes entries opcodes) :
    readers.ofDocument document = .ok opcodes ∧ readers.ofScript script = .ok opcodes := by
  rw [ofDocument_of_entries hdocument, ofScript_of_entries hrange hscript, Entry.toOpcodes,
    Entry.toOpcodesFrom_eq_ok_iff.2 h]
  cases opcodes with
  | nil => exact absurd rfl hsome
  | cons opcode opcodes => exact ⟨rfl, rfl⟩

theorem meanSame_of_entries : MeanSame readers entries document script := by
  have hagree := agree_of_entries hrange hdocument hscript
  refine ⟨hagree, hagree.noOpcodes_iff.1, hagree.noOpcodes_iff.2, ?_⟩
  intro opcodes hsome hkinds hentries
  refine loaded_of_describes hrange hdocument hscript hsome ?_
  rw [hentries, List.forall₂_map_left_iff, List.forall₂_same]
  exact fun opcode hopcode => Opcode.describes_entry (hkinds opcode hopcode)

end Agreement

/-- **The formats of opcode files mean the same.**  If a document lists some entries and no key that
means nothing, and a script makes the calls for the same entries in order and ends at the first that
is refused, then both have the same opcodes, or both have none because of the same entry, or because
there is none.  And if the entries are those that opcodes are written down as, then both have just
these opcodes.  This is so with whatever they are read.  With the readers of this library it is
enough that the script makes those calls to a host that accepts everything. -/
theorem formats_agree :
    (∀ (readers : Readers) (entries : List Entry) (document script : Text),
      (∀ entry ∈ entries, -0x80000000 ≤ entry.binary ∧ entry.binary < 0x80000000) →
      readers.document? document = some ([], entries) →
      readers.Makes script (entries.map Entry.call) →
        MeanSame readers entries document script) ∧
    ∀ (entries : List Entry) (document script : Text),
      (∀ entry ∈ entries, -0x80000000 ≤ entry.binary ∧ entry.binary < 0x80000000) →
      Readers.own.document? document = some ([], entries) →
      Recorded script (entries.map Entry.call) →
        MeanSame .own entries document script := by
  refine ⟨fun readers entries document script hrange hdocument hscript =>
    meanSame_of_entries hrange hdocument hscript, ?_⟩
  intro entries document script hrange hdocument hscript
  exact meanSame_of_entries hrange hdocument (Readers.own_traces.makes hscript)

/-- Entries of which the first is in order, and the others have faults. -/
def motleyEntries : List Entry :=
  [⟨utf8 "HLT", 0, []⟩, ⟨utf8 "BR", 16, [utf8 "register", utf8 "lable", utf8 "port"]⟩,
    ⟨[], 999, []⟩]

/-- A document that lists the motley entries. -/
def motleyDocument : Text :=
  utf8 "[[opcode]]\nmnemonic = \"HLT\"\n" ++
    utf8 "[[opcode]]\nmnemonic = \"BR\"\nbinary = 0x10\n" ++
    utf8 "operands = [\"register\", \"lable\", \"port\"]\n" ++
    utf8 "[[opcode]]\nbinary = 999\n"

/-- A script that calls for the motley entries, for the last two in a loop. -/
def motleyScript : Text :=
  utf8 "opcode(\"HLT\", 0)\n" ++
    utf8 "calls = [(\"BR\", 16, REGISTER, \"lable\", \"port\"), (\"\", 999)]\n" ++
    utf8 "[opcode(*call) for call in calls]\n"

/-- The opcodes of an accumulator machine. -/
def accumulator : List Opcode := [⟨utf8 "LD", 0x80, [.immediate]⟩, ⟨utf8 "JMP", 0xFF, [.label]⟩]

/-- A document that lists the opcodes of the accumulator machine. -/
def accumulatorDocument : Text :=
  utf8 "[[opcode]]\nmnemonic = \"LD\"\nbinary = 0x80\noperands = [\"immediate\"]\n" ++
    utf8 "[[opcode]]\nmnemonic = \"JMP\"\nbinary = 0xFF\noperands = [\"label\"]\n"

/-- A script that calls for the opcodes of the accumulator machine. -/
def accumulatorScript : Text :=
  utf8 "opcode(\"LD\", 1 << 7, IMMEDIATE)\nopcode(\"JMP\", 255, LABEL)\n"

/-- Motley entries are refused alike in both formats, and an accumulator machine is loaded from
both, with the readers of this library. -/
theorem accumulator_agree :
    motleyEntries ≠ [] ∧
      Agree motleyEntries (Readers.own.ofDocument motleyDocument)
        (Readers.own.ofScript motleyScript) ∧
      Readers.own.ofDocument accumulatorDocument = .ok accumulator ∧
      Readers.own.ofScript accumulatorScript = .ok accumulator := by
  have hmotley := formats_agree.2 motleyEntries motleyDocument motleyScript (by decide)
    (by decide +kernel) (by rw [Recorded]; decide +kernel)
  have htidy := formats_agree.2 (accumulator.map Opcode.entry) accumulatorDocument
    accumulatorScript (by decide) (by decide +kernel) (by rw [Recorded]; decide +kernel)
  exact ⟨by decide, hmotley.agree, htidy.written accumulator (by decide) (by decide) rfl⟩

end OpcodeFile

end TableAssembler
