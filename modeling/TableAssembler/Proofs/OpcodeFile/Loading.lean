/-
**A loaded opcode file is usable, or there is nothing of it.**

Loading a file has opcodes only if the whole of it is in order: every entry of a document, and every
call of a script up to its end.  Otherwise the failure names the file and the cause, and none of the
opcodes that came before it is left.  So the opcodes of loaded files have known operand kinds, and
all that can be wrong with them together is a mnemonic that is not valid or has been used before.
This is so with any readers of documents and scripts, as long as a script cannot reach opcodes but
through calls.

Main definitions:

* `OpcodeFile.Delivers` — the entries of a file's text;
* `OpcodeFile.Usable`, `OpcodeFile.Loaded` — usable opcodes, and **what loading a file comes to**;
* `OpcodeFile.Placed`, `OpcodeFile.Clash` — the place of an opcode counted through all files, and
  what can be wrong with the opcodes of several files.

Main results:

* `OpcodeFile.ofText_eq_ok_iff` — a text has opcodes exactly when its entries describe them;
* `OpcodeFile.loaded_load` — a file that is loaded is usable, or there is nothing of it;
* `OpcodeFile.clash_of_ofOpcodes` — loaded files make a table unless they clash;
* `OpcodeFile.load_all_or_nothing` — **both for all readers, all file systems and any number of
  files**.
-/

import TableAssembler.Proofs.OpcodeFile.Calls

set_option relaxedAutoImplicit false
set_option autoImplicit false

namespace TableAssembler

namespace OpcodeFile

open Script (Call)
open Text (utf8)

/-- **The entries of a file's text**: a document lists them, along with no key that means nothing; a
script makes a call for each. -/
inductive Delivers (readers : Readers) (calling : Text → List Call → Prop) (name text : Text)
    (entries : List Entry) : Prop
  | document (ending : Path.extension name = utf8 ".toml")
      (listed : readers.document? text = some ([], entries))
  | script {calls : List Call} (ending : Path.extension name = utf8 ".star")
      (made : calling text calls) (read : List.Forall₂ StandsFor calls entries)

/-- Opcodes that a table can be made of, mnemonics apart. -/
structure Usable (opcodes : List Opcode) : Prop where
  some : opcodes ≠ []
  binary : ∀ opcode ∈ opcodes, opcode.binary.toNat ≤ 0xFF
  kinds : ∀ opcode ∈ opcodes, ∀ kind ∈ opcode.operands, kind ∈ OperandKind.all

/-- **What loading a file comes to**, `content` being the outcome of reading it: usable opcodes, one
for each entry; or no opcodes and a failure that bears the name and the cause. -/
inductive Loaded (readers : Readers) (calling : Text → List Call → Prop) (name : Text)
    (content : Except PathError Text) : Except Failure (List Opcode) → Prop
  | usable {text : Text} {entries : List Entry} {opcodes : List Opcode}
      (read : content = .ok text) (delivers : Delivers readers calling name text entries)
      (described : List.Forall₂ Entry.Describes entries opcodes) (usable : Usable opcodes) :
      Loaded readers calling name content (.ok opcodes)
  | unreadable {error : PathError} (read : content = .error error) :
      Loaded readers calling name content (.error (.load name (.path error)))
  | refused {text : Text} {cause : Failure} (read : content = .ok text)
      (reason : readers.ofText name text = .error cause)
      (nothing : ∀ entries opcodes, Delivers readers calling name text entries →
        List.Forall₂ Entry.Describes entries opcodes → opcodes = []) :
      Loaded readers calling name content (.error (.load name cause))

/-! ### A single file -/

theorem toOpcodes_eq_ok_iff {entries : List Entry} {opcodes : List Opcode} :
    Entry.toOpcodes entries = .ok opcodes ↔
      opcodes ≠ [] ∧ List.Forall₂ Entry.Describes entries opcodes := by
  rw [← Entry.toOpcodesFrom_eq_ok_iff, Entry.toOpcodes]
  split
  · rename_i hempty
    simp only [hempty, Except.ok.injEq, reduceCtorEq, false_iff, not_and]
    exact fun hsome hnil => hsome hnil.symm
  · rename_i hsome
    exact ⟨fun h => ⟨fun hnil => hsome (hnil ▸ h), h⟩, And.right⟩

theorem ofDocument_eq_ok_iff {readers : Readers} {text : Text} {opcodes : List Opcode} :
    readers.ofDocument text = .ok opcodes ↔
      opcodes ≠ [] ∧ ∃ entries, readers.document? text = some ([], entries) ∧
        List.Forall₂ Entry.Describes entries opcodes := by
  unfold Readers.ofDocument ofDecoded
  split
  · rename_i hnone
    simp [hnone]
  · rename_i entries hentries
    simp [hentries, Outcome.mapError_eq_ok, toOpcodes_eq_ok_iff]
  · rename_i keys entries hkeys hentries
    constructor
    · intro h
      cases h
    · rintro ⟨-, others, hothers, -⟩
      have hsame := Option.some.inj (hentries.symm.trans hothers)
      exact absurd (congrArg Prod.fst hsame) hkeys

theorem ofScript_eq_ok_iff {readers : Readers} {calling : Text → List Call → Prop}
    (htraces : readers.Traces calling) {text : Text} {opcodes : List Opcode} :
    readers.ofScript text = .ok opcodes ↔
      opcodes ≠ [] ∧ ∃ calls entries, calling text calls ∧ List.Forall₂ StandsFor calls entries ∧
        List.Forall₂ Entry.Describes entries opcodes := by
  rw [Readers.ofScript, ofOutcome_eq_ok_iff]
  constructor
  · rintro ⟨hfinished, hsome⟩
    obtain ⟨calls, hcalls⟩ := htraces.exists_calls hfinished
    obtain ⟨entries, hentries⟩ :=
      replay_eq_ok_iff.1 ((htraces.makes hcalls).finished_iff.1 hfinished)
    exact ⟨hsome, calls, entries, hcalls, hentries⟩
  · rintro ⟨hsome, calls, entries, hcalls, hentries⟩
    exact ⟨(htraces.makes hcalls).finished_iff.2 (replay_eq_ok_iff.2 ⟨entries, hentries⟩), hsome⟩

/-- **A text has opcodes exactly when its entries describe them**, and there is one at least. -/
theorem ofText_eq_ok_iff {readers : Readers} {calling : Text → List Call → Prop}
    (htraces : readers.Traces calling) {name text : Text} {opcodes : List Opcode} :
    readers.ofText name text = .ok opcodes ↔
      opcodes ≠ [] ∧ ∃ entries, Delivers readers calling name text entries ∧
        List.Forall₂ Entry.Describes entries opcodes := by
  have hendings : utf8 ".toml" ≠ utf8 ".star" := by decide
  unfold Readers.ofText
  by_cases htoml : Path.extension name = utf8 ".toml"
  · have hdelivers (entries : List Entry) :
        Delivers readers calling name text entries ↔
          readers.document? text = some ([], entries) := by
      constructor
      · rintro (⟨-, hlisted⟩ | ⟨hstar, -, -⟩)
        · exact hlisted
        · exact absurd (htoml.symm.trans hstar) hendings
      · exact .document htoml
    simp only [if_pos htoml, ofDocument_eq_ok_iff, hdelivers]
  · rw [if_neg htoml]
    by_cases hstar : Path.extension name = utf8 ".star"
    · rw [if_pos hstar, ofScript_eq_ok_iff htraces]
      constructor
      · rintro ⟨hsome, calls, entries, hmade, hread, hdescribed⟩
        exact ⟨hsome, entries, .script hstar hmade hread, hdescribed⟩
      · rintro ⟨hsome, entries, ⟨htoml', -⟩ | ⟨-, hmade, hread⟩, hdescribed⟩
        · exact absurd htoml' htoml
        · exact ⟨hsome, _, entries, hmade, hread, hdescribed⟩
    · rw [if_neg hstar]
      constructor
      · intro h
        cases h
      · rintro ⟨-, entries, ⟨htoml', -⟩ | ⟨hstar', -, -⟩, -⟩
        · exact absurd htoml' htoml
        · exact absurd hstar' hstar

theorem usable_of_describes {entries : List Entry} {opcodes : List Opcode} (hsome : opcodes ≠ [])
    (h : List.Forall₂ Entry.Describes entries opcodes) : Usable opcodes :=
  ⟨hsome, fun opcode _ => Nat.le_of_lt_succ opcode.binary.toNat_lt, Entry.kinds_of_describes h⟩

/-- **A file that is loaded is usable, or there is nothing of it.** -/
theorem loaded_load {readers : Readers} {calling : Text → List Call → Prop}
    (htraces : readers.Traces calling) (name : Text) (content : Except PathError Text) :
    Loaded readers calling name content (readers.load name content) := by
  cases content with
  | error error => exact .unreadable rfl
  | ok text =>
      change Loaded readers calling name _ ((readers.ofText name text).mapError (.load name))
      cases htext : readers.ofText name text with
      | error cause =>
          refine .refused rfl htext fun entries opcodes hdelivers hdescribed => ?_
          by_contra hsome
          rw [(ofText_eq_ok_iff htraces).2 ⟨hsome, entries, hdelivers, hdescribed⟩] at htext
          cases htext
      | ok opcodes =>
          obtain ⟨hsome, entries, hdelivers, hdescribed⟩ := (ofText_eq_ok_iff htraces).1 htext
          exact .usable rfl hdelivers hdescribed (usable_of_describes hsome hdescribed)

theorem usable_of_load {readers : Readers} (hsound : readers.Sound) {name : Text}
    {content : Except PathError Text} {opcodes : List Opcode}
    (h : readers.load name content = .ok opcodes) : Usable opcodes := by
  have hloaded := loaded_load hsound.traces name content
  rw [h] at hloaded
  cases hloaded with
  | usable _ _ _ usable => exact usable

/-! ### Several files -/

/-- An opcode has a place, counted from the start of the first of several files. -/
def Placed (tables : List (List Opcode)) (index : Nat) (opcode : Opcode) : Prop :=
  ∃ front table back place, tables = front ++ table :: back ∧ table[place]? = some opcode ∧
    index = front.flatten.length + place

/-- **What can be wrong with the opcodes of several files**: a mnemonic is not valid, or two of them
have the same one. -/
inductive Clash (tables : List (List Opcode)) : TableError → Prop
  | mnemonic {index : Nat} {opcode : Opcode} (placed : Placed tables index opcode)
      (bad : Config.isMnemonic opcode.mnemonic = false) :
      Clash tables (.invalidMnemonic opcode.mnemonic)
  | duplicate {index previous : Nat} {opcode earlier : Opcode}
      (placed : Placed tables index opcode) (before : Placed tables previous earlier)
      (order : previous < index) (same : earlier.mnemonic = opcode.mnemonic) :
      Clash tables (.duplicateMnemonic opcode.mnemonic index previous)

theorem placed_of_getElem? {tables : List (List Opcode)} {index : Nat} {opcode : Opcode}
    (h : tables.flatten[index]? = some opcode) : Placed tables index opcode := by
  induction tables generalizing index with
  | nil => simp at h
  | cons table tables ih =>
      rw [List.flatten_cons] at h
      by_cases hindex : index < table.length
      · rw [List.getElem?_append_left hindex] at h
        exact ⟨[], table, tables, index, rfl, h, by simp⟩
      · rw [List.getElem?_append_right (Nat.le_of_not_lt hindex)] at h
        obtain ⟨front, found, back, place, rfl, hplace, hcount⟩ := ih h
        refine ⟨table :: front, found, back, place, rfl, hplace, ?_⟩
        rw [List.flatten_cons, List.length_append]
        omega

/-- **Loaded files make a table unless they clash.** -/
theorem clash_of_ofOpcodes {tables : List (List Opcode)} {error : TableError}
    (husable : ∀ table ∈ tables, Usable table)
    (h : Table.ofOpcodes tables.flatten = .error error) : Clash tables error := by
  obtain ⟨before, opcode, after, hsplit, -, hfault⟩ := Table.ofOpcodes_eq_error_iff.1 h
  have hopcode : tables.flatten[before.length]? = some opcode := by simp [hsplit]
  cases hfault with
  | mnemonic bad => exact .mnemonic (placed_of_getElem? hopcode) bad
  | @duplicate front back earlier name split same alone =>
      have hearlier : tables.flatten[front.length]? = some earlier := by simp [hsplit, split]
      refine .duplicate (placed_of_getElem? hopcode) (placed_of_getElem? hearlier) ?_ same
      rw [split, List.length_append, List.length_cons]
      omega
  | @kind known rest kind name new split fine bad =>
      -- The operand kinds of usable opcodes are known.
      have hmem : opcode ∈ tables.flatten := List.mem_of_getElem? hopcode
      obtain ⟨table, htable, hin⟩ := List.mem_flatten.1 hmem
      refine absurd ((husable table htable).kinds opcode hin kind ?_) bad
      rw [split]
      exact List.mem_append_right _ List.mem_cons_self

/-- **Loading does all or nothing.**  With all sound readers, for every name and whatever comes of
reading the file, loading has usable opcodes, or no opcodes and a failure with the name and the
cause.  The readers of this library are sound, so that it is so with them, for the files of every
bundle and of every store.  And whatever opcodes several files have, in the order in which they are
loaded, they make a table unless a mnemonic is not valid or is there twice; of one that is there
twice, both places are counted from the start of the first file. -/
theorem load_all_or_nothing :
    Readers.own.Sound ∧
    (∀ readers : Readers, readers.Sound → ∀ (name : Text) (content : Except PathError Text),
      Loaded readers readers.Makes name content (readers.load name content)) ∧
    (∀ (tree : FileTree) (name : Text),
      Loaded .own Recorded name (tree.readRooted name) (loadRooted tree name)) ∧
    (∀ (store : Store) (state : store.State) (directory name : Text),
      Loaded .own Recorded name (store.readIn state directory name)
        (loadIn store state directory name)) ∧
    ∀ readers : Readers, readers.Sound → ∀ tables : List (List Opcode),
      (∀ table ∈ tables, ∃ name content, readers.load name content = .ok table) →
      ∀ error, Table.ofOpcodes tables.flatten = .error error → Clash tables error := by
  refine ⟨Readers.own_traces.sound,
    fun readers hsound name content => loaded_load hsound.traces name content,
    fun tree name => loaded_load Readers.own_traces _ _,
    fun store state directory name => loaded_load Readers.own_traces _ _, ?_⟩
  intro readers hsound tables hloaded error h
  refine clash_of_ofOpcodes (fun table htable => ?_) h
  obtain ⟨name, content, hload⟩ := hloaded table htable
  exact usable_of_load hsound hload

/-- A directory with a document, a script that is in order, and one that defines an opcode before it
fails. -/
def shelf : FileTree where
  files := [
    ([utf8 "base.star"], utf8 "opcode(\"NOP\", 0)\nopcode(\"HLT\", 255)\n"),
    ([utf8 "half.star"], utf8 "opcode(\"NOP\", 0)\n1 // 0\n"),
    ([utf8 "more", utf8 "halt.toml"], utf8 "[[opcode]]\nmnemonic = \"HLT\"\nbinary = 7\n")]

/-- Nothing is left of the script that fails, and the other files share a mnemonic, which is the
second opcode of the one and the third of both. -/
theorem shelf_clash :
    (∃ cause, loadRooted shelf (utf8 "half.star") = .error (.load (utf8 "half.star") cause)) ∧
      Clash [[⟨utf8 "NOP", 0, []⟩, ⟨utf8 "HLT", 255, []⟩], [⟨utf8 "HLT", 7, []⟩]]
        (.duplicateMnemonic (utf8 "HLT") 2 1) := by
  obtain ⟨hsound, -, hrooted, -, htables⟩ := load_all_or_nothing
  constructor
  · have hnone : (loadRooted shelf (utf8 "half.star")).toOption = none := by decide +kernel
    have hhalf := hrooted shelf (utf8 "half.star")
    generalize loadRooted shelf (utf8 "half.star") = outcome at hnone hhalf
    cases hhalf with
    | usable => cases hnone
    | unreadable => exact ⟨_, rfl⟩
    | refused => exact ⟨_, rfl⟩
  · refine htables .own hsound _ ?_ _ (by decide)
    have hbase : loadRooted shelf (utf8 "base.star") =
        .ok [⟨utf8 "NOP", 0, []⟩, ⟨utf8 "HLT", 255, []⟩] :=
      Outcome.toOption_eq_some.1 (by decide +kernel)
    have hmore : loadIn FileTree.store shelf (utf8 "more") (utf8 "halt.toml") =
        .ok [⟨utf8 "HLT", 7, []⟩] :=
      Outcome.toOption_eq_some.1 (by decide +kernel)
    intro table htable
    rcases List.mem_pair.1 htable with rfl | rfl
    · exact ⟨utf8 "base.star", shelf.readRooted (utf8 "base.star"), hbase⟩
    · exact ⟨utf8 "halt.toml", FileTree.store.readIn shelf (utf8 "more") (utf8 "halt.toml"), hmore⟩

end OpcodeFile

end TableAssembler
