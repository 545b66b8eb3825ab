/-
**The command does all or nothing.**

A command has to load the tables that it names, make one table of their opcodes, read its source and
assemble it.  If any of this cannot be done, it leaves every file as it is and prints nothing.  If
all of it can, exactly one thing is delivered: a text is printed, or one file is written.  This is
so whatever the command reads, and on every lawful store of files.

Main definitions:

* `Command.Ready` — **all that a command needs** before it delivers anything;
* `Command.outputPath` — the file that a binary goes to;
* `Command.Prints`, `Command.Writes` — the outcomes of printing a text and of writing a file.

Main results:

* `Command.loadTables_eq_ok_iff` — the opcodes of several tables are those of each, in order;
* `Command.result_eq_ok_iff` — a plan has a delivery exactly when the command is ready;
* `Command.run_of_not_ready`, `Command.run_of_ready` — the outcomes in the two cases;
* `Command.run_all_or_nothing` — **the command does all or nothing**.
-/

import Mathlib.Data.List.Forall2
import TableAssembler.Command.Run
import TableAssembler.Proofs.File.Tree
import TableAssembler.Proofs.Outcome

set_option relaxedAutoImplicit false
set_option autoImplicit false

namespace TableAssembler

namespace Command

open Text (utf8)

/-- **All that a command needs**: tables that can be loaded, a table made of the opcodes of all of
them in order, a source, and a program of the source under the table. -/
structure Ready (inputs : Inputs) (options : Options) (name : Text) (tables : List (List Opcode))
    (table : Table) (source : Text) (program : Program) : Prop where
  named : options.configs ≠ []
  loaded : List.Forall₂ (fun path opcodes => loadTable inputs path = .ok opcodes)
    options.configs tables
  built : Table.ofOpcodes tables.flatten = .ok table
  read : inputs.source name = .ok source
  assembled : ({ table := table } : Assembler).program source = .ok program

/-- The file that a binary goes to: the one asked for, or else the default. -/
def outputPath (options : Options) (name : Text) : Text :=
  if options.output = [] then outputName name else options.output

/-- A text is printed, and nothing else happens. -/
structure Prints {State : Type} (state : State) (text : Text) (outcome : Outcome State) : Prop where
  state : outcome.state = state
  stdout : outcome.stdout = text
  stderr : outcome.stderr = []
  failure : outcome.failure = none

/-- A file is written, and nothing else happens; if the store refuses to write it, nothing happens
at all. -/
inductive Writes (store : Store) (state : store.State) (path content : Text)
    (outcome : Outcome store.State) : Prop
  | written {file : store.File} (hwrite : store.write state path content = .ok outcome.state)
      (hwrote : store.Wrote state path file content outcome.state) (hstdout : outcome.stdout = [])
      (hstderr : outcome.stderr = []) (hfailure : outcome.failure = none)
  | refused {error : PathError} (hwrite : store.write state path content = .error error)
      (hstate : outcome.state = state) (hstdout : outcome.stdout = [])
      (hfailure : outcome.failure = some (.path error))

/-! ### Plans -/

/-- **Several tables are loaded if each of them is**, and in their order. -/
theorem loadTables_eq_ok_iff {inputs : Inputs} {paths : List Text} {tables : List (List Opcode)} :
    (loadTables inputs paths).2 = .ok tables ↔
      List.Forall₂ (fun path opcodes => loadTable inputs path = .ok opcodes) paths tables := by
  induction paths generalizing tables with
  | nil =>
      rw [loadTables, List.forall₂_nil_left_iff, Except.ok.injEq]
      exact eq_comm
  | cons path paths ih =>
      simp only [loadTables, List.forall₂_cons_left_iff]
      cases hload : loadTable inputs path with
      | error failure => simp
      | ok first =>
          simp only [Outcome.map_eq_ok, ih, Except.ok.injEq]
          constructor
          · rintro ⟨rest, hrest, rfl⟩
            exact ⟨first, rest, rfl, hrest, rfl⟩
          · rintro ⟨_, rest, rfl, hrest, rfl⟩
            exact ⟨rest, hrest, rfl⟩

/-- The table of several tables is that of their opcodes in order. -/
theorem tableOf_eq_ok_iff {tables : Except Failure (List (List Opcode))} {table : Table} :
    tableOf tables = .ok table ↔
      ∃ all, tables = .ok all ∧ Table.ofOpcodes all.flatten = .ok table := by
  unfold tableOf
  cases tables with
  | error failure => simp
  | ok all => simp [Outcome.mapError_eq_ok, Sequence.collect_eq_flatten]

theorem assemble_eq_ok_iff {options : Options} {name source : Text} {table : Table}
    {delivery : Delivery} :
    (assemble options name source table).result = .ok delivery ↔
      ∃ program, ({ table := table } : Assembler).program source = .ok program ∧
        delivery = deliver options name program := by
  have hprogram : ({ table := table, verbose := options.verbose } : Assembler).program source =
      ({ table := table } : Assembler).program source := rfl
  simp only [assemble, hprogram]
  cases hsource : ({ table := table } : Assembler).program source with
  | error error => simp
  | ok program => simp [eq_comm]

/-- **A plan has a delivery exactly when the command is ready.** -/
theorem result_eq_ok_iff {inputs : Inputs} {options : Options} {name : Text}
    {delivery : Delivery} :
    (planWith inputs options name).result = .ok delivery ↔
      ∃ tables table source program, Ready inputs options name tables table source program ∧
        delivery = deliver options name program := by
  unfold planWith
  by_cases hnamed : options.configs = []
  · rw [if_pos hnamed]
    constructor
    · intro h
      cases h
    · rintro ⟨_, _, _, _, hready, -⟩
      exact absurd hnamed hready.named
  · rw [if_neg hnamed]
    constructor
    · intro h
      cases htable : tableOf (loadTables inputs options.configs).2 with
      | error failure => simp [htable] at h
      | ok table =>
          obtain ⟨tables, htables, hbuilt⟩ := tableOf_eq_ok_iff.1 htable
          cases hread : inputs.source name with
          | error error => simp [htable, hread] at h
          | ok source =>
              simp only [htable, hread] at h
              obtain ⟨program, hprogram, rfl⟩ := assemble_eq_ok_iff.1 h
              exact ⟨tables, table, source, program,
                ⟨hnamed, loadTables_eq_ok_iff.1 htables, hbuilt, hread, hprogram⟩, rfl⟩
    · rintro ⟨tables, table, source, program, hready, rfl⟩
      have htables := loadTables_eq_ok_iff.2 hready.loaded
      have htable := tableOf_eq_ok_iff.2 ⟨_, htables, hready.built⟩
      simp only [htable, hready.read]
      exact assemble_eq_ok_iff.2 ⟨program, hready.assembled, rfl⟩

/-! ### Outcomes -/

section Outcomes

variable {inputs : Inputs} {store : Store} (state : store.State) {words : List Text}
  {options : Options} {name : Text}

/-- The outcome of a command that asks for a source to be assembled. -/
theorem run_eq (h : request words = .ok (.assemble options name)) :
    run inputs store state words =
      (planWith inputs options name).carryOut store state options := by
  simp only [run, plan, h]

/-- **A command that is not ready** leaves the files as they are, and prints nothing. -/
theorem run_of_not_ready (h : request words = .ok (.assemble options name))
    (hready : ¬∃ tables table source program,
      Ready inputs options name tables table source program) :
    (run inputs store state words).state = state ∧ (run inputs store state words).stdout = [] ∧
      ∃ failure, (run inputs store state words).failure = some failure := by
  rw [run_eq state h, Plan.carryOut]
  cases hresult : (planWith inputs options name).result with
  | error failure => exact ⟨rfl, rfl, failure, rfl⟩
  | ok delivery =>
      obtain ⟨tables, table, source, program, hplan, -⟩ := result_eq_ok_iff.1 hresult
      exact absurd ⟨tables, table, source, program, hplan⟩ hready

/-- The outcome of a text for standard output. -/
theorem prints_carryOut {plan : Plan} {content : Text} {notes : List Text}
    (h : plan.result = .ok ⟨none, content, notes⟩) :
    Prints state content (plan.carryOut store state options) := by
  rw [Plan.carryOut, h]
  exact ⟨rfl, rfl, rfl, rfl⟩

/-- The outcome of a file to write. -/
theorem writes_carryOut (hstore : store.Lawful) {plan : Plan} {path content : Text}
    {notes : List Text} (h : plan.result = .ok ⟨some path, content, notes⟩) :
    Writes store state path content (plan.carryOut store state options) := by
  rw [Plan.carryOut, h]
  cases hwrite : store.write state path content with
  | error error =>
      simp only [hwrite]
      exact .refused hwrite rfl rfl rfl
  | ok after =>
      simp only [hwrite]
      obtain ⟨file, hwrote⟩ := hstore.exists_wrote hwrite
      exact .written hwrite hwrote rfl rfl rfl

/-- **A command that is ready** prints a text or writes a file, whichever its options ask for. -/
theorem run_of_ready (hstore : store.Lawful) (h : request words = .ok (.assemble options name))
    {tables : List (List Opcode)} {table : Table} {source : Text} {program : Program}
    (hready : Ready inputs options name tables table source program) :
    if options.ast then Prints state program.outline (run inputs store state words)
    else if options.list then Prints state program.listing (run inputs store state words)
    else if options.hex then
      Prints state (HexDump.render program.binary) (run inputs store state words)
    else if outputPath options name = standardStream then
      Prints state program.binary (run inputs store state words)
    else
      Writes store state (outputPath options name) program.binary
        (run inputs store state words) := by
  have hresult := result_eq_ok_iff.2 ⟨tables, table, source, program, hready, rfl⟩
  rw [run_eq state h]
  -- the cases are those of `deliver`, in its order
  unfold deliver at hresult
  split
  · rename_i hast
    rw [if_pos hast] at hresult
    exact prints_carryOut state hresult
  · rename_i hast
    rw [if_neg hast] at hresult
    split
    · rename_i hlist
      rw [if_pos hlist] at hresult
      exact prints_carryOut state hresult
    · rename_i hlist
      rw [if_neg hlist] at hresult
      split
      · rename_i hhex
        rw [if_pos hhex] at hresult
        exact prints_carryOut state hresult
      · rename_i hhex
        rw [if_neg hhex, deliverBinary] at hresult
        split
        · rename_i hpath
          have htarget : (if options.output = [] then outputName name else options.output) =
              standardStream := hpath
          simp only [htarget, if_true] at hresult
          exact prints_carryOut state hresult
        · rename_i hpath
          have htarget : (if options.output = [] then outputName name else options.output) ≠
              standardStream := hpath
          simp only [if_neg htarget] at hresult
          exact writes_carryOut state hstore hresult

end Outcomes

/-- **The command does all or nothing**, whatever it reads and on every lawful store of files.  If a
table cannot be loaded, the opcodes of all tables make no table, the source cannot be read or it
cannot be assembled, then the files stay as they are and nothing is printed.  Otherwise an outline,
a listing or a hex dump is printed, the first of these that the options ask for, and nothing else
happens.  If they ask for none of them, the bytes of the source under the opcodes of all tables, in
order, are printed or written to the one file that they should go to. -/
theorem run_all_or_nothing (store : Store) (hstore : store.Lawful) (inputs : Inputs)
    (state : store.State) (words : List Text) (options : Options) (name : Text)
    (h : request words = .ok (.assemble options name)) :
    ((¬∃ tables table source program, Ready inputs options name tables table source program) →
      (run inputs store state words).state = state ∧ (run inputs store state words).stdout = [] ∧
        ∃ failure, (run inputs store state words).failure = some failure) ∧
      ∀ tables table source program, Ready inputs options name tables table source program →
        ({ table := table } : Assembler).binary source = .ok program.binary ∧
          if options.ast then Prints state program.outline (run inputs store state words)
          else if options.list then Prints state program.listing (run inputs store state words)
          else if options.hex then
            Prints state (HexDump.render program.binary) (run inputs store state words)
          else if outputPath options name = standardStream then
            Prints state program.binary (run inputs store state words)
          else
            Writes store state (outputPath options name) program.binary
              (run inputs store state words) := by
  refine ⟨run_of_not_ready state h, fun tables table source program hready => ⟨?_, ?_⟩⟩
  · rw [Assembler.binary, hready.assembled]
    rfl
  · exact run_of_ready state hstore h hready

/-- A machine on which work is done in one directory, with opcode files in two others. -/
def workshop : FileTree where
  files := [
    ([utf8 "lib", utf8 "base.toml"], utf8 "[[opcode]]\nmnemonic = \"NOP\"\nbinary = 7\n"),
    ([utf8 "home", utf8 "halt.toml"], utf8 "[[opcode]]\nmnemonic = \"HLT\"\nbinary = 255\n"),
    ([utf8 "home", utf8 "work", utf8 "prog.asm"], utf8 "NOP\nHLT\n")]
  start := [utf8 "home", utf8 "work"]

/-- What is read there, with nothing on standard input. -/
def workshopInputs : Inputs := .ofStore FileTree.store workshop []

/-- A command line with two opcode files, and an output in the directory above. -/
def workshopWords : List Text :=
  [utf8 "-c", utf8 "/lib/base.toml", utf8 "prog.asm", utf8 "-c../halt.toml", utf8 "-o",
    utf8 "../prog.out"]

/-- The options of this command line. -/
def workshopOptions : Options :=
  { configs := [utf8 "/lib/base.toml", utf8 "../halt.toml"], output := utf8 "../prog.out" }

/-- The source of the workshop is assembled under both opcode files, into the directory above it,
where the file was not there before. -/
theorem run_workshop :
    request workshopWords = .ok (.assemble workshopOptions (utf8 "prog.asm")) ∧
      FileTree.store.file? workshop (utf8 "../prog.out") = none ∧
      FileTree.store.content? (run workshopInputs FileTree.store workshop workshopWords).state
        [utf8 "home", utf8 "prog.out"] = some [7, 255] ∧
      Writes FileTree.store workshop (utf8 "../prog.out") [7, 255]
        (run workshopInputs FileTree.store workshop workshopWords) := by
  have hrequest : request workshopWords =
      .ok (.assemble workshopOptions (utf8 "prog.asm")) := by decide
  have hbase : loadTable workshopInputs (utf8 "/lib/base.toml") = .ok [⟨utf8 "NOP", 7, []⟩] :=
    Outcome.toOption_eq_some.1 (by decide +kernel)
  have hmore : loadTable workshopInputs (utf8 "../halt.toml") = .ok [⟨utf8 "HLT", 255, []⟩] :=
    Outcome.toOption_eq_some.1 (by decide +kernel)
  obtain ⟨program, hprogram, hbinary⟩ : ∃ program, ({ table :=
      ⟨[⟨utf8 "NOP", 7, []⟩, ⟨utf8 "HLT", 255, []⟩]⟩ } : Assembler).program (utf8 "NOP\nHLT\n") =
        .ok program ∧ program.binary = [7, 255] := by
    refine Outcome.map_eq_ok.1 ?_
    decide +kernel
  have heffect := ((run_all_or_nothing FileTree.store FileTree.lawful_store workshopInputs workshop
    workshopWords _ _ hrequest).2 [[⟨utf8 "NOP", 7, []⟩], [⟨utf8 "HLT", 255, []⟩]] _ _ _
    ⟨by decide, .cons hbase (.cons hmore .nil), by decide, by decide, hprogram⟩).2
  rw [hbinary] at heffect
  exact ⟨hrequest, by decide, by decide +kernel, heffect⟩

end Command

end TableAssembler
