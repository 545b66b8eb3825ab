/-
**What the command read is still there.**

If no file is named for it, a binary goes to the file whose name is that of the source with the
ending `.bin`.  An opcode file ends in `.toml` or in `.star`, or else it cannot be loaded.  So the
file that is written has another name than every opcode file, and another name than the source
unless the source ends in `.bin` itself, in which case it is the source.  Where a file has one name
only, another name means another file; with links, a binary could go to the source by another name.

Main definitions:

* `Store.Keeps` — a path whose file is as it was.

Main results:

* `Store.Wrote.keeps` — a file with another name than the one written is as it was;
* `Command.state_run` — the files are as they were, or the binary has been written and nothing else;
* `Command.extension_outputName`, `OpcodeFile.extension_of_load` — the endings of the file that is
  written and of the files that are loaded;
* `Command.run_keeps_inputs` — **opcode files stay as they are, and so does a source that does not
  end in `.bin`**;
* `Command.source_overwritten` — a source that does is lost.
-/

import TableAssembler.Proofs.Command.Effect

set_option relaxedAutoImplicit false
set_option autoImplicit false

namespace TableAssembler

open Text (utf8)

/-! ### Files that stay -/

/-- **A path whose file is as it was**: the path leads to the file that it led to, which holds what
it held, and the path reads as before. -/
structure Store.Keeps (store : Store) (state after : store.State) (path : Text) : Prop where
  file : ∀ file, store.file? state path = some file →
    store.file? after path = some file ∧ store.content? after file = store.content? state file
  read : ∀ shown, store.read after path shown = store.read state path shown

theorem Store.Keeps.refl (store : Store) (state : store.State) (path : Text) :
    store.Keeps state state path :=
  ⟨fun _ hfile => ⟨hfile, rfl⟩, fun _ => rfl⟩

/-- **A file with another name than the one written is as it was**, if it could be read. -/
theorem Store.Wrote.keeps {store : Store} {state after : store.State} {path content : Text}
    {file : store.File} (h : store.Wrote state path file content after) (hstore : store.Lawful)
    (hnames : store.SingleNamed) {other shown text : Text}
    (hother : Path.afterLastSlash other ≠ Path.afterLastSlash path)
    (hread : store.read state other shown = .ok text) : store.Keeps state after other := by
  have hfile : ∀ found, store.file? state other = some found →
      store.file? after other = some found ∧
        store.content? after found = store.content? state found := by
    intro found hfound
    have hleads := h.paths other found hfound
    refine ⟨hleads, h.others found ?_⟩
    rintro rfl
    exact hother (hnames after other path found hleads h.leads)
  refine ⟨hfile, fun shown => ?_⟩
  obtain ⟨found, hfound, hcontent⟩ := hstore.read_eq_ok_iff.1 hread
  obtain ⟨hleads, hsame⟩ := hfile found hfound
  rw [hstore.read_eq_ok_iff.2 ⟨found, hfound, hcontent⟩]
  exact hstore.read_eq_ok_iff.2 ⟨found, hleads, hsame.trans hcontent⟩

/-! ### Endings -/

/-- **The ending of a file that can be loaded.** -/
theorem OpcodeFile.extension_of_load {name : Text} {content : Except PathError Text}
    {opcodes : List Opcode} (h : load name content = .ok opcodes) :
    ∃ text, content = .ok text ∧
      (Path.extension name = utf8 ".toml" ∨ Path.extension name = utf8 ".star") := by
  unfold load Readers.load at h
  split at h
  · cases h
  · rename_i text
    refine ⟨text, rfl, ?_⟩
    rw [Outcome.mapError_eq_ok, Readers.ofText] at h
    split at h
    · rename_i htoml
      exact .inl htoml
    · split at h
      · rename_i hstar
        exact .inr hstar
      · cases h

/-- A file in a directory is read at the path of the two. -/
theorem Store.read_of_readIn {store : Store} {state : store.State} {directory name text : Text}
    (h : store.readIn state directory name = .ok text) :
    store.read state (Path.join directory name) name = .ok text := by
  unfold readIn at h
  split at h
  · cases h
  · exact h

namespace Command

/-- The path that an opcode file is read at. -/
def tablePath (path : Text) : Text := Path.join (Path.directory path) (Path.base path)

/-- **The ending of the file for a binary.** -/
theorem extension_outputName {name : Text} (h : name ≠ standardStream) :
    Path.extension (outputName name) = utf8 ".bin" := by
  have hending : utf8 ".bin" = Text.byte '.' :: utf8 "bin" := by decide
  rw [outputName, if_neg h, hending]
  exact Path.extension_append_dot _ (by decide) (by decide)

/-- A file with another ending has another name. -/
theorem afterLastSlash_ne_outputName {name other : Text} (h : name ≠ standardStream)
    (hother : Path.extension other ≠ utf8 ".bin") :
    Path.afterLastSlash other ≠ Path.afterLastSlash (outputName name) := by
  intro heq
  rw [Path.extension_congr heq, extension_outputName h] at hother
  exact hother rfl

/-- The ending of an opcode file is no matter of the directory that it is looked up in. -/
theorem extension_tablePath (path : Text) :
    Path.extension (tablePath path) = Path.extension (Path.base path) :=
  Path.extension_congr (Path.afterLastSlash_join _ _)

/-! ### Files after a run -/

section Runs

variable {store : Store} {state : store.State} {stdin : Text} {words : List Text}
  {options : Options} {name : Text}

/-- Opcode files of a command that is ready have been read, and have an ending that tells their
format. -/
theorem Ready.table_of_mem {source : Text} {table : Table} {tables : List (List Opcode)}
    {program : Program}
    (h : Ready (.ofStore store state stdin) options name tables table source program) :
    ∀ path ∈ options.configs,
      (∃ shown text, store.read state (tablePath path) shown = .ok text) ∧
        Path.extension (tablePath path) ≠ utf8 ".bin" := by
  have hboth := h.loaded.imp fun path opcodes hloaded =>
    And.intro (OpcodeFile.extension_of_load hloaded) hloaded
  intro path hpath
  obtain ⟨text, hread, hending⟩ := ((List.forall₂_and_left _ _).1 hboth).1 path hpath
  refine ⟨⟨_, text, Store.read_of_readIn hread⟩, ?_⟩
  rw [extension_tablePath]
  rcases hending with hending | hending <;> rw [hending] <;> decide

/-- **The files are as they were, or the binary has been written** and nothing else. -/
theorem state_run (hstore : store.Lawful) (inputs : Inputs) (state : store.State)
    (h : request words = .ok (.assemble options name)) :
    (run inputs store state words).state = state ∨
      (options.ast = false ∧ options.list = false ∧ options.hex = false ∧
        (run inputs store state words).failure = none) ∧
      ∃ tables table source program file,
        Ready inputs options name tables table source program ∧
          store.Wrote state (outputPath options name) file program.binary
            (run inputs store state words).state := by
  by_cases hready : ∃ tables table source program,
      Ready inputs options name tables table source program
  · obtain ⟨tables, table, source, program, hready⟩ := hready
    have hdone := run_of_ready state hstore h hready
    split at hdone
    · exact .inl hdone.state
    · rename_i hast
      split at hdone
      · exact .inl hdone.state
      · rename_i hlist
        split at hdone
        · exact .inl hdone.state
        · rename_i hhex
          split at hdone
          · exact .inl hdone.state
          · cases hdone with
            | written _ hwrote _ _ hfailure =>
                exact .inr ⟨⟨by simpa using hast, by simpa using hlist, by simpa using hhex,
                  hfailure⟩, tables, table, source, program, _, hready, hwrote⟩
            | refused _ hstate => exact .inl hstate
  · exact .inl (run_of_not_ready state h hready).1

end Runs

/-- **What the command read is still there**, on every lawful store in which a file has one name
only.  After a run on a source file for which no output is named, every opcode file that the run was
given is as it was.  So is the source, unless its name has the ending of the file for the binary and
the binary is written: unless an outline, a listing or a hex dump is asked for, or the run fails. -/
theorem run_keeps_inputs (store : Store) (hstore : store.Lawful) (hnames : store.SingleNamed)
    (state : store.State) (stdin : Text) (words : List Text) (options : Options) (name : Text)
    (h : request words = .ok (.assemble options name)) (houtput : options.output = [])
    (hname : name ≠ standardStream) :
    (∀ path ∈ options.configs, store.Keeps state
        (run (.ofStore store state stdin) store state words).state (tablePath path)) ∧
      (Path.extension name ≠ utf8 ".bin" ∨ options.ast = true ∨ options.list = true ∨
          options.hex = true ∨ (run (.ofStore store state stdin) store state words).failure ≠ none →
        store.Keeps state (run (.ofStore store state stdin) store state words).state name) := by
  rcases state_run hstore (.ofStore store state stdin) state h with hsame | ⟨hbinary, hwrites⟩
  · rw [hsame]
    exact ⟨fun path _ => .refl store state (tablePath path), fun _ => .refl store state name⟩
  · obtain ⟨tables, table, source, program, file, hready, hwrote⟩ := hwrites
    obtain ⟨hast, hlist, hhex, hfailure⟩ := hbinary
    rw [outputPath, if_pos houtput] at hwrote
    refine ⟨fun path hpath => ?_, fun hkept => ?_⟩
    · -- all opcode files were loaded, or nothing would have been written
      obtain ⟨⟨shown, text, hread⟩, hother⟩ := hready.table_of_mem path hpath
      exact hwrote.keeps hstore hnames (afterLastSlash_ne_outputName hname hother) hread
    · have hother : Path.extension name ≠ utf8 ".bin" := by
        simpa [hast, hlist, hhex, hfailure] using hkept
      have hread : store.read state name name = .ok source :=
        (if_neg hname).symm.trans hready.read
      exact hwrote.keeps hstore hnames (afterLastSlash_ne_outputName hname hother) hread

/-- An opcode file and a source with the same name but for the endings, in a directory that has the
ending of a binary.  Work is done elsewhere. -/
def attic : FileTree where
  files := [
    ([utf8 "old.bin", utf8 "prog.toml"], utf8 "[[opcode]]\nmnemonic = \"NOP\"\nbinary = 7\n"),
    ([utf8 "old.bin", utf8 "prog"], utf8 "NOP\n")]
  start := [utf8 "home"]

/-- A command line without an output. -/
def atticWords : List Text := [utf8 "-c", utf8 "/old.bin/prog.toml", utf8 "../old.bin/prog"]

/-- A binary is written between the two, and both stay as they are. -/
theorem run_attic :
    request atticWords =
        .ok (.assemble { configs := [utf8 "/old.bin/prog.toml"] } (utf8 "../old.bin/prog")) ∧
      Path.extension (utf8 "../old.bin/prog") ≠ utf8 ".bin" ∧
      (run (.ofStore FileTree.store attic []) FileTree.store attic atticWords).state.read
          (utf8 "/old.bin/prog.bin") [] = .ok [7] ∧
      attic.read (utf8 "../old.bin/prog") [] = .ok (utf8 "NOP\n") ∧
      FileTree.store.Keeps attic
        (run (.ofStore FileTree.store attic []) FileTree.store attic atticWords).state
        (utf8 "../old.bin/prog") ∧
      FileTree.store.Keeps attic
        (run (.ofStore FileTree.store attic []) FileTree.store attic atticWords).state
        (tablePath (utf8 "/old.bin/prog.toml")) := by
  have hrequest : request atticWords =
      .ok (.assemble { configs := [utf8 "/old.bin/prog.toml"] } (utf8 "../old.bin/prog")) := by
    decide
  have hending : Path.extension (utf8 "../old.bin/prog") ≠ utf8 ".bin" := by decide
  obtain ⟨htables, hsource⟩ := run_keeps_inputs FileTree.store FileTree.lawful_store
    FileTree.singleNamed_store attic [] atticWords _ _ hrequest rfl (by decide)
  exact ⟨hrequest, hending, by decide +kernel, by decide, hsource (.inl hending),
    htables _ (List.mem_singleton_self _)⟩

/-- An opcode file, and a source that has the ending of a binary. -/
def binSource : FileTree where
  files := [
    ([utf8 "t.toml"], utf8 "[[opcode]]\nmnemonic = \"NOP\"\nbinary = 7\n"),
    ([utf8 "p.bin"], utf8 "NOP\n")]

/-- A command line that names this source, and no output. -/
def binSourceWords : List Text := [utf8 "-c", utf8 "t.toml", utf8 "p.bin"]

/-- **A source that has the ending of a binary is lost**: its binary takes its place. -/
theorem source_overwritten :
    request binSourceWords =
        .ok (.assemble { configs := [utf8 "t.toml"], output := [] } (utf8 "p.bin")) ∧
      utf8 "p.bin" ≠ standardStream ∧
      FileTree.store.content? binSource [utf8 "p.bin"] = some (utf8 "NOP\n") ∧
      FileTree.store.content?
        (run (.ofStore FileTree.store binSource []) FileTree.store binSource binSourceWords).state
        [utf8 "p.bin"] = some [7] ∧
      ¬FileTree.store.Keeps binSource
        (run (.ofStore FileTree.store binSource []) FileTree.store binSource binSourceWords).state
        (utf8 "p.bin") := by
  have hbefore : FileTree.store.content? binSource [utf8 "p.bin"] = some (utf8 "NOP\n") := by decide
  have hafter : FileTree.store.content?
      (run (.ofStore FileTree.store binSource []) FileTree.store binSource binSourceWords).state
      [utf8 "p.bin"] = some [7] := by
    decide +kernel
  refine ⟨by decide, by decide, hbefore, hafter, fun hkeeps => ?_⟩
  have hplace : binSource.place? (utf8 "p.bin") = some [utf8 "p.bin"] := by decide
  have hsame := (hkeeps.file [utf8 "p.bin"] hplace).2
  rw [hbefore, hafter] at hsame
  exact absurd hsame (by decide)

end Command

end TableAssembler
