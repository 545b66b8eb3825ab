/-
**Instructions tile the binary.**

Every statement has its own stretch of the binary, the stretches lie one behind the other in the
order of the statements, and together they are the binary.  So every byte belongs to one statement,
and looking for the statement that a byte belongs to finds it, whatever statements without bytes
stand next to it.

Main definitions:

* `Tiling.Tiles` — **placed statements that lie one behind the other** from one offset to another;
* `Tiling.Covers`, `Tiling.CoversAlone` — a placed statement that has the byte at an offset, and the
  only one that has it;
* `Tiling.Sized` — a placed statement that has the bytes that its kind of statement takes.

Main results:

* `Tiling.tiles_place` — the layout places statements one behind the other;
* `Tiling.Tiles.flatMap_bytes`, `Tiling.Tiles.exists_covers`, `Tiling.Tiles.covers_unique` — the
  stretches of a tiling are the whole, leave nothing out and do not overlap;
* `Tiling.instructions_tile` — **the instructions of a program tile its binary**, and every byte is
  found in the only instruction that has it.
-/

import TableAssembler.Proofs.Program.Linking

set_option relaxedAutoImplicit false
set_option autoImplicit false

namespace TableAssembler

namespace Tiling

open Layout Linking
open Text (utf8)

/-- **Placed statements that lie one behind the other**, from `start` to `stop`. -/
def Tiles : Nat → List Instruction → Nat → Prop
  | start, [], stop => start = stop
  | start, instruction :: rest, stop =>
      instruction.offset = start ∧ Tiles (start + instruction.size) rest stop

/-- A placed statement has the byte at `offset`. -/
def Covers (offset : Int) (instruction : Instruction) : Prop :=
  instruction.offset ≤ offset ∧ offset < instruction.offset + instruction.size

/-- The one among placed statements that has the byte at `offset`, by its position. -/
def CoversAlone (offset : Int) (instructions : List Instruction) (instruction : Instruction) :
    Prop :=
  ∃ n : Nat, instructions[n]? = some instruction ∧
    ∀ (m : Nat) (other : Instruction), instructions[m]? = some other →
      (Covers offset other ↔ m = n)

/-- **A placed statement has the bytes that it should**: those of its opcode, one for each operand
of a `.byte` directive, and those up to the address of a `.org` directive. -/
structure Sized (table : Table) (instruction : Instruction) : Prop where
  opcode : instruction.statement.directive = false →
    ∃ opcode, table.lookup? instruction.statement.mnemonic = some opcode ∧
      instruction.size = opcode.size
  raw : instruction.statement.directive = true →
    instruction.statement.mnemonic = byteDirective →
      instruction.size = instruction.statement.operands.length
  origin : instruction.statement.directive = true →
    instruction.statement.mnemonic = orgDirective →
      ∃ token, instruction.statement.operands = [token] ∧
        token.value = .ok (instruction.offset + instruction.size)

theorem covers_iff {offset : Int} {instruction : Instruction} :
    Program.covers offset instruction = true ↔ Covers offset instruction := by
  simp [Program.covers, Covers]

/-! ### Tilings -/

namespace Tiles

variable {start stop : Nat} {instructions : List Instruction}

theorem le (h : Tiles start instructions stop) : start ≤ stop := by
  induction instructions generalizing start with
  | nil => exact Nat.le_of_eq h
  | cons instruction rest ih =>
      have := ih h.2
      omega

/-- Every stretch lies between the ends of the tiling. -/
theorem bounds (h : Tiles start instructions stop) {instruction : Instruction}
    (hmem : instruction ∈ instructions) :
    start ≤ instruction.offset ∧ instruction.offset + instruction.size ≤ stop := by
  induction instructions generalizing start with
  | nil => cases hmem
  | cons first rest ih =>
      obtain ⟨hoffset, hrest⟩ := h
      rcases List.mem_cons.1 hmem with rfl | hlater
      · have := hrest.le
        omega
      · have := ih hrest hlater
        omega

/-- The bytes of the stretches, one after the other, are the bytes between the ends. -/
theorem flatMap_bytes (h : Tiles start instructions stop) (binary : Text) :
    (instructions.flatMap fun instruction => instruction.bytes binary) =
      (binary.drop start).take (stop - start) := by
  induction instructions generalizing start with
  | nil =>
      obtain rfl : start = stop := h
      simp
  | cons instruction rest ih =>
      obtain ⟨rfl, hrest⟩ := h
      have hstop : stop - instruction.offset =
          instruction.size + (stop - (instruction.offset + instruction.size)) := by
        have := hrest.le
        omega
      rw [List.flatMap_cons, ih hrest, Instruction.bytes, hstop, List.take_add, List.drop_drop]

/-- Nothing between the ends is left out. -/
theorem exists_covers (h : Tiles start instructions stop) {offset : Int} (hstart : start ≤ offset)
    (hstop : offset < stop) :
    ∃ instruction ∈ instructions, Covers offset instruction := by
  induction instructions generalizing start with
  | nil =>
      obtain rfl : start = stop := h
      omega
  | cons instruction rest ih =>
      obtain ⟨hoffset, hrest⟩ := h
      by_cases hfirst : offset < instruction.offset + instruction.size
      · exact ⟨instruction, List.mem_cons_self, by omega, hfirst⟩
      · obtain ⟨found, hmem, hcovers⟩ := ih hrest (by omega)
        exact ⟨found, List.mem_cons_of_mem _ hmem, hcovers⟩

/-- No two stretches overlap, not even those of equal statements. -/
theorem covers_unique (h : Tiles start instructions stop) {offset : Int} {n m : Nat}
    {instruction other : Instruction} (hn : instructions[n]? = some instruction)
    (hm : instructions[m]? = some other) (hcovers : Covers offset instruction)
    (hother : Covers offset other) : n = m := by
  induction instructions generalizing start n m with
  | nil => simp at hn
  | cons first rest ih =>
      obtain ⟨hoffset, hrest⟩ := h
      -- what comes later starts behind the first stretch
      have hlater : ∀ (k : Nat) (later : Instruction), rest[k]? = some later →
          Covers offset later → first.offset + first.size ≤ offset := by
        intro k later hk hlater
        have := hrest.bounds (List.mem_of_getElem? hk)
        obtain ⟨hle, -⟩ := hlater
        omega
      cases n with
      | zero =>
          cases m with
          | zero => rfl
          | succ m =>
              obtain rfl : first = instruction := by simpa using hn
              have := hlater m other (by simpa using hm) hother
              obtain ⟨-, hlt⟩ := hcovers
              omega
      | succ n =>
          cases m with
          | zero =>
              obtain rfl : first = other := by simpa using hm
              have := hlater n instruction (by simpa using hn) hcovers
              obtain ⟨-, hlt⟩ := hother
              omega
          | succ m =>
              have hn' : rest[n]? = some instruction := by simpa using hn
              have hm' : rest[m]? = some other := by simpa using hm
              rw [ih hrest hn' hm']

end Tiles

/-! ### The layout -/

/-- A statement of the layout as a placed statement. -/
def placedAs (table : Table) (placed : Nat × Statement) : Instruction :=
  ⟨placed.2, placed.1, size table placed.1 placed.2⟩

/-- **The layout places statements one behind the other**, up to the end of their bytes. -/
theorem tiles_place {table : Table} (symbols : List Symbol) {statements : List Statement}
    {start : Nat} (hfits : ∀ placed ∈ place table start statements, Fits table placed.1 placed.2) :
    Tiles start ((place table start statements).map (placedAs table))
      (start + ((place table start statements).flatMap fun placed =>
        bytes table symbols placed.1 placed.2).length) := by
  induction statements generalizing start with
  | nil => rfl
  | cons statement rest ih =>
      rw [place, List.forall_mem_cons] at hfits
      obtain ⟨hfirst, hrest⟩ := hfits
      have htail := ih hrest
      rw [place, List.map_cons, List.flatMap_cons, List.length_append, length_bytes hfirst,
        ← Nat.add_assoc]
      exact ⟨rfl, htail⟩

/-- A statement that keeps the rules is given the bytes that it should have. -/
theorem sized_of_fits {table : Table} {offset : Nat} {statement : Statement}
    (h : Fits table offset statement) : Sized table (placedAs table (offset, statement)) := by
  have hne : orgDirective ≠ byteDirective := by decide
  cases h with
  | instruction opcode plain found operands =>
      refine ⟨fun _ => ⟨opcode, found, ?_⟩, ?_, ?_⟩
      · simp [placedAs, size, plain, found]
      · intro directive
        simp [placedAs, plain] at directive
      · intro directive
        simp [placedAs, plain] at directive
  | raw directive name _ _ =>
      refine ⟨?_, fun _ _ => ?_, ?_⟩
      · intro plain
        simp [placedAs, directive] at plain
      · simp [placedAs, size, directive, name]
      · intro _ horg
        exact absurd (horg.symm.trans name) hne
  | origin token target directive name only _ value ahead _ =>
      have hsize : size table offset statement = target - offset := by
        simp [size, directive, name, hne, address, only, Encoding.numberOf_eq value]
      have hend : offset + size table offset statement = target := by omega
      refine ⟨?_, ?_, fun _ _ => ⟨token, only, ?_⟩⟩
      · intro plain
        simp [placedAs, directive] at plain
      · intro _ hbyte
        exact absurd (name.symm.trans hbyte) hne
      · rw [value, placedAs, hend]

/-! ### Finding an instruction -/

section Debug

variable {program : Program}

/-- Looking for a byte finds something exactly within the binary. -/
theorem exists_debug?_iff (h : Tiles 0 program.instructions program.binary.length) {offset : Int} :
    (∃ found, program.debug? offset = some found) ↔
      0 ≤ offset ∧ offset < program.binary.length := by
  simp only [Program.debug?, Option.map_eq_some_iff]
  constructor
  · rintro ⟨_, instruction, hfind, -⟩
    have hbounds := h.bounds (List.mem_of_find?_eq_some hfind)
    obtain ⟨hle, hlt⟩ := covers_iff.1 (List.find?_some hfind)
    omega
  · rintro ⟨hstart, hstop⟩
    obtain ⟨instruction, hmem, hcovers⟩ := h.exists_covers hstart hstop
    have hfound : (program.instructions.find? (Program.covers offset)).isSome := by
      rw [List.find?_isSome]
      exact ⟨instruction, hmem, covers_iff.2 hcovers⟩
    obtain ⟨found, hfind⟩ := Option.isSome_iff_exists.1 hfound
    exact ⟨_, found, hfind, rfl⟩

/-- What is found has the byte, as nothing else has. -/
theorem covers_of_debug? (h : Tiles 0 program.instructions program.binary.length) {offset : Int}
    {instruction : Instruction} {index : Int}
    (hdebug : program.debug? offset = some (instruction, index)) :
    index = offset - instruction.offset ∧ 0 < instruction.size ∧
      CoversAlone offset program.instructions instruction := by
  obtain ⟨found, hfind, heq⟩ := Option.map_eq_some_iff.1 hdebug
  obtain ⟨rfl, rfl⟩ : found = instruction ∧ offset - found.offset = index := by simpa using heq
  have hcovers : Covers offset found := covers_iff.1 (List.find?_some hfind)
  obtain ⟨n, hn⟩ := List.mem_iff_getElem?.1 (List.mem_of_find?_eq_some hfind)
  refine ⟨rfl, ?_, n, hn, fun m other hm => ⟨fun hother => ?_, ?_⟩⟩
  · obtain ⟨hle, hlt⟩ := hcovers
    omega
  · exact h.covers_unique hm hn hother hcovers
  · rintro rfl
    obtain rfl : found = other := Option.some.inj (hn.symm.trans hm)
    exact hcovers

end Debug

/-- **Instructions tile the binary.**  The program of a list of statements has one instruction for
each of them, in order.  They lie one behind the other from the start of the binary to its end, each
with the bytes that it should have, and their bytes are the binary.  A byte is found exactly at the
offsets of the binary, in the one instruction that has it, and at its place there; this is never an
instruction without bytes. -/
theorem instructions_tile (table : Table) (statements : List Statement) (program : Program)
    (h : Program.resolve table statements = .ok program) :
    program.instructions.map Instruction.statement = statements ∧
      Tiles 0 program.instructions program.binary.length ∧
      (∀ instruction ∈ program.instructions, Sized table instruction ∧
        instruction.offset + instruction.size ≤ program.binary.length) ∧
      (program.instructions.flatMap fun instruction => instruction.bytes program.binary) =
        program.binary ∧
      ∀ offset : Int,
        ((∃ found, program.debug? offset = some found) ↔
          0 ≤ offset ∧ offset < program.binary.length) ∧
        ∀ instruction index, program.debug? offset = some (instruction, index) →
          index = offset - instruction.offset ∧ 0 < instruction.size ∧
            CoversAlone offset program.instructions instruction := by
  have hfits := (valid_of_resolve h).fits
  obtain rfl := eq_program_of_resolve h
  have htiles : Tiles 0 (Layout.program table statements).instructions
      (Layout.program table statements).binary.length := by
    have := tiles_place (symbols table statements) hfits
    rwa [Nat.zero_add] at this
  have hbytes := htiles.flatMap_bytes (Layout.program table statements).binary
  refine ⟨?_, htiles, ?_, ?_, fun offset => ⟨exists_debug?_iff htiles, ?_⟩⟩
  · have hplace := map_snd_place table 0 statements
    simpa [Layout.program, Function.comp_def] using hplace
  · intro instruction hmem
    obtain ⟨placed, hplaced, rfl⟩ := List.mem_map.1 hmem
    exact ⟨sized_of_fits (hfits placed hplaced), (htiles.bounds hmem).2⟩
  · rwa [Nat.sub_zero, List.drop_zero, List.take_length] at hbytes
  · exact fun instruction index hdebug => covers_of_debug? htiles hdebug

/-- Raw bytes. -/
def rawBytes (numbers : List String) : Statement where
  mnemonic := byteDirective
  directive := true
  operands := numbers.map fun number => { kind := .number, text := utf8 number }

/-- A directive that fills up to an address. -/
def fillTo (address : String) : Statement where
  mnemonic := orgDirective
  directive := true
  operands := [{ kind := .number, text := utf8 address }]

/-- Two bytes, two directives with nothing to fill, and a byte behind them. -/
def gapless : Program where
  binary := [1, 2, 3]
  instructions := [⟨rawBytes ["1", "2"], 0, 2⟩, ⟨fillTo "2", 2, 0⟩, ⟨fillTo "2", 2, 0⟩,
    ⟨rawBytes ["3"], 2, 1⟩]

/-- The byte behind two directives without bytes, at their offset, is found behind them. -/
theorem gapless_tiles :
    Program.resolve {} [rawBytes ["1", "2"], fillTo "2", fillTo "2", rawBytes ["3"]] =
        .ok gapless ∧
      Tiles 0 gapless.instructions 3 ∧
      gapless.debug? 2 = some (⟨rawBytes ["3"], 2, 1⟩, 0) ∧
      CoversAlone 2 gapless.instructions ⟨rawBytes ["3"], 2, 1⟩ ∧
      ¬∃ found, gapless.debug? 3 = some found := by
  have h : Program.resolve {} [rawBytes ["1", "2"], fillTo "2", fillTo "2", rawBytes ["3"]] =
      .ok gapless := by decide
  obtain ⟨-, htiles, -, -, hdebug⟩ := instructions_tile _ _ _ h
  have hfound : gapless.debug? 2 = some (⟨rawBytes ["3"], 2, 1⟩, 0) := by decide
  refine ⟨h, htiles, hfound, ((hdebug 2).2 _ _ hfound).2.2, fun hbehind => ?_⟩
  exact absurd ((hdebug 3).1.1 hbehind).2 (by decide)

end Tiling

end TableAssembler
