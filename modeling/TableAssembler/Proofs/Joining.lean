/-
**The program of two sources joined by a newline.**

If two sources have programs, then what becomes of them when they are joined can be read off these
programs.  `Proofs/Seam.lean` gives the statements of the joined source: those of the first, and
those of the second moved on.  `Proofs/Program/Relocation.lean` puts the second list behind the
first.  In between stands the fact that moved spans make no difference to a program
(`Proofs/Program/Likeness.lean`).

Main definitions:

* `Joining.Joined` — **the program of the joined source**, given those of its parts.

Main results:

* `Joining.exists_joinable` — the statements of the joined source;
* `Joining.program_joined` — **when two sources can be joined, and what comes out**.
-/

import TableAssembler.Proofs.Program.Relocation
import TableAssembler.Proofs.Seam

set_option relaxedAutoImplicit false
set_option autoImplicit false

namespace TableAssembler

namespace Joining

open Layout Linking Relocation
open Text (newline utf8)

/-- **The program of a joined source.**  The binary, the labels and the instructions of the first
part come first.  The binary of the second follows, with every label field grown by the length of
the first binary; its labels and instructions follow at offsets that are greater by as much. -/
structure Joined (table : Table) (like : Likeness) (first second joined : Program) : Prop where
  binary : ∃ code, joined.binary = first.binary ++ code ∧
    Relocated first.binary.length ((labelFields table second).map Fixup.offset) second.binary code
  symbols : ∃ moved, joined.symbols = first.symbols ++ moved ∧
    List.Forall₂ (Symbol.Alike like) (second.symbols.map (shiftSymbol first.binary.length)) moved
  instructions : ∃ moved, joined.instructions = first.instructions ++ moved ∧
    List.Forall₂ (Instruction.Alike like)
      (second.instructions.map (shiftInstruction first.binary.length)) moved

/-! ### Lists alike -/

/-- What holds of the items of one list holds of those of another that is like it. -/
theorem forall_mem_congr {α β : Type} {R : α → β → Prop} {P : α → Prop} {Q : β → Prop}
    {items : List α} {others : List β} (h : List.Forall₂ R items others)
    (hsame : ∀ a b, R a b → (P a ↔ Q b)) : (∀ a ∈ items, P a) ↔ ∀ b ∈ others, Q b := by
  induction h with
  | nil => simp
  | cons hitem _ ih => rw [List.forall_mem_cons, List.forall_mem_cons, hsame _ _ hitem, ih]

/-- A list that is like one with an item in it can be split there too. -/
theorem exists_split {α β : Type} {R : α → β → Prop} {before after : List α} {item : α}
    {others : List β} (h : List.Forall₂ R (before ++ item :: after) others) :
    ∃ before' item' after', others = before' ++ item' :: after' ∧
      List.Forall₂ R before before' ∧ R item item' := by
  induction before generalizing others with
  | nil =>
      cases h with
      | cons hitem _ => exact ⟨[], _, _, rfl, .nil, hitem⟩
  | cons first before ih =>
      cases h with
      | cons hfirst hrest =>
          obtain ⟨before', item', after', rfl, hbefore, hitem⟩ := ih hrest
          exact ⟨_ :: before', item', after', rfl, .cons hfirst hbefore, hitem⟩

/-! ### Programs alike -/

section Alike

variable {like : Likeness}

theorem isOrigin_alike {a b : Statement} (h : Statement.Alike like a b) :
    ¬IsOrigin a ↔ ¬IsOrigin b := by
  rw [IsOrigin, IsOrigin, h.directive, h.mnemonic]

/-- Label operands alike are in reach alike. -/
theorem inReach_alike (faithful : like.Faithful) {first second : Program}
    (h : Program.Alike like first second) (base : Nat) {a b : Fixup}
    (hfixup : Fixup.Alike like a b) :
    InReach first base a.operand ↔ InReach second base b.operand := by
  rw [InReach, InReach, Program.offset?_alike faithful h (hfixup.operand.name hfixup.kind)]

/-- Like statements have label fields at the same places. -/
theorem labelFields_alike (faithful : like.Faithful) {table : Table}
    {statements others : List Statement} (hvalid : Valid table statements)
    (hothers : Valid table others) (h : List.Forall₂ (Statement.Alike like) statements others) :
    List.Forall₂ (Fixup.Alike like) (labelFields table (Layout.program table statements))
      (labelFields table (Layout.program table others)) := by
  have hrun := Resolver.run_alike faithful table h
  rw [run_of_valid hvalid, run_of_valid hothers] at hrun
  cases hrun with
  | ok hresolver =>
      have hfixups := hresolver.fixups
      rwa [fixups_encoded, fixups_encoded] at hfixups

theorem shiftSymbol_alike {a b : Symbol} (base : Nat) (h : Symbol.Alike like a b) :
    Symbol.Alike like (shiftSymbol base a) (shiftSymbol base b) :=
  ⟨h.name, congrArg (· + (base : Int)) h.offset, h.span⟩

theorem shiftInstruction_alike {a b : Instruction} (base : Nat) (h : Instruction.Alike like a b) :
    Instruction.Alike like (shiftInstruction base a) (shiftInstruction base b) :=
  ⟨h.statement, congrArg (· + base) h.offset, h.size⟩

end Alike

/-! ### Sources -/

theorem map_name_alike {bytes lines : Nat} {symbols moved : List Symbol}
    (h : List.Forall₂ (Symbol.Alike (.moved bytes lines)) symbols moved) :
    symbols.map Symbol.name = moved.map Symbol.name := by
  rw [← List.forall₂_eq_eq_eq, List.forall₂_map_left_iff, List.forall₂_map_right_iff]
  exact h.imp fun _ _ hsymbol => hsymbol.name

theorem map_statement_program (table : Table) (statements : List Statement) :
    (Layout.program table statements).instructions.map Instruction.statement = statements := by
  rw [Layout.program, List.map_map]
  exact map_snd_place table 0 statements

/-- **The statements of the joined source**: those of the first part, and those of the second moved
on, which can be put behind them. -/
theorem exists_joinable {assembler : Assembler} {a b : Text} {first second : Program}
    (ha : assembler.program a = .ok first) (hb : assembler.program b = .ok second)
    (hmovable : ∀ instruction ∈ second.instructions, ¬IsOrigin instruction.statement)
    (hdisjoint : (first.symbols.map Symbol.name).Disjoint (second.symbols.map Symbol.name)) :
    ∃ parsed moved : List Statement, statements (a ++ newline :: b) = .ok (parsed ++ moved) ∧
      first = Layout.program assembler.table parsed ∧ Joinable assembler.table parsed moved ∧
        Program.Alike (.after a) second (Layout.program assembler.table moved) ∧
          List.Forall₂ (Fixup.Alike (.after a)) (labelFields assembler.table second)
            (labelFields assembler.table (Layout.program assembler.table moved)) := by
  obtain ⟨parsed, hparsed, hfirst⟩ := Outcome.bind_eq_ok.1 ha
  obtain ⟨later, hlater, hsecond⟩ := Outcome.bind_eq_ok.1 hb
  obtain ⟨_, hjoined, moved, rfl, hmoved⟩ := (Seam.statements_seam hparsed b).exists_ok hlater
  have faithful := Likeness.faithful_moved (a.length + 1) (1 + List.count newline a)
  obtain ⟨third, hthird, halike⟩ :=
    (Program.resolve_alike faithful assembler.table hmoved).exists_ok hsecond
  have hfields := labelFields_alike faithful (valid_of_resolve hsecond) (valid_of_resolve hthird)
    hmoved
  obtain rfl := eq_program_of_resolve hfirst
  obtain rfl := eq_program_of_resolve hsecond
  obtain rfl := eq_program_of_resolve hthird
  refine ⟨parsed, moved, hjoined, rfl, ⟨valid_of_resolve hfirst, valid_of_resolve hthird, ?_, ?_⟩,
    halike, hfields⟩
  · rw [← forall_mem_congr hmoved fun _ _ => isOrigin_alike]
    intro statement hstatement
    rw [← map_statement_program assembler.table later] at hstatement
    obtain ⟨instruction, hinstruction, rfl⟩ := List.mem_map.1 hstatement
    exact hmovable instruction hinstruction
  · rw [map_name_alike halike.symbols] at hdisjoint
    rwa [← map_name_symbols assembler.table, ← map_name_symbols assembler.table]

/-- The program of the joined source, from that of the statements in it. -/
theorem joined_program {like : Likeness} {table : Table} {parsed moved : List Statement}
    {second : Program} (h : Joinable table parsed moved)
    (hvalid : Valid table (parsed ++ moved))
    (halike : Program.Alike like second (Layout.program table moved))
    (hfields : List.Forall₂ (Fixup.Alike like) (labelFields table second)
      (labelFields table (Layout.program table moved))) :
    Joined table like (Layout.program table parsed) second
      (Layout.program table (parsed ++ moved)) where
  binary := by
    have hoffsets : (labelFields table second).map Fixup.offset =
        (labelFields table (Layout.program table moved)).map Fixup.offset := by
      rw [← List.forall₂_eq_eq_eq, List.forall₂_map_left_iff, List.forall₂_map_right_iff]
      exact hfields.imp fun _ _ hfield => hfield.offset
    rw [hoffsets, halike.binary, h.length_binary]
    exact h.binary_append (h.valid_append_iff.1 hvalid)
  symbols := by
    refine ⟨_, h.symbols_append, ?_⟩
    rw [h.length_binary, List.forall₂_map_left_iff, List.forall₂_map_right_iff]
    exact halike.symbols.imp fun _ _ => shiftSymbol_alike _
  instructions := by
    refine ⟨_, h.instructions_append, ?_⟩
    rw [h.length_binary, List.forall₂_map_left_iff, List.forall₂_map_right_iff]
    exact halike.instructions.imp fun _ _ => shiftInstruction_alike _

/-- **Two sources joined by a newline.**  Let both have programs, the second without `.org`
directives, and let them define no label both.  The joined source has a program exactly when every
label operand of the second part is in reach: the offset of its label, plus the length of the first
binary, fits into two bytes.  The program is then the first one with the second one behind it,
relocated.  Otherwise the first label operand out of reach is refused. -/
theorem program_joined (assembler : Assembler) (a b : Text) (first second : Program)
    (ha : assembler.program a = .ok first) (hb : assembler.program b = .ok second)
    (hmovable : ∀ instruction ∈ second.instructions, ¬IsOrigin instruction.statement)
    (hdisjoint : (first.symbols.map Symbol.name).Disjoint (second.symbols.map Symbol.name)) :
    ((∃ joined, assembler.program (a ++ newline :: b) = .ok joined) ↔
        ∀ field ∈ labelFields assembler.table second,
          InReach second first.binary.length field.operand) ∧
      (∀ joined, assembler.program (a ++ newline :: b) = .ok joined →
        Joined assembler.table (.after a) first second joined) ∧
        ∀ before field after, labelFields assembler.table second = before ++ field :: after →
          (∀ other ∈ before, InReach second first.binary.length other.operand) →
            ¬InReach second first.binary.length field.operand →
              assembler.program (a ++ newline :: b) =
                .error (.invalidOperand
                  (field.operand.span.move (a.length + 1) (1 + List.count newline a))
                  field.operand.text .label) := by
  obtain ⟨parsed, moved, hstatements, rfl, hjoinable, halike, hfields⟩ :=
    exists_joinable ha hb hmovable hdisjoint
  have hprogram : assembler.program (a ++ newline :: b) =
      Program.resolve assembler.table (parsed ++ moved) := by
    rw [Assembler.program, hstatements]
    rfl
  -- to be in reach is the same for an operand and for the same operand moved on
  have hreach : ∀ field field', Fixup.Alike (.after a) field field' →
      (InReach second (extent assembler.table 0 parsed) field.operand ↔
        InReach (Layout.program assembler.table moved) (extent assembler.table 0 parsed)
          field'.operand) :=
    fun _ _ => inReach_alike (Likeness.faithful_moved _ _) halike _
  rw [hprogram, hjoinable.length_binary]
  refine ⟨?_, ?_, ?_⟩
  · rw [forall_mem_congr hfields hreach, forall_labelFields_iff, ← hjoinable.valid_append_iff]
    exact ⟨fun ⟨_, h⟩ => valid_of_resolve h, fun h => ⟨_, resolve_of_valid h⟩⟩
  · intro joined hjoined
    obtain rfl := eq_program_of_resolve hjoined
    exact joined_program hjoinable (valid_of_resolve hjoined) halike hfields
  · intro before field after hsplit hbefore hfield
    rw [hsplit] at hfields
    obtain ⟨before', field', after', hsplit', hbefore', hfield'⟩ := exists_split hfields
    have herror := hjoinable.resolve_append_error hsplit'
      ((forall_mem_congr hbefore' hreach).1 hbefore) (mt (hreach _ _ hfield').2 hfield)
    rw [herror, hfield'.operand.span, hfield'.operand.name hfield'.kind]

/-- A jump to itself. -/
def upper : Text := utf8 "top: JMP top"

/-- The statement of `upper`. -/
def upperStatement : Statement where
  labels := [⟨utf8 "top", ⟨0, 3, 1, 1⟩⟩]
  mnemonic := utf8 "JMP"
  mnemonicSpan := ⟨5, 8, 1, 6⟩
  operands := [⟨.identifier, utf8 "top", ⟨9, 12, 1, 10⟩, 0⟩]
  span := ⟨0, 12, 1, 1⟩

/-- The program of `upper`. -/
def upperProgram : Program where
  binary := [0x10, 0, 0]
  instructions := [⟨upperStatement, 0, 3⟩]
  symbols := [⟨utf8 "top", 0, ⟨0, 3, 1, 1⟩⟩]

/-- A byte, and a jump to itself. -/
def lower : Text := utf8 ".byte 7\nhere: JMP here"

/-- The first statement of `lower`. -/
def lowerByte : Statement where
  mnemonic := utf8 ".byte"
  mnemonicSpan := ⟨0, 5, 1, 1⟩
  directive := true
  operands := [⟨.number, utf8 "7", ⟨6, 7, 1, 7⟩, 10⟩]
  span := ⟨0, 7, 1, 1⟩

/-- The second statement of `lower`. -/
def lowerJump : Statement where
  labels := [⟨utf8 "here", ⟨8, 12, 2, 1⟩⟩]
  mnemonic := utf8 "JMP"
  mnemonicSpan := ⟨14, 17, 2, 7⟩
  operands := [⟨.identifier, utf8 "here", ⟨18, 22, 2, 11⟩, 0⟩]
  span := ⟨8, 22, 2, 1⟩

/-- The program of `lower`. -/
def lowerProgram : Program where
  binary := [7, 0x10, 0, 1]
  instructions := [⟨lowerByte, 0, 1⟩, ⟨lowerJump, 1, 3⟩]
  symbols := [⟨utf8 "here", 1, ⟨8, 12, 2, 1⟩⟩]

/-- The jump of the second part leads four bytes on: its label field holds one, and the first binary
has three bytes. -/
theorem upper_lower_joined :
    Assembler.program { table := jumpTable } upper = .ok upperProgram ∧
      Assembler.program { table := jumpTable } lower = .ok lowerProgram ∧
        (labelFields jumpTable lowerProgram).map Fixup.offset = [2] ∧
          ∃ joined,
            Assembler.program { table := jumpTable } (upper ++ newline :: lower) = .ok joined ∧
              Joined jumpTable (.after upper) upperProgram lowerProgram joined := by
  have hupper : Assembler.program { table := jumpTable } upper = .ok upperProgram := by
    decide +kernel
  have hlower : Assembler.program { table := jumpTable } lower = .ok lowerProgram := by
    decide +kernel
  have hfields : labelFields jumpTable lowerProgram =
      [⟨2, ⟨.identifier, utf8 "here", ⟨18, 22, 2, 11⟩, 0⟩⟩] := by decide
  have hdisjoint : [utf8 "top"].Disjoint [utf8 "here"] := List.singleton_disjoint.2 (by decide)
  obtain ⟨hiff, hjoined, -⟩ := program_joined { table := jumpTable } upper lower upperProgram
    lowerProgram hupper hlower (by decide) hdisjoint
  have hreach : ∀ field ∈ labelFields jumpTable lowerProgram,
      InReach lowerProgram upperProgram.binary.length field.operand := by
    rw [hfields, List.forall_mem_singleton]
    exact ⟨1, by decide, by decide⟩
  obtain ⟨joined, h⟩ := hiff.2 hreach
  exact ⟨hupper, hlower, by rw [hfields]; rfl, joined, h, hjoined joined h⟩

end Joining

end TableAssembler
