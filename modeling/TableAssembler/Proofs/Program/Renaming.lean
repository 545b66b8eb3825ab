/-
**Label names are only names.**

A renaming changes the names of labels where they are defined and where operands refer to them.  If
it gives different names to different labels, the resolver cannot tell: two renamings of the same
statements are alike (`Likeness.renamed`), and like statements resolve alike.

Likeness leaves one thing open.  An operand that is refused is named in the error by its text, and
the text does not tell whether the operand was a name, to be renamed, or something else.  So the
statements are renamed once more, into names that are longer than all texts at hand: in the error of
this third list a renamed text cannot be mistaken for any other, and the operand it belongs to is
the one to blame in the other two (`Renaming.resolve_of_marked`).

Main definitions:

* `Statement.rename`, `Program.rename` — statements and programs under other names;
* `SourceError.Renamed` — **what a renaming makes of an error**;
* `Renaming.mark` — names longer than any at hand.

Main results:

* `Renaming.exists_blamed` — a refused operand is refused under all names;
* `Renaming.resolve_renamed` — **renamed statements resolve to the renamed program**, or to the
  renamed error.
-/

import TableAssembler.Proofs.Program.Faults
import TableAssembler.Proofs.Program.Likeness

set_option relaxedAutoImplicit false
set_option autoImplicit false

namespace TableAssembler

/-! ### Other names -/

/-- A token under other names: only an identifier is a name. -/
def Token.rename (f : Text → Text) (token : Token) : Token :=
  { token with text := if token.kind = .identifier then f token.text else token.text }

/-- A label definition under other names. -/
def LabelDef.rename (f : Text → Text) (label : LabelDef) : LabelDef :=
  { label with name := f label.name }

/-- **A statement under other names**: those of its labels and of its operands. -/
def Statement.rename (f : Text → Text) (statement : Statement) : Statement :=
  { statement with
    labels := statement.labels.map (LabelDef.rename f)
    operands := statement.operands.map (Token.rename f) }

/-- A placed statement under other names, at the same place. -/
def Instruction.rename (f : Text → Text) (instruction : Instruction) : Instruction :=
  { instruction with statement := instruction.statement.rename f }

/-- A placed label under another name, at the same place. -/
def Symbol.rename (f : Text → Text) (symbol : Symbol) : Symbol :=
  { symbol with name := f symbol.name }

/-- **A program under other names**, with the same binary. -/
def Program.rename (f : Text → Text) (program : Program) : Program :=
  { program with
    instructions := program.instructions.map (Instruction.rename f)
    symbols := program.symbols.map (Symbol.rename f) }

/-- **What a renaming makes of an error** that a list of statements is refused with: the name of a
label is another, and so is the text of an operand if that is a name; all else is the same. -/
inductive SourceError.Renamed (f : Text → Text) (statements : List Statement) :
    SourceError → SourceError → Prop
  | unknownOpcode (span : Span) (mnemonic : Text) :
      Renamed f statements (.unknownOpcode span mnemonic) (.unknownOpcode span mnemonic)
  | operandCount (span : Span) (mnemonic : Text) (expected found : Int) (atLeast : Bool) :
      Renamed f statements (.operandCount span mnemonic expected found atLeast)
        (.operandCount span mnemonic expected found atLeast)
  | invalidOperand {statement : Statement} {token : Token} (hstatement : statement ∈ statements)
      (htoken : token ∈ statement.operands) (expected : OperandKind) :
      Renamed f statements (.invalidOperand token.span token.text expected)
        (.invalidOperand token.span (token.rename f).text expected)
  | undefinedLabel (span : Span) (name : Text) :
      Renamed f statements (.undefinedLabel span name) (.undefinedLabel span (f name))
  | duplicateLabel (span : Span) (name : Text) (previous : Span) :
      Renamed f statements (.duplicateLabel span name previous)
        (.duplicateLabel span (f name) previous)

theorem Token.text_rename_of_identifier {token : Token} (h : token.kind = .identifier)
    (f : Text → Text) : (token.rename f).text = f token.text := if_pos h

theorem Token.text_rename_of_ne {token : Token} (h : token.kind ≠ .identifier) (f : Text → Text) :
    (token.rename f).text = token.text := if_neg h

theorem Token.rename_id (token : Token) : token.rename id = token := by
  obtain ⟨kind, text, span, base⟩ := token
  simp [Token.rename]

theorem Statement.rename_id (statement : Statement) : statement.rename id = statement := by
  obtain ⟨labels, mnemonic, mnemonicSpan, directive, operands, span⟩ := statement
  have hlabels : labels.map (LabelDef.rename id) = labels := List.map_id labels
  have hoperands : operands.map (Token.rename id) = operands := by
    rw [funext Token.rename_id]
    exact List.map_id operands
  simp only [Statement.rename, hlabels, hoperands]

theorem Statement.map_rename_id (statements : List Statement) :
    statements.map (Statement.rename id) = statements := by
  rw [funext Statement.rename_id]
  exact List.map_id statements

/-! ### Renamings are alike -/

/-- Two images of a list are related item by item if the two images of every item are. -/
theorem forall₂_map_map {α β γ : Type} {R : β → γ → Prop} {f : α → β} {g : α → γ}
    (h : ∀ a, R (f a) (g a)) (items : List α) :
    List.Forall₂ R (items.map f) (items.map g) := by
  rw [List.forall₂_map_left_iff, List.forall₂_map_right_iff, List.forall₂_same]
  exact fun a _ => h a

/-- The names that two renamings give to the same name; spans stay as they are. -/
def Likeness.renamed (f g : Text → Text) : Likeness where
  span a b := a = b
  name a b := ∃ name, a = f name ∧ b = g name

theorem Likeness.faithful_renamed {f g : Text → Text} (hf : Function.Injective f)
    (hg : Function.Injective g) : (Likeness.renamed f g).Faithful := by
  rintro a a' b b' ⟨first, rfl, rfl⟩ ⟨second, rfl, rfl⟩
  rw [hf.eq_iff, hg.eq_iff]

theorem Token.alike_rename (f g : Text → Text) (token : Token) :
    Token.Alike (.renamed f g) (token.rename f) (token.rename g) where
  kind := rfl
  base := rfl
  name h := by
    have hkind : token.kind = .identifier := h
    rw [text_rename_of_identifier hkind, text_rename_of_identifier hkind]
    exact ⟨token.text, rfl, rfl⟩
  text h := by
    have hkind : token.kind ≠ .identifier := h
    rw [text_rename_of_ne hkind, text_rename_of_ne hkind]
  span := rfl

theorem Statement.alike_rename (f g : Text → Text) (statement : Statement) :
    Statement.Alike (.renamed f g) (statement.rename f) (statement.rename g) where
  labels := forall₂_map_map (fun label => ⟨⟨label.name, rfl, rfl⟩, rfl⟩) statement.labels
  mnemonic := rfl
  mnemonicSpan := rfl
  directive := rfl
  operands := forall₂_map_map (Token.alike_rename f g) statement.operands
  span := rfl

/-- **Two renamings of the same statements resolve alike**, if both keep different names apart. -/
theorem Program.resolve_rename_alike {f g : Text → Text} (hf : Function.Injective f)
    (hg : Function.Injective g) (table : Table) (statements : List Statement) :
    Outcome.Alike (SourceError.Alike (.renamed f g)) (Program.Alike (.renamed f g))
      (Program.resolve table (statements.map (Statement.rename f)))
      (Program.resolve table (statements.map (Statement.rename g))) := by
  have halike := forall₂_map_map (Statement.alike_rename f g) statements
  exact Program.resolve_alike (Likeness.faithful_renamed hf hg) table halike

/-! ### Programs -/

section Programs

variable {f : Text → Text}

theorem Token.Alike.eq_rename {a b : Token} (h : Token.Alike (.renamed id f) a b) :
    b = a.rename f := by
  have htext : b.text = (a.rename f).text := by
    by_cases hkind : a.kind = .identifier
    · obtain ⟨name, ha, hb⟩ := h.name hkind
      rw [Token.text_rename_of_identifier hkind, hb, ha]
      rfl
    · rw [Token.text_rename_of_ne hkind, h.text hkind]
  obtain ⟨kind, text, span, base⟩ := a
  obtain ⟨kind', text', span', base'⟩ := b
  cases h.kind
  cases h.base
  cases h.span
  cases htext
  rfl

theorem LabelDef.Alike.eq_rename {a b : LabelDef} (h : LabelDef.Alike (.renamed id f) a b) :
    b = a.rename f := by
  obtain ⟨name, span⟩ := a
  obtain ⟨name', span'⟩ := b
  obtain ⟨_, rfl, rfl⟩ := h.name
  cases h.span
  rfl

theorem Statement.Alike.eq_rename {a b : Statement} (h : Statement.Alike (.renamed id f) a b) :
    b = a.rename f := by
  have hlabels := eq_map_of_forall₂ (fun _ _ hlabel => hlabel.eq_rename) h.labels
  have hoperands := eq_map_of_forall₂ (fun _ _ htoken => htoken.eq_rename) h.operands
  obtain ⟨labels, mnemonic, mnemonicSpan, directive, operands, span⟩ := a
  obtain ⟨labels', mnemonic', mnemonicSpan', directive', operands', span'⟩ := b
  cases hlabels
  cases h.mnemonic
  cases h.mnemonicSpan
  cases h.directive
  cases hoperands
  cases h.span
  rfl

theorem Instruction.Alike.eq_rename {a b : Instruction}
    (h : Instruction.Alike (.renamed id f) a b) : b = a.rename f := by
  have hstatement := h.statement.eq_rename
  obtain ⟨statement, offset, size⟩ := a
  obtain ⟨statement', offset', size'⟩ := b
  cases hstatement
  cases h.offset
  cases h.size
  rfl

theorem Symbol.Alike.eq_rename {a b : Symbol} (h : Symbol.Alike (.renamed id f) a b) :
    b = a.rename f := by
  obtain ⟨name, offset, span⟩ := a
  obtain ⟨name', offset', span'⟩ := b
  obtain ⟨_, rfl, rfl⟩ := h.name
  cases h.offset
  cases h.span
  rfl

theorem Program.Alike.eq_rename {a b : Program} (h : Program.Alike (.renamed id f) a b) :
    b = a.rename f := by
  have hinstructions := eq_map_of_forall₂ (fun _ _ hitem => hitem.eq_rename) h.instructions
  have hsymbols := eq_map_of_forall₂ (fun _ _ hsymbol => hsymbol.eq_rename) h.symbols
  obtain ⟨binary, instructions, symbols⟩ := a
  obtain ⟨binary', instructions', symbols'⟩ := b
  cases h.binary
  cases hinstructions
  cases hsymbols
  rfl

/-- A renamed program knows the new names, each at the offset of the old one. -/
theorem Program.offset?_rename (hf : Function.Injective f) (program : Program) {name : Text}
    {offset : Int} :
    (program.rename f).offset? name = some offset ↔
      ∃ original, f original = name ∧ program.offset? original = some offset := by
  simp only [Program.offset?, Program.rename, List.find?_map, Option.map_eq_some_iff]
  constructor
  · rintro ⟨_, ⟨symbol, hfind, rfl⟩, rfl⟩
    have hname : (symbol.rename f).name = name := by simpa using List.find?_some hfind
    obtain rfl : f symbol.name = name := hname
    refine ⟨symbol.name, rfl, symbol, ?_, rfl⟩
    simpa [Function.comp_def, Symbol.rename, hf.eq_iff] using hfind
  · rintro ⟨original, rfl, symbol, hfind, rfl⟩
    refine ⟨symbol.rename f, ⟨symbol, ?_, rfl⟩, rfl⟩
    simpa [Function.comp_def, Symbol.rename, hf.eq_iff] using hfind

end Programs

namespace Renaming

open Faults
open Text (utf8)

/-! ### Names longer than any at hand -/

/-- A name with so many zero bytes in front. -/
def mark (width : Nat) (name : Text) : Text := List.replicate width 0 ++ name

theorem mark_injective (width : Nat) : Function.Injective (mark width) :=
  List.append_right_injective _

theorem le_length_mark (width : Nat) (name : Text) : width ≤ (mark width name).length := by
  simp [mark]

/-- The texts of all operands under a renaming. -/
def texts (f : Text → Text) (statements : List Statement) : List Text :=
  statements.flatMap fun statement => statement.operands.map fun token => (token.rename f).text

/-- Under a renaming, the texts of all operands are shorter than `width`. -/
def Narrow (width : Nat) (f : Text → Text) (statements : List Statement) : Prop :=
  ∀ statement ∈ statements, ∀ token ∈ statement.operands, (token.rename f).text.length < width

theorem narrow_of_lt {width : Nat} {f : Text → Text} {statements : List Statement}
    (h : (texts f statements).flatten.length < width) : Narrow width f statements := by
  intro statement hstatement token htoken
  have hmem : (token.rename f).text ∈ texts f statements :=
    List.mem_flatMap.2 ⟨statement, hstatement, List.mem_map_of_mem htoken⟩
  exact Nat.lt_of_le_of_lt (List.sublist_flatten_of_mem hmem).length_le h

/-- Any two renamings leave room for longer names. -/
theorem exists_narrow (f g : Text → Text) (statements : List Statement) :
    ∃ width, Narrow width f statements ∧ Narrow width g statements := by
  refine ⟨(texts f statements).flatten.length + (texts g statements).flatten.length + 1, ?_, ?_⟩
  · exact narrow_of_lt (by omega)
  · exact narrow_of_lt (by omega)

/-! ### Errors -/

/-- An operand that is refused under some names is an operand of the statements. -/
theorem exists_refused {table : Table} {statements : List Statement} {f : Text → Text}
    {span : Span} {text : Text} {kind : OperandKind}
    (h : Program.resolve table (statements.map (Statement.rename f)) =
      .error (.invalidOperand span text kind)) :
    ∃ statement ∈ statements, ∃ token ∈ statement.operands,
      span = token.span ∧ text = (token.rename f).text := by
  obtain ⟨before, renamed, after, hsplit, hfault⟩ := resolve_error h
  have hmem : renamed ∈ statements.map (Statement.rename f) := by simp [hsplit]
  obtain ⟨statement, hstatement, rfl⟩ := List.mem_map.1 hmem
  cases hfault with
  | operand hrenamed _ =>
      obtain ⟨token, htoken, rfl⟩ := List.mem_map.1 hrenamed
      exact ⟨statement, hstatement, token, htoken, rfl, rfl⟩

/-- **The operand to blame.**  An operand that is refused under names longer than all others is the
one refused under those others. -/
theorem resolve_of_marked {table : Table} {statements : List Statement} {f : Text → Text}
    (hf : Function.Injective f) {width : Nat} (hnarrow : Narrow width f statements)
    {statement : Statement} (hstatement : statement ∈ statements) {token : Token}
    (htoken : token ∈ statement.operands) {kind : OperandKind}
    (h : Program.resolve table (statements.map (Statement.rename (mark width))) =
      .error (.invalidOperand token.span (token.rename (mark width)).text kind)) :
    Program.resolve table (statements.map (Statement.rename f)) =
      .error (.invalidOperand token.span (token.rename f).text kind) := by
  have halike := Program.resolve_rename_alike (mark_injective width) hf table statements
  rw [h] at halike
  generalize hrenamed : Program.resolve table (statements.map (Statement.rename f)) = outcome
    at halike
  obtain _ | ⟨herror⟩ := halike
  cases herror with
  | @invalidOperand _ span _ text hspan htext _ =>
      cases hspan
      obtain ⟨other, hother, found, hfound, -, rfl⟩ := exists_refused hrenamed
      have hshort := hnarrow other hother found hfound
      suffices hsame : (found.rename f).text = (token.rename f).text by rw [hsame]
      by_cases hkind : token.kind = .identifier
      · -- a marked name is no text of the renamed statements
        rw [Token.text_rename_of_identifier hkind] at htext ⊢
        rcases htext with heq | ⟨name, hmark, hname⟩
        · have := le_length_mark width token.text
          rw [heq] at this
          omega
        · rw [hname, mark_injective width hmark]
      · -- all other texts are too short to be marked names
        have htoken := hnarrow statement hstatement token htoken
        rw [Token.text_rename_of_ne hkind] at htext htoken ⊢
        rcases htext with heq | ⟨name, hmark, -⟩
        · exact heq.symm
        · have := le_length_mark width name
          rw [← hmark] at this
          omega

/-- **A refused operand is refused under all names.** -/
theorem exists_blamed {table : Table} {statements : List Statement} {f : Text → Text}
    (hf : Function.Injective f) {span : Span} {text : Text} {kind : OperandKind}
    (h : Program.resolve table statements = .error (.invalidOperand span text kind)) :
    ∃ statement ∈ statements, ∃ token ∈ statement.operands,
      span = token.span ∧ text = token.text ∧
        Program.resolve table (statements.map (Statement.rename f)) =
          .error (.invalidOperand token.span (token.rename f).text kind) := by
  obtain ⟨width, hself, hnarrow⟩ := exists_narrow id f statements
  have halike := Program.resolve_rename_alike Function.injective_id (mark_injective width) table
    statements
  rw [Statement.map_rename_id, h] at halike
  generalize hmarked : Program.resolve table (statements.map (Statement.rename (mark width))) =
    outcome at halike
  obtain _ | ⟨herror⟩ := halike
  cases herror with
  | invalidOperand _ _ _ =>
      obtain ⟨statement, hstatement, token, htoken, rfl, rfl⟩ := exists_refused hmarked
      have hblamed := resolve_of_marked Function.injective_id hself hstatement htoken hmarked
      rw [Statement.map_rename_id, h, Token.rename_id] at hblamed
      cases hblamed
      exact ⟨statement, hstatement, token, htoken, rfl, rfl,
        resolve_of_marked hf hnarrow hstatement htoken hmarked⟩

/-- The error of renamed statements is the renamed error. -/
theorem exists_renamed_error {table : Table} {statements : List Statement} {f : Text → Text}
    (hf : Function.Injective f) {error : SourceError}
    (h : Program.resolve table statements = .error error) :
    ∃ error', Program.resolve table (statements.map (Statement.rename f)) = .error error' ∧
      SourceError.Renamed f statements error error' := by
  have halike := Program.resolve_rename_alike Function.injective_id hf table statements
  rw [Statement.map_rename_id, h] at halike
  generalize hrenamed : Program.resolve table (statements.map (Statement.rename f)) = outcome
    at halike
  obtain _ | ⟨herror⟩ := halike
  refine ⟨_, rfl, ?_⟩
  -- likeness says all about every fault but a refused operand
  obtain ⟨_, _, _, -, hfault⟩ := resolve_error h
  cases hfault with
  | duplicate hlabels hprevious hname =>
      cases herror with
      | duplicateLabel hspan hname hprevious =>
          obtain ⟨_, rfl, rfl⟩ := hname
          cases hspan
          cases hprevious
          exact .duplicateLabel _ _ _
  | mnemonic =>
      cases herror with
      | unknownOpcode hspan _ =>
          cases hspan
          exact .unknownOpcode _ _
  | count expected found atLeast =>
      cases herror with
      | operandCount hspan _ _ _ _ =>
          cases hspan
          exact .operandCount _ _ _ _ _
  | undefined htoken =>
      cases herror with
      | undefinedLabel hspan hname =>
          obtain ⟨_, hold, rfl⟩ := hname
          cases hspan
          rw [hold]
          exact .undefinedLabel _ _
  | operand htoken kind =>
      obtain ⟨statement, hstatement, token, htoken, hspan, htext, hblamed⟩ := exists_blamed hf h
      rw [hrenamed] at hblamed
      cases hblamed
      rw [hspan, htext]
      exact .invalidOperand hstatement htoken kind

/-- **Label names are only names.**  Under any opcode table, statements whose labels are renamed so
that different names stay different resolve exactly when they did before.  The program is then the
renamed one: it has the same binary, its instructions lie where they did, and every new name stands
for the offset of the old one.  If they are refused, it is with the renamed error. -/
theorem resolve_renamed (f : Text → Text) (hf : Function.Injective f) (table : Table)
    (statements : List Statement) :
    match Program.resolve table statements with
    | .ok program =>
        Program.resolve table (statements.map (Statement.rename f)) = .ok (program.rename f) ∧
          ∀ name offset, (program.rename f).offset? name = some offset ↔
            ∃ original, f original = name ∧ program.offset? original = some offset
    | .error error =>
        ∃ error', Program.resolve table (statements.map (Statement.rename f)) = .error error' ∧
          SourceError.Renamed f statements error error' := by
  cases h : Program.resolve table statements with
  | error error => exact exists_renamed_error hf h
  | ok program =>
      have halike := Program.resolve_rename_alike Function.injective_id hf table statements
      rw [Statement.map_rename_id] at halike
      obtain ⟨program', hprogram', hlike⟩ := halike.exists_ok h
      rw [hprogram', hlike.eq_rename]
      exact ⟨rfl, fun _ _ => Program.offset?_rename hf program⟩

/-- A name with that of a module in front. -/
def qualified (name : Text) : Text := utf8 "main_" ++ name

/-- A name where a number has to be. -/
def misplaced : Statement where
  mnemonic := byteDirective
  directive := true
  operands := [{ kind := .identifier, text := utf8 "end" }]

/-- The jump to `end` becomes one to `main_end`, and a misplaced name is refused as `main_end`. -/
theorem resolve_qualified :
    Function.Injective qualified ∧
      Program.resolve Linking.jumpTable
          ([Linking.jump, Linking.landing].map (Statement.rename qualified)) =
        .ok (Linking.jumpProgram.rename qualified) ∧
      (Linking.jumpProgram.rename qualified).offset? (utf8 "main_end") = some 5 ∧
      Program.resolve Linking.jumpTable [misplaced.rename qualified] =
        .error (.invalidOperand {} (utf8 "main_end") .immediate) := by
  have hinjective : Function.Injective qualified := List.append_right_injective _
  have hjump : Program.resolve Linking.jumpTable [Linking.jump, Linking.landing] =
      .ok Linking.jumpProgram := by decide
  have hmisplaced : Program.resolve Linking.jumpTable [misplaced] =
      .error (.invalidOperand {} (utf8 "end") .immediate) := by decide
  have hrenamed := resolve_renamed qualified hinjective Linking.jumpTable
    [Linking.jump, Linking.landing]
  have hrefused := resolve_renamed qualified hinjective Linking.jumpTable [misplaced]
  rw [hjump] at hrenamed
  rw [hmisplaced] at hrefused
  obtain ⟨hprogram, hoffset⟩ := hrenamed
  refine ⟨hinjective, hprogram, ?_, ?_⟩
  · exact (hoffset _ _).2 ⟨utf8 "end", by decide, by decide⟩
  · obtain ⟨error', herror', hlike⟩ := hrefused
    generalize herror : SourceError.invalidOperand {} (utf8 "end") .immediate = error at hlike
    cases hlike with
    | @invalidOperand statement token hstatement htoken expected =>
        obtain rfl := List.mem_singleton.1 hstatement
        obtain rfl := List.mem_singleton.1 htoken
        cases herror
        exact herror'
    | _ => cases herror

end Renaming

end TableAssembler
