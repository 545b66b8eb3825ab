/-
**Resolving keeps likeness.**

A resolver compares label names with each other and copies spans into errors and symbols; it does
nothing else with either.  So statements that are alike are encoded into the same bytes, with labels
and fixups that are alike, or are refused with errors that are.

Main definitions:

* `Likeness.Faithful` — a likeness under which equal names stand for equal names;
* `Resolver.Alike` — resolvers that have made the same of statements that are alike.

Main results:

* `Resolver.statement_alike`, `Resolver.run_alike`, `Resolver.link_alike` — one statement, a list of
  them, and the patching;
* `Program.resolve_alike` — **like statements resolve alike**.
-/

import TableAssembler.Program.Resolver
import TableAssembler.Proofs.Likeness

set_option relaxedAutoImplicit false
set_option autoImplicit false

namespace TableAssembler

/-- A likeness under which two names are equal exactly when those that stand for them are. -/
def Likeness.Faithful (like : Likeness) : Prop :=
  ∀ a a' b b' : Text, like.name a a' → like.name b b' → (a = b ↔ a' = b')

theorem Likeness.faithful_butSpans : Likeness.butSpans.Faithful := by
  rintro a a' b b' rfl rfl
  rfl

/-- Fixups alike: label operands that wait at the same place. -/
structure Fixup.Alike (like : Likeness) (a b : Fixup) : Prop where
  offset : a.offset = b.offset
  operand : Token.Alike like a.operand b.operand
  kind : a.operand.kind = .identifier

namespace Resolver

/-- Resolvers alike: the same binary, and all else alike in order. -/
structure Alike (like : Likeness) (a b : Resolver) : Prop where
  binary : a.binary = b.binary
  instructions : List.Forall₂ (Instruction.Alike like) a.instructions.toList b.instructions.toList
  symbols : List.Forall₂ (Symbol.Alike like) a.symbols.toList b.symbols.toList
  fixups : List.Forall₂ (Fixup.Alike like) a.fixups.toList b.fixups.toList

variable {like : Likeness}

/-! ### Operands -/

theorem invalidOperand_alike {a b : Token} (h : Token.Alike like a b) (kind : OperandKind) :
    SourceError.Alike like (invalidOperand a kind) (invalidOperand b kind) :=
  .invalidOperand h.span h.text_or_name kind

theorem number_alike {a b : Token} (h : Token.Alike like a b) (kind : OperandKind) :
    Outcome.Alike (SourceError.Alike like) (fun value value' : Nat => value = value')
      (number a kind) (number b kind) := by
  have hrefuse := invalidOperand_alike h kind
  unfold number
  rw [← h.kind]
  by_cases hkind : a.kind = .number
  · rw [if_neg (not_not.2 hkind), if_neg (not_not.2 hkind), h.value_eq hkind]
    cases b.value with
    | error error => exact .error hrefuse
    | ok value =>
        by_cases hlimit : kind.limit < value
        · simpa only [if_pos hlimit] using .error hrefuse
        · simpa only [if_neg hlimit] using .ok rfl
  · rw [if_pos hkind, if_pos hkind]
    exact .error hrefuse

theorem encodeOperand_alike {a b : Token} (h : Token.Alike like a b) (kind : OperandKind) :
    Outcome.Alike (SourceError.Alike like) (fun field field' : Text => field = field')
      (encodeOperand kind a) (encodeOperand kind b) := by
  unfold encodeOperand
  rw [← h.kind]
  by_cases hlabel : kind = .label
  · rw [if_pos hlabel, if_pos hlabel]
    by_cases hkind : a.kind = .identifier
    · rw [if_pos hkind, if_pos hkind]
      exact .ok rfl
    · rw [if_neg hkind, if_neg hkind]
      exact .error (invalidOperand_alike h kind)
  · rw [if_neg hlabel, if_neg hlabel]
    exact (number_alike h kind).map fun _ _ hvalue => by rw [hvalue]

/-- A field that has been encoded leaves a fixup only for a label. -/
theorem operandFixups_alike {a b : Token} (h : Token.Alike like a b) {kind : OperandKind}
    {field : Text} (hfield : encodeOperand kind a = .ok field) (offset : Nat) :
    List.Forall₂ (Fixup.Alike like) (operandFixups offset kind a)
      (operandFixups offset kind b) := by
  unfold encodeOperand at hfield
  unfold operandFixups
  by_cases hlabel : kind = .label
  · rw [if_pos hlabel] at hfield
    rw [if_pos hlabel, if_pos hlabel]
    by_cases hkind : a.kind = .identifier
    · exact .cons ⟨rfl, h, hkind⟩ .nil
    · rw [if_neg hkind] at hfield
      cases hfield
  · rw [if_neg hlabel, if_neg hlabel]
    exact .nil

/-- The encodings of operands: the same bytes, and fixups alike. -/
def EncodingAlike (like : Likeness) (a b : Text × List Fixup) : Prop :=
  a.1 = b.1 ∧ List.Forall₂ (Fixup.Alike like) a.2 b.2

theorem encodeOperands_alike (kinds : List OperandKind) {tokens tokens' : List Token}
    (htokens : List.Forall₂ (Token.Alike like) tokens tokens') (offset : Nat) :
    Outcome.Alike (SourceError.Alike like) (EncodingAlike like)
      (encodeOperands offset kinds tokens) (encodeOperands offset kinds tokens') := by
  induction htokens generalizing kinds offset with
  | nil =>
      cases kinds with
      | nil => exact .ok ⟨rfl, .nil⟩
      | cons kind kinds => exact .ok ⟨rfl, .nil⟩
  | cons htoken _ ih =>
      cases kinds with
      | nil => exact .ok ⟨rfl, .nil⟩
      | cons kind kinds =>
          rw [encodeOperands, encodeOperands]
          rcases (encodeOperand_alike htoken kind).cases_eq with
            ⟨field, field', hfield, hfield', rfl⟩ | ⟨error, error', herror, herror', h⟩
          · simp only [hfield, hfield']
            refine (ih kinds (offset + kind.width)).map fun rest rest' hrest => ?_
            obtain ⟨bytes, fixups⟩ := rest
            obtain ⟨bytes', fixups'⟩ := rest'
            obtain ⟨rfl, hfixups⟩ := hrest
            exact ⟨rfl, List.rel_append (operandFixups_alike htoken hfield offset) hfixups⟩
          · simp only [herror, herror']
            exact .error h

theorem encodeBytes_alike {tokens tokens' : List Token}
    (htokens : List.Forall₂ (Token.Alike like) tokens tokens') :
    Outcome.Alike (SourceError.Alike like) (fun bytes bytes' : Text => bytes = bytes')
      (encodeBytes tokens) (encodeBytes tokens') := by
  induction htokens with
  | nil => exact .ok rfl
  | cons htoken _ ih =>
      rw [encodeBytes, encodeBytes]
      rcases (number_alike htoken .immediate).cases_eq with
        ⟨value, value', hvalue, hvalue', rfl⟩ | ⟨error, error', herror, herror', h⟩
      · simp only [hvalue, hvalue']
        exact ih.map fun _ _ hbytes => by rw [hbytes]
      · simp only [herror, herror']
        exact .error h

/-! ### Labels -/

/-- Names that stand for each other find symbols that are alike. -/
theorem find?_alike (faithful : like.Faithful) {symbols symbols' : List Symbol}
    (h : List.Forall₂ (Symbol.Alike like) symbols symbols') {name name' : Text}
    (hname : like.name name name') :
    Option.Rel (Symbol.Alike like) (symbols.find? fun symbol => symbol.name = name)
      (symbols'.find? fun symbol => symbol.name = name') := by
  induction h with
  | nil => exact .none
  | @cons symbol symbol' _ _ hsymbol _ ih =>
      have hiff : symbol.name = name ↔ symbol'.name = name' := faithful _ _ _ _ hsymbol.name hname
      by_cases hfound : symbol.name = name
      · rw [List.find?_cons_of_pos (by simp [hfound]),
          List.find?_cons_of_pos (by simp [hiff.1 hfound])]
        exact .some hsymbol
      · rw [List.find?_cons_of_neg (by simp [hfound]),
          List.find?_cons_of_neg (by simp [mt hiff.2 hfound])]
        exact ih

theorem offset_alike {a b : Resolver} (h : Alike like a b) : a.offset = b.offset := by
  rw [offset, offset, h.binary]

theorem defineLabel_alike (faithful : like.Faithful) {a b : Resolver} {label label' : LabelDef}
    (h : Alike like a b) (hlabel : LabelDef.Alike like label label') :
    Outcome.Alike (SourceError.Alike like) (Alike like) (a.defineLabel label)
      (b.defineLabel label') := by
  have hfind := find?_alike faithful h.symbols hlabel.name
  rw [Array.find?_toList, Array.find?_toList] at hfind
  unfold defineLabel
  generalize (a.symbols.find? fun symbol => symbol.name = label.name) = found at hfind ⊢
  generalize (b.symbols.find? fun symbol => symbol.name = label'.name) = found' at hfind ⊢
  cases hfind with
  | none =>
      have hsymbol : Symbol.Alike like ⟨label.name, a.offset, label.span⟩
          ⟨label'.name, b.offset, label'.span⟩ :=
        ⟨hlabel.name, congrArg Int.ofNat (offset_alike h), hlabel.span⟩
      refine .ok ⟨h.binary, h.instructions, ?_, h.fixups⟩
      simpa only [Array.toList_push] using List.rel_append h.symbols (.cons hsymbol .nil)
  | some hprevious => exact .error (.duplicateLabel hlabel.span hlabel.name hprevious.span)

theorem define_alike (faithful : like.Faithful) {a b : Resolver} {statement statement' : Statement}
    (h : Alike like a b) (hstatement : Statement.Alike like statement statement') :
    Outcome.Alike (SourceError.Alike like) (Alike like) (a.define statement)
      (b.define statement') := by
  unfold define
  exact .foldlM hstatement.labels h fun _ _ _ _ hnext hlabel =>
    defineLabel_alike faithful hnext hlabel

/-! ### Statements -/

theorem emit_alike {a b : Resolver} {statement statement' : Statement} (h : Alike like a b)
    (hstatement : Statement.Alike like statement statement') (bytes : Text)
    {fixups fixups' : List Fixup} (hfixups : List.Forall₂ (Fixup.Alike like) fixups fixups') :
    Alike like (a.emit statement bytes fixups) (b.emit statement' bytes fixups') where
  binary := by rw [emit, emit, h.binary]
  instructions := by
    have hinstruction : Instruction.Alike like ⟨statement, a.offset, bytes.length⟩
        ⟨statement', b.offset, bytes.length⟩ := ⟨hstatement, offset_alike h, rfl⟩
    simpa only [emit, Array.toList_push] using
      List.rel_append h.instructions (.cons hinstruction .nil)
  symbols := h.symbols
  fixups := by simpa [emit] using List.rel_append h.fixups hfixups

theorem wrongCount_alike {statement statement' : Statement}
    (h : Statement.Alike like statement statement') (expected : Nat) (atLeast : Bool) :
    SourceError.Alike like (wrongCount statement expected atLeast)
      (wrongCount statement' expected atLeast) := by
  rw [wrongCount, wrongCount, h.mnemonic, h.operands.length_eq]
  exact .operandCount h.mnemonicSpan _ _ _ _

theorem unknownOpcode_alike {statement statement' : Statement}
    (h : Statement.Alike like statement statement') :
    SourceError.Alike like (.unknownOpcode statement.mnemonicSpan statement.mnemonic)
      (.unknownOpcode statement'.mnemonicSpan statement'.mnemonic) :=
  h.mnemonic ▸ .unknownOpcode h.mnemonicSpan _

theorem instruction_alike (faithful : like.Faithful) (table : Table) {a b : Resolver}
    {statement statement' : Statement} (h : Alike like a b)
    (hstatement : Statement.Alike like statement statement') :
    Outcome.Alike (SourceError.Alike like) (Alike like) (a.instruction table statement)
      (b.instruction table statement') := by
  refine (define_alike faithful h hstatement).bind fun next next' hnext => ?_
  rw [hstatement.mnemonic, hstatement.operands.length_eq, offset_alike hnext]
  cases table.lookup? statement'.mnemonic with
  | none => exact .error (hstatement.mnemonic ▸ unknownOpcode_alike hstatement)
  | some opcode =>
      by_cases hcount : statement'.operands.length = opcode.operands.length
      · simp only [if_neg (not_not.2 hcount)]
        refine (encodeOperands_alike opcode.operands hstatement.operands _).bind ?_
        rintro ⟨bytes, fixups⟩ ⟨bytes', fixups'⟩ ⟨rfl, hfixups⟩
        exact .ok (emit_alike hnext hstatement _ hfixups)
      · simp only [if_pos hcount]
        exact .error (wrongCount_alike hstatement _ _)

theorem byteStatement_alike (faithful : like.Faithful) {a b : Resolver}
    {statement statement' : Statement} (h : Alike like a b)
    (hstatement : Statement.Alike like statement statement') :
    Outcome.Alike (SourceError.Alike like) (Alike like) (a.byteStatement statement)
      (b.byteStatement statement') := by
  refine (define_alike faithful h hstatement).bind fun next next' hnext => ?_
  have hempty : statement.operands = [] ↔ statement'.operands = [] := by
    rw [← List.length_eq_zero_iff, ← List.length_eq_zero_iff, hstatement.operands.length_eq]
  by_cases hnone : statement'.operands = []
  · rw [if_pos hnone, if_pos (hempty.2 hnone)]
    exact .error (wrongCount_alike hstatement _ _)
  · rw [if_neg hnone, if_neg (mt hempty.1 hnone)]
    refine (encodeBytes_alike hstatement.operands).bind fun bytes bytes' hbytes => ?_
    subst hbytes
    exact .ok (emit_alike hnext hstatement _ .nil)

theorem orgStatement_alike (faithful : like.Faithful) {a b : Resolver}
    {statement statement' : Statement} (h : Alike like a b)
    (hstatement : Statement.Alike like statement statement') :
    Outcome.Alike (SourceError.Alike like) (Alike like) (a.orgStatement statement)
      (b.orgStatement statement') := by
  have hcount := wrongCount_alike hstatement 1 false
  obtain ⟨labels, mnemonic, mnemonicSpan, directive, operands, span⟩ := statement
  obtain ⟨labels', mnemonic', mnemonicSpan', directive', operands', span'⟩ := statement'
  have hoperands : List.Forall₂ (Token.Alike like) operands operands' := hstatement.operands
  -- one operand on both sides, or a wrong number of them on both
  cases hoperands with
  | nil => exact .error hcount
  | @cons token token' _ _ htoken hrest =>
      cases hrest with
      | cons _ _ => exact .error hcount
      | nil =>
          refine (number_alike htoken .address).bind fun address address' haddress => ?_
          subst haddress
          rw [offset_alike h]
          by_cases hback : address < b.offset
          · rw [if_pos hback, if_pos hback]
            exact .error (invalidOperand_alike htoken .address)
          · rw [if_neg hback, if_neg hback]
            exact define_alike faithful (emit_alike h hstatement _ .nil) hstatement

/-- **One statement**: on like resolvers, like statements are encoded alike. -/
theorem statement_alike (faithful : like.Faithful) (table : Table) {a b : Resolver}
    {statement statement' : Statement} (h : Alike like a b)
    (hstatement : Statement.Alike like statement statement') :
    Outcome.Alike (SourceError.Alike like) (Alike like) (a.statement table statement)
      (b.statement table statement') := by
  unfold Resolver.statement
  rw [hstatement.directive, hstatement.mnemonic]
  split
  · exact instruction_alike faithful table h hstatement
  · split
    · exact byteStatement_alike faithful h hstatement
    · split
      · exact orgStatement_alike faithful h hstatement
      · exact .error (hstatement.mnemonic ▸ unknownOpcode_alike hstatement)

/-- **A list of statements**: like statements are encoded alike. -/
theorem run_alike (faithful : like.Faithful) (table : Table)
    {statements statements' : List Statement}
    (h : List.Forall₂ (Statement.Alike like) statements statements') :
    Outcome.Alike (SourceError.Alike like) (Alike like)
      (statements.foldlM (Resolver.statement table) {})
      (statements'.foldlM (Resolver.statement table) {}) := by
  have hstart : Alike like {} {} := ⟨rfl, .nil, .nil, .nil⟩
  exact Outcome.Alike.foldlM h hstart fun _ _ _ _ hnext hstatement =>
    statement_alike faithful table hnext hstatement

/-! ### Linking -/

theorem linkOne_alike (faithful : like.Faithful) {symbols symbols' : Array Symbol}
    (hsymbols : List.Forall₂ (Symbol.Alike like) symbols.toList symbols'.toList)
    (binary : Array UInt8) {fixup fixup' : Fixup} (h : Fixup.Alike like fixup fixup') :
    Outcome.Alike (SourceError.Alike like) (fun bytes bytes' : Array UInt8 => bytes = bytes')
      (linkOne symbols binary fixup) (linkOne symbols' binary fixup') := by
  have hname := h.operand.name h.kind
  have hfind := find?_alike faithful hsymbols hname
  rw [Array.find?_toList, Array.find?_toList] at hfind
  unfold linkOne
  generalize (symbols.find? fun symbol => symbol.name = fixup.operand.text) = found at hfind ⊢
  generalize (symbols'.find? fun symbol => symbol.name = fixup'.operand.text) = found' at hfind ⊢
  cases hfind with
  | none => exact .error (.undefinedLabel h.operand.span hname)
  | some hsymbol =>
      simp only [hsymbol.offset, h.offset]
      split
      · exact .error (invalidOperand_alike h.operand .label)
      · exact .ok rfl

/-- **Patching**: like resolvers are patched alike. -/
theorem link_alike (faithful : like.Faithful) {a b : Resolver} (h : Alike like a b) :
    Outcome.Alike (SourceError.Alike like) (Alike like) a.link b.link := by
  unfold link
  rw [← Array.foldlM_toList, ← Array.foldlM_toList]
  refine Outcome.Alike.map (Outcome.Alike.foldlM h.fixups h.binary ?_) ?_
  · intro binary binary' fixup fixup' hbinary hfixup
    subst hbinary
    exact linkOne_alike faithful h.symbols binary hfixup
  · intro binary binary' hbinary
    exact ⟨hbinary, h.instructions, h.symbols, h.fixups⟩

theorem program_alike {a b : Resolver} (h : Alike like a b) :
    Program.Alike like a.program b.program where
  binary := by rw [program, program, h.binary]
  instructions := h.instructions
  symbols := h.symbols

end Resolver

namespace Program

variable {like : Likeness}

/-- Names that stand for each other have the same offset in programs that are alike. -/
theorem offset?_alike (faithful : like.Faithful) {a b : Program} (h : Program.Alike like a b)
    {name name' : Text} (hname : like.name name name') : a.offset? name = b.offset? name' := by
  have hfind := Resolver.find?_alike faithful h.symbols hname
  unfold Program.offset?
  generalize (a.symbols.find? fun symbol => symbol.name = name) = found at hfind ⊢
  generalize (b.symbols.find? fun symbol => symbol.name = name') = found' at hfind ⊢
  cases hfind with
  | none => rfl
  | some hsymbol => exact congrArg some hsymbol.offset

/-- **Like statements resolve alike**: to programs that are alike, or to errors that are. -/
theorem resolve_alike (faithful : like.Faithful) (table : Table)
    {statements statements' : List Statement}
    (h : List.Forall₂ (Statement.Alike like) statements statements') :
    Outcome.Alike (SourceError.Alike like) (Program.Alike like) (resolve table statements)
      (resolve table statements') := by
  refine Outcome.Alike.bind (Resolver.run_alike faithful table h)
    fun resolver resolver' hresolver => ?_
  by_cases hlabels : table.usesLabels = true
  · rw [if_pos hlabels, if_pos hlabels]
    exact (Resolver.link_alike faithful hresolver).map fun _ _ => Resolver.program_alike
  · rw [if_neg hlabels, if_neg hlabels]
    exact .ok (Resolver.program_alike hresolver)

end Program

end TableAssembler
