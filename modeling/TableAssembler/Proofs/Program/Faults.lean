/-
**What the errors of the resolver are about.**

An error of the resolver names something that stands in a statement: its mnemonic, one of its
operands, or one of its labels and an earlier label of the same name.  Each function of the resolver
is inverted once, on its errors; the statements are taken in order, so that a statement that fails
knows just the labels in front of it.

Main definitions:

* `Faults.known` — the labels that a resolver has defined;
* `Faults.Fault` — **what an error can say about a statement** when some labels are known.

Main results:

* `Faults.statement_error` — one statement;
* `Faults.link_error` — the patching of label operands;
* `Faults.resolve_error` — **every error of the resolver is the fault of a statement**.
-/

import TableAssembler.Proofs.Program.Linking

set_option relaxedAutoImplicit false
set_option autoImplicit false

namespace TableAssembler

namespace Faults

open Layout Encoding Linking

/-- **What an error can say about a statement**, the labels in front of it being known. -/
inductive Fault (known : List LabelDef) (statement : Statement) : SourceError → Prop
  | duplicate {first last : List LabelDef} {label previous : LabelDef}
      (hlabels : statement.labels = first ++ label :: last) (hprevious : previous ∈ known ++ first)
      (hname : previous.name = label.name) :
      Fault known statement (.duplicateLabel label.span label.name previous.span)
  | mnemonic :
      Fault known statement (.unknownOpcode statement.mnemonicSpan statement.mnemonic)
  | count (expected found : Int) (atLeast : Bool) :
      Fault known statement
        (.operandCount statement.mnemonicSpan statement.mnemonic expected found atLeast)
  | operand {token : Token} (htoken : token ∈ statement.operands) (kind : OperandKind) :
      Fault known statement (.invalidOperand token.span token.text kind)
  | undefined {token : Token} (htoken : token ∈ statement.operands) :
      Fault known statement (.undefinedLabel token.span token.text)

/-! ### Operands -/

theorem number_error {token : Token} {kind : OperandKind} {error : SourceError}
    (h : Resolver.number token kind = .error error) :
    error = Resolver.invalidOperand token kind := by
  unfold Resolver.number at h
  split at h
  · cases h
    rfl
  · split at h
    · cases h
      rfl
    · split at h
      · cases h
        rfl
      · cases h

theorem encodeOperand_error {token : Token} {kind : OperandKind} {error : SourceError}
    (h : Resolver.encodeOperand kind token = .error error) :
    error = Resolver.invalidOperand token kind := by
  unfold Resolver.encodeOperand at h
  by_cases hlabel : kind = .label
  · rw [if_pos hlabel] at h
    by_cases hkind : token.kind = .identifier
    · rw [if_pos hkind] at h
      cases h
    · rw [if_neg hkind] at h
      cases h
      rfl
  · rw [if_neg hlabel, Outcome.map_eq_error] at h
    exact number_error h

theorem encodeOperands_error {kinds : List OperandKind} {tokens : List Token} {offset : Nat}
    {error : SourceError} (h : Resolver.encodeOperands offset kinds tokens = .error error) :
    ∃ token ∈ tokens, ∃ kind, error = Resolver.invalidOperand token kind := by
  induction kinds generalizing tokens offset with
  | nil => simp [Resolver.encodeOperands] at h
  | cons kind kinds ih =>
      cases tokens with
      | nil => simp [Resolver.encodeOperands] at h
      | cons token tokens =>
          rw [Resolver.encodeOperands] at h
          cases hfield : Resolver.encodeOperand kind token with
          | error fault =>
              rw [hfield] at h
              cases h
              exact ⟨token, List.mem_cons_self, kind, encodeOperand_error hfield⟩
          | ok field =>
              simp only [hfield, Outcome.map_eq_error] at h
              obtain ⟨later, hlater, found⟩ := ih h
              exact ⟨later, List.mem_cons_of_mem _ hlater, found⟩

/-- Operands fail at the first that does, whatever follows it. -/
theorem encodeOperands_first {before : List (OperandKind × Token)} {kind : OperandKind}
    {token : Token} {error : SourceError} (hbefore : ∀ field ∈ before, FitsKind field.1 field.2)
    (h : Resolver.encodeOperand kind token = .error error) (after : List (OperandKind × Token))
    (offset : Nat) :
    Resolver.encodeOperands offset ((before ++ (kind, token) :: after).map Prod.fst)
      ((before ++ (kind, token) :: after).map Prod.snd) = .error error := by
  induction before generalizing offset with
  | nil => simp only [List.nil_append, List.map_cons, Resolver.encodeOperands, h]
  | cons field before ih =>
      rw [List.forall_mem_cons] at hbefore
      have hfield := encodeOperand_eq_ok_iff.2 ⟨hbefore.1, rfl⟩
      simp only [List.cons_append, List.map_cons, Resolver.encodeOperands, hfield, ih hbefore.2,
        Outcome.map_error]

theorem encodeBytes_error {tokens : List Token} {error : SourceError}
    (h : Resolver.encodeBytes tokens = .error error) :
    ∃ token ∈ tokens, error = Resolver.invalidOperand token .immediate := by
  induction tokens with
  | nil => cases h
  | cons token tokens ih =>
      rw [Resolver.encodeBytes] at h
      cases hnumber : Resolver.number token .immediate with
      | error fault =>
          rw [hnumber] at h
          cases h
          exact ⟨token, List.mem_cons_self, number_error hnumber⟩
      | ok value =>
          simp only [hnumber, Outcome.map_eq_error] at h
          obtain ⟨later, hlater, found⟩ := ih h
          exact ⟨later, List.mem_cons_of_mem _ hlater, found⟩

/-! ### Labels -/

/-- The labels that a resolver has defined, in order. -/
def known (resolver : Resolver) : List LabelDef :=
  resolver.symbols.toList.map fun symbol => ⟨symbol.name, symbol.span⟩

theorem defineLabel_error {resolver : Resolver} {label : LabelDef} {error : SourceError}
    (h : resolver.defineLabel label = .error error) :
    ∃ previous ∈ known resolver, previous.name = label.name ∧
      error = .duplicateLabel label.span label.name previous.span := by
  unfold Resolver.defineLabel at h
  cases hfind : resolver.symbols.find? fun symbol => symbol.name = label.name with
  | none =>
      rw [hfind] at h
      cases h
  | some symbol =>
      rw [hfind] at h
      cases h
      have hmem := Array.mem_toList_iff.2 (Array.mem_of_find?_eq_some hfind)
      exact ⟨_, List.mem_map_of_mem hmem, by simpa using Array.find?_some hfind, rfl⟩

theorem known_of_define {resolver after : Resolver} {labels : List LabelDef}
    (h : labels.foldlM Resolver.defineLabel resolver = .ok after) :
    known after = known resolver ++ labels := by
  obtain ⟨-, rfl⟩ := define_eq_ok_iff.1 h
  simp [known, Function.comp_def]

/-- Labels fail at the first whose name is taken, by a label known or by one of them. -/
theorem define_error {resolver : Resolver} {statement : Statement} {error : SourceError}
    (h : resolver.define statement = .error error) : Fault (known resolver) statement error := by
  obtain ⟨first, label, last, middle, hlabels, hfirst, hlabel⟩ := Outcome.foldlM_eq_error.1 h
  obtain ⟨previous, hprevious, hname, rfl⟩ := defineLabel_error hlabel
  rw [known_of_define hfirst] at hprevious
  exact .duplicate hlabels hprevious hname

/-! ### Statements -/

theorem instruction_error {table : Table} {resolver : Resolver} {statement : Statement}
    {error : SourceError} (h : resolver.instruction table statement = .error error) :
    Fault (known resolver) statement error := by
  unfold Resolver.instruction at h
  rcases Outcome.bind_eq_error.1 h with hdefine | ⟨defined, -, hencode⟩
  · exact define_error hdefine
  · cases hfound : table.lookup? statement.mnemonic with
    | none =>
        rw [hfound] at hencode
        cases hencode
        exact .mnemonic
    | some opcode =>
        simp only [hfound] at hencode
        split at hencode
        · cases hencode
          exact .count _ _ _
        · rcases Outcome.bind_eq_error.1 hencode with hoperands | ⟨result, -, hemit⟩
          · obtain ⟨token, htoken, kind, rfl⟩ := encodeOperands_error hoperands
            exact .operand htoken kind
          · cases hemit

theorem byteStatement_error {resolver : Resolver} {statement : Statement} {error : SourceError}
    (h : resolver.byteStatement statement = .error error) :
    Fault (known resolver) statement error := by
  unfold Resolver.byteStatement at h
  rcases Outcome.bind_eq_error.1 h with hdefine | ⟨defined, -, hencode⟩
  · exact define_error hdefine
  · split at hencode
    · cases hencode
      exact .count _ _ _
    · rcases Outcome.bind_eq_error.1 hencode with hbytes | ⟨result, -, hemit⟩
      · obtain ⟨token, htoken, rfl⟩ := encodeBytes_error hbytes
        exact .operand htoken _
      · cases hemit

theorem orgStatement_error {resolver : Resolver} {statement : Statement} {error : SourceError}
    (h : resolver.orgStatement statement = .error error) :
    Fault (known resolver) statement error := by
  unfold Resolver.orgStatement at h
  split at h
  · rename_i token honly
    have htoken : token ∈ statement.operands := by simp [honly]
    rcases Outcome.bind_eq_error.1 h with hnumber | ⟨address, -, hemit⟩
    · rw [number_error hnumber]
      exact .operand htoken _
    · split at hemit
      · cases hemit
        exact .operand htoken _
      · -- the labels are defined behind the filling, which defines none
        have hfault := define_error hemit
        exact hfault
  · cases h
    exact .count _ _ _

/-- **One statement** fails by a fault of its own. -/
theorem statement_error {table : Table} {resolver : Resolver} {statement : Statement}
    {error : SourceError} (h : resolver.statement table statement = .error error) :
    Fault (known resolver) statement error := by
  unfold Resolver.statement at h
  split at h
  · exact instruction_error h
  · split at h
    · exact byteStatement_error h
    · split at h
      · exact orgStatement_error h
      · cases h
        exact .mnemonic

/-! ### Linking -/

theorem linkOne_error {symbols : Array Symbol} {binary : Array UInt8} {fixup : Fixup}
    {error : SourceError} (h : Resolver.linkOne symbols binary fixup = .error error) :
    error = .undefinedLabel fixup.operand.span fixup.operand.text ∨
      error = Resolver.invalidOperand fixup.operand .label := by
  unfold Resolver.linkOne at h
  split at h
  · cases h
    exact .inl rfl
  · split at h
    · cases h
      exact .inr rfl
    · cases h

/-- Linking fails at a fixup. -/
theorem link_error {resolver : Resolver} {error : SourceError}
    (h : resolver.link = .error error) :
    ∃ fixup ∈ resolver.fixups.toList,
      error = .undefinedLabel fixup.operand.span fixup.operand.text ∨
        error = Resolver.invalidOperand fixup.operand .label := by
  rw [Resolver.link, Outcome.map_eq_error, ← Array.foldlM_toList] at h
  obtain ⟨before, fixup, after, middle, hfixups, -, hfixup⟩ := Outcome.foldlM_eq_error.1 h
  exact ⟨fixup, by simp [hfixups], linkOne_error hfixup⟩

/-- Label operands are operands. -/
theorem mem_operands_of_mem_references {table : Table} {statement : Statement} {token : Token}
    (h : token ∈ references table statement) : token ∈ statement.operands := by
  unfold references at h
  split at h
  · obtain ⟨field, hfield, rfl⟩ := List.mem_map.1 h
    have hmem := (List.mem_filter.1 hfield).1
    unfold fields at hmem
    split at hmem
    · exact (List.of_mem_zip hmem).2
    · cases hmem
  · cases h

/-! ### Lists of statements -/

theorem known_of_run {table : Table} {statements : List Statement} {resolver : Resolver}
    (h : statements.foldlM (Resolver.statement table) {} = .ok resolver) :
    known resolver = statements.flatMap Statement.labels := by
  obtain ⟨-, -, rfl⟩ := run_eq_ok_iff.1 h
  have hplaced : ∀ placed : List (Nat × Statement),
      (placed.flatMap fun item => symbolsAt item.1 item.2).map
          (fun symbol => (⟨symbol.name, symbol.span⟩ : LabelDef)) =
        (placed.map Prod.snd).flatMap Statement.labels := by
    intro placed
    simp [List.map_flatMap, List.flatMap_map, symbolsAt, Function.comp_def]
  rw [← map_snd_place table 0 statements, ← hplaced, map_snd_place]
  simp [known, extend, Resolver.offset]

/-- **Every error of the resolver is the fault of a statement**, at which the labels of the
statements in front of it are known. -/
theorem resolve_error {table : Table} {statements : List Statement} {error : SourceError}
    (h : Program.resolve table statements = .error error) :
    ∃ before statement after, statements = before ++ statement :: after ∧
      Fault (before.flatMap Statement.labels) statement error := by
  rw [resolve_eq_link] at h
  rcases Outcome.bind_eq_error.1 h with hrun | ⟨resolver, hrun, hlink⟩
  · obtain ⟨before, statement, after, middle, rfl, hbefore, hstatement⟩ :=
      Outcome.foldlM_eq_error.1 hrun
    refine ⟨before, statement, after, rfl, ?_⟩
    rw [← known_of_run hbefore]
    exact statement_error hstatement
  · obtain ⟨-, -, rfl⟩ := run_eq_ok_iff.1 hrun
    obtain ⟨fixup, hfixup, herror⟩ := link_error (Outcome.map_eq_error.1 hlink)
    obtain ⟨statement, hstatement, htoken⟩ := mem_fixups_encoded.1 ⟨fixup, hfixup, rfl⟩
    obtain ⟨before, after, rfl⟩ := List.append_of_mem hstatement
    have hoperand := mem_operands_of_mem_references htoken
    refine ⟨before, statement, after, rfl, ?_⟩
    rcases herror with rfl | rfl
    · exact .undefined hoperand
    · exact .operand hoperand _

end Faults

end TableAssembler
