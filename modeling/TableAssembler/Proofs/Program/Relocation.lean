/-
**Relocation: a program behind another one.**

Only two things in a program depend on where it stands: a `.org` directive, which names an address,
and the labels.  So the statements of one program can be put behind those of another, if they have
no `.org` directive and no label in common with it: every offset moves on by the length of the first
binary, and so does the number in every label field, as long as it fits into its two bytes.  The
rest of the binary is the same.

Main definitions:

* `Relocation.labelFields` — the label operands of a program and where their fields lie;
* `Relocation.InReach` — the label of an operand can be reached from further on;
* `Relocation.Relocated` — **a binary in which the numbers in some fields have grown**;
* `Relocation.Joinable` — statements that can be put behind others.

Main results:

* `Relocation.place_append`, `Relocation.place_add` — the offsets of statements behind others;
* `Relocation.Joinable.valid_append_iff` — when the statements of two programs make one;
* `Relocation.relocated_place`, `Relocation.Joinable.binary_append` — **the binary of both**;
* `Relocation.Joinable.resolve_append_error` — what fails first when a label gets out of reach.
-/

import TableAssembler.Proofs.Program.Decoding

set_option relaxedAutoImplicit false
set_option autoImplicit false

namespace TableAssembler

namespace Relocation

open Layout Encoding Linking Decoding

/-! ### Statements behind others -/

/-- A statement is a `.org` directive. -/
def IsOrigin (statement : Statement) : Prop :=
  statement.directive = true ∧ statement.mnemonic = orgDirective

instance (statement : Statement) : Decidable (IsOrigin statement) :=
  inferInstanceAs (Decidable (_ ∧ _))

/-- The end of some statements, the first of them at `offset`. -/
def extent (table : Table) : Nat → List Statement → Nat
  | offset, [] => offset
  | offset, statement :: rest => extent table (offset + size table offset statement) rest

theorem place_append (table : Table) (offset : Nat) (first second : List Statement) :
    place table offset (first ++ second) =
      place table offset first ++ place table (extent table offset first) second := by
  induction first generalizing offset with
  | nil => rfl
  | cons statement rest ih => rw [List.cons_append, place, place, extent, ih, List.cons_append]

/-- Statements that keep the rules take as many bytes as lie between their offset and their end. -/
theorem length_place {table : Table} (symbols : List Symbol) {offset : Nat}
    {statements : List Statement}
    (h : ∀ placed ∈ place table offset statements, Fits table placed.1 placed.2) :
    offset + ((place table offset statements).flatMap fun placed =>
      bytes table symbols placed.1 placed.2).length = extent table offset statements := by
  induction statements generalizing offset with
  | nil => rfl
  | cons statement rest ih =>
      rw [place, List.forall_mem_cons] at h
      have hrest := ih h.2
      have hhead : (bytes table symbols offset statement).length = size table offset statement :=
        length_bytes h.1 symbols
      rw [place, List.flatMap_cons, List.length_append, extent, ← hrest]
      dsimp only
      omega

section Movable

variable {statement : Statement}

theorem labelOffset_of_movable (h : ¬IsOrigin statement) (offset : Nat) :
    labelOffset offset statement = offset := if_neg h

theorem size_of_movable (h : ¬IsOrigin statement) (table : Table) (offset other : Nat) :
    size table offset statement = size table other statement := by
  unfold size
  split
  · rfl
  · rename_i hdirective
    split
    · rfl
    · rw [if_neg fun hname => h ⟨by simpa using hdirective, hname⟩,
        if_neg fun hname => h ⟨by simpa using hdirective, hname⟩]

theorem bytes_of_movable (h : ¬IsOrigin statement) (table : Table) (symbols : List Symbol)
    (offset other : Nat) :
    bytes table symbols offset statement = bytes table symbols other statement := by
  rw [bytes, bytes, size_of_movable h table offset other]

theorem fits_of_movable (h : ¬IsOrigin statement) {table : Table} {offset : Nat} (other : Nat)
    (hfits : Fits table offset statement) : Fits table other statement := by
  cases hfits with
  | instruction opcode plain found operands => exact .instruction opcode plain found operands
  | raw directive name nonempty numbers => exact .raw directive name nonempty numbers
  | origin _ _ directive name _ _ _ _ _ => exact absurd ⟨directive, name⟩ h

end Movable

/-- A placed statement, moved on. -/
def shiftPlaced (base : Nat) (placed : Nat × Statement) : Nat × Statement :=
  (placed.1 + base, placed.2)

/-- **Statements without `.org` directives are placed further on, each by as much.** -/
theorem place_add {statements : List Statement} (h : ∀ statement ∈ statements, ¬IsOrigin statement)
    (table : Table) (offset base : Nat) :
    place table (offset + base) statements =
      (place table offset statements).map (shiftPlaced base) := by
  induction statements generalizing offset with
  | nil => rfl
  | cons statement rest ih =>
      rw [List.forall_mem_cons] at h
      rw [place, place, List.map_cons, size_of_movable h.1 table (offset + base) offset,
        Nat.add_right_comm, ih h.2]
      rfl

/-- A label that stands for an offset further on. -/
def shiftSymbol (base : Nat) (symbol : Symbol) : Symbol :=
  { symbol with offset := symbol.offset + base }

/-- A placed statement further on. -/
def shiftInstruction (base : Nat) (instruction : Instruction) : Instruction :=
  { instruction with offset := instruction.offset + base }

/-- A label field further on. -/
def shiftFixup (base : Nat) (fixup : Fixup) : Fixup := { fixup with offset := fixup.offset + base }

theorem fieldFixups_add (offset base : Nat) (fields : List (OperandKind × Token)) :
    fieldFixups (offset + base) fields = (fieldFixups offset fields).map (shiftFixup base) := by
  induction fields generalizing offset with
  | nil => rfl
  | cons field rest ih =>
      rw [fieldFixups, fieldFixups, List.map_append, Nat.add_right_comm, ih]
      split <;> rfl

theorem fixupsAt_add (table : Table) (offset base : Nat) (statement : Statement) :
    fixupsAt table (offset + base) statement =
      (fixupsAt table offset statement).map (shiftFixup base) := by
  unfold fixupsAt
  split
  · rw [Nat.add_right_comm, fieldFixups_add]
  · rfl

theorem mem_of_mem_place {table : Table} {offset : Nat} {statements : List Statement}
    {placed : Nat × Statement} (h : placed ∈ place table offset statements) :
    placed.2 ∈ statements := by
  rw [← map_snd_place table offset statements]
  exact List.mem_map_of_mem h

/-! ### Two lists of statements -/

/-- **The second list of statements can be put behind the first**, as far as the offsets of its
labels allow. -/
structure Joinable (table : Table) (first second : List Statement) : Prop where
  left : Valid table first
  right : Valid table second
  movable : ∀ statement ∈ second, ¬IsOrigin statement
  disjoint : (definedNames first).Disjoint (definedNames second)

/-- The label of an operand can be reached when everything stands `base` bytes further on. -/
def InReach (program : Program) (base : Nat) (token : Token) : Prop :=
  ∃ offset, program.offset? token.text = some offset ∧ offset + base ≤ 0xFFFF

/-- A label that is in reach is among those of the program, with an offset that leaves room. -/
theorem inReach_iff {table : Table} {statements : List Statement}
    (h : (definedNames statements).Nodup) {base : Nat} {token : Token} :
    InReach (Layout.program table statements) base token ↔
      ∃ symbol ∈ symbols table statements,
        symbol.name = token.text ∧ symbol.offset + base ≤ 0xFFFF := by
  simp only [InReach, Program.offset?, Layout.program, Option.map_eq_some_iff,
    find?_eq_some_iff_mem (nodup_symbols h)]
  constructor
  · rintro ⟨_, ⟨symbol, ⟨hmem, hname⟩, rfl⟩, hle⟩
    exact ⟨symbol, hmem, hname, hle⟩
  · rintro ⟨symbol, hmem, hname, hle⟩
    exact ⟨_, ⟨symbol, ⟨hmem, hname⟩, rfl⟩, hle⟩

namespace Joinable

variable {table : Table} {first second : List Statement}

theorem place_right (h : Joinable table first second) :
    place table (extent table 0 first) second =
      (place table 0 second).map (shiftPlaced (extent table 0 first)) := by
  have hplace := place_add h.movable table 0 (extent table 0 first)
  rwa [Nat.zero_add] at hplace

/-- The labels of both lists: those of the second have moved on. -/
theorem symbols_append (h : Joinable table first second) :
    symbols table (first ++ second) =
      symbols table first ++ (symbols table second).map (shiftSymbol (extent table 0 first)) := by
  unfold symbols
  rw [place_append, List.flatMap_append, h.place_right, List.flatMap_map, List.map_flatMap]
  refine congrArg _ (List.flatMap_congr fun placed hplaced => ?_)
  have hmovable := h.movable _ (mem_of_mem_place hplaced)
  simp only [symbolsAt, shiftPlaced, labelOffset_of_movable hmovable, List.map_map]
  rfl

theorem definedNames_append (first second : List Statement) :
    definedNames (first ++ second) = definedNames first ++ definedNames second := by
  simp [definedNames]

theorem distinct (h : Joinable table first second) : (definedNames (first ++ second)).Nodup := by
  rw [definedNames_append, List.nodup_append']
  exact ⟨h.left.distinct, h.right.distinct, h.disjoint⟩

theorem fits (h : Joinable table first second) :
    ∀ placed ∈ place table 0 (first ++ second), Fits table placed.1 placed.2 := by
  intro placed hplaced
  rw [place_append, List.mem_append, h.place_right] at hplaced
  rcases hplaced with hplaced | hplaced
  · exact h.left.fits placed hplaced
  · obtain ⟨item, hitem, rfl⟩ := List.mem_map.1 hplaced
    exact fits_of_movable (h.movable _ (mem_of_mem_place hitem)) _ (h.right.fits item hitem)

/-- A label of the first list is one of both. -/
theorem mem_symbols_left (h : Joinable table first second) {symbol : Symbol}
    (hmem : symbol ∈ symbols table first) : symbol ∈ symbols table (first ++ second) := by
  rw [h.symbols_append]
  exact List.mem_append_left _ hmem

/-- A label of the second list is one of both, further on. -/
theorem mem_symbols_right (h : Joinable table first second) {symbol : Symbol}
    (hmem : symbol ∈ symbols table second) :
    shiftSymbol (extent table 0 first) symbol ∈ symbols table (first ++ second) := by
  rw [h.symbols_append]
  exact List.mem_append_right _ (List.mem_map_of_mem hmem)

/-- The names that the label operands of the first list give lead where they did. -/
theorem linked_left (h : Joinable table first second) {statement : Statement}
    (hstatement : statement ∈ first) {token : Token} (htoken : token ∈ references table statement) :
    ∃ symbol ∈ symbols table (first ++ second),
      symbol.name = token.text ∧ symbol.offset ≤ 0xFFFF := by
  obtain ⟨symbol, hmem, hname, hle⟩ := h.left.linked statement hstatement token htoken
  exact ⟨symbol, h.mem_symbols_left hmem, hname, hle⟩

/-- A label of the second list that is in reach can be linked. -/
theorem linked_of_inReach (h : Joinable table first second) {token : Token}
    (hreach : InReach (Layout.program table second) (extent table 0 first) token) :
    ∃ symbol ∈ symbols table (first ++ second),
      symbol.name = token.text ∧ symbol.offset ≤ 0xFFFF := by
  obtain ⟨symbol, hmem, hname, hle⟩ := (inReach_iff h.right.distinct).1 hreach
  exact ⟨_, h.mem_symbols_right hmem, hname, hle⟩

/-- A label operand of the second list can be linked exactly when its label is in reach. -/
theorem linked_right_iff (h : Joinable table first second) {statement : Statement}
    (hstatement : statement ∈ second) {token : Token}
    (htoken : token ∈ references table statement) :
    (∃ symbol ∈ symbols table (first ++ second),
        symbol.name = token.text ∧ symbol.offset ≤ 0xFFFF) ↔
      InReach (Layout.program table second) (extent table 0 first) token := by
  refine ⟨?_, h.linked_of_inReach⟩
  rintro ⟨symbol, hmem, hname, hle⟩
  obtain ⟨target, htarget, htext, -⟩ := h.right.linked statement hstatement token htoken
  -- names are distinct, so the label found is that of the second list
  have hsame : symbol = shiftSymbol (extent table 0 first) target :=
    List.inj_on_of_nodup_map (nodup_symbols h.distinct) hmem (h.mem_symbols_right htarget)
      (hname.trans htext.symm)
  rw [hsame] at hle
  exact (inReach_iff h.right.distinct).2 ⟨target, htarget, htext, hle⟩

/-- **Two lists of statements make a program exactly when the labels of the second are in
reach.** -/
theorem valid_append_iff (h : Joinable table first second) :
    Valid table (first ++ second) ↔
      ∀ statement ∈ second, ∀ token ∈ references table statement,
        InReach (Layout.program table second) (extent table 0 first) token := by
  constructor
  · intro hvalid statement hstatement token htoken
    exact (h.linked_right_iff hstatement htoken).1
      (hvalid.linked statement (List.mem_append_right _ hstatement) token htoken)
  · intro hreach
    refine ⟨h.fits, h.distinct, fun statement hstatement token htoken => ?_⟩
    rcases List.mem_append.1 hstatement with hleft | hright
    · exact h.linked_left hleft htoken
    · exact (h.linked_right_iff hright htoken).2 (hreach statement hright token htoken)

end Joinable

/-! ### Binaries -/

/-- The number in the two bytes at an offset of a binary. -/
def wordAt (binary : Text) (offset : Nat) : Nat := wordOf ((binary.drop offset).take 2)

/-- **A binary in which the numbers in some fields of two bytes have grown**, and that is else the
same. -/
structure Relocated (base : Nat) (fields : List Nat) (old new : Text) : Prop where
  length : new.length = old.length
  moved : ∀ offset ∈ fields,
    offset + 2 ≤ old.length ∧ wordAt new offset = wordAt old offset + base
  kept : ∀ i, (∀ offset ∈ fields, i ≠ offset ∧ i ≠ offset + 1) → new[i]? = old[i]?

theorem wordAt_append_left {binary : Text} {offset : Nat} (h : offset + 2 ≤ binary.length)
    (more : Text) : wordAt (binary ++ more) offset = wordAt binary offset := by
  rw [wordAt, wordAt, List.drop_append_of_le_length (by omega),
    List.take_append_of_le_length (by rw [List.length_drop]; omega)]

theorem wordAt_append_right {field : Text} (h : field.length = 2) (binary : Text) :
    wordAt (binary ++ field) binary.length = wordOf field := by
  rw [wordAt, List.drop_left, List.take_of_length_le (Nat.le_of_eq h)]

namespace Relocated

variable {base : Nat} {fields : List Nat} {old new : Text}

theorem nil (base : Nat) : Relocated base [] [] [] := ⟨rfl, by simp, fun _ _ => rfl⟩

/-- What is appended to both binaries is the same in both. -/
theorem append (h : Relocated base fields old new) (more : Text) :
    Relocated base fields (old ++ more) (new ++ more) where
  length := by rw [List.length_append, List.length_append, h.length]
  moved offset hoffset := by
    obtain ⟨hwithin, hword⟩ := h.moved offset hoffset
    rw [List.length_append, wordAt_append_left hwithin,
      wordAt_append_left (h.length.symm ▸ hwithin)]
    exact ⟨by omega, hword⟩
  kept i hi := by
    have hold := h.kept i hi
    by_cases hlt : i < old.length
    · rwa [List.getElem?_append_left hlt, List.getElem?_append_left (h.length.symm ▸ hlt)]
    · rw [List.getElem?_append_right (Nat.le_of_not_lt hlt),
        List.getElem?_append_right (h.length.symm ▸ Nat.le_of_not_lt hlt), h.length]

/-- A field is appended to both binaries, with a greater number in the second. -/
theorem append_field (h : Relocated base fields old new) {a b : Text} (ha : a.length = 2)
    (hb : b.length = 2) (hword : wordOf b = wordOf a + base) :
    Relocated base (fields ++ [old.length]) (old ++ a) (new ++ b) where
  length := by rw [List.length_append, List.length_append, h.length, ha, hb]
  moved offset hoffset := by
    rw [List.length_append, ha]
    rcases List.mem_append.1 hoffset with hoffset | hlast
    · obtain ⟨hwithin, hold⟩ := h.moved offset hoffset
      rw [wordAt_append_left hwithin, wordAt_append_left (h.length.symm ▸ hwithin)]
      exact ⟨by omega, hold⟩
    · obtain rfl := List.mem_singleton.1 hlast
      refine ⟨Nat.le_refl _, ?_⟩
      rw [wordAt_append_right ha, ← h.length, wordAt_append_right hb, hword]
  kept i hi := by
    have hlast := hi old.length (by simp)
    by_cases hlt : i < old.length
    · rw [List.getElem?_append_left hlt, List.getElem?_append_left (h.length.symm ▸ hlt)]
      exact h.kept i fun offset hoffset => hi offset (List.mem_append_left _ hoffset)
    · -- the index is behind both binaries
      rw [List.getElem?_eq_none (by rw [List.length_append, h.length, hb]; omega),
        List.getElem?_eq_none (by rw [List.length_append, ha]; omega)]

end Relocated

/-- The label that a token names stands for an offset that is greater by `base`, and still fits into
two bytes. -/
def Grown (base : Nat) (symbols moved : List Symbol) (token : Token) : Prop :=
  offsetOf moved token.text = offsetOf symbols token.text + base ∧
    offsetOf moved token.text ≤ 0xFFFF

/-- Label fields grow with the offsets of the labels, and all other fields stay. -/
theorem relocated_fields {base : Nat} {symbols moved : List Symbol}
    {operands : List (OperandKind × Token)}
    (hmoved : ∀ token, (.label, token) ∈ operands → Grown base symbols moved token)
    {fields : List Nat} {old new : Text} (h : Relocated base fields old new) :
    Relocated base (fields ++ (fieldFixups old.length operands).map Fixup.offset)
      (old ++ operands.flatMap (fieldBytes symbols))
      (new ++ operands.flatMap (fieldBytes moved)) := by
  -- induction on the operands: each field joins the binaries before it
  induction operands generalizing fields old new with
  | nil => simpa [fieldFixups] using h
  | cons operand operands ih =>
      have htail : ∀ token, (.label, token) ∈ operands → Grown base symbols moved token :=
        fun token htoken => hmoved token (List.mem_cons_of_mem _ htoken)
      have hlength : (old ++ fieldBytes symbols operand).length = old.length + operand.1.width := by
        rw [List.length_append, length_fieldBytes]
      rw [fieldFixups, List.map_append, ← List.append_assoc, List.flatMap_cons, List.flatMap_cons,
        ← List.append_assoc, ← List.append_assoc, ← hlength]
      refine ih htail ?_
      by_cases hlabel : operand.1 = .label
      · obtain ⟨kind, token⟩ := operand
        obtain rfl : kind = .label := hlabel
        obtain ⟨hgrown, hle⟩ := hmoved token List.mem_cons_self
        have hnew := @wordOf_fieldBytes moved (.label, token) hle
        have hold := @wordOf_fieldBytes symbols (.label, token)
          (by change offsetOf symbols token.text ≤ 0xFFFF; omega)
        refine h.append_field (length_fieldBytes _ _) (length_fieldBytes _ _) ?_
        rw [hnew, hold]
        exact hgrown
      · rw [if_neg hlabel, List.map_nil, List.append_nil, fieldBytes_of_ne_label moved hlabel,
          fieldBytes_of_ne_label symbols hlabel]
        exact h.append _

/-- The bytes of a statement, its labels known and moved on. -/
theorem relocated_bytes {table : Table} {base : Nat} {symbols moved : List Symbol}
    {statement : Statement}
    (hmoved : ∀ token ∈ references table statement, Grown base symbols moved token)
    {fields : List Nat} {old new : Text} (h : Relocated base fields old new) :
    Relocated base (fields ++ (fixupsAt table old.length statement).map Fixup.offset)
      (old ++ bytes table symbols old.length statement)
      (new ++ bytes table moved old.length statement) := by
  cases plain : statement.directive with
  | true =>
      simp only [bytes, fixupsAt, plain, Bool.true_eq_false, if_false, List.map_nil,
        List.append_nil]
      exact h.append _
  | false =>
      have hfields : ∀ token, (.label, token) ∈ Layout.fields table statement →
          Grown base symbols moved token :=
        fun token htoken => hmoved token (mem_references plain htoken)
      simp only [bytes, fixupsAt, plain, if_true, instructionBytes]
      cases hfound : table.lookup? statement.mnemonic with
      | none =>
          have hnone : Layout.fields table statement = [] := by simp only [Layout.fields, hfound]
          rw [hnone]
          simpa [fieldFixups] using h
      | some opcode =>
          have hopcode := relocated_fields hfields (h.append [opcode.binary])
          rw [List.length_append, List.length_singleton, List.append_assoc, List.append_assoc]
            at hopcode
          exact hopcode

/-- **The binary of statements, their labels known and moved on.** -/
theorem relocated_place {table : Table} {base : Nat} {symbols moved : List Symbol}
    {statements : List Statement}
    (hmoved : ∀ statement ∈ statements, ∀ token ∈ references table statement,
      Grown base symbols moved token)
    {fields : List Nat} {old new : Text} (h : Relocated base fields old new)
    (hfits : ∀ placed ∈ place table old.length statements, Fits table placed.1 placed.2) :
    Relocated base
      (fields ++ ((place table old.length statements).flatMap fun placed =>
        fixupsAt table placed.1 placed.2).map Fixup.offset)
      (old ++ (place table old.length statements).flatMap fun placed =>
        bytes table symbols placed.1 placed.2)
      (new ++ (place table old.length statements).flatMap fun placed =>
        bytes table moved placed.1 placed.2) := by
  induction statements generalizing fields old new with
  | nil => simpa [place] using h
  | cons statement rest ih =>
      rw [List.forall_mem_cons] at hmoved
      rw [place, List.forall_mem_cons] at hfits
      have hlength : (old ++ bytes table symbols old.length statement).length =
          old.length + size table old.length statement := by
        rw [List.length_append, length_bytes hfits.1]
      have hrest := ih hmoved.2 (relocated_bytes hmoved.1 h) (by rw [hlength]; exact hfits.2)
      rw [hlength] at hrest
      rw [place, List.flatMap_cons, List.flatMap_cons, List.flatMap_cons, List.map_append,
        ← List.append_assoc, ← List.append_assoc, ← List.append_assoc]
      exact hrest

/-! ### The program of two lists -/

/-- **The label operands of a program and where their fields lie**, in order. -/
def labelFields (table : Table) (program : Program) : List Fixup :=
  program.instructions.flatMap fun instruction =>
    fixupsAt table instruction.offset instruction.statement

theorem labelFields_program (table : Table) (statements : List Statement) :
    labelFields table (Layout.program table statements) =
      (place table 0 statements).flatMap fun placed => fixupsAt table placed.1 placed.2 := by
  rw [labelFields, Layout.program, List.flatMap_map]

theorem fixups_encoded (table : Table) (statements : List Statement) :
    (encoded table statements).fixups.toList =
      labelFields table (Layout.program table statements) := by
  simp [encoded, extend, labelFields_program]

/-- The label fields of a program are those of the label operands of its statements. -/
theorem forall_labelFields_iff {table : Table} {statements : List Statement} {P : Token → Prop} :
    (∀ field ∈ labelFields table (Layout.program table statements), P field.operand) ↔
      ∀ statement ∈ statements, ∀ token ∈ references table statement, P token := by
  rw [← List.forall_mem_map, ← fixups_encoded, map_operand_fixups]
  simp only [List.mem_flatMap]
  constructor
  · exact fun h statement hstatement token htoken => h token ⟨statement, hstatement, htoken⟩
  · exact fun h token ⟨statement, hstatement, htoken⟩ => h statement hstatement token htoken

/-- A label operand is refused if the offset of its label does not fit into two bytes. -/
theorem linkOne_out_of_reach {symbols : Array Symbol} {fixup : Fixup} {symbol : Symbol}
    (hfind : (symbols.toList.find? fun other => other.name = fixup.operand.text) = some symbol)
    (hlimit : 0xFFFF < symbol.offset) (binary : Array UInt8) :
    Resolver.linkOne symbols binary fixup =
      .error (.invalidOperand fixup.operand.span fixup.operand.text .label) := by
  rw [Array.find?_toList] at hfind
  rw [Resolver.linkOne, hfind]
  exact if_pos hlimit

/-- The bytes of a statement depend on the offsets of the labels that it names, and on no others. -/
theorem bytes_congr {table : Table} {symbols others : List Symbol} {statement : Statement}
    (h : ∀ token ∈ references table statement,
      offsetOf symbols token.text = offsetOf others token.text) (offset : Nat) :
    bytes table symbols offset statement = bytes table others offset statement := by
  unfold bytes
  split
  · rename_i plain
    unfold instructionBytes
    split
    · refine congrArg _ (List.flatMap_congr fun field hfield => ?_)
      by_cases hlabel : field.1 = .label
      · have hname := h field.2 (mem_references plain (hlabel ▸ hfield))
        simp only [fieldBytes, fieldValue, if_pos hlabel, hname]
      · rw [fieldBytes_of_ne_label symbols hlabel, fieldBytes_of_ne_label others hlabel]
    · rfl
  · rfl

namespace Joinable

variable {table : Table} {first second : List Statement}

theorem length_binary (h : Joinable table first second) :
    (Layout.program table first).binary.length = extent table 0 first := by
  rw [← length_place (symbols table first) h.left.fits, Nat.zero_add]
  rfl

/-- The label operands of the first list stand for what they did. -/
theorem offsetOf_left (h : Joinable table first second) {statement : Statement}
    (hstatement : statement ∈ first) {token : Token} (htoken : token ∈ references table statement) :
    offsetOf (symbols table (first ++ second)) token.text =
      offsetOf (symbols table first) token.text := by
  obtain ⟨symbol, hmem, hname, -⟩ := h.left.linked statement hstatement token htoken
  have hold := offsetOf_of_mem h.left.distinct hmem
  have hnew := offsetOf_of_mem h.distinct (h.mem_symbols_left hmem)
  rw [← hname]
  exact Int.ofNat_inj.1 (hnew.trans hold.symm)

/-- The label operands of the second list have moved on. -/
theorem offsetOf_right (h : Joinable table first second) {statement : Statement}
    (hstatement : statement ∈ second) {token : Token}
    (htoken : token ∈ references table statement) :
    offsetOf (symbols table (first ++ second)) token.text =
      offsetOf (symbols table second) token.text + extent table 0 first := by
  obtain ⟨symbol, hmem, hname, -⟩ := h.right.linked statement hstatement token htoken
  have hold := offsetOf_of_mem h.right.distinct hmem
  have hnew := offsetOf_of_mem h.distinct (h.mem_symbols_right hmem)
  change ↑(offsetOf _ symbol.name) = symbol.offset + extent table 0 first at hnew
  rw [← hname]
  omega

/-- **The binary of both lists**: that of the first, and that of the second with its label fields
moved on. -/
theorem binary_append (h : Joinable table first second)
    (hreach : ∀ statement ∈ second, ∀ token ∈ references table statement,
      InReach (Layout.program table second) (extent table 0 first) token) :
    ∃ code, (Layout.program table (first ++ second)).binary =
        (Layout.program table first).binary ++ code ∧
      Relocated (extent table 0 first)
        ((labelFields table (Layout.program table second)).map Fixup.offset)
        (Layout.program table second).binary code := by
  refine ⟨(place table 0 second).flatMap fun placed =>
    bytes table (symbols table (first ++ second)) placed.1 placed.2, ?_, ?_⟩
  · simp only [Layout.program, place_append, List.flatMap_append, h.place_right, List.flatMap_map]
    refine congrArg₂ _ (List.flatMap_congr fun placed hplaced => ?_)
      (List.flatMap_congr fun placed hplaced => ?_)
    · exact bytes_congr (fun token htoken => h.offsetOf_left (mem_of_mem_place hplaced) htoken) _
    · exact bytes_of_movable (h.movable _ (mem_of_mem_place hplaced)) _ _ _ _
  · have hvalid := h.valid_append_iff.2 hreach
    have hmoved : ∀ statement ∈ second, ∀ token ∈ references table statement,
        Grown (extent table 0 first) (symbols table second) (symbols table (first ++ second))
          token := by
      intro statement hstatement token htoken
      obtain ⟨symbol, hmem, hname, hle⟩ :=
        hvalid.linked statement (List.mem_append_right _ hstatement) token htoken
      refine ⟨h.offsetOf_right hstatement htoken, ?_⟩
      have hnew := offsetOf_of_mem h.distinct hmem
      rw [← hname]
      omega
    have hplace := relocated_place hmoved (Relocated.nil _) h.right.fits
    simp only [List.nil_append, List.length_nil] at hplace
    rw [labelFields_program]
    exact hplace

theorem instructions_append (h : Joinable table first second) :
    (Layout.program table (first ++ second)).instructions =
      (Layout.program table first).instructions ++
        (Layout.program table second).instructions.map
          (shiftInstruction (extent table 0 first)) := by
  simp only [Layout.program, place_append, List.map_append, h.place_right, List.map_map]
  refine congrArg _ (List.map_congr_left fun placed hplaced => ?_)
  have hsize := size_of_movable (h.movable _ (mem_of_mem_place hplaced)) table
    (placed.1 + extent table 0 first) placed.1
  simp only [Function.comp_apply, shiftPlaced, shiftInstruction, hsize]

theorem labelFields_append (h : Joinable table first second) :
    labelFields table (Layout.program table (first ++ second)) =
      labelFields table (Layout.program table first) ++
        (labelFields table (Layout.program table second)).map
          (shiftFixup (extent table 0 first)) := by
  simp only [labelFields_program, place_append, List.flatMap_append, h.place_right,
    List.flatMap_map, List.map_flatMap, shiftPlaced, fixupsAt_add]

/-- The label operands of the first list, and those of the second that are in reach, are linked. -/
theorem links_of_inReach (h : Joinable table first second) {before : List Fixup}
    (hbefore : ∀ other ∈ before,
      InReach (Layout.program table second) (extent table 0 first) other.operand) :
    ∀ fixup ∈ labelFields table (Layout.program table first) ++
        before.map (shiftFixup (extent table 0 first)),
      Links (symbols table (first ++ second)) fixup.operand.text := by
  have hleft := forall_labelFields_iff.2 fun _ hstatement _ htoken =>
    h.linked_left hstatement htoken
  intro fixup hfixup
  rw [links_iff (nodup_symbols h.distinct)]
  rcases List.mem_append.1 hfixup with hfirst | hsecond
  · exact hleft fixup hfirst
  · obtain ⟨other, hother, rfl⟩ := List.mem_map.1 hsecond
    exact h.linked_of_inReach (hbefore other hother)

/-- A label operand of the second list that gets out of reach finds its label at too great an
offset. -/
theorem find?_of_not_inReach (h : Joinable table first second) {field : Fixup}
    (hmem : field ∈ labelFields table (Layout.program table second))
    (hfield : ¬InReach (Layout.program table second) (extent table 0 first) field.operand) :
    ∃ symbol, ((symbols table (first ++ second)).find? fun other =>
      other.name = field.operand.text) = some symbol ∧ 0xFFFF < symbol.offset := by
  obtain ⟨symbol, hsymbol, hname, -⟩ := forall_labelFields_iff.2 h.right.linked field hmem
  refine ⟨shiftSymbol (extent table 0 first) symbol, ?_, ?_⟩
  · exact (find?_eq_some_iff_mem (nodup_symbols h.distinct)).2 ⟨h.mem_symbols_right hsymbol, hname⟩
  · by_contra hle
    exact hfield ((inReach_iff h.right.distinct).2 ⟨symbol, hsymbol, hname, Int.not_lt.1 hle⟩)

/-- **What fails first**: if a label operand of the second list gets out of reach, and none before
it, then it is refused. -/
theorem resolve_append_error (h : Joinable table first second) {before after : List Fixup}
    {field : Fixup}
    (hfields : labelFields table (Layout.program table second) = before ++ field :: after)
    (hbefore : ∀ other ∈ before,
      InReach (Layout.program table second) (extent table 0 first) other.operand)
    (hfield : ¬InReach (Layout.program table second) (extent table 0 first) field.operand) :
    Program.resolve table (first ++ second) =
      .error (.invalidOperand field.operand.span field.operand.text .label) := by
  have hrun : (first ++ second).foldlM (Resolver.statement table) {} =
      .ok (encoded table (first ++ second)) :=
    run_eq_ok_iff.2 ⟨h.fits, ⟨h.distinct, by simp [labelNames]⟩, rfl⟩
  -- the fixups come in the order of the label fields, those of the first list first
  have hsplit : (encoded table (first ++ second)).fixups.toList =
      (labelFields table (Layout.program table first) ++
          before.map (shiftFixup (extent table 0 first))) ++
        shiftFixup (extent table 0 first) field ::
          after.map (shiftFixup (extent table 0 first)) := by
    rw [fixups_encoded, h.labelFields_append, hfields, List.map_append, List.map_cons,
      List.append_assoc]
  have hlinks := h.links_of_inReach hbefore
  obtain ⟨symbol, hfind, hlimit⟩ := h.find?_of_not_inReach (by rw [hfields]; simp) hfield
  rw [← symbols_encoded] at hlinks hfind
  rw [resolve_eq_link, hrun]
  refine Outcome.map_eq_error.2 (Outcome.map_eq_error.2 ?_)
  rw [← Array.foldlM_toList, Outcome.foldlM_eq_error]
  exact ⟨_, _, _, _, hsplit, foldlM_linkOne_eq_ok_iff.2 ⟨hlinks, rfl⟩,
    @linkOne_out_of_reach _ (shiftFixup _ field) _ hfind hlimit _⟩

end Joinable

end Relocation

end TableAssembler
