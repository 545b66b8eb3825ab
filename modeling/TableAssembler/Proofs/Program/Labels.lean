/-
**The labels of a program have one order.**

A label table says for every name which offset it stands for, and in no order.  Offsets may be any
numbers, also less than zero.  The labels are listed by offset, and by name, byte by byte, where
offsets are the same.  Names are distinct, so that this leaves nothing open: however a table is gone
through, and however its names are sorted, the list is the same.  In an assembled program offsets
never decrease from a statement to the next, not even where `.org` moves its labels ahead, so that
the list keeps to the order of the source unless labels share an offset.

Main definitions:

* `Labels.Before` — **the order**, said of two names and the offsets that they stand for;
* `Labels.Canonical` — what it takes for a program to have one list of labels.

Main results:

* `Text.le_iff_le`, `Labels.symbolLe_iff` — the comparisons that sort are linear orders;
* `Labels.canonical_of_distinct` — a table with distinct names has one list of labels;
* `Labels.labelOffset_mono` — labels of later statements stand for no smaller offsets;
* `Labels.names_canonical` — **the labels of a program have one order**, that of the source as far
  as offsets differ.
-/

import TableAssembler.Proofs.Program.Linking

set_option relaxedAutoImplicit false
set_option autoImplicit false

namespace TableAssembler

/-- The order of texts is the lexicographic order of their bytes. -/
theorem Text.le_iff_le {t u : Text} : Text.le t u = true ↔ t ≤ u := by
  induction t generalizing u with
  | nil => simp [Text.le]
  | cons a t ih =>
      cases u with
      | nil => simp [Text.le]
      | cons b u => simp [Text.le, ih, List.cons_le_cons_iff]

namespace Labels

open Layout Linking
open Text (utf8)

/-- **A label stands before another in a program**: it stands for a smaller offset, or for the same
and its name comes first, byte by byte. -/
def Before (program : Program) (a b : Text) : Prop :=
  ∃ m n, program.offset? a = some m ∧ program.offset? b = some n ∧ (m < n ∨ m = n ∧ a < b)

theorem before_iff {program : Program} {a b : Text} :
    ((program.offset? a).any fun m => (program.offset? b).any fun n =>
        decide (m < n ∨ m = n ∧ a < b)) = true ↔ Before program a b := by
  simp only [Option.any_eq_true, decide_eq_true_eq, Before]
  constructor
  · rintro ⟨m, hm, n, hn, h⟩
    exact ⟨m, n, hm, hn, h⟩
  · rintro ⟨m, n, hm, hn, h⟩
    exact ⟨m, hm, n, hn, h⟩

instance (program : Program) (a b : Text) : Decidable (Before program a b) :=
  decidable_of_iff _ before_iff

/-- **A program has one list of labels**, whatever the order of its table. -/
structure Canonical (program : Program) : Prop where
  /-- No label is listed twice. -/
  once : program.labels.Nodup
  /-- The names listed are those that stand for an offset. -/
  complete : ∀ name, name ∈ program.labels ↔ ∃ offset, program.offset? name = some offset
  ordered : program.labels.Pairwise (Before program)
  /-- Going through the table in another order gives the same list. -/
  unmoved : ∀ order : List Symbol, order.Perm program.symbols →
    ({ program with symbols := order } : Program).labels = program.labels
  /-- There is no other way of listing the names in order. -/
  alone : ∀ listed : List Text, listed.Perm (program.symbols.map Symbol.name) →
    listed.Pairwise (Before program) → listed = program.labels

/-! ### The order of the symbols -/

/-- Symbols are sorted by offset, and by name where offsets are the same. -/
theorem symbolLe_iff {a b : Symbol} :
    Program.symbolLe a b = true ↔
      a.offset < b.offset ∨ a.offset = b.offset ∧ a.name ≤ b.name := by
  simp [Program.symbolLe, Text.le_iff_le]

theorem symbolLe_trans (a b c : Symbol) (hab : Program.symbolLe a b = true)
    (hbc : Program.symbolLe b c = true) : Program.symbolLe a c = true := by
  rw [symbolLe_iff] at hab hbc ⊢
  rcases hab with hab | ⟨hab, hnames⟩
  · exact .inl (by omega)
  · rcases hbc with hbc | ⟨hbc, hnames'⟩
    · exact .inl (by omega)
    · exact .inr ⟨hab.trans hbc, List.le_trans hnames hnames'⟩

theorem symbolLe_total (a b : Symbol) :
    (Program.symbolLe a b || Program.symbolLe b a) = true := by
  rw [Bool.or_eq_true, symbolLe_iff, symbolLe_iff]
  rcases Int.lt_trichotomy a.offset b.offset with h | h | h
  · exact .inl (.inl h)
  · rcases List.le_total a.name b.name with hle | hle
    · exact .inl (.inr ⟨h, hle⟩)
    · exact .inr (.inr ⟨h.symm, hle⟩)
  · exact .inr (.inl h)

/-- Symbols that are sorted both ways have the same name. -/
theorem name_eq_of_symbolLe {a b : Symbol} (hab : Program.symbolLe a b = true)
    (hba : Program.symbolLe b a = true) : a.name = b.name := by
  rw [symbolLe_iff] at hab hba
  rcases hab with hab | ⟨heq, hab⟩
  · rcases hba with hba | ⟨heq, -⟩ <;> omega
  · rcases hba with hba | ⟨-, hba⟩
    · omega
    · exact List.le_antisymm hab hba

theorem sortedSymbols_perm (program : Program) :
    program.sortedSymbols.Perm program.symbols := List.mergeSort_perm _ _

theorem pairwise_sortedSymbols (program : Program) :
    program.sortedSymbols.Pairwise fun a b => Program.symbolLe a b = true :=
  List.pairwise_mergeSort symbolLe_trans symbolLe_total _

theorem labels_perm (program : Program) :
    program.labels.Perm (program.symbols.map Symbol.name) := (sortedSymbols_perm program).map _

/-! ### Tables with distinct names -/

section Distinct

variable {program : Program}

theorem offset?_eq_some_iff (h : (program.symbols.map Symbol.name).Nodup) {name : Text}
    {offset : Int} :
    program.offset? name = some offset ↔
      ∃ symbol ∈ program.symbols, symbol.name = name ∧ symbol.offset = offset := by
  simp only [Program.offset?, Option.map_eq_some_iff, find?_eq_some_iff_mem h, and_assoc]

/-- Two symbols of a table that are sorted one before the other are in order by name, unless they
are the same. -/
theorem before_of_symbolLe (h : (program.symbols.map Symbol.name).Nodup) {a b : Symbol}
    (ha : a ∈ program.symbols) (hb : b ∈ program.symbols) (hne : a.name ≠ b.name)
    (hle : Program.symbolLe a b = true) : Before program a.name b.name := by
  refine ⟨a.offset, b.offset, (offset?_eq_some_iff h).2 ⟨a, ha, rfl, rfl⟩,
    (offset?_eq_some_iff h).2 ⟨b, hb, rfl, rfl⟩, ?_⟩
  rcases symbolLe_iff.1 hle with hlt | ⟨heq, hnames⟩
  · exact .inl hlt
  · rcases List.le_iff_lt_or_eq.1 hnames with hlt | hsame
    · exact .inr ⟨heq, hlt⟩
    · exact absurd hsame hne

/-- No two names stand before each other. -/
theorem Before.asymm {a b : Text} (hab : Before program a b) : ¬Before program b a := by
  rintro ⟨n', m', hb', ha', hba⟩
  obtain ⟨m, n, ha, hb, hab⟩ := hab
  obtain rfl : m = m' := Option.some.inj (ha.symm.trans ha')
  obtain rfl : n = n' := Option.some.inj (hb.symm.trans hb')
  rcases hab with hab | ⟨rfl, hab⟩
  · rcases hba with hba | ⟨hba, -⟩ <;> omega
  · rcases hba with hba | ⟨-, hba⟩
    · omega
    · exact List.lt_asymm hab hba

theorem nodup_labels (h : (program.symbols.map Symbol.name).Nodup) : program.labels.Nodup :=
  (labels_perm program).nodup_iff.2 h

theorem pairwise_labels (h : (program.symbols.map Symbol.name).Nodup) :
    program.labels.Pairwise (Before program) := by
  have hdistinct : program.sortedSymbols.Pairwise fun a b => a.name ≠ b.name :=
    List.pairwise_map.1 (nodup_labels h)
  refine List.pairwise_map.2 ?_
  refine ((pairwise_sortedSymbols program).and hdistinct).imp_of_mem ?_
  rintro a b ha hb ⟨hle, hne⟩
  have hperm := sortedSymbols_perm program
  exact before_of_symbolLe h (hperm.mem_iff.1 ha) (hperm.mem_iff.1 hb) hne hle

/-- Names in order are determined by which names they are. -/
theorem eq_labels_of_perm (h : (program.symbols.map Symbol.name).Nodup) {listed : List Text}
    (hperm : listed.Perm (program.symbols.map Symbol.name))
    (hordered : listed.Pairwise (Before program)) : listed = program.labels := by
  refine List.Perm.eq_of_pairwise ?_ hordered (pairwise_labels h)
    (hperm.trans (labels_perm program).symm)
  intro a b _ _ hab hba
  exact absurd hba hab.asymm

/-- Sorting does not depend on the order of what is sorted. -/
theorem sortedSymbols_eq_of_perm (h : (program.symbols.map Symbol.name).Nodup)
    {order : List Symbol} (hperm : order.Perm program.symbols) :
    ({ program with symbols := order } : Program).sortedSymbols = program.sortedSymbols := by
  refine List.Perm.eq_of_pairwise ?_ (pairwise_sortedSymbols _) (pairwise_sortedSymbols _)
    (((sortedSymbols_perm _).trans hperm).trans (sortedSymbols_perm _).symm)
  intro a b ha hb hab hba
  have ha' : a ∈ program.symbols := hperm.mem_iff.1 ((sortedSymbols_perm _).mem_iff.1 ha)
  have hb' : b ∈ program.symbols := (sortedSymbols_perm _).mem_iff.1 hb
  exact List.inj_on_of_nodup_map h ha' hb' (name_eq_of_symbolLe hab hba)

/-- **A table with distinct names has one list of labels.** -/
theorem canonical_of_distinct (h : (program.symbols.map Symbol.name).Nodup) :
    Canonical program where
  once := nodup_labels h
  complete := by
    intro name
    rw [(labels_perm program).mem_iff, List.mem_map]
    simp only [offset?_eq_some_iff h]
    constructor
    · rintro ⟨symbol, hmem, hname⟩
      exact ⟨_, symbol, hmem, hname, rfl⟩
    · rintro ⟨_, symbol, hmem, hname, -⟩
      exact ⟨symbol, hmem, hname⟩
  ordered := pairwise_labels h
  unmoved := by
    intro order hperm
    rw [Program.labels, Program.labels, sortedSymbols_eq_of_perm h hperm]
  alone := fun _ => eq_labels_of_perm h

end Distinct

/-! ### Assembled programs -/

/-- A label of a statement stands for an offset between the ends of the statement's bytes. -/
theorem labelOffset_bounds {table : Table} {offset : Nat} {statement : Statement}
    (h : Fits table offset statement) :
    offset ≤ labelOffset offset statement ∧
      labelOffset offset statement ≤ offset + size table offset statement := by
  cases h with
  | instruction _ plain _ _ => simp [labelOffset, plain]
  | raw directive name _ _ =>
      have hne : byteDirective ≠ orgDirective := by decide
      simp [labelOffset, name, hne]
  | origin token target directive name only _ value ahead _ =>
      have hne : orgDirective ≠ byteDirective := by decide
      have haddress : address statement = target := by
        simp [address, only, Encoding.numberOf_eq value]
      simp only [labelOffset, size, directive, name, hne, and_self, if_true, if_false, haddress,
        Bool.true_eq_false]
      omega

/-- Statements are placed at or behind the start. -/
theorem le_of_mem_place {table : Table} {start : Nat} {statements : List Statement}
    {placed : Nat × Statement} (h : placed ∈ place table start statements) : start ≤ placed.1 := by
  induction statements generalizing start with
  | nil => simp [place] at h
  | cons statement rest ih =>
      rw [place, List.mem_cons] at h
      rcases h with rfl | h
      · exact Nat.le_refl _
      · have := ih h
        omega

/-- **Labels of later statements stand for no smaller offsets.** -/
theorem labelOffset_mono {table : Table} {start : Nat} {statements : List Statement}
    (hfits : ∀ placed ∈ place table start statements, Fits table placed.1 placed.2) :
    (place table start statements).Pairwise fun earlier later =>
      labelOffset earlier.1 earlier.2 ≤ labelOffset later.1 later.2 := by
  induction statements generalizing start with
  | nil => simp [place]
  | cons statement rest ih =>
      rw [place, List.forall_mem_cons] at hfits
      obtain ⟨hfirst, hrest⟩ := hfits
      rw [place, List.pairwise_cons]
      refine ⟨fun later hlater => ?_, ih hrest⟩
      have hahead : labelOffset start statement ≤ start + size table start statement :=
        (labelOffset_bounds hfirst).2
      have hbehind := (labelOffset_bounds (hrest later hlater)).1
      exact Nat.le_trans (Nat.le_trans hahead (le_of_mem_place hlater)) hbehind

/-- The labels of two statements, the first of which stands before the second. -/
theorem offset?_mono {table : Table} {statements : List Statement} {program : Program}
    (h : Program.resolve table statements = .ok program) {i j : Nat} (hij : i < j)
    {earlier later : Statement} (hearlier : statements[i]? = some earlier)
    (hlater : statements[j]? = some later) {a b : LabelDef} (ha : a ∈ earlier.labels)
    (hb : b ∈ later.labels) :
    ∃ m n, program.offset? a.name = some m ∧ program.offset? b.name = some n ∧ m ≤ n := by
  have hvalid := valid_of_resolve h
  obtain rfl := eq_program_of_resolve h
  have hplaced : ∀ (k : Nat) (statement : Statement), statements[k]? = some statement →
      ∃ offset, (place table 0 statements)[k]? = some (offset, statement) := by
    intro k statement hk
    rw [← map_snd_place table 0 statements, List.getElem?_map, Option.map_eq_some_iff] at hk
    obtain ⟨⟨offset, _⟩, hk, rfl⟩ := hk
    exact ⟨offset, hk⟩
  obtain ⟨m, hm⟩ := hplaced i earlier hearlier
  obtain ⟨n, hn⟩ := hplaced j later hlater
  have hmono := List.pairwise_iff_getElem.1 (labelOffset_mono hvalid.fits)
  obtain ⟨hi, hi'⟩ := List.getElem?_eq_some_iff.1 hm
  obtain ⟨hj, hj'⟩ := List.getElem?_eq_some_iff.1 hn
  have hle := hmono i j hi hj hij
  rw [hi', hj'] at hle
  refine ⟨_, _, ?_, ?_, Int.ofNat_le.2 hle⟩
  · exact (offset?_program_iff hvalid.distinct).2 ⟨_, List.mem_of_getElem? hm, a, ha, rfl, rfl⟩
  · exact (offset?_program_iff hvalid.distinct).2 ⟨_, List.mem_of_getElem? hn, b, hb, rfl, rfl⟩

theorem distinct_of_resolve {table : Table} {statements : List Statement} {program : Program}
    (h : Program.resolve table statements = .ok program) :
    (program.symbols.map Symbol.name).Nodup := by
  have hdistinct := (valid_of_resolve h).distinct
  obtain rfl := eq_program_of_resolve h
  rwa [← map_name_symbols table] at hdistinct

/-- In a list in order, a name stands in front of another if it comes before it. -/
theorem sublist_of_before {program : Program} (h : (program.symbols.map Symbol.name).Nodup)
    {a b : Text} (hbefore : Before program a b) : [a, b].Sublist program.labels := by
  have hcanonical := canonical_of_distinct h
  obtain ⟨m, n, ha, hb, -⟩ := id hbefore
  obtain ⟨front, back, hsplit⟩ := List.append_of_mem ((hcanonical.complete a).2 ⟨m, ha⟩)
  have hordered := hcanonical.ordered
  have hmem := (hcanonical.complete b).2 ⟨n, hb⟩
  rw [hsplit] at hordered hmem ⊢
  rw [List.mem_append, List.mem_cons] at hmem
  rcases hmem with hmem | rfl | hmem
  · have hreversed := (List.pairwise_append.1 hordered).2.2 b hmem a List.mem_cons_self
    exact absurd hreversed hbefore.asymm
  · exact absurd hbefore hbefore.asymm
  · exact ((List.singleton_sublist.2 hmem).cons_cons a).trans (List.sublist_append_right _ _)

/-- **The labels of a program have one order.**  A program whose table holds every name once lists
every label exactly once, by offset and then by name, and the list is the same however the table is
gone through.  The program of a list of statements is such a program, and of two labels with
different offsets it lists the one of the earlier statement first. -/
theorem names_canonical :
    (∀ program : Program, (program.symbols.map Symbol.name).Nodup → Canonical program) ∧
      ∀ (table : Table) (statements : List Statement) (program : Program),
        Program.resolve table statements = .ok program →
          Canonical program ∧
            ∀ (i j : Nat) (earlier later : Statement), i < j →
              statements[i]? = some earlier → statements[j]? = some later →
                ∀ a ∈ earlier.labels, ∀ b ∈ later.labels,
                  program.offset? a.name ≠ program.offset? b.name →
                    [a.name, b.name].Sublist program.labels := by
  refine ⟨fun _ => canonical_of_distinct, fun table statements program h => ?_⟩
  have hdistinct := distinct_of_resolve h
  refine ⟨canonical_of_distinct hdistinct, ?_⟩
  intro i j earlier later hij hearlier hlater a ha b hb hne
  obtain ⟨m, n, hm, hn, hle⟩ := offset?_mono h hij hearlier hlater ha hb
  refine sublist_of_before hdistinct ⟨m, n, hm, hn, .inl ?_⟩
  have hne' : m ≠ n := by
    rintro rfl
    exact hne (hm.trans hn.symm)
  omega

/-- A byte with two labels. -/
def doubly : Statement where
  labels := [⟨utf8 "zero", {}⟩, ⟨utf8 "base", {}⟩]
  mnemonic := byteDirective
  directive := true
  operands := [{ kind := .number, text := utf8 "1" }]

/-- A byte with a label that has the offset of the `.org` directive in front of it. -/
def ending : Statement where
  labels := [⟨utf8 "behind", {}⟩]
  mnemonic := byteDirective
  directive := true
  operands := [{ kind := .number, text := utf8 "2" }]

/-- Two labels at the start of the binary, and two at the address of a `.org` directive. -/
def tied : Program where
  binary := [1, 0, 0, 0, 0, 2]
  instructions := [⟨doubly, 0, 1⟩, ⟨landing, 1, 4⟩, ⟨ending, 5, 1⟩]
  symbols := [⟨utf8 "zero", 0, {}⟩, ⟨utf8 "base", 0, {}⟩, ⟨utf8 "end", 5, {}⟩,
    ⟨utf8 "behind", 5, {}⟩]

/-- Labels that share an offset are listed by name; those at the start stay in front. -/
theorem names_tied :
    Program.resolve {} [doubly, landing, ending] = .ok tied ∧
      tied.labels = [utf8 "base", utf8 "zero", utf8 "behind", utf8 "end"] ∧
      [utf8 "zero", utf8 "behind"].Sublist tied.labels := by
  have hresolve : Program.resolve {} [doubly, landing, ending] = .ok tied := by decide
  obtain ⟨hcanonical, horder⟩ := names_canonical.2 {} _ tied hresolve
  refine ⟨hresolve, (hcanonical.alone _ (by decide) (by decide)).symm, ?_⟩
  exact horder 0 2 doubly ending (by decide) rfl rfl ⟨utf8 "zero", {}⟩ (by decide)
    ⟨utf8 "behind", {}⟩ (by decide) (by decide)

end Labels

end TableAssembler
