/-
**What a report says about a failure.**

A failure may hold many errors, and a report has room for one.  Its text is that of the whole
failure; its place is that of the first error that has one; its class is the one of lowest rank
among all that occur, and its data are those of the first error of this class.  Each of these is the
outcome of a search of its own, so that they need not come from the same error.  They do exactly
when the first error that belongs to a class belongs to the one of lowest rank.

Main definitions:

* `Report.class?`, `Report.Code.rank` — the class of a single error, and the rank of a class;
* `Report.Describes` — **the data of a report are those of an error**;
* `Report.Reports` — **what a report says about a failure**;
* `Report.Wraps` — a failure around another, and nothing beside it.

Main results:

* `Report.reports_ofFailure` — the report of a failure says what it should;
* `Report.ofFailure_reports` — **so it does, and a failure around another adds nothing but text**;
* `Report.ofFailure_first_iff` — **when a report describes a single error**.
-/

import TableAssembler.Proofs.Error.Tree
import TableAssembler.Report.Basic

set_option relaxedAutoImplicit false
set_option autoImplicit false

namespace TableAssembler

namespace Report

open Failure (First leaf?)
open Text (utf8)

/-! ### Single errors -/

/-- The class that an error belongs to, if any. -/
def class? : Failure → Option Code
  | .source (.unexpectedCharacter _ _) => some .unexpectedCharacter
  | .source (.unexpected _ _ _) => some .unexpected
  | .source (.unexpectedEnd _ _) => some .unexpectedEnd
  | .source (.unknownOpcode _ _) => some .unknownOpcode
  | .source (.operandCount _ _ _ _ _) => some .operandCount
  | .source (.invalidOperand _ _ _) => some .invalidOperand
  | .source (.undefinedLabel _ _) => some .undefinedLabel
  | .source (.duplicateLabel _ _ _) => some .duplicateLabel
  | .table (.duplicateMnemonic _ _ _) => some .duplicateMnemonic
  | .table (.invalidMnemonic _) => some .invalidMnemonic
  | _ => none

/-- The rank of a class: the lower it is, the sooner the class is reported. -/
def Code.rank : Code → Nat
  | .unexpectedCharacter => 1
  | .unexpected => 2
  | .unexpectedEnd => 3
  | .unknownOpcode => 4
  | .operandCount => 5
  | .invalidOperand => 6
  | .undefinedLabel => 7
  | .duplicateLabel => 8
  | .duplicateMnemonic => 9
  | .invalidMnemonic => 10
  | .unknown => 11

/-- The mnemonic that an error speaks of. -/
def mnemonicOf : Failure → Text
  | .source (.unknownOpcode _ mnemonic) => mnemonic
  | .source (.operandCount _ mnemonic _ _ _) => mnemonic
  | .table (.duplicateMnemonic mnemonic _ _) => mnemonic
  | .table (.invalidMnemonic mnemonic) => mnemonic
  | _ => []

/-- The label that an error speaks of. -/
def labelOf : Failure → Text
  | .source (.undefinedLabel _ name) => name
  | .source (.duplicateLabel _ name _) => name
  | _ => []

/-- The text that an error finds in the source. -/
def foundOf : Failure → Text
  | .source (.unexpectedCharacter _ char) => foundCharacter char
  | .source (.unexpected _ found _) => found.text
  | .source (.invalidOperand _ text _) => text
  | _ => []

/-- The names of what an error expects in its place. -/
def expectedOf : Failure → List Text
  | .source (.unexpected _ _ expected) => expected.map TokenKind.name
  | .source (.unexpectedEnd _ expected) => expected.map TokenKind.name
  | .source (.invalidOperand _ _ expected) => [expected.name]
  | _ => []

/-- The numbers of operands that an error expects and finds, and whether more would do. -/
def countsOf : Failure → Int × Int × Bool
  | .source (.operandCount _ _ expected found atLeast) => (expected, found, atLeast)
  | _ => (0, 0, false)

/-- The indices of the two opcodes that an error speaks of. -/
def indicesOf : Failure → Int × Int
  | .table (.duplicateMnemonic _ index previous) => (index, previous)
  | _ => (0, 0)

/-- The earlier definition that an error speaks of. -/
def definedOf : Failure → Option Span
  | .source (.duplicateLabel _ _ previous) => some previous
  | _ => none

/-- **The data of a report are those of an error**, and what the error does not have is left empty
or zero. -/
structure Describes (error : Failure) (report : Report) : Prop where
  code : class? error = some report.code
  mnemonic : report.mnemonic = mnemonicOf error
  name : report.name = labelOf error
  found : report.found = foundOf error
  expected : report.expected = expectedOf error
  counts : (report.expectedCount, report.foundCount, report.atLeast) = countsOf error
  indices : (report.index, report.previous) = indicesOf error
  defined : report.defined = definedOf error

/-- An error in a source, which has a place. -/
def IsLocated (error : Failure) : Prop := ∃ cause, error = .source cause

/-- **What a report says about a failure.** -/
structure Reports (failure : Failure) (report : Report) : Prop where
  message : report.message = failure.message
  /-- The place is that of the first error that has one. -/
  located : ∀ span, report.location = some span ↔
    ∃ cause, First IsLocated failure (.source cause) ∧ cause.span = span
  unlocated : report.location = none ↔ ∀ error, failure.Has error → ¬IsLocated error
  /-- Without errors that belong to a class, there is nothing else to say. -/
  unknown : (∀ error, failure.Has error → class? error = none) →
    report = { message := report.message, location := report.location }
  /-- No class that occurs has a lower rank, and the data are those of the first of the class. -/
  known : ∀ error code, failure.Has error → class? error = some code →
    report.code.rank ≤ code.rank ∧
      ∃ first, First (fun other => class? other = some report.code) failure first ∧
        Describes first report

/-- The class and the data of an error by itself. -/
def single? (error : Failure) : Option Report := error.leaf?.bind ofLeaf?

theorem describes_of_single? {error : Failure} {report : Report} (h : single? error = some report) :
    Describes error report := by
  cases error with
  | source error =>
      cases h
      cases error <;> exact ⟨rfl, rfl, rfl, rfl, rfl, rfl, rfl, rfl⟩
  | table error =>
      cases error <;> cases h <;> exact ⟨rfl, rfl, rfl, rfl, rfl, rfl, rfl, rfl⟩
  | _ => cases h

theorem class?_eq_map (error : Failure) : class? error = (single? error).map Report.code := by
  cases error with
  | source error => cases error <;> rfl
  | table error => cases error <;> rfl
  | _ => rfl

/-! ### The search for a class -/

/-- The data of a cause if it belongs to a class. -/
def ofClass? (code : Code) (leaf : Failure.Leaf) : Option Report :=
  (ofLeaf? leaf).filter fun report => report.code = code

theorem firstOf?_eq (leaves : List Failure.Leaf) (code : Code) :
    firstOf? leaves code = leaves.findSome? (ofClass? code) := by
  induction leaves with
  | nil => rfl
  | cons leaf leaves ih =>
      rw [firstOf?] at ih ⊢
      cases hleaf : ofLeaf? leaf with
      | none => simp [ofClass?, hleaf, ih]
      | some report =>
          by_cases hcode : report.code = code <;>
            simp [ofClass?, hleaf, hcode, ih, Option.filter]

theorem ofClass?_eq_some_iff {error : Failure} {code : Code} {report : Report} :
    error.leaf?.bind (ofClass? code) = some report ↔
      single? error = some report ∧ report.code = code := by
  cases hleaf : error.leaf? with
  | none => simp [single?, hleaf]
  | some leaf => simp [single?, hleaf, ofClass?, Option.filter_eq_some_iff]

theorem ofClass?_ne_none_iff {error : Failure} {code : Code} :
    error.leaf?.bind (ofClass? code) ≠ none ↔ class? error = some code := by
  rw [Option.ne_none_iff_exists', class?_eq_map, Option.map_eq_some_iff]
  simp only [ofClass?_eq_some_iff]

/-- The first cause of a class is the first error of this class in depth-first order. -/
theorem firstOf?_eq_some_iff {failure : Failure} {code : Code} {report : Report} :
    firstOf? failure.leaves code = some report ↔
      ∃ first, First (fun error => class? error = some code) failure first ∧
        single? first = some report ∧ report.code = code := by
  rw [firstOf?_eq, Failure.findSome?_leaves_eq_some_iff rfl]
  simp only [ofClass?_ne_none_iff, ofClass?_eq_some_iff]

theorem firstOf?_eq_none_iff {failure : Failure} {code : Code} :
    firstOf? failure.leaves code = none ↔
      ∀ error, failure.Has error → class? error ≠ some code := by
  rw [firstOf?_eq, Failure.findSome?_leaves_eq_none_iff rfl]
  simp only [← ofClass?_ne_none_iff, ne_eq, not_not]

/-! ### The order of the classes -/

/-- Classes are looked for by rank. -/
theorem pairwise_rank : Code.inOrder.Pairwise fun code later => code.rank < later.rank := by
  decide

theorem mem_inOrder_of_class? {error : Failure} {code : Code} (h : class? error = some code) :
    code ∈ Code.inOrder := by
  cases error with
  | source error => cases error <;> cases h <;> decide
  | table error => cases error <;> cases h <;> decide
  | _ => cases h

/-- What comes no sooner in the order of the classes has no lower rank. -/
theorem rank_le_of_split {before after : List Code} {code other : Code}
    (hsplit : Code.inOrder = before ++ code :: after) (hother : other ∈ Code.inOrder)
    (hbefore : other ∉ before) : code.rank ≤ other.rank := by
  have hpairwise := pairwise_rank
  rw [hsplit, List.pairwise_append, List.pairwise_cons] at hpairwise
  rw [hsplit, List.mem_append, List.mem_cons] at hother
  rcases hother with hmem | rfl | hmem
  · exact absurd hmem hbefore
  · exact Nat.le_refl _
  · exact Nat.le_of_lt (hpairwise.2.1.1 other hmem)

theorem rank_injective {code other : Code} (h : code.rank = other.rank) : code = other := by
  cases code <;> cases other <;> first | rfl | cases h

/-! ### Reports -/

theorem leafSpan?_eq_some_iff {error : Failure} {span : Span} :
    error.leaf?.bind leafSpan? = some span ↔
      ∃ cause, error = .source cause ∧ cause.span = span := by
  cases error <;> simp [leaf?, leafSpan?]

theorem leafSpan?_ne_none_iff {error : Failure} :
    error.leaf?.bind leafSpan? ≠ none ↔ IsLocated error := by
  cases error <;> simp [leaf?, leafSpan?, IsLocated]

/-- **The report of a failure says what it should.** -/
theorem reports_ofFailure (failure : Failure) : Reports failure (ofFailure failure) where
  message := rfl
  located := by
    intro span
    rw [ofFailure, Failure.findSome?_leaves_eq_some_iff rfl]
    simp only [leafSpan?_ne_none_iff, leafSpan?_eq_some_iff]
    constructor
    · rintro ⟨_, hfirst, cause, rfl, hspan⟩
      exact ⟨cause, hfirst, hspan⟩
    · rintro ⟨cause, hfirst, hspan⟩
      exact ⟨_, hfirst, cause, rfl, hspan⟩
  unlocated := by
    rw [ofFailure, Failure.findSome?_leaves_eq_none_iff rfl]
    simp only [← leafSpan?_ne_none_iff, ne_eq, not_not]
  unknown := by
    intro hnone
    have hfind : Code.inOrder.findSome? (firstOf? failure.leaves) = none := by
      rw [List.findSome?_eq_none_iff]
      intro code _
      rw [firstOf?_eq_none_iff]
      intro error herror
      simp [hnone error herror]
    rw [ofFailure, hfind]
    rfl
  known := by
    intro error code herror hcode
    cases hfind : Code.inOrder.findSome? (firstOf? failure.leaves) with
    | none =>
        have hnone := List.findSome?_eq_none_iff.1 hfind code (mem_inOrder_of_class? hcode)
        exact absurd hcode (firstOf?_eq_none_iff.1 hnone error herror)
    | some report =>
        obtain ⟨before, chosen, after, hsplit, hchosen, hbefore⟩ :=
          List.findSome?_eq_some_iff.1 hfind
        obtain ⟨first, hfirst, hsingle, rfl⟩ := firstOf?_eq_some_iff.1 hchosen
        have hnotMem : code ∉ before := by
          intro hmem
          exact firstOf?_eq_none_iff.1 (hbefore code hmem) error herror hcode
        have hdata := describes_of_single? hsingle
        have hreport : ofFailure failure = { report with
            message := failure.message, location := failure.leaves.findSome? leafSpan? } := by
          rw [ofFailure, hfind]
          rfl
        rw [hreport]
        exact ⟨rank_le_of_split hsplit (mem_inOrder_of_class? hcode) hnotMem, first, hfirst,
          hdata.code, hdata.mnemonic, hdata.name, hdata.found, hdata.expected, hdata.counts,
          hdata.indices, hdata.defined⟩

/-! ### Failures around failures -/

/-- **A failure around another**, through any number of layers with a single cause each. -/
inductive Wraps : Failure → Failure → Prop
  | refl (failure : Failure) : Wraps failure failure
  | task {outer inner : Failure} (task : Text) (h : Wraps outer inner) :
      Wraps (.wrapped task outer) inner
  | load {outer inner : Failure} (name : Text) (h : Wraps outer inner) :
      Wraps (.load name outer) inner
  | inFile (name text : Text) (cause : SourceError) :
      Wraps (.inFile name text cause) (.source cause)
  | script (cause : TableError) : Wraps (.script (.definition cause)) (.table cause)

theorem Wraps.leaves_eq {outer inner : Failure} (h : Wraps outer inner) :
    outer.leaves = inner.leaves := by
  induction h with
  | refl => rfl
  | task _ _ ih => exact ih
  | load _ _ ih => exact ih
  | inFile => rfl
  | script => rfl

/-- **What a report says about a failure, and that layers around it add nothing but text.**  The
report of a failure has the text of the whole failure, the place of the first error in it that has
one, the class of lowest rank among the errors in it, and the data of the first error of this class,
all else being empty or zero.  Any number of layers around a failure change the text and nothing
else. -/
theorem ofFailure_reports (failure : Failure) :
    Reports failure (ofFailure failure) ∧
      ∀ outer, Wraps outer failure →
        ofFailure outer = { ofFailure failure with message := outer.message } := by
  refine ⟨reports_ofFailure failure, ?_⟩
  intro outer hwraps
  simp only [ofFailure, hwraps.leaves_eq]

/-- The span of two bytes on the first line. -/
def early : Span := ⟨2, 4, 1, 3⟩

/-- The span of a byte on the second line. -/
def late : Span := ⟨9, 10, 2, 1⟩

/-- A repeated mnemonic, a label that is missing and a character that starts no token, in layers. -/
def mixture : Failure :=
  .load (utf8 "t.toml") (.joined
    [.plain (utf8 "stop"), .table (.duplicateMnemonic (utf8 "NOP") 3 1),
      .wrapped (utf8 "twice") (.joined
        [.inFile (utf8 "p.asm") [] (.undefinedLabel early (utf8 "far")),
          .source (.unexpectedCharacter late 36)])])

theorem mixture_reported :
    ofFailure mixture =
        { code := .unexpectedCharacter, message := mixture.message, location := some early,
          found := utf8 "$" } ∧
      Reports mixture (ofFailure mixture) ∧
      ofFailure (.wrapped (utf8 "run") (.load (utf8 "all") mixture)) =
        { ofFailure mixture with message := utf8 "run: all: " ++ mixture.message } :=
  ⟨by decide +kernel, (ofFailure_reports mixture).1,
    (ofFailure_reports mixture).2 _ (.task _ (.load _ (.refl _)))⟩

/-! ### Reports of a single error -/

/-- An error that belongs to a class. -/
def IsRecognized (error : Failure) : Prop := ∃ code, class? error = some code

theorem single?_ne_none_iff {error : Failure} :
    error.leaf?.bind ofLeaf? ≠ none ↔ IsRecognized error := by
  rw [← single?, IsRecognized, class?_eq_map]
  cases single? error <;> simp

/-- Two reports with the data of one error differ in text and place only. -/
theorem Describes.eq_of {error : Failure} {report other : Report} (h : Describes error report)
    (hother : Describes error other) :
    report = { other with message := report.message, location := report.location } := by
  have hcode := h.code.symm.trans hother.code
  have hcounts := h.counts.trans hother.counts.symm
  have hindices := h.indices.trans hother.indices.symm
  have hmnemonic := h.mnemonic.trans hother.mnemonic.symm
  have hname := h.name.trans hother.name.symm
  have hfound := h.found.trans hother.found.symm
  have hexpected := h.expected.trans hother.expected.symm
  have hdefined := h.defined.trans hother.defined.symm
  cases report
  cases other
  simp_all

/-- Errors with a place belong to a class of lower rank than the others. -/
theorem isLocated_iff_rank {error : Failure} {code : Code} (h : class? error = some code) :
    IsLocated error ↔ code.rank ≤ 8 := by
  cases error with
  | source error => cases error <;> cases h <;> simp [IsLocated, Code.rank]
  | table error => cases error <;> cases h <;> simp [IsLocated, Code.rank]
  | _ => cases h

theorem isRecognized_of_isLocated {error : Failure} (h : IsLocated error) : IsRecognized error := by
  obtain ⟨cause, rfl⟩ := h
  cases cause <;> exact ⟨_, rfl⟩

/-- An error that belongs to a class rests on no other. -/
theorem eq_of_has {error other : Failure} (h : IsRecognized error) (hother : error.Has other) :
    other = error := by
  rcases Failure.has_iff.1 hother with rfl | ⟨part, hpart, -⟩
  · rfl
  · obtain ⟨code, hcode⟩ := h
    cases error with
    | source error => cases hpart
    | table error => cases hpart
    | _ => cases hcode

/-- **Of all errors in a failure that belong to a class, none has a lower rank.** -/
def Lowest (failure : Failure) (code : Code) : Prop :=
  ∀ other code', failure.Has other → class? other = some code' → code.rank ≤ code'.rank

section Single

variable {failure first : Failure} {code : Code}

/-- The report has the class and the data of the first error that belongs to a class, if none has a
lower rank. -/
theorem describes_first (hfirst : First IsRecognized failure first)
    (hclass : class? first = some code) (hlowest : Lowest failure code) :
    Describes first (ofFailure failure) := by
  obtain ⟨hle, chosen, hchosen, hdata⟩ :=
    (reports_ofFailure failure).known first code hfirst.has hclass
  have hcode : (ofFailure failure).code = code :=
    rank_injective (Nat.le_antisymm hle (hlowest chosen _ hchosen.has hchosen.holds))
  have hsame : First (fun other => class? other = some code) failure first :=
    hfirst.mono (fun other hother => ⟨code, hother⟩) hclass
  rw [hcode] at hchosen
  rw [hchosen.unique hsame] at hdata
  exact hdata

/-- It has the place of this error too: if this error has none, then no other has one. -/
theorem location_eq_first (hfirst : First IsRecognized failure first)
    (hclass : class? first = some code) (hlowest : Lowest failure code) :
    (ofFailure failure).location = (ofFailure first).location := by
  by_cases hlocated : IsLocated first
  · have hplace : First IsLocated failure first :=
      hfirst.mono (fun other => isRecognized_of_isLocated) hlocated
    obtain ⟨cause, rfl⟩ := hlocated
    rw [((reports_ofFailure failure).located cause.span).2 ⟨cause, hplace, rfl⟩]
    rfl
  · have hnone : ∀ other, failure.Has other → ¬IsLocated other := by
      intro other hother hplace
      obtain ⟨code', hcode'⟩ := isRecognized_of_isLocated hplace
      have hle := hlowest other code' hother hcode'
      rw [isLocated_iff_rank hcode'] at hplace
      rw [isLocated_iff_rank hclass] at hlocated
      omega
    have hself : ∀ other, first.Has other → ¬IsLocated other := by
      intro other hother
      rw [eq_of_has hfirst.holds hother]
      exact hlocated
    rw [(reports_ofFailure failure).unlocated.2 hnone, (reports_ofFailure first).unlocated.2 hself]

end Single

/-- **When a report describes a single error.**  Of the errors in a failure that belong to a class,
if there are any, one is the first in depth-first order.  The report of the failure is that of this
error, with the text of the whole, exactly if none of the others belongs to a class of lower
rank. -/
theorem ofFailure_first_iff (failure error : Failure) (herror : failure.Has error)
    (hrecognized : IsRecognized error) :
    ∃ first code, First IsRecognized failure first ∧ class? first = some code ∧
      (ofFailure failure = { ofFailure first with message := failure.message } ↔
        Lowest failure code) := by
  obtain ⟨first, hfirst⟩ := Failure.exists_first rfl herror (single?_ne_none_iff.2 hrecognized)
  simp only [single?_ne_none_iff] at hfirst
  obtain ⟨code, hclass⟩ := hfirst.holds
  -- the first error is all that there is in itself
  have hself : First IsRecognized first first := Failure.first_iff.2 (.inl ⟨hfirst.holds, rfl⟩)
  have halone : Lowest first code := by
    intro other code' hother hcode'
    rw [eq_of_has hfirst.holds hother, hclass] at hcode'
    exact Nat.le_of_eq (congrArg Code.rank (Option.some.inj hcode'))
  have hdata := describes_first hself hclass halone
  refine ⟨first, code, hfirst, hclass, ?_, ?_⟩
  · intro hagree other code' hother hcode'
    have hle := ((reports_ofFailure failure).known other code' hother hcode').1
    rw [hagree, ← Option.some.inj (hclass.symm.trans hdata.code)] at hle
    exact hle
  · intro hlowest
    have heq := (describes_first hfirst hclass hlowest).eq_of hdata
    rw [location_eq_first hfirst hclass hlowest] at heq
    exact heq

/-- The first of several failures is the first of them that belongs to a class, if it does. -/
theorem first_joined {part : Failure} (h : IsRecognized part) (parts : List Failure) :
    First IsRecognized (.joined (part :: parts)) part := by
  refine Failure.first_iff.2 (.inr ⟨?_, [], part, parts, rfl, by simp, ?_⟩)
  · rintro ⟨code, hcode⟩
    cases hcode
  · exact Failure.first_iff.2 (.inl ⟨h, rfl⟩)

/-- A label that is defined nowhere. -/
def missingLabel : Failure := .source (.undefinedLabel early (utf8 "far"))

/-- A character that starts no token. -/
def strayCharacter : Failure := .source (.unexpectedCharacter late 36)

/-- A stray character before a missing label is what is reported. -/
theorem strayCharacter_described :
    (Failure.joined [strayCharacter, missingLabel]).Has missingLabel ∧
      IsRecognized missingLabel ∧
      ofFailure (.joined [strayCharacter, missingLabel]) =
        { ofFailure strayCharacter with
          message := (Failure.joined [strayCharacter, missingLabel]).message } := by
  have hhas : (Failure.joined [strayCharacter, missingLabel]).Has missingLabel := ⟨[1], rfl⟩
  have hlabel : IsRecognized missingLabel := ⟨.undefinedLabel, rfl⟩
  obtain ⟨first, code, hfirst, hclass, hiff⟩ := ofFailure_first_iff _ _ hhas hlabel
  rw [hfirst.unique (first_joined ⟨.unexpectedCharacter, rfl⟩ _)] at hclass hiff
  obtain rfl : Code.unexpectedCharacter = code := Option.some.inj hclass
  refine ⟨hhas, hlabel, hiff.2 ?_⟩
  intro other code' _ _
  cases code' <;> decide

/-- **A report need not describe the first error.**  Behind a missing label, a stray character gives
the report its class, and the label its place. -/
theorem missingLabel_not_described :
    First IsRecognized (.joined [missingLabel, strayCharacter]) missingLabel ∧
      ofFailure (.joined [missingLabel, strayCharacter]) ≠
        { ofFailure missingLabel with
          message := (Failure.joined [missingLabel, strayCharacter]).message } ∧
      (ofFailure (.joined [missingLabel, strayCharacter])).code = .unexpectedCharacter ∧
      (ofFailure (.joined [missingLabel, strayCharacter])).location = some early :=
  ⟨first_joined ⟨.undefinedLabel, rfl⟩ _, by decide +kernel, by decide, by decide⟩

end Report

end TableAssembler
