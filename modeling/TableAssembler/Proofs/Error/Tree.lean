/-
**Failures as trees, and what comes first in them.**

A failure rests on others: one that was met on the way, or several at once.  A place in a failure is
the list of the indices that lead there, and depth first means that a failure comes before all that
it rests on, and what one part rests on before the next part.  The causes of a failure, from left to
right, are those of its places in this order.  So what a search among them finds is what stands at
the first place where there is anything to find.

Main definitions:

* `Failure.parts`, `Failure.at?` — what a failure rests on, and the failure at a place;
* `Place.Before` — **the depth-first order of places**;
* `Failure.Has`, `Failure.First` — what a failure holds, and the first of it with a property.

Main results:

* `Failure.has_iff`, `Failure.first_iff` — what a failure holds by way of its parts;
* `Failure.First.unique`, `Failure.exists_first` — there is one first, if any;
* `Failure.findSome?_leaves_eq_some_iff` — **a search among the causes finds what comes first**.
-/

import TableAssembler.Error.Failure
import Mathlib.Data.List.Basic

set_option relaxedAutoImplicit false
set_option autoImplicit false

namespace TableAssembler

/-! ### Places -/

/-- **The depth-first order of places.**  A place comes before all those below it, and before those
below the later parts beside it. -/
inductive Place.Before : List Nat → List Nat → Prop
  | above (index : Nat) (place : List Nat) : Before [] (index :: place)
  | beside {index later : Nat} (h : index < later) (place other : List Nat) :
      Before (index :: place) (later :: other)
  | within (index : Nat) {place other : List Nat} (h : Before place other) :
      Before (index :: place) (index :: other)

theorem Place.before_trichotomy (place other : List Nat) :
    Before place other ∨ place = other ∨ Before other place := by
  induction place generalizing other with
  | nil =>
      cases other with
      | nil => exact .inr (.inl rfl)
      | cons index other => exact .inl (.above index other)
  | cons index place ih =>
      cases other with
      | nil => exact .inr (.inr (.above index place))
      | cons later other =>
          rcases Nat.lt_trichotomy index later with hlt | rfl | hgt
          · exact .inl (.beside hlt place other)
          · rcases ih other with hbefore | rfl | hafter
            · exact .inl (.within index hbefore)
            · exact .inr (.inl rfl)
            · exact .inr (.inr (.within index hafter))
          · exact .inr (.inr (.beside hgt other place))

namespace Failure

/-- What a failure rests on. -/
def parts : Failure → List Failure
  | wrapped _ cause => [cause]
  | load _ cause => [cause]
  | inFile _ _ error => [source error]
  | script (.definition error) => [table error]
  | joined parts => parts
  | _ => []

/-- The failure at a place of a failure. -/
def at? (failure : Failure) : List Nat → Option Failure
  | [] => some failure
  | index :: place => failure.parts[index]?.bind fun part => part.at? place

/-- A failure holds another, or is it. -/
def Has (failure node : Failure) : Prop := ∃ place, failure.at? place = some node

/-- **The first, in depth-first order, of the failures with a property that a failure holds.** -/
def First (P : Failure → Prop) (failure node : Failure) : Prop :=
  ∃ place, failure.at? place = some node ∧ P node ∧
    ∀ earlier other, Place.Before earlier place → failure.at? earlier = some other → ¬P other

/-! ### Induction over the parts -/

theorem sizeOf_lt_of_mem_parts {failure part : Failure} (h : part ∈ failure.parts) :
    sizeOf part < sizeOf failure := by
  cases failure with
  | wrapped task cause =>
      obtain rfl := List.mem_singleton.1 h
      simp only [wrapped.sizeOf_spec]
      omega
  | load name cause =>
      obtain rfl := List.mem_singleton.1 h
      simp only [load.sizeOf_spec]
      omega
  | inFile name text error =>
      obtain rfl := List.mem_singleton.1 h
      have hname : 0 < sizeOf name := by
        cases name with
        | nil => simp
        | cons c name =>
            simp only [List.cons.sizeOf_spec]
            omega
      simp only [inFile.sizeOf_spec, source.sizeOf_spec]
      omega
  | script error =>
      cases error with
      | definition error =>
          obtain rfl := List.mem_singleton.1 h
          simp
      | _ => cases h
  | joined parts =>
      have hlt := List.sizeOf_lt_of_mem h
      simp only [joined.sizeOf_spec]
      simp only [Failure.parts] at hlt
      omega
  | _ => cases h

/-- What holds of a failure if it holds of all that it rests on holds of every failure. -/
@[elab_as_elim]
theorem parts_induction {motive : Failure → Prop}
    (step : ∀ failure, (∀ part ∈ failure.parts, motive part) → motive failure)
    (failure : Failure) : motive failure :=
  step failure fun part hpart =>
    have := sizeOf_lt_of_mem_parts hpart
    parts_induction step part
termination_by sizeOf failure

/-! ### What a failure holds -/

section Places

variable {failure node : Failure} {P Q : Failure → Prop}

@[simp] theorem at?_nil (failure : Failure) : failure.at? [] = some failure := rfl

theorem at?_cons_eq_some_iff {index : Nat} {place : List Nat} :
    failure.at? (index :: place) = some node ↔
      ∃ part, failure.parts[index]? = some part ∧ part.at? place = some node := by
  rw [at?, Option.bind_eq_some_iff]

theorem has_self (failure : Failure) : failure.Has failure := ⟨[], rfl⟩

/-- A failure holds itself, and what its parts hold. -/
theorem has_iff : failure.Has node ↔ node = failure ∨ ∃ part ∈ failure.parts, part.Has node := by
  constructor
  · rintro ⟨place, hplace⟩
    cases place with
    | nil => exact .inl (Option.some.inj hplace).symm
    | cons index place =>
        obtain ⟨part, hpart, hnode⟩ := at?_cons_eq_some_iff.1 hplace
        exact .inr ⟨part, List.mem_of_getElem? hpart, place, hnode⟩
  · rintro (rfl | ⟨part, hpart, place, hnode⟩)
    · exact has_self node
    · obtain ⟨index, hindex⟩ := List.mem_iff_getElem?.1 hpart
      exact ⟨index :: place, at?_cons_eq_some_iff.2 ⟨part, hindex, hnode⟩⟩

theorem First.has (h : First P failure node) : failure.Has node := by
  obtain ⟨place, hplace, -, -⟩ := h
  exact ⟨place, hplace⟩

theorem First.holds (h : First P failure node) : P node := by
  obtain ⟨-, -, hnode, -⟩ := h
  exact hnode

/-- There is only one first. -/
theorem First.unique {other : Failure} (h : First P failure node) (hother : First P failure other) :
    node = other := by
  obtain ⟨place, hplace, hnode, hfirst⟩ := h
  obtain ⟨place', hplace', hnode', hfirst'⟩ := hother
  rcases Place.before_trichotomy place place' with hbefore | rfl | hafter
  · exact absurd hnode (hfirst' _ _ hbefore hplace)
  · exact Option.some.inj (hplace.symm.trans hplace')
  · exact absurd hnode' (hfirst _ _ hafter hplace')

/-- What is first is also first with a narrower property that it has. -/
theorem First.mono (h : First P failure node) (himp : ∀ other, Q other → P other) (hnode : Q node) :
    First Q failure node := by
  obtain ⟨place, hplace, -, hfirst⟩ := h
  refine ⟨place, hplace, hnode, ?_⟩
  intro earlier other hbefore hat hother
  exact hfirst earlier other hbefore hat (himp other hother)

/-- **The first with a property** is the failure itself, or else the first of the first part that
holds any. -/
theorem first_iff :
    First P failure node ↔
      (P failure ∧ node = failure) ∨
        (¬P failure ∧ ∃ before part after, failure.parts = before ++ part :: after ∧
          (∀ other ∈ before, ∀ inner, other.Has inner → ¬P inner) ∧ First P part node) := by
  constructor
  · rintro ⟨place, hplace, hnode, hfirst⟩
    cases place with
    | nil =>
        obtain rfl := Option.some.inj hplace
        exact .inl ⟨hnode, rfl⟩
    | cons index place =>
        obtain ⟨part, hpart, hat⟩ := at?_cons_eq_some_iff.1 hplace
        obtain ⟨hlt, rfl⟩ := List.getElem?_eq_some_iff.1 hpart
        refine .inr ⟨hfirst [] failure (.above index place) rfl, failure.parts.take index, _,
          failure.parts.drop (index + 1), ?_, ?_, place, hat, hnode, ?_⟩
        · rw [List.getElem_cons_drop, List.take_append_drop]
        · rintro other hother inner ⟨inside, hinside⟩
          obtain ⟨earlier, hearlier⟩ := List.mem_iff_getElem?.1 hother
          rw [List.getElem?_take] at hearlier
          have hsmall : earlier < index := by
            by_contra hge
            simp [hge] at hearlier
          rw [if_pos hsmall] at hearlier
          exact hfirst (earlier :: inside) inner (.beside hsmall _ _)
            (at?_cons_eq_some_iff.2 ⟨other, hearlier, hinside⟩)
        · intro earlier other hbefore hother
          exact hfirst (index :: earlier) other (.within index hbefore)
            (at?_cons_eq_some_iff.2 ⟨_, hpart, hother⟩)
  · rintro (⟨hfailure, rfl⟩ |
      ⟨hfailure, before, part, after, hparts, hbefore, place, hat, hnode, hfirst⟩)
    · refine ⟨[], rfl, hfailure, ?_⟩
      intro earlier other hnone
      cases hnone
    · have hindex : failure.parts[before.length]? = some part := by simp [hparts]
      refine ⟨before.length :: place, at?_cons_eq_some_iff.2 ⟨part, hindex, hat⟩, hnode, ?_⟩
      intro earlier other hearlier hother
      cases hearlier with
      | above =>
          obtain rfl := Option.some.inj hother
          exact hfailure
      | beside hlt =>
          obtain ⟨sibling, hsibling, hinside⟩ := at?_cons_eq_some_iff.1 hother
          rw [hparts, List.getElem?_append_left hlt] at hsibling
          exact hbefore sibling (List.mem_of_getElem? hsibling) other ⟨_, hinside⟩
      | within _ hinner =>
          obtain ⟨same, hsame, hinside⟩ := at?_cons_eq_some_iff.1 hother
          rw [hindex] at hsame
          obtain rfl := Option.some.inj hsame
          exact hfirst _ other hinner hinside

end Places

/-! ### Searching among the causes -/

/-- The cause that a failure is by itself. -/
def leaf? : Failure → Option Leaf
  | source error => some (.source error)
  | table error => some (.table error)
  | _ => none

section Search

variable {α : Type} {q : Leaf → Option α}

theorem findSome?_leavesOf (parts : List Failure) :
    (leavesOf parts).findSome? q = parts.findSome? fun part => part.leaves.findSome? q := by
  induction parts with
  | nil => rfl
  | cons part parts ih =>
      rw [leavesOf, List.findSome?_append, List.findSome?_cons, ih]
      cases part.leaves.findSome? q <;> rfl

/-- A search among the causes looks at the failure itself, and then at its parts in turn. -/
theorem findSome?_leaves (hother : q .other = none) (failure : Failure) :
    failure.leaves.findSome? q =
      (failure.leaf?.bind q).or (failure.parts.findSome? fun part => part.leaves.findSome? q) := by
  cases failure with
  | joined several => simp [leaves, leaf?, parts, findSome?_leavesOf]
  | script error => cases error <;> simp [leaves, leaf?, parts, hother]
  | _ => simp [leaves, leaf?, parts, hother]

theorem findSome?_leaves_eq_none_iff (hother : q .other = none) {failure : Failure} :
    failure.leaves.findSome? q = none ↔
      ∀ node, failure.Has node → node.leaf?.bind q = none := by
  induction failure using parts_induction with
  | step failure ih =>
      rw [findSome?_leaves hother, Option.or_eq_none_iff, List.findSome?_eq_none_iff]
      constructor
      · rintro ⟨hself, hparts⟩ node hnode
        rcases has_iff.1 hnode with rfl | ⟨part, hpart, hinside⟩
        · exact hself
        · exact (ih part hpart).1 (hparts part hpart) node hinside
      · intro h
        refine ⟨h failure (has_self failure), ?_⟩
        intro part hpart
        rw [ih part hpart]
        intro node hnode
        exact h node (has_iff.2 (.inr ⟨part, hpart, hnode⟩))

/-- **A search among the causes finds what comes first** in depth-first order. -/
theorem findSome?_leaves_eq_some_iff (hother : q .other = none) {failure : Failure} {found : α} :
    failure.leaves.findSome? q = some found ↔
      ∃ node, First (fun node => node.leaf?.bind q ≠ none) failure node ∧
        node.leaf?.bind q = some found := by
  induction failure using parts_induction with
  | step failure ih =>
      rw [findSome?_leaves hother]
      cases hself : failure.leaf?.bind q with
      | some value =>
          rw [Option.some_or]
          constructor
          · intro h
            exact ⟨failure, first_iff.2 (.inl ⟨by simp [hself], rfl⟩), hself.trans h⟩
          · rintro ⟨node, hfirst, hnode⟩
            rcases first_iff.1 hfirst with ⟨-, rfl⟩ | ⟨hnone, -⟩
            · exact hself.symm.trans hnode
            · simp [hself] at hnone
      | none =>
          rw [Option.none_or, List.findSome?_eq_some_iff]
          constructor
          · rintro ⟨before, part, after, hparts, hpart, hbefore⟩
            obtain ⟨node, hfirst, hnode⟩ := (ih part (by simp [hparts])).1 hpart
            refine ⟨node, first_iff.2 (.inr ⟨by simp [hself], before, part, after, hparts, ?_,
              hfirst⟩), hnode⟩
            intro other hmem inner hinner
            simpa using (findSome?_leaves_eq_none_iff hother).1 (hbefore other hmem) inner hinner
          · rintro ⟨node, hfirst, hnode⟩
            rcases first_iff.1 hfirst with
              ⟨hsome, -⟩ | ⟨-, before, part, after, hparts, hbefore, hinside⟩
            · simp [hself] at hsome
            · refine ⟨before, part, after, hparts,
                (ih part (by simp [hparts])).2 ⟨node, hinside, hnode⟩, ?_⟩
              intro other hmem
              rw [findSome?_leaves_eq_none_iff hother]
              intro inner hinner
              simpa using hbefore other hmem inner hinner

/-- What a search can find has a first. -/
theorem exists_first (hother : q .other = none) {failure node : Failure} (h : failure.Has node)
    (hnode : node.leaf?.bind q ≠ none) :
    ∃ first, First (fun node => node.leaf?.bind q ≠ none) failure first := by
  cases hfind : failure.leaves.findSome? q with
  | none => exact absurd ((findSome?_leaves_eq_none_iff hother).1 hfind node h) hnode
  | some found =>
      obtain ⟨first, hfirst, -⟩ := (findSome?_leaves_eq_some_iff hother).1 hfind
      exact ⟨first, hfirst⟩

end Search

end Failure

end TableAssembler
