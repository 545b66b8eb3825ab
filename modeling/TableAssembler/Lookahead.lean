/-
**A sequence read with one item of look-ahead.**

A look-ahead reader pulls items from a sequence, one at a time and only when it has to.  The next
item can be looked at before it is taken; it is then held, and pulled no second time.  A stopped
reader pulls nothing more, but an item that it holds is still there.

Main definitions:

* `Lookahead`, `Lookahead.ofList` — a reader, and the reader of a list;
* `Lookahead.peek`, `Lookahead.next`, `Lookahead.stop` — its operations;
* `Lookahead.remaining` — what the reader can still give.

Main results:

* `Lookahead.peek_fst` — looking shows the first of what the reader can still give.
-/

set_option relaxedAutoImplicit false
set_option autoImplicit false

namespace TableAssembler

variable {α : Type}

/-- A reader: the items not pulled yet, what was looked at but not taken (`some none` if that was
the end), the number of items pulled, and whether it was stopped. -/
structure Lookahead (α : Type) where
  source : List α
  held : Option (Option α) := none
  pulled : Nat := 0
  stopped : Bool := false
  deriving Repr

namespace Lookahead

/-- The reader of a list. -/
def ofList (items : List α) : Lookahead α := { source := items }

/-- Pulls an item, unless the reader was stopped or nothing is left. -/
def pull (reader : Lookahead α) : Option α × Lookahead α :=
  if reader.stopped then (none, reader)
  else
    match reader.source with
    | [] => (none, reader)
    | item :: rest => (some item, { reader with source := rest, pulled := reader.pulled + 1 })

/-- The next item, which stays with the reader. -/
def peek (reader : Lookahead α) : Option α × Lookahead α :=
  match reader.held with
  | some item => (item, reader)
  | none => (reader.pull.1, { reader.pull.2 with held := some reader.pull.1 })

/-- The next item, which leaves the reader. -/
def next (reader : Lookahead α) : Option α × Lookahead α :=
  (reader.peek.1, { reader.peek.2 with held := none })

/-- Ends the pulling. -/
def stop (reader : Lookahead α) : Lookahead α := { reader with stopped := true }

/-! ### What is left -/

/-- The items that the reader can still pull. -/
def pullable (reader : Lookahead α) : List α := if reader.stopped then [] else reader.source

/-- The items that the reader can still give. -/
def remaining (reader : Lookahead α) : List α :=
  match reader.held with
  | some (some item) => item :: reader.pullable
  | some none => []
  | none => reader.pullable

@[simp] theorem remaining_ofList (items : List α) : (ofList items).remaining = items := by
  simp [remaining, pullable, ofList]

/-- Looking at the next item shows the first of what is left. -/
theorem peek_fst (reader : Lookahead α) : reader.peek.1 = reader.remaining.head? := by
  obtain ⟨source, held, pulled, stopped⟩ := reader
  cases held with
  | some item => cases item <;> simp [peek, remaining]
  | none => cases stopped <;> cases source <;> simp [peek, pull, remaining, pullable]

end Lookahead

end TableAssembler
