/-
**Sequences one after the other.**

A sequence hands its items to a consumer, one by one, until there are none left or the consumer
wants no more.  Several sequences are one: the next starts where the last has ended, unless the
consumer has stopped.

Main definitions:

* `Sequence.each` — hands the items of one sequence to a consumer;
* `Sequence.concat` — hands over those of several;
* `Sequence.collect` — the items of several sequences, by a consumer that takes all.

Main results:

* `Sequence.concat_eq_each_flatten` — **several sequences are the one of all their items**, also for
  a consumer that stops in the middle;
* `Sequence.collect_eq_flatten` — all items, in order.
-/

set_option relaxedAutoImplicit false
set_option autoImplicit false

namespace TableAssembler

namespace Sequence

variable {α σ : Type}

/-- Hands items to a consumer until it stops. -/
def each (consume : σ → α → ForInStep σ) (state : σ) : List α → ForInStep σ
  | [] => .yield state
  | item :: items =>
      match consume state item with
      | .yield state => each consume state items
      | .done state => .done state

/-- Hands the items of several sequences to a consumer until it stops. -/
def concat (consume : σ → α → ForInStep σ) (state : σ) : List (List α) → ForInStep σ
  | [] => .yield state
  | items :: rest =>
      match each consume state items with
      | .yield state => concat consume state rest
      | .done state => .done state

/-- The items of several sequences. -/
def collect (sequences : List (List α)) : List α :=
  (concat (fun taken item => .yield (taken ++ [item])) [] sequences).value

theorem each_append (consume : σ → α → ForInStep σ) (state : σ) (items more : List α) :
    each consume state (items ++ more) =
      match each consume state items with
      | .yield state => each consume state more
      | .done state => .done state := by
  induction items generalizing state with
  | nil => rfl
  | cons item items ih =>
      rw [List.cons_append, each, each]
      cases consume state item with
      | yield next => exact ih next
      | done last => rfl

/-- **Several sequences are the one of all their items**, whatever the consumer does with them and
wherever it stops. -/
theorem concat_eq_each_flatten (consume : σ → α → ForInStep σ) (state : σ)
    (sequences : List (List α)) :
    concat consume state sequences = each consume state sequences.flatten := by
  induction sequences generalizing state with
  | nil => rfl
  | cons items rest ih =>
      rw [concat, List.flatten_cons, each_append]
      cases each consume state items with
      | yield next => exact ih next
      | done last => rfl

theorem each_take (taken items : List α) :
    each (fun taken item => .yield (taken ++ [item])) taken items = .yield (taken ++ items) := by
  induction items generalizing taken with
  | nil => rw [each, List.append_nil]
  | cons item items ih =>
      rw [each]
      simp only [ih, List.append_assoc, List.singleton_append]

/-- **All items of all sequences, in order.** -/
theorem collect_eq_flatten (sequences : List (List α)) :
    collect sequences = sequences.flatten := by
  rw [collect, concat_eq_each_flatten, each_take]
  rfl

end Sequence

end TableAssembler
