/-
**The look-ahead reader is a list cursor.**

A reader can be asked to show the next item and to give it away, in any order, and it can be stopped
at any time.  Whatever the calls are, the items that it gave away, the item that it holds and those
that it has not pulled are its list, in this order.  So it gives away the items of the list one by
one, is never more than one item ahead, and once it has come to the end it stays there.

Main definitions:

* `Lookahead.Request`, `Lookahead.Call` — what a reader answers, and what can be done with it;
* `Lookahead.run`, `Lookahead.transcript` — a reader after some calls, and what it answered;
* `Lookahead.delivered` — the items that were given away;
* `Lookahead.Tracks` — **given away, held and not pulled**, the invariant of every call;
* `Lookahead.IsCursor` — what makes a list cursor of a reader.

Main results:

* `Lookahead.peek_cases` — all that a look can do;
* `Lookahead.Tracks.run` — the invariant holds after any calls;
* `Lookahead.transcript_isChain` — a look shows what is answered next;
* `Lookahead.Tracks.transcript_pairwise` — behind the end there is nothing;
* `Lookahead.run_of_pullable_nil` — a reader that can pull nothing, such as a stopped one, has only
  the item that it holds;
* `Lookahead.reads_as_cursor` — **the reader of a list is a list cursor**.
-/

import Mathlib.Data.List.Chain
import TableAssembler.Lookahead

set_option relaxedAutoImplicit false
set_option autoImplicit false

namespace TableAssembler

namespace Lookahead

variable {α : Type}

/-! ### Calls and answers -/

/-- What a reader is asked for.  It answers with an item, or with the end. -/
inductive Request where
  /-- Shows the next item. -/
  | peek
  /-- Gives the next item away. -/
  | next
  deriving DecidableEq, Repr

/-- What can be done with a reader. -/
inductive Call where
  | ask (request : Request)
  | stop
  deriving DecidableEq, Repr

/-- An answer, with `none` for the end. -/
structure Answer (α : Type) where
  request : Request
  item : Option α
  deriving DecidableEq, Repr

/-- The item that an answer gives away. -/
def Answer.given : Answer α → Option α
  | ⟨.peek, _⟩ => none
  | ⟨.next, item⟩ => item

/-- The item that an answer shows, and that stays with the reader. -/
def Answer.shown : Answer α → Option α
  | ⟨.peek, item⟩ => item
  | ⟨.next, _⟩ => none

/-- The reader's reply, and the reader after it. -/
def reply (reader : Lookahead α) : Request → Option α × Lookahead α
  | .peek => reader.peek
  | .next => reader.next

/-- The reader's answer to a request. -/
def answer (reader : Lookahead α) (request : Request) : Answer α :=
  ⟨request, (reader.reply request).1⟩

/-- The reader after a call. -/
def step (reader : Lookahead α) : Call → Lookahead α
  | .ask request => (reader.reply request).2
  | .stop => reader.stop

/-- **The reader after some calls.** -/
def run (reader : Lookahead α) (calls : List Call) : Lookahead α := calls.foldl step reader

/-- **What the reader answers to some calls**, in order. -/
def transcript (reader : Lookahead α) : List Call → List (Answer α)
  | [] => []
  | .ask request :: calls =>
      reader.answer request :: transcript (reader.reply request).2 calls
  | .stop :: calls => transcript reader.stop calls

/-- **The items that were given away**, in order. -/
def delivered (answers : List (Answer α)) : List α := answers.filterMap Answer.given

/-- The item that the reader holds. -/
def inHand (reader : Lookahead α) : Option α := reader.held.join

@[simp] theorem run_nil (reader : Lookahead α) : reader.run [] = reader := rfl

@[simp] theorem run_cons (reader : Lookahead α) (call : Call) (calls : List Call) :
    reader.run (call :: calls) = (reader.step call).run calls := rfl

@[simp] theorem delivered_nil : delivered ([] : List (Answer α)) = [] := rfl

theorem delivered_cons (answer : Answer α) (answers : List (Answer α)) :
    delivered (answer :: answers) = answer.given.toList ++ delivered answers := by
  cases h : answer.given <;> simp [delivered, h]

/-! ### One call -/

/-- **All that a look can do**: show what is held, find the end, or pull an item. -/
theorem peek_cases (reader : Lookahead α) :
    (∃ item, reader.held = some item ∧ reader.peek = (item, reader)) ∨
      (reader.held = none ∧ reader.pullable = [] ∧
        reader.peek = (none, { reader with held := some none })) ∨
      ∃ item rest, reader.held = none ∧ reader.stopped = false ∧ reader.source = item :: rest ∧
        reader.peek = (some item,
          { reader with
            source := rest, held := some (some item), pulled := reader.pulled + 1 }) := by
  obtain ⟨source, held, pulled, stopped⟩ := reader
  cases held with
  | some item => simp [peek]
  | none => cases stopped <;> cases source <;> simp [peek, pull, pullable]

/-- What was shown is held. -/
theorem held_peek (reader : Lookahead α) : reader.peek.2.held = some reader.peek.1 := by
  obtain ⟨item, hheld, hpeek⟩ | ⟨-, -, hpeek⟩ | ⟨item, rest, -, -, -, hpeek⟩ := reader.peek_cases
  · rw [hpeek, hheld]
  · rw [hpeek]
  · rw [hpeek]

theorem reply_fst (reader : Lookahead α) (request : Request) :
    (reader.reply request).1 = reader.peek.1 := by
  cases request <;> rfl

@[simp] theorem pullable_stop (reader : Lookahead α) : reader.stop.pullable = [] := rfl

@[simp] theorem held_stop (reader : Lookahead α) : reader.stop.held = reader.held := rfl

/-! ### Given away, held and not pulled -/

/-- **The invariant of a reader**: the items that it gave away, the one that it holds and those that
it has not pulled are all the items, it has counted those that it pulled, and where it has seen the
end nothing can be pulled. -/
structure Tracks (items given : List α) (reader : Lookahead α) : Prop where
  items_eq : given ++ reader.inHand.toList ++ reader.source = items
  pulled_eq : reader.pulled = given.length + reader.inHand.toList.length
  ended : reader.held = some none → reader.pullable = []

theorem tracks_ofList (items : List α) : Tracks items [] (ofList items) where
  items_eq := rfl
  pulled_eq := rfl
  ended h := by cases h

namespace Tracks

variable {items given : List α} {reader : Lookahead α}

theorem peek (h : Tracks items given reader) : Tracks items given reader.peek.2 := by
  obtain ⟨item, -, hpeek⟩ | ⟨hheld, hnil, hpeek⟩ | ⟨item, rest, hheld, -, hsource, hpeek⟩ :=
    reader.peek_cases
  · rw [hpeek]
    exact h
  · rw [hpeek]
    refine ⟨?_, ?_, fun _ => hnil⟩
    · simpa [inHand, hheld] using h.items_eq
    · simpa [inHand, hheld] using h.pulled_eq
  · -- the first of the source is now the item in hand
    rw [hpeek]
    refine ⟨?_, ?_, fun hend => by cases hend⟩
    · simpa [inHand, hheld, hsource] using h.items_eq
    · simpa [inHand, hheld] using h.pulled_eq

/-- What the reader holds can be given away. -/
theorem release (h : Tracks items given reader) {item : Option α}
    (hheld : reader.held = some item) :
    Tracks items (given ++ item.toList) { reader with held := none } where
  items_eq := by simpa [inHand, hheld] using h.items_eq
  pulled_eq := by simpa [inHand, hheld] using h.pulled_eq
  ended hend := by cases hend

theorem reply (h : Tracks items given reader) (request : Request) :
    Tracks items (given ++ (reader.answer request).given.toList) (reader.reply request).2 := by
  cases request with
  | peek => simpa [answer, Answer.given, Lookahead.reply] using h.peek
  | next =>
      -- to take an item is to look at it and to let go of what is then held
      exact h.peek.release reader.held_peek

theorem stop (h : Tracks items given reader) : Tracks items given reader.stop where
  items_eq := h.items_eq
  pulled_eq := h.pulled_eq
  ended _ := rfl

/-- **The invariant holds after any calls.** -/
theorem run (h : Tracks items given reader) (calls : List Call) :
    Tracks items (given ++ delivered (reader.transcript calls)) (reader.run calls) := by
  induction calls generalizing reader given with
  | nil => simpa [transcript] using h
  | cons call calls ih =>
      cases call with
      | ask request =>
          rw [transcript, delivered_cons, ← List.append_assoc]
          exact ih (h.reply request)
      | stop => exact ih h.stop

theorem take_pulled (h : Tracks items given reader) :
    items.take reader.pulled = given ++ reader.inHand.toList := by
  rw [← h.items_eq, h.pulled_eq, ← List.length_append, List.take_left]

theorem drop_pulled (h : Tracks items given reader) : items.drop reader.pulled = reader.source := by
  rw [← h.items_eq, h.pulled_eq, ← List.length_append, List.drop_left]

/-- What the reader can still give are the item that it holds and those that it can pull. -/
theorem remaining_eq (h : Tracks items given reader) :
    reader.remaining = reader.inHand.toList ++ reader.pullable := by
  cases hheld : reader.held with
  | none => simp [remaining, inHand, hheld]
  | some item =>
      cases item with
      | none => simp [remaining, inHand, hheld, h.ended hheld]
      | some item => simp [remaining, inHand, hheld]

/-- **The next answer** is the first item that was not given away; a stopped reader has no other
items than those that it pulled. -/
theorem reply_eq (h : Tracks items given reader) (request : Request) :
    (reader.reply request).1 =
      (if reader.stopped then items.take reader.pulled else items)[given.length]? := by
  have hnext : (if reader.stopped then items.take reader.pulled else items) =
      given ++ reader.remaining := by
    rw [h.remaining_eq, pullable]
    cases reader.stopped with
    | true => simpa using h.take_pulled
    | false => simpa using h.items_eq.symm
  rw [reply_fst, peek_fst, hnext, List.getElem?_append_right (Nat.le_refl _), Nat.sub_self,
    List.head?_eq_getElem?]

end Tracks

/-! ### Readers that can pull nothing -/

/-- A reader that can pull nothing answers with the item that it holds.  After that the item is
given away or still held, and nothing was pulled or can be. -/
theorem reply_of_pullable_nil {reader : Lookahead α} (h : reader.pullable = [])
    (request : Request) :
    ∃ after, reader.reply request = (reader.inHand, after) ∧ after.pullable = [] ∧
      after.pulled = reader.pulled ∧
      (reader.answer request).given.toList ++ after.inHand.toList = reader.inHand.toList := by
  have hpeek : reader.peek = (reader.inHand, { reader with held := some reader.inHand }) := by
    obtain ⟨item, hheld, hpeek⟩ | ⟨hheld, -, hpeek⟩ | ⟨item, rest, -, hstop, hsource, -⟩ :=
      reader.peek_cases
    · rw [hpeek, inHand, hheld, Option.join_some, ← hheld]
    · rw [hpeek, inHand, hheld, Option.join_none]
    · simp [pullable, hstop, hsource] at h
  cases request with
  | peek => exact ⟨_, hpeek, h, rfl, rfl⟩
  | next =>
      refine ⟨{ reader with held := none }, ?_, h, rfl, ?_⟩
      · rw [reply, next, hpeek]
      · simp [answer, Answer.given, inHand, reply, next, hpeek]

/-- Such a reader gives away nothing but the item that it holds, and pulls nothing. -/
theorem run_of_pullable_nil {reader : Lookahead α} (h : reader.pullable = [])
    (calls : List Call) :
    (reader.run calls).pulled = reader.pulled ∧
      delivered (reader.transcript calls) ++ (reader.run calls).inHand.toList =
        reader.inHand.toList := by
  induction calls generalizing reader with
  | nil => exact ⟨rfl, rfl⟩
  | cons call calls ih =>
      cases call with
      | ask request =>
          obtain ⟨after, hreply, hdry, hpulled, hkept⟩ := reply_of_pullable_nil h request
          obtain ⟨hlater, hgiven⟩ := ih hdry
          rw [run_cons, step, transcript, delivered_cons, hreply, List.append_assoc, hgiven]
          exact ⟨hlater.trans hpulled, hkept⟩
      | stop => exact ih reader.pullable_stop

/-- If it holds nothing either, it answers with the end for ever. -/
theorem item_eq_none_of_mem_transcript {reader : Lookahead α} (h : reader.pullable = [])
    (hhand : reader.inHand = none) (calls : List Call) {later : Answer α}
    (hmem : later ∈ reader.transcript calls) : later.item = none := by
  induction calls generalizing reader with
  | nil => cases hmem
  | cons call calls ih =>
      cases call with
      | ask request =>
          obtain ⟨after, hreply, hdry, -, hkept⟩ := reply_of_pullable_nil h request
          rw [transcript, answer, hreply, hhand] at hmem
          rcases List.mem_cons.1 hmem with rfl | hmem
          · rfl
          · rw [hhand, Option.toList_none, List.append_eq_nil_iff] at hkept
            exact ih hdry (Option.toList_eq_nil_iff.1 hkept.2) hmem
      | stop => exact ih reader.pullable_stop hhand hmem

/-! ### Transcripts -/

/-- What is held is the next answer, whether the reader is stopped before it or not. -/
theorem item_of_head_transcript {reader : Lookahead α} {item : Option α}
    (h : reader.held = some item) (calls : List Call) :
    ∀ first ∈ (reader.transcript calls).head?, first.item = item := by
  induction calls generalizing reader with
  | nil => simp [transcript]
  | cons call calls ih =>
      cases call with
      | ask request =>
          have hpeek : reader.peek.1 = item := by simp [peek, h]
          simp [transcript, answer, reply_fst, hpeek]
      | stop =>
          -- a stop keeps what is held and is no answer itself
          exact ih (reader.held_stop.trans h)

/-- **A look shows what is answered next.** -/
theorem transcript_isChain (reader : Lookahead α) (calls : List Call) :
    (reader.transcript calls).IsChain
      fun first second => first.request = .peek → first.item = second.item := by
  induction calls generalizing reader with
  | nil => exact .nil
  | cons call calls ih =>
      cases call with
      | ask request =>
          refine List.isChain_cons.2 ⟨?_, ih _⟩
          rintro second hsecond (rfl : request = .peek)
          exact (item_of_head_transcript reader.held_peek calls second hsecond).symm
      | stop => exact ih reader.stop

/-- **Behind the end there is nothing**: once it was answered, it is answered for ever. -/
theorem Tracks.transcript_pairwise {items given : List α} {reader : Lookahead α}
    (h : Tracks items given reader) (calls : List Call) :
    (reader.transcript calls).Pairwise
      fun first second => first.item = none → second.item = none := by
  induction calls generalizing reader given with
  | nil => exact .nil
  | cons call calls ih =>
      cases call with
      | ask request =>
          refine List.pairwise_cons.2 ⟨?_, ih (h.reply request)⟩
          intro second hsecond hend
          -- nothing was left when the end was answered, so that this answer and all behind it are
          -- those of a reader that holds nothing and can pull nothing
          have hnil : reader.remaining = [] := by
            rw [← List.head?_eq_none_iff, ← peek_fst, ← reply_fst _ request]
            exact hend
          rw [h.remaining_eq, List.append_eq_nil_iff] at hnil
          exact item_eq_none_of_mem_transcript hnil.2 (Option.toList_eq_nil_iff.1 hnil.1)
            (.ask request :: calls) (List.mem_cons_of_mem _ hsecond)
      | stop => exact ih h.stop

/-- The item that a reader holds is the one that its last answer showed. -/
theorem inHand_run (reader : Lookahead α) (calls : List Call) :
    (reader.run calls).inHand =
      ((reader.transcript calls).getLast?.map Answer.shown).getD reader.inHand := by
  induction calls generalizing reader with
  | nil => rfl
  | cons call calls ih =>
      cases call with
      | ask request =>
          have hhand : (reader.reply request).2.inHand = (reader.answer request).shown := by
            cases request with
            | peek => exact congrArg Option.join reader.held_peek
            | next => rfl
          rw [run_cons, step, ih, hhand, transcript, List.getLast?_cons]
          cases ((reader.reply request).2.transcript calls).getLast? <;> rfl
      | stop => exact ih reader.stop

theorem stopped_run (reader : Lookahead α) (calls : List Call) :
    (reader.run calls).stopped = (reader.stopped || decide (.stop ∈ calls)) := by
  induction calls generalizing reader with
  | nil => simp
  | cons call calls ih =>
      cases call with
      | ask request =>
          have hpeek : reader.peek.2.stopped = reader.stopped := by
            obtain ⟨item, -, hpeek⟩ | ⟨-, -, hpeek⟩ | ⟨item, rest, -, -, -, hpeek⟩ :=
              reader.peek_cases <;> rw [hpeek]
          have hreply : (reader.reply request).2.stopped = reader.stopped := by
            cases request <;> exact hpeek
          simp [step, ih, hreply]
      | stop => simp [step, ih, stop]

/-! ### The list cursor -/

/-- **A list cursor**: a reader of `items` after some `calls`, with the `answers` that it gave. -/
structure IsCursor (items : List α) (calls : List Call) (reader : Lookahead α)
    (answers : List (Answer α)) : Prop where
  /-- The items given away are the first ones of the list, each once and none left out. -/
  inOrder : delivered answers <+: items
  /-- The next answer is the first item that was not given away; once the reader was stopped, only
  if it was pulled. -/
  current : ∀ request, (reader.reply request).1 =
    (if .stop ∈ calls then items.take reader.pulled else items)[(delivered answers).length]?
  /-- A look shows what the next look or taking answers. -/
  steady : answers.IsChain fun first second => first.request = .peek → first.item = second.item
  /-- Once the end was answered, it is answered for ever. -/
  ended : answers.Pairwise fun first second => first.item = none → second.item = none
  /-- An item is held if the last answer showed it. -/
  holds : reader.inHand = answers.getLast?.bind Answer.shown
  /-- The items pulled are those given away, and the one that is held. -/
  ahead : reader.pulled = (delivered answers).length + if reader.inHand.isSome then 1 else 0
  /-- Nothing else was taken from the source. -/
  rest : reader.source = items.drop reader.pulled
  /-- Stopped now, the reader would pull nothing more, whatever is called then. -/
  still : ∀ later, (reader.run (.stop :: later)).pulled = reader.pulled
  /-- Stopped now, the reader would give away at most the item that it holds. -/
  last : ∀ later, delivered (reader.transcript (.stop :: later)) <+: reader.inHand.toList

/-- **The reader of a list is a list cursor**, whatever is called in whatever order. -/
theorem reads_as_cursor (items : List α) (calls : List Call) :
    IsCursor items calls ((ofList items).run calls) ((ofList items).transcript calls) := by
  have htracks := (tracks_ofList items).run calls
  rw [List.nil_append] at htracks
  have hstop := run_of_pullable_nil ((ofList items).run calls).pullable_stop
  refine
    { inOrder := ?_, current := ?_, steady := transcript_isChain _ calls,
      ended := (tracks_ofList items).transcript_pairwise calls, holds := ?_, ahead := ?_,
      rest := htracks.drop_pulled.symm, still := fun later => (hstop later).1, last := ?_ }
  · exact ⟨_, (List.append_assoc _ _ _).symm.trans htracks.items_eq⟩
  · intro request
    simpa [stopped_run, ofList] using htracks.reply_eq request
  · rw [inHand_run]
    cases ((ofList items).transcript calls).getLast? <;> rfl
  · rw [htracks.pulled_eq]
    cases ((ofList items).run calls).inHand <;> rfl
  · exact fun later => ⟨_, (hstop later).2⟩

/-- A reader stopped while it holds an item still gives that item away, and then only the end. -/
example : let reader := ofList [("a", 1), ("b", 2), ("c", 3)]
    let calls := [.ask .next, .ask .peek, .stop, .ask .peek, .ask .next, .ask .next, .ask .peek]
    reader.transcript calls = [⟨.next, some ("a", 1)⟩, ⟨.peek, some ("b", 2)⟩,
      ⟨.peek, some ("b", 2)⟩, ⟨.next, some ("b", 2)⟩, ⟨.next, none⟩, ⟨.peek, none⟩] ∧
      (reader.run calls).pulled = 2 := by
  decide

end Lookahead

end TableAssembler
