/-
**The skeleton of a sequence of tokens.**

Comments say nothing to the parser, and an end of line says something only where a statement can
end: not at the start, not behind another end of line, and not behind a label.  What remains without
them is the skeleton of a sequence.  A sequence is accepted exactly if its skeleton is, and then it
has the same statements; only the errors of sequences that are refused may differ.

A comment is harmless because it runs to the end of its line, so that nothing but an end of line can
follow it (`Parser.RunsOut`).  An end of line is left out only where the machine has not read a
mnemonic yet, and there it changes nothing.

Main definitions:

* `Parser.condense`, `Parser.skeleton` — **a list without comments and ends of empty lines**;
* `Parser.accepted` — the statements of tokens from a state on, if they are accepted;
* `Parser.State.isLine` — no mnemonic has been read on the line.

Main results:

* `Parser.accepted_filter`, `Parser.accepted_condense` — comments, and ends of empty lines;
* `Parser.accepted_skeleton` — **a sequence means what its skeleton means**;
* `Parser.accepted_newline` — an end of line at the end of the tokens changes nothing;
* `Parser.Step.isLine_eq`, `Parser.isLine_advance` — the scanner and the parser agree on where a
  mnemonic may come.
-/

import Mathlib.Data.List.Chain
import TableAssembler.Proofs.Statement.Advance
import TableAssembler.Token.Lexer

set_option relaxedAutoImplicit false
set_option autoImplicit false

namespace TableAssembler

namespace Parser

/-! ### Skeletons -/

section Skeletons

variable {α β : Type} (kind : α → TokenKind)

/-- A list without the ends of lines that stand directly behind another or behind a label; `skip`
says that something of the kind comes before the list. -/
def condense : Bool → List α → List α
  | _, [] => []
  | skip, item :: rest =>
      if kind item = .newline ∧ skip = true then condense true rest
      else item :: condense (kind item = .newline ∨ kind item = .label) rest

/-- **The skeleton of a list**: no comments, and no ends of lines that stand first or directly
behind an end of line or a label. -/
def skeleton (skip : Bool) (items : List α) : List α :=
  condense kind skip (items.filter fun item => kind item ≠ .comment)

/-- Whether an end of line would be left out behind an item of class `kind`. -/
def skipAfter (kind : TokenKind) (skip : Bool) : Bool :=
  match kind with
  | .newline | .label => true
  | .comment => skip
  | _ => false

variable {kind}

/-- **The skeleton, item by item.** -/
theorem skeleton_cons (skip : Bool) (item : α) (rest : List α) :
    skeleton kind skip (item :: rest) =
      (if kind item = .comment ∨ (kind item = .newline ∧ skip = true) then [] else [item]) ++
        skeleton kind (skipAfter (kind item) skip) rest := by
  by_cases hcomment : kind item = .comment
  · simp [skeleton, skipAfter, hcomment]
  · by_cases hskip : kind item = .newline ∧ skip = true
    · obtain ⟨hkind, rfl⟩ := hskip
      simp [skeleton, condense, skipAfter, hkind]
    · have hnext : decide (kind item = .newline ∨ kind item = .label) =
          skipAfter (kind item) skip := by
        cases hkind : kind item <;> simp_all [skipAfter]
      rw [skeleton, List.filter_cons_of_pos (by simpa using hcomment), condense, if_neg hskip,
        if_neg (not_or.2 ⟨hcomment, hskip⟩), hnext, List.singleton_append, skeleton]

/-- **The skeleton of two lists**, one behind the other. -/
theorem skeleton_append (skip : Bool) (first second : List α) :
    skeleton kind skip (first ++ second) = skeleton kind skip first ++
      skeleton kind (first.foldl (fun skip item => skipAfter (kind item) skip) skip) second := by
  induction first generalizing skip with
  | nil => rfl
  | cons item first ih =>
      rw [List.cons_append, skeleton_cons, skeleton_cons, ih, List.foldl_cons, List.append_assoc]

/-- Only the classes of the items matter to the skeleton. -/
theorem map_skeleton {kind' : β → TokenKind} {f : α → β} (h : ∀ item, kind' (f item) = kind item)
    (skip : Bool) (items : List α) :
    (skeleton kind skip items).map f = skeleton kind' skip (items.map f) := by
  induction items generalizing skip with
  | nil => rfl
  | cons item items ih =>
      rw [List.map_cons, skeleton_cons, skeleton_cons, h, List.map_append, ih]
      split <;> rfl

/-- A skeleton leaves items out, and no more. -/
theorem skeleton_sublist (skip : Bool) (items : List α) :
    (skeleton kind skip items).Sublist items := by
  induction items generalizing skip with
  | nil => exact .slnil
  | cons item items ih =>
      rw [skeleton_cons]
      split
      · exact (ih _).cons item
      · exact (ih _).cons_cons item

end Skeletons

/-! ### Acceptance -/

/-- **The statements of tokens from a state on**, if the tokens are accepted. -/
def accepted (state : State) (tokens : List Token) : Option (List Statement) :=
  (run id state {} (tokens.map .ok)).toOption

theorem toOption_finish (last last' : Span) (state : State) :
    (finish last state).toOption = (finish last' state).toOption := by
  cases state with
  | line labels => cases labels <;> rfl
  | _ => rfl

/-- What the last token was matters to errors only. -/
theorem toOption_run (state : State) (last last' : Span) (items : List (Except SourceError Token)) :
    (run id state last items).toOption = (run id state last' items).toOption := by
  have hfinish := toOption_finish last last' state
  have hend : (((finish last state).map Option.toList).mapError id).toOption =
      (((finish last' state).map Option.toList).mapError id).toOption := by
    cases h : finish last state <;> cases h' : finish last' state <;>
      simp_all [Except.toOption, Except.mapError]
  cases items with
  | nil => exact hend
  | cons item rest =>
      cases item with
      | error error => rfl
      | ok token =>
          by_cases hkind : token.kind = .endOfInput
          · rw [run_end id state last hkind, run_end id state last' hkind]
            exact hend
          · rw [run_step id state last hkind, run_step id state last' hkind]

theorem accepted_end {token : Token} (h : token.kind = .endOfInput) (state : State)
    (rest : List Token) : accepted state (token :: rest) = accepted state [] := by
  rw [accepted, List.map_cons, run_end id state {} h]
  rfl

theorem Step.kind_ne {state next : State} {token : Token} {completed : Option Statement}
    (h : Step state token next completed) : token.kind ≠ .endOfInput := by
  intro hkind
  cases h <;> simp_all [IsOperand]

/-- One step, and then what follows. -/
theorem accepted_step {state next : State} {token : Token} {completed : Option Statement}
    (h : Step state token next completed) (rest : List Token) :
    accepted state (token :: rest) = (accepted next rest).map (completed.toList ++ ·) := by
  rw [accepted, List.map_cons, run_step id state {} h.kind_ne, step_eq_ok_iff.2 h, accepted,
    toOption_run next {} token.span]
  dsimp only
  cases run id next token.span (rest.map .ok) <;> rfl

/-- A step that completes no statement. -/
theorem accepted_silent {state next : State} {token : Token} (h : Step state token next none)
    (rest : List Token) : accepted state (token :: rest) = accepted next rest := by
  rw [accepted_step h]
  exact Option.map_id_apply

theorem accepted_refused {state : State} {token : Token} (hkind : token.kind ≠ .endOfInput)
    (h : ∀ next completed, ¬Step state token next completed) (rest : List Token) :
    accepted state (token :: rest) = none := by
  rw [accepted, List.map_cons, run_step id state {} hkind]
  cases hstep : step state token with
  | error error => rfl
  | ok result => exact absurd (step_eq_ok_iff.1 hstep) (h result.1 result.2)

/-- A token is the end of input, or a step is taken on it, or it is refused. -/
theorem token_cases (state : State) (token : Token) :
    token.kind = .endOfInput ∨ (∃ next completed, Step state token next completed) ∨
      (token.kind ≠ .endOfInput ∧ ∀ next completed, ¬Step state token next completed) := by
  by_cases hkind : token.kind = .endOfInput
  · exact .inl hkind
  · by_cases hstep : ∃ next completed, Step state token next completed
    · exact .inr (.inl hstep)
    · exact .inr (.inr ⟨hkind, fun next completed h => hstep ⟨next, completed, h⟩⟩)

/-! ### Comments -/

/-- Nothing but an end of line or the end of input can follow a comment. -/
def RunsOut (a b : Token) : Prop :=
  a.kind = .comment → b.kind = .newline ∨ b.kind = .endOfInput

/-- Where a line ends, a comment behind a statement makes no difference. -/
theorem accepted_behind_comment {state : State} {statement : Statement}
    (hstate : state = .head statement ∨ state = .operand statement) {rest : List Token}
    (h : ∀ token ∈ rest.head?, token.kind = .newline ∨ token.kind = .endOfInput) :
    accepted (.comment statement) rest = accepted state rest := by
  cases rest with
  | nil => rcases hstate with rfl | rfl <;> rfl
  | cons token rest =>
      rcases h token rfl with hkind | hkind
      · rcases hstate with rfl | rfl
        · rw [accepted_step (.endComment statement hkind), accepted_step (.endHead statement hkind)]
        · rw [accepted_step (.endComment statement hkind),
            accepted_step (.endOperand statement hkind)]
      · rcases hstate with rfl | rfl <;>
          rw [accepted_end hkind, accepted_end hkind] <;> rfl

/-- Where a line ends, a comma is refused. -/
theorem accepted_behind_comma (statement : Statement) {rest : List Token}
    (h : ∀ token ∈ rest.head?, token.kind = .newline ∨ token.kind = .endOfInput) :
    accepted (.comma statement) rest = none := by
  cases rest with
  | nil => rfl
  | cons token rest =>
      rcases h token rfl with hkind | hkind
      · refine accepted_refused (by simp [hkind]) (fun next completed hstep => ?_) rest
        cases hstep with
        | next _ hoperand => rcases hoperand with hoperand | hoperand <;> simp [hkind] at hoperand
      · rw [accepted_end hkind]
        rfl

/-- **Comments say nothing.** -/
theorem accepted_filter {tokens : List Token} (h : tokens.IsChain RunsOut) {state : State}
    (hstate : ∀ statement, state ≠ .comment statement) :
    accepted state (tokens.filter fun token => token.kind ≠ .comment) = accepted state tokens := by
  induction tokens generalizing state with
  | nil => rfl
  | cons token rest ih =>
      obtain ⟨hhead, hrest⟩ := List.isChain_cons.1 h
      by_cases hcomment : token.kind = .comment
      · have hout : ∀ next ∈ rest.head?, next.kind = .newline ∨ next.kind = .endOfInput :=
          fun next hnext => hhead next hnext hcomment
        rw [List.filter_cons_of_neg (by simpa using hcomment), ih hrest hstate]
        cases state with
        | line labels => rw [accepted_silent (.blank labels (.inl hcomment))]
        | head statement =>
            rw [accepted_silent (.commentHead statement hcomment),
              accepted_behind_comment (.inl rfl) hout]
        | operand statement =>
            rw [accepted_silent (.commentOperand statement hcomment),
              accepted_behind_comment (.inr rfl) hout]
        | comma statement =>
            -- no operand follows the comma, with the comment or without it
            rw [accepted_behind_comma statement hout]
            refine Eq.symm (accepted_refused (by simp [hcomment])
              (fun next completed hstep => ?_) rest)
            cases hstep with
            | next _ hoperand =>
                rcases hoperand with hoperand | hoperand <;> simp [hcomment] at hoperand
        | comment statement => exact absurd rfl (hstate statement)
      · rw [List.filter_cons_of_pos (by simpa using hcomment)]
        rcases token_cases state token with hkind | ⟨next, completed, hstep⟩ | ⟨hkind, hrefused⟩
        · rw [accepted_end hkind, accepted_end hkind]
        · have hnext : ∀ statement, next ≠ .comment statement := by
            rintro statement rfl
            cases hstep with
            | commentHead _ hkind => exact hcomment hkind
            | commentOperand _ hkind => exact hcomment hkind
          rw [accepted_step hstep, accepted_step hstep, ih hrest hnext]
        · rw [accepted_refused hkind hrefused, accepted_refused hkind hrefused]

/-! ### Ends of lines -/

/-- No mnemonic has been read on the line. -/
def State.isLine : State → Bool
  | .line _ => true
  | _ => false

/-- **The scanner and the parser agree on where a mnemonic may come**, token by token. -/
theorem Step.isLine_eq {state next : State} {token : Token} {completed : Option Statement}
    (h : Step state token next completed) :
    next.isLine = Lexer.freshAfter token.kind state.isLine := by
  cases h with
  | label labels h => simp [State.isLine, Lexer.freshAfter, h]
  | blank labels h => rcases h with h | h <;> simp [State.isLine, Lexer.freshAfter, h]
  | head labels h => rcases h with h | h <;> simp [State.isLine, Lexer.freshAfter, h]
  | first statement h => rcases h with h | h <;> simp [State.isLine, Lexer.freshAfter, h]
  | next statement h => rcases h with h | h <;> simp [State.isLine, Lexer.freshAfter, h]
  | comma statement h => simp [State.isLine, Lexer.freshAfter, h]
  | commentHead statement h => simp [State.isLine, Lexer.freshAfter, h]
  | commentOperand statement h => simp [State.isLine, Lexer.freshAfter, h]
  | endHead statement h => simp [State.isLine, Lexer.freshAfter, h]
  | endOperand statement h => simp [State.isLine, Lexer.freshAfter, h]
  | endComment statement h => simp [State.isLine, Lexer.freshAfter, h]

/-- Behind a label no mnemonic has been read. -/
theorem Step.isLine_of_label {state next : State} {token : Token} {completed : Option Statement}
    (h : Step state token next completed) (hkind : token.kind = .label) : next.isLine = true := by
  cases h <;> simp_all [State.isLine, IsOperand]

/-- The scanner and the parser agree behind any tokens that are taken. -/
theorem isLine_advance {tokens : List Token} {state next : State} {done : List Statement}
    (h : advance state tokens = .ok (next, done)) :
    next.isLine =
      tokens.foldl (fun fresh token => Lexer.freshAfter token.kind fresh) state.isLine := by
  induction tokens generalizing state done with
  | nil =>
      cases h
      rfl
  | cons token tokens ih =>
      cases hstep : step state token with
      | error error =>
          rw [advance_cons_error hstep] at h
          cases h
      | ok result =>
          rw [advance_cons_ok hstep, Outcome.map_eq_ok] at h
          obtain ⟨⟨last, later⟩, hrest, heq⟩ := h
          cases heq
          rw [ih hrest, (step_eq_ok_iff.1 hstep).isLine_eq, List.foldl_cons]

/-- Behind tokens that are taken, the last of them a label, no mnemonic has been read. -/
theorem isLine_of_advance_label {front : List Token} {token : Token} {state next : State}
    {done : List Statement} (h : advance state (front ++ [token]) = .ok (next, done))
    (hkind : token.kind = .label) : next.isLine = true := by
  cases hfront : advance state front with
  | error error =>
      rw [advance_append_error hfront] at h
      cases h
  | ok middle =>
      rw [advance_append_ok hfront, Outcome.map_eq_ok] at h
      obtain ⟨⟨last, later⟩, hlast, heq⟩ := h
      cases heq
      cases hstep : step middle.1 token with
      | error error =>
          rw [advance_cons_error hstep] at hlast
          cases hlast
      | ok result =>
          rw [advance_cons_ok hstep] at hlast
          cases hlast
          exact (step_eq_ok_iff.1 hstep).isLine_of_label hkind

theorem exists_line {state : State} (h : state.isLine = true) : ∃ labels, state = .line labels := by
  cases state with
  | line labels => exact ⟨labels, rfl⟩
  | _ => cases h

/-- **Ends of empty lines say nothing**: an end of line is left out only where no mnemonic has been
read. -/
theorem accepted_condense {skip : Bool} {state : State} (h : skip = true → state.isLine = true)
    (tokens : List Token) :
    accepted state (condense Token.kind skip tokens) = accepted state tokens := by
  induction tokens generalizing skip state with
  | nil => rfl
  | cons token rest ih =>
      by_cases hskip : token.kind = .newline ∧ skip = true
      · obtain ⟨hkind, rfl⟩ := hskip
        obtain ⟨labels, rfl⟩ := exists_line (h rfl)
        rw [condense, if_pos ⟨hkind, rfl⟩, accepted_silent (.blank labels (.inr hkind)), ih h]
      · rw [condense, if_neg hskip]
        rcases token_cases state token with hkind | ⟨next, completed, hstep⟩ | ⟨hkind, hrefused⟩
        · rw [accepted_end hkind, accepted_end hkind]
        · have hnext : decide (token.kind = .newline ∨ token.kind = .label) = true →
              next.isLine = true := by
            intro hkind
            rcases of_decide_eq_true hkind with hkind | hkind
            · rw [hstep.isLine_eq, hkind]
              rfl
            · exact hstep.isLine_of_label hkind
          rw [accepted_step hstep, accepted_step hstep, ih hnext]
        · rw [accepted_refused hkind hrefused, accepted_refused hkind hrefused]

/-- **A sequence means what its skeleton means.** -/
theorem accepted_skeleton {tokens : List Token} (h : tokens.IsChain RunsOut) :
    accepted (.line []) (skeleton Token.kind true tokens) = accepted (.line []) tokens := by
  rw [skeleton, accepted_condense fun _ => rfl, accepted_filter h fun _ => State.noConfusion]

/-! ### The end of the input -/

/-- Behind tokens that are taken, acceptance goes on from the state reached. -/
theorem accepted_append {first : List Token} (hfirst : ∀ token ∈ first, token.kind ≠ .endOfInput)
    (state : State) (second : List Token) :
    accepted state (first ++ second) =
      match advance state first with
      | .error _ => none
      | .ok (next, done) => (accepted next second).map (done ++ ·) := by
  rw [accepted, List.map_append, run_advance id state {} hfirst]
  cases advance state first with
  | error error => rfl
  | ok result =>
      dsimp only
      rw [accepted, toOption_run result.1 {} (lastSpan {} first)]
      cases run id result.1 (lastSpan {} first) (second.map .ok) <;> rfl

/-- The end of input says no more than the end of the tokens. -/
theorem run_append_atEnd {tokens : List Token}
    (htokens : ∀ token ∈ tokens, token.kind ≠ .endOfInput)
    {rest : List (Except SourceError Token)} (h : AtEnd rest) (state : State) :
    run id state {} (tokens.map .ok ++ rest) = run id state {} (tokens.map .ok) := by
  have hnil := run_advance id state {} htokens []
  rw [List.append_nil] at hnil
  rw [run_advance id state {} htokens, hnil]
  cases advance state tokens with
  | error error => rfl
  | ok result =>
      dsimp only
      rw [run_atEnd id result.1 _ h, run_nil]

/-- **An end of line at the end of the tokens changes nothing.** -/
theorem accepted_newline {token : Token} (h : token.kind = .newline) (state : State) :
    accepted state [token] = accepted state [] := by
  cases state with
  | line labels => rw [accepted_silent (.blank labels (.inr h))]
  | head statement =>
      rw [accepted_step (.endHead statement h)]
      rfl
  | operand statement =>
      rw [accepted_step (.endOperand statement h)]
      rfl
  | comment statement =>
      rw [accepted_step (.endComment statement h)]
      rfl
  | comma statement =>
      rw [accepted_behind_comma statement (by simp [h])]
      rfl

end Parser

end TableAssembler
