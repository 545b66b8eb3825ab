/-
**Where the parser stops, and what it expected there.**

Tokens are *viable* if some continuation of them is accepted.  The parser's machine gets stuck at
the first token that leaves no viable sequence and nowhere else: every state it can be in leads to
acceptance (`Refusal.exists_completion`), so that the viable sequences are those it can advance over
(`Refusal.viable_iff`).  For the same reason the list of token classes that a state allows is exact:
a class is on it exactly when some token of the class keeps the sequence viable
(`Refusal.continues_iff`).  There is one exception, which is meant: a malformed number in the place
of an operand is reported with the classes of operands alone, even where the line could have ended.

Main definitions:

* `Refusal.Accepted`, `Refusal.Viable` — sequences that are accepted, and their beginnings;
* `Refusal.Continues` — the token classes that keep a sequence viable;
* `Refusal.Reported` — the token classes that an error lists.

Main results:

* `Refusal.viable_iff`, `Refusal.continues_iff` — viability by the states of the machine;
* `Refusal.parse_error_of_viable`, `Refusal.parse_first_misfit`, `Refusal.parse_unfinished` — the
  three ways in which a sequence is refused;
* `Refusal.parse_error_cases` — what an error of the parser names;
* `Refusal.parse_refuses_first_misfit` — **a sequence is refused at its first misfit**;
* `Refusal.malformed_operand_expects_operands` — the exception at work.
-/

import Mathlib.Data.Nat.Find
import TableAssembler.Proofs.Statement.Advance

set_option relaxedAutoImplicit false
set_option autoImplicit false

namespace TableAssembler

namespace Refusal

open TableAssembler.Parser
open Text (utf8)

variable {ε : Type}

/-! ### Viable sequences -/

/-- A sequence of tokens is accepted. -/
def Accepted (tokens : List Token) : Prop :=
  ∃ statements, Statement.parse (tokens.map .ok) = .ok statements

/-- **A sequence of tokens is viable**: some continuation of it is accepted. -/
def Viable (tokens : List Token) : Prop := ∃ more, Accepted (tokens ++ more)

/-- **A token class keeps a sequence viable**: some token of the class does.  The end of input does
so exactly when the sequence itself is accepted. -/
def Continues (before : List Token) (kind : TokenKind) : Prop :=
  if kind = .endOfInput then Accepted before
  else ∃ token : Token, token.kind = kind ∧ Viable (before ++ [token])

/-- A malformed number where a number could stand. -/
def MalformedOperand (before : List Token) (token : Token) : Prop :=
  token.isMalformed = true ∧ Continues before .number

/-- **The token classes that are reported** when `token` does not fit behind `before`: those that
keep the sequence viable, but for a malformed operand only those of operands. -/
def Reported (before : List Token) (token : Token) (kind : TokenKind) : Prop :=
  (MalformedOperand before token ∧ kind ∈ operandKinds) ∨
    (¬MalformedOperand before token ∧ Continues before kind)

/-! ### States -/

/-- The machine may stop exactly in the states that expect an end of input. -/
theorem finish_eq_ok_iff (last : Span) (state : State) :
    (∃ final, finish last state = .ok final) ↔ .endOfInput ∈ state.expected := by
  cases state with
  | line labels => cases labels <;> simp [finish, State.expected]
  | head statement => simp [finish, State.expected]
  | comma statement => simp [finish, State.expected, operandKinds]
  | operand statement => simp [finish, State.expected]
  | comment statement => simp [finish, State.expected]

/-- An end of input where none is expected is an error with what is. -/
theorem finish_error {last : Span} {state : State} (h : .endOfInput ∉ state.expected) :
    finish last state = .error (.unexpectedEnd last state.expected) := by
  cases state with
  | line labels => cases labels <;> simp [finish, State.expected] at h ⊢
  | head statement => simp [State.expected] at h
  | comma statement => rfl
  | operand statement => simp [State.expected] at h
  | comment statement => simp [State.expected] at h

/-- The number zero. -/
def zeroToken : Token := { kind := .number, text := utf8 "0" }

theorem isOperand_zeroToken : IsOperand zeroToken := .inr ⟨rfl, by decide⟩

/-- **The classes that a state expects are exactly those of which it takes some token.** -/
theorem mem_expected_iff {state : State} {kind : TokenKind} (hkind : kind ≠ .endOfInput) :
    kind ∈ state.expected ↔
      ∃ token : Token, token.kind = kind ∧ ∃ next completed, Step state token next completed := by
  constructor
  · intro h
    cases state with
    | line labels =>
        have hcases : kind = .label ∨ (kind = .mnemonic ∨ kind = .directive) ∨
            kind = .comment ∨ kind = .newline := by
          cases labels <;> simpa [State.expected, hkind, or_assoc] using h
        rcases hcases with h | h | h
        · exact ⟨{ kind := kind }, rfl, _, _, .label labels h⟩
        · exact ⟨{ kind := kind }, rfl, _, _, .head labels h⟩
        · exact ⟨{ kind := kind }, rfl, _, _, .blank labels h⟩
    | head statement =>
        have hcases : kind = .number ∨ kind = .identifier ∨ kind = .comment ∨ kind = .newline := by
          simpa [State.expected, hkind] using h
        rcases hcases with rfl | rfl | h | h
        · exact ⟨zeroToken, rfl, _, _, .first statement isOperand_zeroToken⟩
        · exact ⟨{ kind := .identifier }, rfl, _, _, .first statement (.inl rfl)⟩
        · exact ⟨{ kind := kind }, rfl, _, _, .commentHead statement h⟩
        · exact ⟨{ kind := kind }, rfl, _, _, .endHead statement h⟩
    | comma statement =>
        have hcases : kind = .number ∨ kind = .identifier := by
          simpa [State.expected, operandKinds] using h
        rcases hcases with rfl | rfl
        · exact ⟨zeroToken, rfl, _, _, .next statement isOperand_zeroToken⟩
        · exact ⟨{ kind := .identifier }, rfl, _, _, .next statement (.inl rfl)⟩
    | operand statement =>
        have hcases : kind = .comma ∨ kind = .comment ∨ kind = .newline := by
          simpa [State.expected, hkind] using h
        rcases hcases with h | h | h
        · exact ⟨{ kind := kind }, rfl, _, _, .comma statement h⟩
        · exact ⟨{ kind := kind }, rfl, _, _, .commentOperand statement h⟩
        · exact ⟨{ kind := kind }, rfl, _, _, .endOperand statement h⟩
    | comment statement =>
        have h : kind = .newline := by simpa [State.expected, hkind] using h
        exact ⟨{ kind := kind }, rfl, _, _, .endComment statement h⟩
  · rintro ⟨token, rfl, next, completed, hstep⟩
    cases hstep with
    | label labels h => cases labels <;> simp [State.expected, h]
    | blank labels h => cases labels <;> rcases h with h | h <;> simp [State.expected, h]
    | head labels h => cases labels <;> rcases h with h | h <;> simp [State.expected, h]
    | first statement h => rcases h with h | ⟨h, -⟩ <;> simp [State.expected, h]
    | next statement h => rcases h with h | ⟨h, -⟩ <;> simp [State.expected, operandKinds, h]
    | comma statement h => simp [State.expected, h]
    | commentHead statement h => simp [State.expected, h]
    | commentOperand statement h => simp [State.expected, h]
    | endHead statement h => simp [State.expected, h]
    | endOperand statement h => simp [State.expected, h]
    | endComment statement h => simp [State.expected, h]

theorem expected_nodup (state : State) : state.expected.Nodup := by
  cases state with
  | line labels => cases labels <;> simp [State.expected]
  | head statement => simp [State.expected]
  | comma statement => simp [State.expected, operandKinds]
  | operand statement => simp [State.expected]
  | comment statement => simp [State.expected]

theorem kind_of_isMalformed {token : Token} (h : token.isMalformed = true) :
    token.kind = .number := by
  unfold Token.isMalformed at h
  split at h
  · assumption
  · cases h

theorem takeOperand_error {statement : Statement} {token : Token} {error : SourceError}
    (h : (takeOperand statement token).map (·, (none : Option Statement)) = .error error) :
    ¬IsOperand token ∧ error = unexpected token operandKinds := by
  by_cases hoperand : IsOperand token
  · have htake : takeOperand statement token = .ok (.operand (addOperand statement token)) :=
      if_pos hoperand
    rw [htake] at h
    cases h
  · have htake : takeOperand statement token = .error (unexpected token operandKinds) :=
      if_neg hoperand
    rw [htake] at h
    cases h
    exact ⟨hoperand, rfl⟩

/-- A state that does not expect a number reports what it expects. -/
theorem step_error_of_not_number {state : State} {token : Token} {error : SourceError}
    (hnumber : .number ∉ state.expected) (h : step state token = .error error) :
    error = unexpected token state.expected := by
  cases state with
  | line labels =>
      cases hkind : token.kind <;> simp only [step, hkind, Except.error.injEq, reduceCtorEq] at h
      all_goals exact h.symm
  | head statement => simp [State.expected] at hnumber
  | comma statement => simp [State.expected, operandKinds] at hnumber
  | operand statement =>
      cases hkind : token.kind <;> simp only [step, hkind, Except.error.injEq, reduceCtorEq] at h
      all_goals exact h.symm
  | comment statement =>
      cases hkind : token.kind <;> simp only [step, hkind, Except.error.injEq, reduceCtorEq] at h
      all_goals exact h.symm

/-- What is reported of a token that a state does not take: what the state expects, but for a
malformed number in the place of an operand the classes of operands. -/
def misfitKinds (state : State) (token : Token) : List TokenKind :=
  if token.isMalformed = true ∧ .number ∈ state.expected then operandKinds else state.expected

theorem misfitKinds_nodup (state : State) (token : Token) : (misfitKinds state token).Nodup := by
  unfold misfitKinds
  split
  · simp [operandKinds]
  · exact expected_nodup state

/-- **A token that a state does not take is reported as a misfit.** -/
theorem step_error {state : State} {token : Token} {error : SourceError}
    (h : step state token = .error error) : error = unexpected token (misfitKinds state token) := by
  unfold misfitKinds
  by_cases hnumber : .number ∈ state.expected
  · cases state with
    | line labels => cases labels <;> simp [State.expected] at hnumber
    | head statement =>
        by_cases hmalformed : token.isMalformed = true
        · have hkind := kind_of_isMalformed hmalformed
          simp only [step, hkind] at h
          rw [if_pos ⟨hmalformed, hnumber⟩]
          exact (takeOperand_error h).2
        · rw [if_neg fun hboth => hmalformed hboth.1]
          cases hkind : token.kind <;>
            simp only [step, hkind, Except.error.injEq, reduceCtorEq] at h
          case number =>
              refine absurd (.inr ⟨hkind, ?_⟩) (takeOperand_error h).1
              simpa using hmalformed
          case identifier => exact absurd (.inl hkind) (takeOperand_error h).1
          all_goals exact h.symm
    | comma statement =>
        have hsame : (State.comma statement).expected = operandKinds := rfl
        rw [hsame, ite_self]
        exact (takeOperand_error h).2
    | operand statement => simp [State.expected] at hnumber
    | comment statement => simp [State.expected] at hnumber
  · rw [if_neg fun hboth => hnumber hboth.2]
    exact step_error_of_not_number hnumber h

/-- Every state of the machine leads to acceptance. -/
theorem exists_completion (state : State) :
    ∃ more : List Token, (∀ token ∈ more, token.kind ≠ .endOfInput) ∧
      ∃ next done, advance state more = .ok (next, done) ∧ .endOfInput ∈ next.expected := by
  cases state with
  | line labels =>
      have hstep : Step (.line labels) { kind := .mnemonic } _ _ := .head labels (.inl rfl)
      exact ⟨[{ kind := .mnemonic }], by simp, _, _, advance_cons_ok (step_eq_ok_iff.2 hstep) [],
        by simp [State.expected]⟩
  | head statement => exact ⟨[], by simp, _, _, rfl, by simp [State.expected]⟩
  | comma statement =>
      have hstep : Step (.comma statement) { kind := .identifier } _ _ := .next statement (.inl rfl)
      exact ⟨[{ kind := .identifier }], by simp, _, _, advance_cons_ok (step_eq_ok_iff.2 hstep) [],
        by simp [State.expected]⟩
  | operand statement => exact ⟨[], by simp, _, _, rfl, by simp [State.expected]⟩
  | comment statement => exact ⟨[], by simp, _, _, rfl, by simp [State.expected]⟩

/-! ### Viability by states -/

/-- Tokens without an end of input are accepted exactly when the machine may stop after them. -/
theorem accepted_iff {tokens : List Token} (h : ∀ token ∈ tokens, token.kind ≠ .endOfInput) :
    Accepted tokens ↔
      ∃ state done, advance (.line []) tokens = .ok (state, done) ∧
        .endOfInput ∈ state.expected := by
  simp only [Accepted, parse_tokens_eq_ok_iff, visible_eq_self h]
  constructor
  · rintro ⟨_, state, done, final, hadvance, hfinish, -⟩
    exact ⟨state, done, hadvance, (finish_eq_ok_iff _ state).1 ⟨final, hfinish⟩⟩
  · rintro ⟨state, done, hadvance, hend⟩
    obtain ⟨final, hfinish⟩ := (finish_eq_ok_iff (lastSpan {} tokens) state).2 hend
    exact ⟨_, state, done, final, hadvance, hfinish, rfl⟩

/-- **Tokens without an end of input are viable exactly when the machine can advance over them.** -/
theorem viable_iff {tokens : List Token} (h : ∀ token ∈ tokens, token.kind ≠ .endOfInput) :
    Viable tokens ↔ ∃ state done, advance (.line []) tokens = .ok (state, done) := by
  constructor
  · rintro ⟨more, statements, hparse⟩
    obtain ⟨state, done, final, hadvance, -⟩ := parse_tokens_eq_ok_iff.1 hparse
    rw [visible_append h] at hadvance
    cases htokens : advance (.line []) tokens with
    | error error =>
        rw [advance_append_error htokens] at hadvance
        cases hadvance
    | ok result => exact ⟨result.1, result.2, rfl⟩
  · rintro ⟨state, done, hadvance⟩
    obtain ⟨more, hmore, next, later, hnext, hend⟩ := exists_completion state
    refine ⟨more, (accepted_iff ?_).2 ⟨next, done ++ later, ?_, hend⟩⟩
    · exact List.forall_mem_append.2 ⟨h, hmore⟩
    · rw [advance_append_ok hadvance, hnext]
      rfl

/-- **The classes that keep a sequence viable are those that the machine expects after it.** -/
theorem continues_iff {before : List Token} (h : ∀ token ∈ before, token.kind ≠ .endOfInput)
    {state : State} {done : List Statement}
    (hadvance : advance (.line []) before = .ok (state, done)) {kind : TokenKind} :
    Continues before kind ↔ kind ∈ state.expected := by
  unfold Continues
  split
  · rename_i hend
    subst hend
    rw [accepted_iff h, hadvance]
    simp
  · rename_i hkind
    rw [mem_expected_iff hkind]
    constructor
    · rintro ⟨token, rfl, hviable⟩
      have htokens : ∀ other ∈ before ++ [token], other.kind ≠ .endOfInput :=
        List.forall_mem_append.2 ⟨h, by simpa using hkind⟩
      obtain ⟨last, later, hlast⟩ := (viable_iff htokens).1 hviable
      rw [advance_append_ok hadvance, Outcome.map_eq_ok] at hlast
      obtain ⟨result, hone, -⟩ := hlast
      cases hstep : step state token with
      | error error =>
          rw [advance_cons_error hstep] at hone
          cases hone
      | ok next => exact ⟨token, rfl, next.1, next.2, step_eq_ok_iff.1 hstep⟩
    · rintro ⟨token, rfl, next, completed, hstep⟩
      have htokens : ∀ other ∈ before ++ [token], other.kind ≠ .endOfInput :=
        List.forall_mem_append.2 ⟨h, by simpa using hkind⟩
      refine ⟨token, rfl, (viable_iff htokens).2 ⟨next, done ++ completed.toList, ?_⟩⟩
      rw [advance_append_ok hadvance, advance_cons_ok (step_eq_ok_iff.2 hstep)]
      simp

theorem reported_iff {before : List Token} (h : ∀ token ∈ before, token.kind ≠ .endOfInput)
    {state : State} {done : List Statement}
    (hadvance : advance (.line []) before = .ok (state, done)) (token : Token) {kind : TokenKind} :
    Reported before token kind ↔ kind ∈ misfitKinds state token := by
  by_cases hmalformed : token.isMalformed = true ∧ .number ∈ state.expected
  · simp [Reported, MalformedOperand, misfitKinds, continues_iff h hadvance, hmalformed]
  · simp [Reported, MalformedOperand, misfitKinds, continues_iff h hadvance, hmalformed]

/-! ### The three refusals -/

/-- An error item behind viable tokens is the error of the whole. -/
theorem parse_error_of_viable (report : SourceError → ε) {tokens : List Token}
    (h : ∀ token ∈ tokens, token.kind ≠ .endOfInput) (hviable : Viable tokens) (error : ε)
    (more : List (Except ε Token)) :
    Statement.parseWith report (tokens.map .ok ++ .error error :: more) = .error error := by
  obtain ⟨state, done, hadvance⟩ := (viable_iff h).1 hviable
  rw [Statement.parseWith, run_advance report _ _ h, hadvance]
  rfl

/-- A token that ends viability is reported, with the classes that would have kept it. -/
theorem parse_first_misfit (report : SourceError → ε) {before : List Token} {token : Token}
    (h : ∀ other ∈ before ++ [token], other.kind ≠ .endOfInput) (hbefore : Viable before)
    (hnot : ¬Viable (before ++ [token])) (rest : List (Except ε Token)) :
    ∃ expected : List TokenKind, expected.Nodup ∧
      Statement.parseWith report ((before ++ [token]).map .ok ++ rest) =
        .error (report (.unexpected token.span token expected)) ∧
      ∀ kind, kind ∈ expected ↔ Reported before token kind := by
  have hkinds := (List.forall_mem_append.1 h).1
  obtain ⟨state, done, hadvance⟩ := (viable_iff hkinds).1 hbefore
  cases hstep : step state token with
  | ok result =>
      refine absurd ((viable_iff h).2 ⟨result.1, done ++ result.2.toList, ?_⟩) hnot
      rw [advance_append_ok hadvance, advance_cons_ok hstep]
      simp
  | error error =>
      have hstuck : advance (.line []) (before ++ [token]) = .error error := by
        rw [advance_append_ok hadvance, advance_cons_error hstep]
        rfl
      refine ⟨misfitKinds state token, misfitKinds_nodup state token, ?_,
        fun kind => (reported_iff hkinds hadvance token).symm⟩
      rw [Statement.parseWith, run_advance report _ _ h, hstuck, step_error hstep]
      rfl

/-- Viable tokens that are not accepted are reported at the end of input, with the classes that
would have kept them viable. -/
theorem parse_unfinished (report : SourceError → ε) {tokens : List Token}
    (h : ∀ token ∈ tokens, token.kind ≠ .endOfInput) (hviable : Viable tokens)
    (hnot : ¬Accepted tokens) {rest : List (Except ε Token)} (hend : AtEnd rest) :
    ∃ last expected, tokens.getLast? = some last ∧ expected.Nodup ∧
      Statement.parseWith report (tokens.map .ok ++ rest) =
        .error (report (.unexpectedEnd last.span expected)) ∧
      ∀ kind, kind ∈ expected ↔ Continues tokens kind := by
  obtain ⟨state, done, hadvance⟩ := (viable_iff h).1 hviable
  have hexpected : .endOfInput ∉ state.expected := fun hmem =>
    hnot ((accepted_iff h).2 ⟨state, done, hadvance, hmem⟩)
  cases hlast : tokens.getLast? with
  | none =>
      obtain rfl : tokens = [] := List.getLast?_eq_none_iff.1 hlast
      cases hadvance
      simp [State.expected] at hexpected
  | some last =>
      have hspan : lastSpan {} tokens = last.span := by simp [lastSpan, hlast]
      refine ⟨last, state.expected, rfl, expected_nodup state, ?_,
        fun kind => (continues_iff h hadvance).symm⟩
      rw [Statement.parseWith, run_advance report _ _ h, hadvance, hspan]
      simp only [run_atEnd report state _ hend, finish_error hexpected]
      rfl

/-- A sequence that is not viable has a first token that makes it so. -/
theorem exists_first_misfit {tokens : List Token} (h : ¬Viable tokens) :
    ∃ i token, tokens[i]? = some token ∧ (∀ j ≤ i, Viable (tokens.take j)) ∧
      ¬Viable (tokens.take (i + 1)) := by
  classical
  have hexists : ∃ n, ¬Viable (tokens.take n) := ⟨tokens.length, by simpa using h⟩
  have hempty : Viable (tokens.take 0) := (viable_iff (by simp)).2 ⟨.line [], [], rfl⟩
  obtain ⟨i, hi⟩ : ∃ i, Nat.find hexists = i + 1 := by
    refine Nat.exists_eq_succ_of_ne_zero fun hzero => Nat.find_spec hexists ?_
    rw [hzero]
    exact hempty
  have hnot : ¬Viable (tokens.take (i + 1)) := hi ▸ Nat.find_spec hexists
  have hbefore : ∀ j ≤ i, Viable (tokens.take j) := fun j hj =>
    not_not.1 (Nat.find_min hexists (by omega))
  have hlt : i < tokens.length := by
    by_contra hge
    have hall := hbefore i le_rfl
    rw [List.take_of_length_le (by omega)] at hall
    exact h hall
  exact ⟨i, tokens[i], List.getElem?_eq_getElem hlt, hbefore, hnot⟩

/-! ### Sequences of items -/

theorem advance_error {state : State} {tokens : List Token} {error : SourceError}
    (h : advance state tokens = .error error) :
    ∃ token ∈ tokens, ∃ expected, error = .unexpected token.span token expected := by
  induction tokens generalizing state with
  | nil => cases h
  | cons token tokens ih =>
      cases hstep : step state token with
      | error misfit =>
          rw [advance_cons_error hstep] at h
          cases h
          exact ⟨token, List.mem_cons_self, _, step_error hstep⟩
      | ok result =>
          rw [advance_cons_ok hstep, Outcome.map_eq_error] at h
          obtain ⟨later, hlater, found⟩ := ih h
          exact ⟨later, List.mem_cons_of_mem _ hlater, found⟩

/-- **An error of the parser** is an error among the items, or it names one of the tokens before:
one that does not fit, or the last of them where the source ends too early. -/
theorem parse_error_cases {items : List (Except SourceError Token)} {error : SourceError}
    (h : Statement.parse items = .error error) :
    (∃ more, ending items = .error error :: more) ∨
      ∃ token ∈ leading items, ∃ expected,
        error = .unexpected token.span token expected ∨
          error = .unexpectedEnd token.span expected := by
  have hrun := run_advance id (.line []) {} (@kind_of_mem_leading _ items) (ending items)
  rw [leading_append_ending] at hrun
  rw [Statement.parse, Statement.parseWith, hrun] at h
  cases hadvance : advance (.line []) (leading items) with
  | error misfit =>
      rw [hadvance] at h
      cases h
      obtain ⟨token, htoken, expected, found⟩ := advance_error hadvance
      exact .inr ⟨token, htoken, expected, .inl found⟩
  | ok result =>
      obtain ⟨state, done⟩ := result
      simp only [hadvance, Outcome.map_eq_error] at h
      rcases ending_cases items with hend | ⟨item, more, hending⟩
      · rw [run_atEnd id state _ hend] at h
        by_cases hexpected : .endOfInput ∈ state.expected
        · obtain ⟨final, hfinal⟩ :=
            (finish_eq_ok_iff (lastSpan {} (leading items)) state).2 hexpected
          rw [hfinal] at h
          cases h
        · rw [finish_error hexpected] at h
          cases h
          cases hlast : (leading items).getLast? with
          | none =>
              -- before the first token the source may end
              rw [List.getLast?_eq_none_iff.1 hlast] at hadvance
              cases hadvance
              simp [State.expected] at hexpected
          | some last =>
              refine .inr ⟨last, List.mem_of_getLast? hlast, state.expected, .inr ?_⟩
              simp [lastSpan, hlast]
      · rw [hending, run_error] at h
        cases h
        exact .inl ⟨more, hending⟩

/-- **A sequence is refused at its first misfit, with what would have fitted.**  Let the tokens of a
sequence be those before its first error or end of input.  If they are viable and an error follows,
that error is returned.  If they are not, the first token that ends viability is reported, whatever
follows it.  If they are viable but not accepted and nothing follows, the end of input is reported
with the span of the last of them.  The classes reported are exactly those that would have kept the
tokens viable; only a malformed number where a number could stand is reported with the classes of
operands. -/
theorem parse_refuses_first_misfit (report : SourceError → ε) (items : List (Except ε Token)) :
    (∀ error more, Viable (leading items) → ending items = .error error :: more →
      Statement.parseWith report items = .error error) ∧
    (¬Viable (leading items) →
      ∃ i token, (leading items)[i]? = some token ∧ (∀ j ≤ i, Viable ((leading items).take j)) ∧
        ¬Viable ((leading items).take (i + 1)) ∧
        ∃ expected : List TokenKind, expected.Nodup ∧
          Statement.parseWith report items =
            .error (report (.unexpected token.span token expected)) ∧
          ∀ kind, kind ∈ expected ↔ Reported ((leading items).take i) token kind) ∧
    (Viable (leading items) → ¬Accepted (leading items) → AtEnd (ending items) →
      ∃ last expected, (leading items).getLast? = some last ∧ expected.Nodup ∧
        Statement.parseWith report items = .error (report (.unexpectedEnd last.span expected)) ∧
        ∀ kind, kind ∈ expected ↔ Continues (leading items) kind) := by
  have hkinds := @kind_of_mem_leading ε items
  have hitems := leading_append_ending items
  refine ⟨?_, ?_, ?_⟩
  · intro error more hviable hending
    have hparse := parse_error_of_viable report hkinds hviable error more
    rwa [← hending, hitems] at hparse
  · intro hnot
    obtain ⟨i, token, htoken, hbefore, hmisfit⟩ := exists_first_misfit hnot
    have htake : (leading items).take (i + 1) = (leading items).take i ++ [token] := by
      rw [List.take_add_one, htoken]
      rfl
    have hsome : ∀ other ∈ (leading items).take i ++ [token], other.kind ≠ .endOfInput := by
      rw [← htake]
      exact fun other hother => hkinds other (List.mem_of_mem_take hother)
    have hparse := parse_first_misfit report hsome (hbefore i le_rfl) (htake ▸ hmisfit)
      (((leading items).drop (i + 1)).map .ok ++ ending items)
    rw [← htake, ← List.append_assoc, ← List.map_append, List.take_append_drop, hitems] at hparse
    exact ⟨i, token, htoken, hbefore, hmisfit, hparse⟩
  · intro hviable hnot hend
    have hparse := parse_unfinished report hkinds hviable hnot hend
    rwa [hitems] at hparse

/-- A label with nothing behind it. -/
def loneLabel : Token := { kind := .label, text := utf8 "L:", span := ⟨0, 2, 1, 1⟩ }

/-- The mnemonic of `ADD 0xZZ`. -/
def addToken : Token := { kind := .mnemonic, text := utf8 "ADD", span := ⟨0, 3, 1, 1⟩ }

/-- The operand of `ADD 0xZZ`, which is malformed. -/
def badToken : Token := { kind := .number, text := utf8 "0xZZ", span := ⟨4, 8, 1, 5⟩, base := 16 }

theorem viable_addToken : Viable [addToken] :=
  (viable_iff (by decide)).2 ⟨.head (startStatement [] addToken), [], rfl⟩

theorem not_viable_badToken : ¬Viable [addToken, badToken] := by
  rw [viable_iff (by decide)]
  rintro ⟨state, done, hadvance⟩
  have hstuck : advance (.line []) [addToken, badToken] =
      .error (unexpected badToken operandKinds) := by decide
  rw [hstuck] at hadvance
  cases hadvance

/-- The three refusals, each on a short sequence. -/
theorem parse_refuses_short_sequences :
    Statement.parseWith some [.ok addToken, .error none] = .error none ∧
      (∃ token expected, Statement.parseWith some [.ok addToken, .ok badToken, .error none] =
        .error (some (.unexpected token.span token expected))) ∧
      ∃ span expected, Statement.parseWith some [.ok loneLabel] =
        .error (some (.unexpectedEnd span expected)) := by
  refine ⟨?_, ?_, ?_⟩
  · have hfirst := (parse_refuses_first_misfit some [.ok addToken, .error none]).1
    exact hfirst none [] viable_addToken rfl
  · obtain ⟨_, token, -, -, -, expected, -, hparse, -⟩ :=
      (parse_refuses_first_misfit some [.ok addToken, .ok badToken, .error none]).2.1
        not_viable_badToken
    exact ⟨token, expected, hparse⟩
  · have hviable : Viable [loneLabel] :=
      (viable_iff (by decide)).2 ⟨.line [labelOf loneLabel], [], rfl⟩
    have hnot : ¬Accepted [loneLabel] := by
      rintro ⟨statements, hparse⟩
      have hrefused : Statement.parse [.ok loneLabel] = .error (.unexpectedEnd loneLabel.span
          [.label, .mnemonic, .directive, .comment, .newline]) := by decide
      rw [List.map_cons, List.map_nil, hrefused] at hparse
      cases hparse
    obtain ⟨last, expected, -, -, hparse, -⟩ :=
      (parse_refuses_first_misfit some [.ok loneLabel]).2.2 hviable hnot (.inl rfl)
    exact ⟨last.span, expected, hparse⟩

/-- **The exception at work**: behind a mnemonic the line could end, but a malformed number there
is reported with the classes of operands alone. -/
theorem malformed_operand_expects_operands :
    Viable [addToken] ∧ ¬Viable [addToken, badToken] ∧
      Statement.parse [.ok addToken, .ok badToken] =
        .error (.unexpected badToken.span badToken [.number, .identifier]) ∧
      Continues [addToken] .newline ∧ Continues [addToken] .endOfInput := by
  have hkinds : ∀ token ∈ [addToken], token.kind ≠ .endOfInput := by decide
  have hadvance : advance (.line []) [addToken] =
      .ok (.head (startStatement [] addToken), []) := rfl
  refine ⟨viable_addToken, not_viable_badToken, by decide, ?_, ?_⟩
  · exact (continues_iff hkinds hadvance).2 (by decide)
  · exact (continues_iff hkinds hadvance).2 (by decide)

end Refusal

end TableAssembler
