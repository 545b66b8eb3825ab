/-
**What the steps of a session change, and what they show.**

The list of opcodes belongs to the user of a session, and the table to its assembler.  The list is
taken up when the session starts and by every rebuild at which it is well formed; a rebuild at which
it is not changes nothing.  So the table is at any time the list as it was when it was taken up
last.  In between the list can be changed as one likes: no other step shows it.

Main definitions:

* `Session.edit`, `Session.listAfter` — the list of opcodes after a step, and after a run;
* `Session.TakenUp` — **the table in use**, cut out of the steps that led to it;
* `Session.Past` — a session with the steps that it has gone through;
* `Session.Same` — sessions that differ in the list of opcodes at most.

Main results:

* `Session.Past.step`, `Session.Past.run` — one step keeps account of the past, and so does a run;
* `Session.takenUp_run` — **the table after any run** is the list at the last rebuild that could be
  done;
* `Session.Same.step`, `Session.Same.run` — a step, and a run without rebuilds, shows nothing of the
  list;
* `Session.run_without_edits` — **changes of the list can be left out** of a run without rebuilds.
-/

import TableAssembler.Proofs.Opcode.Config
import TableAssembler.Session

set_option relaxedAutoImplicit false
set_option autoImplicit false

namespace TableAssembler

namespace Session

open Table (WellFormed)

/-! ### The table in use -/

/-- The list of opcodes after a step. -/
def edit (opcodes : List Opcode) : Step → List Opcode
  | .setOperand index operand kind => changeOperand opcodes index operand kind
  | _ => opcodes

/-- The list of opcodes after steps that began with `opcodes`. -/
def listAfter (opcodes : List Opcode) (steps : List Step) : List Opcode := steps.foldl edit opcodes

/-- **The table in use** after steps that began with `opcodes`.  The steps are cut where the list
was taken up. -/
structure TakenUp (opcodes : List Opcode) (before after : List Step) (table : Table) : Prop where
  /-- The list is taken up at the start or by a rebuild. -/
  cut : before = [] ∨ before.getLast? = some .rebuild
  listed : table.opcodes = listAfter opcodes before
  formed : WellFormed table.opcodes
  /-- No rebuild since could be done. -/
  refused : ∀ earlier later, after = earlier ++ .rebuild :: later →
    ¬WellFormed (listAfter opcodes (before ++ earlier))

/-- **A session that steps have led to**, from a list of opcodes at its start. -/
structure Past (opcodes : List Opcode) (steps : List Step) (session : Session) : Prop where
  list : session.opcodes = listAfter opcodes steps
  table : ∃ before after, steps = before ++ after ∧
    TakenUp opcodes before after session.assembler.table

section

variable {session : Session} {opcodes : List Opcode} {steps : List Step}

theorem opcodes_step (session : Session) (step : Step) :
    (session.step step).2.2.opcodes = edit session.opcodes step := by
  cases step with
  | rebuild =>
      rw [Session.step]
      split <;> rfl
  | _ => rfl

theorem table_step {step : Step} (h : step ≠ .rebuild) :
    (session.step step).2.2.assembler.table = session.assembler.table := by
  cases step with
  | rebuild => exact absurd rfl h
  | _ => rfl

/-- A rebuild takes the list up if it is well formed, and else changes nothing. -/
theorem rebuild_cases (session : Session) :
    WellFormed session.opcodes ∧
        (session.step .rebuild).2.2.assembler.table.opcodes = session.opcodes ∨
      ¬WellFormed session.opcodes ∧ (session.step .rebuild).2.2 = session := by
  rw [Session.step]
  cases h : Assembler.ofOpcodes session.opcodes with
  | ok assembler =>
      obtain ⟨hformed, rfl⟩ := Assembler.ofOpcodes_eq_ok_iff.1 h
      exact .inl ⟨hformed, rfl⟩
  | error error =>
      refine .inr ⟨fun hformed => ?_, rfl⟩
      rw [Assembler.ofOpcodes_eq_ok_iff.2 ⟨hformed, rfl⟩] at h
      cases h

theorem past_start (h : start opcodes = .ok session) : Past opcodes [] session := by
  obtain ⟨assembler, hassembler, rfl⟩ := Outcome.map_eq_ok.1 h
  obtain ⟨hformed, rfl⟩ := Assembler.ofOpcodes_eq_ok_iff.1 hassembler
  refine ⟨rfl, [], [], rfl, .inl rfl, rfl, hformed, ?_⟩
  intro earlier later hnil
  simp at hnil

/-- A step that leaves the table as it is: a rebuild has been refused, or it is none. -/
theorem TakenUp.concat {before after : List Step} {table : Table} {step : Step}
    (h : TakenUp opcodes before after table)
    (hstep : step = .rebuild → ¬WellFormed (listAfter opcodes (before ++ after))) :
    TakenUp opcodes before (after ++ [step]) table where
  cut := h.cut
  listed := h.listed
  formed := h.formed
  refused := by
    intro earlier later heq
    -- the rebuild is one of those before, or it is the step
    rcases List.eq_nil_or_concat later with rfl | ⟨later, last, rfl⟩
    · obtain ⟨rfl, hlast⟩ := List.append_inj' heq rfl
      exact hstep (List.cons.inj hlast).1
    · rw [List.concat_eq_append, ← List.cons_append, ← List.append_assoc] at heq
      exact h.refused earlier later (List.append_inj' heq rfl).1

/-- **One step keeps account of the past.** -/
theorem Past.step (h : Past opcodes steps session) (step : Step) :
    Past opcodes (steps ++ [step]) (session.step step).2.2 := by
  have hlist : (session.step step).2.2.opcodes = listAfter opcodes (steps ++ [step]) := by
    rw [opcodes_step, h.list, listAfter, listAfter, List.foldl_concat]
  obtain ⟨before, after, rfl, htaken⟩ := h.table
  refine ⟨hlist, ?_⟩
  by_cases hstep : step = .rebuild
  · subst hstep
    rcases rebuild_cases session with ⟨hformed, htable⟩ | ⟨hformed, hsame⟩
    · have hend : listAfter opcodes (before ++ after ++ [.rebuild]) = session.opcodes := by
        rw [← hlist, opcodes_step]
        rfl
      refine ⟨before ++ after ++ [.rebuild], [], (List.append_nil _).symm, .inr (by simp),
        htable.trans hend.symm, htable ▸ hformed, ?_⟩
      intro earlier later hnil
      simp at hnil
    · rw [hsame]
      exact ⟨before, after ++ [.rebuild], List.append_assoc _ _ _,
        htaken.concat fun _ => h.list ▸ hformed⟩
  · rw [table_step hstep]
    exact ⟨before, after ++ [step], List.append_assoc _ _ _,
      htaken.concat fun heq => absurd heq hstep⟩

/-- **A run keeps account of the past.** -/
theorem Past.run (h : Past opcodes steps session) (more : List Step) :
    Past opcodes (steps ++ more) (session.run more).2 := by
  induction more generalizing steps session with
  | nil =>
      rw [List.append_nil]
      exact h
  | cons step more ih =>
      rw [List.append_cons]
      exact ih (h.step step)

/-- **The table after any run** is the list of opcodes as it was at the last rebuild at which it was
well formed, or at the start if there is none.  It is well formed in any case. -/
theorem takenUp_run (h : start opcodes = .ok session) (steps : List Step) :
    ∃ before after, steps = before ++ after ∧
      TakenUp opcodes before after (session.run steps).2.assembler.table :=
  ((past_start h).run steps).table

end

/-! ### What does not show -/

/-- A step changes the list of opcodes. -/
def Step.edits : Step → Bool
  | .setOperand _ _ _ => true
  | _ => false

/-- Sessions that differ in the list of opcodes at most. -/
structure Same (a b : Session) : Prop where
  assembler : a.assembler = b.assembler
  program : a.program = b.program
  tokens : a.tokens = b.tokens

section

variable {a b : Session}

theorem Same.step_of_edits {step : Step} (h : Same a b) (hedits : step.edits = true) :
    Same (a.step step).2.2 b := by
  cases step with
  | setOperand index operand kind => exact ⟨h.assembler, h.program, h.tokens⟩
  | _ => cases hedits

/-- **A step does not show the list of opcodes**, unless it changes it or takes it up. -/
theorem Same.step {step : Step} (h : Same a b) (hedits : step.edits = false)
    (hrebuild : step ≠ .rebuild) :
    (a.step step).1 = (b.step step).1 ∧ (a.step step).2.1 = (b.step step).2.1 ∧
      Same (a.step step).2.2 (b.step step).2.2 := by
  obtain ⟨assembler, opcodes, program, tokens⟩ := a
  obtain ⟨assembler', opcodes', program', tokens'⟩ := b
  obtain ⟨rfl, rfl, rfl⟩ := h
  cases step with
  | setOperand index operand kind => cases hedits
  | rebuild => exact absurd rfl hrebuild
  | _ => exact ⟨rfl, rfl, rfl, rfl, rfl⟩

/-- **A run without rebuilds does not show the list of opcodes**, nor what becomes of it: with the
changes of the list left out, the other steps have the same answers. -/
theorem Same.run (h : Same a b) {steps : List Step} (hrebuild : .rebuild ∉ steps) :
    ((steps.zip (a.run steps).1).filter fun asked => !asked.1.edits).map Prod.snd =
        (b.run (steps.filter fun step => !step.edits)).1 ∧
      Same (a.run steps).2 (b.run (steps.filter fun step => !step.edits)).2 := by
  induction steps generalizing a b with
  | nil => exact ⟨rfl, h⟩
  | cons step steps ih =>
      obtain ⟨hstep, hrest⟩ := not_or.1 (mt List.mem_cons.2 hrebuild)
      cases hedits : step.edits with
      | true =>
          have hrun := ih (h.step_of_edits hedits) hrest
          simpa [Session.run, hedits] using hrun
      | false =>
          obtain ⟨hanswer, hlog, hsame⟩ := h.step hedits (Ne.symm hstep)
          have hrun := ih hsame hrest
          simpa [Session.run, hedits, hanswer, hlog] using hrun

end

/-- **Changes of the list can be left out** of a run without rebuilds: the answers to the other
steps and the lines logged are the same, and so is the session after it but for the list. -/
theorem run_without_edits (session : Session) {steps : List Step} (h : .rebuild ∉ steps) :
    ((steps.zip (session.run steps).1).filter fun asked => !asked.1.edits).map Prod.snd =
        (session.run (steps.filter fun step => !step.edits)).1 ∧
      Same (session.run steps).2 (session.run (steps.filter fun step => !step.edits)).2 :=
  Same.run ⟨rfl, rfl, rfl⟩ h

end Session

end TableAssembler
