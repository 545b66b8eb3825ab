/-
**The calls of a script as entries.**

A script defines opcodes by calls, and each call stands for an entry.  What calls leave is what they
define one after the other, and the first call that is refused is the end of it.

Main definitions:

* `OpcodeFile.opcodeOf` — the opcode that a call defines;
* `OpcodeFile.Readers.Makes`, `OpcodeFile.Recorded` — the calls that a script makes with some
  readers, and those that a host which accepts everything sees;
* `OpcodeFile.Readers.Sound`, `OpcodeFile.Readers.Traces` — **readers whose scripts define opcodes
  by calls only**, and relations that tell the calls;
* `Entry.call` — the call that an entry is written down as.

Main results:

* `OpcodeFile.replay_scriptHost` — **calls in a row define an opcode each**;
* `OpcodeFile.replay_eq_ok_iff` — calls that are accepted stand for entries, and leave the opcodes
  that the entries describe;
* `OpcodeFile.Readers.Sound.traces`, `OpcodeFile.Readers.own_traces` — the calls that sound readers
  make, and those that the readers of this library make;
* `OpcodeFile.opcodeOf_call` — the call of an entry defines the opcode of the entry.
-/

import TableAssembler.OpcodeFile.Load
import TableAssembler.Proofs.OpcodeFile.Entry
import TableAssembler.Proofs.Script.Host

set_option relaxedAutoImplicit false
set_option autoImplicit false

namespace TableAssembler

namespace OpcodeFile

open Script (Call)
open Text (utf8)

/-! ### Calls -/

/-- The opcode that a call defines. -/
def opcodeOf (call : Call) : Except ScriptError Opcode := do
  let entry ← entryOfCall call.positional call.named
  entry.toOpcode.mapError .definition

/-- A call stands for an entry. -/
def StandsFor (call : Call) (entry : Entry) : Prop :=
  entryOfCall call.positional call.named = .ok entry

theorem opcodeOf_eq_ok_iff {call : Call} {opcode : Opcode} :
    opcodeOf call = .ok opcode ↔ ∃ entry, StandsFor call entry ∧ entry.Describes opcode := by
  simp only [opcodeOf, Outcome.bind_eq_ok, Outcome.mapError_eq_ok, Entry.toOpcode_eq_ok_iff,
    StandsFor]

/-- **Calls in a row define an opcode each**, up to the first that is refused. -/
theorem replay_scriptHost (opcodes : List Opcode) (calls : List Call) :
    scriptHost.replay opcodes calls = (calls.mapM opcodeOf).map (opcodes ++ ·) := by
  induction calls generalizing opcodes with
  | nil =>
      change Except.ok opcodes = Except.ok (opcodes ++ [])
      rw [List.append_nil]
  | cons call calls ih =>
      have hcall : scriptHost.call opcodes call.function call.positional call.named =
          (opcodeOf call).map fun opcode => opcodes ++ [opcode] := by
        change define opcodes call.positional call.named = _
        unfold define opcodeOf
        cases entryOfCall call.positional call.named with
        | error error => rfl
        | ok entry => cases hentry : entry.toOpcode <;> rfl
      rw [Script.Host.replay, List.foldlM_cons, hcall, List.mapM_cons]
      cases opcodeOf call with
      | error error => rfl
      | ok opcode =>
          change scriptHost.replay (opcodes ++ [opcode]) calls = _
          rw [ih]
          cases calls.mapM opcodeOf with
          | error error => rfl
          | ok rest => exact congrArg Except.ok (List.append_cons opcodes opcode rest).symm

/-! ### Scripts -/

/-- **The opcodes of a script that makes some calls and ends**, or ends at the first of them that is
refused. -/
theorem ofOutcome_replay (calls : List Call) :
    ofOutcome (.ofReached (scriptHost.replay [] calls)) =
      ofOutcome (.ofReached (calls.mapM opcodeOf)) := by
  rw [replay_scriptHost]
  cases calls.mapM opcodeOf <;> rfl

theorem ofOutcome_eq_ok_iff {outcome : Script.Outcome (List Opcode) ScriptError}
    {opcodes : List Opcode} :
    ofOutcome outcome = .ok opcodes ↔ outcome = .finished opcodes ∧ opcodes ≠ [] := by
  cases outcome with
  | malformed => simp [ofOutcome]
  | stopped stop => cases stop <;> simp [ofOutcome]
  | finished state =>
      cases state with
      | nil => simp [ofOutcome]
      | cons opcode rest =>
          simp only [ofOutcome, Except.ok.injEq, Script.Outcome.finished.injEq]
          constructor
          · rintro rfl
            exact ⟨rfl, List.cons_ne_nil _ _⟩
          · exact And.left

/-- Calls define opcodes exactly when they stand for entries that describe the opcodes. -/
theorem mapM_opcodeOf_eq_ok_iff {calls : List Call} {opcodes : List Opcode} :
    calls.mapM opcodeOf = .ok opcodes ↔
      ∃ entries, List.Forall₂ StandsFor calls entries ∧
        List.Forall₂ Entry.Describes entries opcodes := by
  rw [Outcome.mapM_eq_ok]
  constructor
  · intro h
    induction h with
    | nil => exact ⟨[], .nil, .nil⟩
    | cons hcall _ ih =>
        obtain ⟨entry, hstands, hdescribes⟩ := opcodeOf_eq_ok_iff.1 hcall
        obtain ⟨entries, hcalls, hopcodes⟩ := ih
        exact ⟨entry :: entries, .cons hstands hcalls, .cons hdescribes hopcodes⟩
  · rintro ⟨entries, hcalls, hopcodes⟩
    induction hcalls generalizing opcodes with
    | nil =>
        cases hopcodes
        exact .nil
    | cons hstands _ ih =>
        cases hopcodes with
        | cons hdescribes hrest =>
            exact .cons (opcodeOf_eq_ok_iff.2 ⟨_, hstands, hdescribes⟩) (ih hrest)

/-- Calls that are accepted stand for entries, which describe the opcodes that are there after
them. -/
theorem replay_eq_ok_iff {calls : List Call} {opcodes : List Opcode} :
    scriptHost.replay [] calls = .ok opcodes ↔
      ∃ entries, List.Forall₂ StandsFor calls entries ∧
        List.Forall₂ Entry.Describes entries opcodes := by
  rw [replay_scriptHost, ← mapM_opcodeOf_eq_ok_iff, Outcome.map_eq_ok]
  simp

/-! ### Readers -/

/-- **A script makes some calls in order**, and ends after them or at the first that is refused. -/
def Readers.Makes (readers : Readers) (script : Text) (calls : List Call) : Prop :=
  readers.run scriptHost [] script = .ofReached (scriptHost.replay [] calls)

/-- The calls of a script that a host which accepts everything sees, if the script comes to its
end. -/
def Recorded (script : Text) (calls : List Call) : Prop :=
  Script.run scriptHost.recorder [] script = .finished calls

/-- **Readers whose scripts define opcodes by calls only**: a script that comes to its end leaves
what some calls lead to, each of which was accepted. -/
def Readers.Sound (readers : Readers) : Prop :=
  ∀ script opcodes, readers.run scriptHost [] script = .finished opcodes →
    ∃ calls, scriptHost.replay [] calls = .ok opcodes

/-- **A relation tells the calls that scripts make**: they do make them in order, and it tells the
calls of every script that comes to its end. -/
structure Readers.Traces (readers : Readers) (calling : Text → List Call → Prop) : Prop where
  makes : ∀ {script calls}, calling script calls → readers.Makes script calls
  exists_calls : ∀ {script opcodes}, readers.run scriptHost [] script = .finished opcodes →
    ∃ calls, calling script calls

theorem Readers.Makes.finished_iff {readers : Readers} {script : Text} {calls : List Call}
    (h : readers.Makes script calls) {opcodes : List Opcode} :
    readers.run scriptHost [] script = .finished opcodes ↔
      scriptHost.replay [] calls = .ok opcodes := by
  rw [h]
  cases scriptHost.replay [] calls <;> simp [Script.Outcome.ofReached]

theorem Readers.Sound.traces {readers : Readers} (h : readers.Sound) :
    readers.Traces readers.Makes where
  makes := id
  exists_calls := by
    intro script opcodes hfinished
    obtain ⟨calls, hreplay⟩ := h script opcodes hfinished
    refine ⟨calls, ?_⟩
    rw [Readers.Makes, hfinished, hreplay]
    rfl

/-- **The scripts that this library reads** make the calls that a host which accepts everything
sees. -/
theorem Readers.own_traces : Readers.own.Traces Recorded where
  makes := Script.run_eq_replay
  exists_calls := by
    intro script opcodes hfinished
    obtain ⟨calls, hrecorded, -⟩ := Script.exists_replay_of_run hfinished
    exact ⟨calls, hrecorded⟩

theorem Readers.Traces.sound {readers : Readers} {calling : Text → List Call → Prop}
    (h : readers.Traces calling) : readers.Sound := by
  intro script opcodes hfinished
  obtain ⟨calls, hcalls⟩ := h.exists_calls hfinished
  exact ⟨calls, (h.makes hcalls).finished_iff.1 hfinished⟩

end OpcodeFile

/-! ### Writing entries down -/

/-- The call that an entry is written down as. -/
def Entry.call (entry : Entry) : Script.Call where
  function := Text.utf8 "opcode"
  positional := .text entry.mnemonic :: .int entry.binary :: entry.operands.map .text
  named := []

namespace OpcodeFile

theorem operandNames_map_text (names : List Text) :
    operandNames (names.map .text) = .ok names := by
  induction names with
  | nil => rfl
  | cons name names ih => rw [List.map_cons, operandNames, ih, Outcome.map_ok]

/-- A number of 32 bits comes through a call. -/
theorem standsFor_call {entry : Entry}
    (h : -0x80000000 ≤ entry.binary ∧ entry.binary < 0x80000000) : StandsFor entry.call entry := by
  have hbinary : binaryOf (.int entry.binary) = .ok entry.binary := by rw [binaryOf, if_pos h]
  simp only [StandsFor, Entry.call, entryOfCall, hbinary, operandNames_map_text]
  rfl

/-- **The call of an entry defines the opcode of the entry.** -/
theorem opcodeOf_call {entry : Entry}
    (h : -0x80000000 ≤ entry.binary ∧ entry.binary < 0x80000000) :
    opcodeOf entry.call = entry.toOpcode.mapError .definition := by
  rw [opcodeOf, standsFor_call h]
  rfl

end OpcodeFile

end TableAssembler
