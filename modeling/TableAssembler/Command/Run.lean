/-
**The command.**

The command reads opcode tables and a source, assembles the source, and delivers the program in one
of four forms.  What it does is worked out from what it reads, up to one delivery: a text for
standard output, or a file to write.  Only then is anything delivered, so that a command that fails
leaves nothing behind but its messages.

Main definitions:

* `Command.outputName` — the file for the binary of a source, if none is named;
* `Command.Inputs`, `Command.Delivery`, `Command.Plan` — what the command reads, what it delivers,
  and what it is about to do;
* `Command.plan` — **what the command does**, given what it reads;
* `Command.Outcome`, `Command.run` — the effect on a store of files and the standard streams.
-/

import TableAssembler.Assembler
import TableAssembler.Command.Options
import TableAssembler.Command.Usage
import TableAssembler.File.Store
import TableAssembler.OpcodeFile.Load
import TableAssembler.Program.HexDump
import TableAssembler.Program.Outline
import TableAssembler.Report.Json
import TableAssembler.Sequence

set_option relaxedAutoImplicit false
set_option autoImplicit false

namespace TableAssembler

open Text (utf8)

namespace Command

/-- The name that stands for standard input as a source, and for standard output as a target. -/
def standardStream : Text := utf8 "-"

/-- The file for the binary of a source: the ending of its name gives way to `.bin`. -/
def outputName (name : Text) : Text :=
  if name = standardStream then standardStream
  else Text.dropTail name (Path.extension name) ++ utf8 ".bin"

/-! ### What is read and what is delivered -/

/-- What the command can read: an opcode file by its path, and a source by its name. -/
structure Inputs where
  table : Text → Except PathError Text
  source : Text → Except PathError Text

/-- The inputs that a store of files and a text on standard input give. -/
def Inputs.ofStore (store : Store) (state : store.State) (stdin : Text) : Inputs where
  table path := store.readIn state (Path.directory path) (Path.base path)
  source name := if name = standardStream then .ok stdin else store.read state name name

/-- What is delivered: a text for standard output or for a file, and the notes that are logged once
it is there. -/
structure Delivery where
  /-- The file to write; none for standard output. -/
  path : Option Text := none
  content : Text := []
  notes : List Text := []
  deriving DecidableEq, Repr

/-- What the command is about to do: the log so far, and a delivery or a failure. -/
structure Plan where
  log : List Text := []
  result : Except Failure Delivery

/-! ### Assembling -/

/-- The opcodes of one table. -/
def loadTable (inputs : Inputs) (path : Text) : Except Failure (List Opcode) :=
  OpcodeFile.load (Path.base path) (inputs.table path)

/-- What is noted about a table. -/
def tableNote (path : Text) (opcodes : List Opcode) : Text :=
  path ++ utf8 ": " ++ Text.decimal opcodes.length ++ utf8 " opcodes"

/-- The opcodes of each table, and the notes on the tables up to the first that fails. -/
def loadTables (inputs : Inputs) : List Text → List Text × Except Failure (List (List Opcode))
  | [] => ([], .ok [])
  | path :: paths =>
      match loadTable inputs path with
      | .error failure => ([], .error failure)
      | .ok opcodes =>
          match loadTables inputs paths with
          | (notes, result) => (tableNote path opcodes :: notes, result.map (opcodes :: ·))

/-- The opcode table of several tables, one after the other. -/
def tableOf (tables : Except Failure (List (List Opcode))) : Except Failure Table :=
  match tables with
  | .error failure => .error failure
  | .ok tables => (Table.ofOpcodes (Sequence.collect tables)).mapError .table

/-- The delivery of a binary. -/
def deliverBinary (options : Options) (name binary : Text) : Delivery :=
  let target := if options.output = [] then outputName name else options.output
  let note := target ++ utf8 ": " ++ Text.decimal binary.length ++ utf8 " bytes"
  { path := if target = standardStream then none else some target
    content := binary
    notes := if options.verbose then [note] else [] }

/-- The delivery of a program: an outline, a listing, a hex dump or a binary, the first of these
that the options ask for. -/
def deliver (options : Options) (name : Text) (program : Program) : Delivery :=
  if options.ast then { content := program.outline }
  else if options.list then { content := program.listing }
  else if options.hex then { content := HexDump.render program.binary }
  else deliverBinary options name program.binary

/-- The plan for a source under a table. -/
def assemble (options : Options) (name source : Text) (table : Table) : Plan :=
  let assembler : Assembler := { table := table, verbose := options.verbose }
  { log := assembler.log source
    result :=
      match assembler.program source with
      | .error error => .error (.inFile name source error)
      | .ok program => .ok (deliver options name program) }

/-- The plan for a source under the tables that the options name. -/
def planWith (inputs : Inputs) (options : Options) (name : Text) : Plan :=
  if options.configs = [] then { result := .error .noTable }
  else
    match loadTables inputs options.configs with
    | (notes, tables) =>
        let notes := if options.verbose then notes else []
        match tableOf tables with
        | .error failure => { log := notes, result := .error failure }
        | .ok table =>
            match inputs.source name with
            | .error error => { log := notes, result := .error (.path error) }
            | .ok source =>
                let rest := assemble options name source table
                { rest with log := notes ++ rest.log }

/-! ### The whole command -/

/-- The cause of a failure without the file it was found in. -/
def cause : Failure → Failure
  | .inFile _ _ error => .source error
  | failure => failure

/-- What a failure leaves on standard error: a report, if the options ask for one. -/
def errorOutput (options : Options) (failure : Failure) : Text :=
  if options.json then (Report.ofFailure (cause failure)).toJson.render ++ [Text.newline] else []

/-- What a command line asks for. -/
inductive Request where
  | usage
  | assemble (options : Options) (name : Text)
  deriving DecidableEq, Repr

/-- The request of a command line: help comes before a wrong number of arguments. -/
def request (words : List Text) : Except UsageError Request :=
  match CommandLine.parse words with
  | .error error => .error error
  | .ok (options, arguments) =>
      if options.help then .ok .usage
      else
        match arguments with
        | [name] => .ok (.assemble options name)
        | arguments => .error (.argumentCount arguments.length)

/-- **What the command does** with a command line, and the options it does it under. -/
def plan (inputs : Inputs) (words : List Text) : Options × Plan :=
  match request words with
  | .error error => ({}, { result := .error (.plain error.message) })
  | .ok .usage => ({}, { result := .ok { content := usage } })
  | .ok (.assemble options name) => (options, planWith inputs options name)

/-- What the command leaves behind, with the files in a given state. -/
structure Outcome (State : Type) where
  state : State
  stdout : Text := []
  stderr : Text := []
  log : List Text := []
  failure : Option Failure := none

/-- The outcome of a failure: nothing is delivered. -/
def Outcome.failed {State : Type} (state : State) (options : Options) (log : List Text)
    (failure : Failure) : Outcome State :=
  { state := state, stderr := errorOutput options failure, log := log, failure := some failure }

/-- Carries out a plan on a store of files. -/
def Plan.carryOut (plan : Plan) (store : Store) (state : store.State) (options : Options) :
    Outcome store.State :=
  match plan.result with
  | .error failure => .failed state options plan.log failure
  | .ok ⟨none, content, notes⟩ => { state := state, stdout := content, log := plan.log ++ notes }
  | .ok ⟨some path, content, notes⟩ =>
      match store.write state path content with
      | .error error => .failed state options plan.log (.path error)
      | .ok after => { state := after, log := plan.log ++ notes }

/-- **The effect of the command** on a store of files, given what it reads. -/
def run (inputs : Inputs) (store : Store) (state : store.State) (words : List Text) :
    Outcome store.State :=
  match plan inputs words with
  | (options, plan) => plan.carryOut store state options

end Command

end TableAssembler
