/-
**Sessions: an assembler in use.**

A session has an assembler, the list of opcodes that it was made from, the program that was
assembled last, and the tokens of a source.  The list belongs to the user of the session: changing
it changes nothing in the assembler until that is rebuilt.

Main definitions:

* `Session`, `Session.start` — a session, and its beginning with a list of opcodes;
* `Session.Step`, `Session.Answer` — what can be asked of a session, and what it answers;
* `Session.step` — **one step**: the answer, the lines logged, and the session after it;
* `Session.run` — steps one after the other.
-/

import TableAssembler.Assembler

set_option relaxedAutoImplicit false
set_option autoImplicit false

namespace TableAssembler

/-- A session. -/
structure Session where
  assembler : Assembler := {}
  opcodes : List Opcode := []
  program : Program := {}
  tokens : List (Except SourceError Token) := tokenize []

namespace Session

/-- A step of a session. -/
inductive Step where
  /-- Assembles a source into a binary. -/
  | binary (source : Text)
  /-- Assembles a source into a program, which becomes the current one. -/
  | program (source : Text)
  /-- Asks what the byte at an offset of the current program belongs to. -/
  | debug (offset : Int)
  /-- Asks for the first `count` offsets of the current program's instructions. -/
  | offsets (count : Nat)
  | listing
  /-- Sets the source whose tokens are asked for. -/
  | source (source : Text)
  /-- Asks for the first `count` tokens of that source. -/
  | tokens (count : Nat)
  | lookup (mnemonic : Text)
  /-- Changes an operand kind in the list of opcodes. -/
  | setOperand (index operand : Nat) (kind : OperandKind)
  /-- Changes an operand kind in a copy of the assembler's table. -/
  | setCopiedOperand (index operand : Nat) (kind : OperandKind)
  /-- Makes a new assembler from the list of opcodes. -/
  | rebuild
  | verbose (value : Bool)

/-- The answer to a step. -/
inductive Answer where
  | binary (result : Except SourceError Text)
  | program (result : Except SourceError Program)
  | debug (found : Option (Instruction × Int))
  | offsets (values : List Nat)
  | listing (text : Text)
  | tokens (items : List (Except SourceError Token))
  | opcode (found : Option Opcode)
  | rebuilt (usesLabels : Except TableError Bool)
  | done

/-- The session that a list of opcodes starts. -/
def start (opcodes : List Opcode) : Except TableError Session :=
  (Assembler.ofOpcodes opcodes).map fun assembler =>
    { assembler := assembler, opcodes := opcodes }

/-- The list of opcodes with one operand kind changed. -/
def changeOperand (opcodes : List Opcode) (index operand : Nat) (kind : OperandKind) :
    List Opcode :=
  opcodes.modify index fun opcode => { opcode with operands := opcode.operands.set operand kind }

/-- The first `count` items, and the error that follows them if there is one. -/
def firstItems : Nat → List (Except SourceError Token) → List (Except SourceError Token)
  | _, [] => []
  | _, .error error :: _ => [.error error]
  | 0, .ok _ :: _ => []
  | count + 1, .ok token :: rest => .ok token :: firstItems count rest

/-- **One step.** -/
def step (session : Session) : Step → Answer × List Text × Session
  | .binary source =>
      (.binary (session.assembler.binary source), session.assembler.log source, session)
  | .program source =>
      let result := session.assembler.program source
      let current := result.toOption.getD session.program
      (.program result, session.assembler.log source, { session with program := current })
  | .debug offset => (.debug (session.program.debug? offset), [], session)
  | .offsets count =>
      (.offsets ((session.program.instructions.take (max 1 count)).map Instruction.offset), [],
        session)
  | .listing => (.listing session.program.listing, [], session)
  | .source source => (.done, [], { session with tokens := tokenize source })
  | .tokens count => (.tokens (firstItems count session.tokens), [], session)
  | .lookup mnemonic => (.opcode (session.assembler.table.lookup? mnemonic), [], session)
  | .setOperand index operand kind =>
      let changed := changeOperand session.opcodes index operand kind
      (.opcode changed[index]?, [], { session with opcodes := changed })
  | .setCopiedOperand index operand kind =>
      let changed := changeOperand session.assembler.table.opcodes index operand kind
      (.opcode changed[index]?, [], session)
  | .rebuild =>
      match Assembler.ofOpcodes session.opcodes with
      | .error error => (.rebuilt (.error error), [], session)
      | .ok assembler =>
          let assembler := { assembler with verbose := session.assembler.verbose }
          (.rebuilt (.ok assembler.table.usesLabels), [], { session with assembler := assembler })
  | .verbose value =>
      (.done, [], { session with assembler := { session.assembler with verbose := value } })

/-- **A run of steps**: the answers with the lines logged, and the session after it. -/
def run (session : Session) : List Step → List (Answer × List Text) × Session
  | [] => ([], session)
  | step :: steps =>
      let (answer, log, next) := session.step step
      let (answers, last) := next.run steps
      ((answer, log) :: answers, last)

end Session

end TableAssembler
