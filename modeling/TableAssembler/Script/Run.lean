/-
**Running a script.**

A script runs on behalf of a host, which lends it some names: texts, and functions by which the
script changes the host's state.  A script cannot run forever: loops go through finitely many
values, and a function cannot be called while it is running.  So the depth of an evaluation is
bounded by the size of the script, and that bound is the fuel of the functions below.

Main definitions:

* `Script.Given`, `Script.Host` — what a host sees of a value, and what it lends to a script;
* `Script.bindArguments?` — the values of a function's parameters in a call;
* `Script.evaluate`, `Script.execute`, `Script.callValue` — expressions, statements and calls;
* `Script.run` — **a script's run**: the host's state after it, or why it stopped.
-/

import TableAssembler.Script.Builtin
import TableAssembler.Script.Parser
import TableAssembler.Script.Scope

set_option relaxedAutoImplicit false
set_option autoImplicit false

namespace TableAssembler

namespace Script

open Text (utf8)

/-! ### Hosts -/

/-- What a host sees of a value. -/
inductive Given where
  | text (value : Text)
  | int (value : Int)
  /-- Any other value: the name of its type, and the value in print. -/
  | other (type shown : Text)
  deriving DecidableEq, Repr

/-- A value in print, as a host sees it. -/
def Given.shown : Given → Text
  | text value => Text.quoted value
  | int value => Text.decimal value
  | other _ shown => shown

/-- The name of a value's type, as a host sees it. -/
def Given.type : Given → Text
  | text _ => utf8 "string"
  | int _ => utf8 "int"
  | other type _ => type

/-- What a host lends to a script, `σ` being its state and `ε` its reasons to refuse a call. -/
structure Host (σ ε : Type) where
  texts : List (Text × Text)
  functions : List Text
  call : σ → (function : Text) → List Given → List (Text × Given) → Except ε σ

variable {σ ε : Type}

/-- The names that are there before a script runs. -/
def Host.predefined (host : Host σ ε) : List Text :=
  host.texts.map Prod.fst ++ host.functions ++ (universalConstants.map Prod.fst).map utf8 ++
    universalFunctions.map utf8

/-- The value of a name that is there before a script runs. -/
def Host.value? (host : Host σ ε) (name : Text) : Option Value :=
  match host.texts.lookup name with
  | some t => some (.string t)
  | none =>
      if host.functions.contains name then some (.builtin name)
      else
        match universalConstants.find? fun constant => utf8 constant.1 = name with
        | some constant => some constant.2
        | none => some (.builtin name)

/-- What the host sees of a value. -/
def given (value : Value) : Step Given := do
  match value with
  | .string t => return .text t
  | .int n => return .int n
  | _ => return .other value.typeName (← render value)

/-- What the host sees of the arguments of a call. -/
def givenArguments (arguments : Arguments) : Step (List Given × List (Text × Given)) := do
  let positional ← arguments.positional.mapM given
  let named ← arguments.named.mapM fun (name, value) => do return (name, ← given value)
  return (positional, named)

/-- Has the host change its state, unless it refuses to. -/
def Host.change (host : Host σ ε) (name : Text) (positional : List Given)
    (named : List (Text × Given)) : Run σ ε Unit := fun ⟨state, memory⟩ =>
  match host.call state name positional named with
  | .ok state => .ok ((), ⟨state, memory⟩)
  | .error error => .error (.refused error)

/-- A call of a function of the host. -/
def Host.callFunction (host : Host σ ε) (name : Text) (arguments : Arguments) :
    Run σ ε Value := do
  let (positional, named) ← givenArguments arguments
  host.change name positional named
  return .none

/-! ### Variables -/

/-- The variables at an address. -/
def variablesAt (address : Nat) : Step (List (Variable × Value)) := do
  match ← object address with
  | .variables values => return values
  | _ => fail

/-- Values with a variable set. -/
def setVariable (target : Variable) (value : Value) :
    List (Variable × Value) → List (Variable × Value)
  | [] => [(target, value)]
  | entry :: rest =>
      if entry.1 = target then (target, value) :: rest
      else entry :: setVariable target value rest

/-- The value of a name, which must have been set. -/
def readName (host : Host σ ε) (scopes : List Nat) (place : Place) (name : Text) :
    Step Value := do
  match place with
  | .scoped depth block => do
      let address ← orFail scopes[depth]?
      orFail ((← variablesAt address).lookup (block, name))
  | .global => orFail ((← get).globals.lookup name)
  | .predefined => orFail (host.value? name)
  | .unresolved => fail

/-- Sets the value of a name. -/
def writeName (scopes : List Nat) (place : Place) (name : Text) (value : Value) :
    Step Unit := do
  match place with
  | .scoped depth block => do
      let address ← orFail scopes[depth]?
      store address (.variables (setVariable (block, name) value (← variablesAt address)))
  | .global =>
      modify fun memory =>
        { memory with globals := (name, value) :: memory.globals.filter (·.1 ≠ name) }
  | _ => fail

/-- The address of new variables, none of which has been set. -/
def newScope : Step Nat := allocate (.variables [])

/-- The functions that are being called. -/
def runningCalls : Step (List Nat) := do return (← get).calls

/-- Notes the functions that are being called. -/
def setRunningCalls (calls : List Nat) : Step Unit :=
  modify fun memory => { memory with calls := calls }

/-! ### Parameters -/

/-- A parameter that takes a single argument; `isNamed` says that the argument must be named. -/
structure Slot where
  name : Text
  default : Option Value
  isNamed : Bool

/-- The parameters that take a single argument. -/
def slotsOf (isNamed : Bool) : List (Parameter Value) → List Slot
  | [] => []
  | .required name :: rest => ⟨name, none, isNamed⟩ :: slotsOf isNamed rest
  | .optional name default :: rest => ⟨name, some default, isNamed⟩ :: slotsOf isNamed rest
  | .rest _ :: rest => slotsOf true rest
  | .namedRest _ :: rest => slotsOf isNamed rest

/-- The parameter for further positional arguments. -/
def restName? (parameters : List (Parameter Value)) : Option Text :=
  parameters.findSome? fun parameter =>
    match parameter with
    | .rest name => name
    | _ => none

/-- The parameter for further named arguments. -/
def namedRestName? (parameters : List (Parameter Value)) : Option Text :=
  parameters.findSome? fun parameter =>
    match parameter with
    | .namedRest name => some name
    | _ => none

/-- **The values of parameters in a call**: those of single arguments, the further positional
arguments, and the further named ones. -/
def bindArguments? (parameters : List (Parameter Value)) (arguments : Arguments) :
    Option (List (Text × Value) × List Value × List (Text × Value)) := do
  let slots := slotsOf false parameters
  let free := slots.filter fun slot => !slot.isNamed
  let placed := (free.map Slot.name).zip arguments.positional
  let further := arguments.positional.drop free.length
  guard (further.isEmpty || (restName? parameters).isSome)
  let isSlot (argument : Text × Value) : Bool := slots.any fun slot => slot.name = argument.1
  let named := arguments.named.filter isSlot
  let furtherNamed := arguments.named.filter fun argument => !isSlot argument
  guard (furtherNamed.isEmpty || (namedRestName? parameters).isSome)
  let given := placed ++ named
  guard (areDistinct (given.map Prod.fst) && areDistinct (furtherNamed.map Prod.fst))
  let values ← slots.mapM fun slot =>
    ((given.lookup slot.name).orElse fun _ => slot.default).map fun value => (slot.name, value)
  some (values, further, furtherNamed)

/-- The named arguments that a value is spread out into; without a value there are none. -/
def spreadNamed : Option Value → Step (List (Text × Value))
  | none => return []
  | some (.dict address) => do
      (← dictEntries address).mapM fun (key, value) => do return (← textOf key, value)
  | some _ => fail

/-- Starts a call of a function that is not running: the addresses of the variables around its body,
its parameters being set. -/
def enter (closure : Closure) (arguments : Arguments) : Step (List Nat) := do
  let calls ← runningCalls
  require !(calls.contains closure.code)
  let (values, further, furtherNamed) ← orFail (bindArguments? closure.parameters arguments)
  let scopes := (← newScope) :: closure.scopes
  for (name, value) in values do
    writeName scopes (.scoped 0 0) name value
  for name in restName? closure.parameters do
    writeName scopes (.scoped 0 0) name (.tuple further)
  for name in namedRestName? closure.parameters do
    let named ← newDict (furtherNamed.map fun (name, value) => (.string name, value))
    writeName scopes (.scoped 0 0) name named
  setRunningCalls (closure.code :: calls)
  return scopes

/-! ### Statements in sequence -/

/-- What follows a statement. -/
inductive Flow where
  | next
  | stopLoop
  | nextTurn
  | result (value : Value)

/-- Executes statements until one leaves the block. -/
def inSequence (execute : Statement → Run σ ε Flow) : List Statement → Run σ ε Flow
  | [] => return .next
  | statement :: statements => do
      match ← execute statement with
      | .next => inSequence execute statements
      | flow => return flow

/-- Executes the body of a loop for the elements of a series, of which there are `count`. -/
def inTurn (body : Value → Run σ ε Flow) : (count : Nat) → Series → Run σ ε Flow
  | 0, _ => return .next
  | count + 1, series => do
      match series.next? with
      | none => return .next
      | some (value, rest) =>
          match ← body value with
          | .stopLoop => return .next
          | .result value => return .result value
          | _ => inTurn body count rest

/-- Goes through the elements of a value, which may not be changed meanwhile. -/
def goThrough (value : Value) (body : Value → Run σ ε Flow) : Run σ ε Flow := do
  let items ← series value
  whileReading value (inTurn body items.length items)

/-- The items of a value that is taken apart, of which there must be a given number. -/
def itemsFor (count : Nat) (value : Value) : Step (List Value) := do
  let items := (← series value).take (count + 1)
  require (items.length = count)
  return items

/-! ### Evaluation -/

mutual

/-- **The value of an expression**, `scopes` being the addresses of the variables around it. -/
def evaluate (host : Host σ ε) : (fuel : Nat) → (scopes : List Nat) → Expression → Run σ ε Value
  | 0, _, _ => fail
  | fuel + 1, scopes, expression => do
      match expression with
      | .name place name => readName host scopes place name
      | .int value => return .int value
      | .float value => return .float value
      | .string value => return .string value
      | .bytes value => return .bytes value
      | .tuple items => return .tuple (← items.mapM (evaluate host fuel scopes))
      | .list items => do newList (← items.mapM (evaluate host fuel scopes))
      | .dict entries =>
          let address ← allocate (.dict [] 0)
          for (key, value) in entries do
            let key ← evaluate host fuel scopes key
            let value ← evaluate host fuel scopes value
            let size := (← dictEntries address).length
            setKey address key value
            -- A key may be written only once.
            require ((← dictEntries address).length ≠ size)
          return .dict address
      | .unary operator operand => do applyUnary operator (← evaluate host fuel scopes operand)
      | .binary operator left right =>
          let left ← evaluate host fuel scopes left
          let right ← evaluate host fuel scopes right
          applyBinary operator left right
      | .both left right =>
          let left ← evaluate host fuel scopes left
          if ← isTrue left then evaluate host fuel scopes right else return left
      | .either left right =>
          let left ← evaluate host fuel scopes left
          if ← isTrue left then return left else evaluate host fuel scopes right
      | .choice condition yes no =>
          if ← isTrue (← evaluate host fuel scopes condition) then evaluate host fuel scopes yes
          else evaluate host fuel scopes no
      | .attribute object name =>
          let object ← evaluate host fuel scopes object
          methodOf object name
      | .index object key =>
          let object ← evaluate host fuel scopes object
          indexed object (← evaluate host fuel scopes key)
      | .slice object start stop step =>
          let object ← evaluate host fuel scopes object
          let start ← evaluateBound host fuel scopes start
          let stop ← evaluateBound host fuel scopes stop
          let step ← evaluateBound host fuel scopes step
          sliced object start stop step
      | .call function arguments =>
          let function ← evaluate host fuel scopes function
          let arguments ← evaluateArguments host fuel scopes arguments
          callValue host fuel function arguments
      | .listOf _ item clauses =>
          let address ← allocate (.list #[] 0)
          comprehend host fuel scopes clauses do
            let item ← evaluate host fuel scopes item
            changeList address (·.push item)
          return .list address
      | .dictOf _ key value clauses =>
          let address ← allocate (.dict [] 0)
          comprehend host fuel scopes clauses do
            let key ← evaluate host fuel scopes key
            setKey address key (← evaluate host fuel scopes value)
          return .dict address
      | .lambda code parameters body =>
          let parameters ← evaluateDefaults host fuel scopes parameters
          return .function (← allocate
            (.function ⟨code, utf8 "lambda", parameters, .expression body, scopes⟩))

/-- The value of a bound of a slice; a missing one is none. -/
def evaluateBound (host : Host σ ε) : (fuel : Nat) → (scopes : List Nat) → Option Expression →
    Run σ ε Value
  | 0, _, _ => fail
  | _ + 1, _, none => return .none
  | fuel + 1, scopes, some bound => evaluate host fuel scopes bound

/-- The parameters of a function with the values of their defaults. -/
def evaluateDefaults (host : Host σ ε) : (fuel : Nat) → (scopes : List Nat) →
    List (Parameter Expression) → Run σ ε (List (Parameter Value))
  | 0, _, _ => fail
  | fuel + 1, scopes, parameters =>
      parameters.mapM fun parameter => do
        match parameter with
        | .required name => return .required name
        | .optional name default => return .optional name (← evaluate host fuel scopes default)
        | .rest name => return .rest name
        | .namedRest name => return .namedRest name

/-- The arguments of a call: first the positional and the named ones, then those to be spread
out. -/
def evaluateArguments (host : Host σ ε) : (fuel : Nat) → (scopes : List Nat) →
    List (Argument Expression) → Run σ ε Arguments
  | 0, _, _ => fail
  | fuel + 1, scopes, arguments => do
      let mut result : Arguments := {}
      let mut spread := Value.tuple []
      let mut namedSpread : Option Value := none
      for argument in arguments do
        match argument with
        | .positional value =>
            let value ← evaluate host fuel scopes value
            result := { result with positional := result.positional ++ [value] }
        | .named name value =>
            let value ← evaluate host fuel scopes value
            result := { result with named := result.named ++ [(name, value)] }
        | .spread values => spread ← evaluate host fuel scopes values
        | .namedSpread values => namedSpread := some (← evaluate host fuel scopes values)
      let named ← spreadNamed namedSpread
      let positional ← elements spread
      return { positional := result.positional ++ positional, named := result.named ++ named }

/-- Executes an action for each choice of values that the clauses of a comprehension give. -/
def comprehend (host : Host σ ε) : (fuel : Nat) → (scopes : List Nat) → List (Clause Expression) →
    (action : Run σ ε Unit) → Run σ ε Unit
  | 0, _, _, _ => fail
  | _ + 1, _, [], action => action
  | fuel + 1, scopes, .filter condition :: rest, action => do
      if ← isTrue (← evaluate host fuel scopes condition) then
        comprehend host fuel scopes rest action
  | fuel + 1, scopes, .each target source :: rest, action => do
      let source ← evaluate host fuel scopes source
      let _ ← goThrough source fun value => do
        assign host fuel scopes target value
        comprehend host fuel scopes rest action
        return .next

/-- Assigns a value to a target. -/
def assign (host : Host σ ε) : (fuel : Nat) → (scopes : List Nat) → Expression → Value →
    Run σ ε Unit
  | 0, _, _, _ => fail
  | fuel + 1, scopes, target, value => do
      match target with
      | .name place name => writeName scopes place name value
      | .index object key =>
          let object ← evaluate host fuel scopes object
          setIndexed object (← evaluate host fuel scopes key) value
      | .attribute object _ =>
          -- No value has attributes that can be set.
          let _ ← evaluate host fuel scopes object
          fail
      | .tuple targets | .list targets =>
          let items ← itemsFor targets.length value
          for (target, item) in targets.zip items do
            assign host fuel scopes target item
      | _ => fail

/-- A call of a value. -/
def callValue (host : Host σ ε) : (fuel : Nat) → Value → Arguments → Run σ ε Value
  | 0, _, _ => fail
  | fuel + 1, function, arguments => do
      match function with
      | .function address =>
          match ← object address with
          | .function closure => callClosure host fuel closure arguments
          | _ => fail
      | .method _ object name => callMethod object name arguments
      | .builtin name =>
          if host.functions.contains name then host.callFunction name arguments
          else callUniversal (callValue host fuel) (Text.toString name) arguments
      | _ => fail

/-- A call of a function that the script defines, and that is not running. -/
def callClosure (host : Host σ ε) : (fuel : Nat) → Closure → Arguments → Run σ ε Value
  | 0, _, _ => fail
  | fuel + 1, closure, arguments => do
      let calls ← runningCalls
      let scopes ← enter closure arguments
      let result ← match closure.body with
        | .expression value => evaluate host fuel scopes value
        | .statements statements => do
            match ← inSequence (execute host fuel scopes) statements with
            | .result value => pure value
            | _ => pure .none
      setRunningCalls calls
      return result

/-- **Executes a statement.** -/
def execute (host : Host σ ε) : (fuel : Nat) → (scopes : List Nat) → Statement → Run σ ε Flow
  | 0, _, _ => fail
  | fuel + 1, scopes, statement => do
      match statement with
      | .pass => return .next
      | .stopLoop => return .stopLoop
      | .nextTurn => return .nextTurn
      | .result none => return .result .none
      | .result (some value) => return .result (← evaluate host fuel scopes value)
      | .expression value =>
          let _ ← evaluate host fuel scopes value
          return .next
      | .assign target value =>
          let value ← evaluate host fuel scopes value
          assign host fuel scopes target value
          return .next
      | .update operator target value =>
          match target with
          | .name place name =>
              let old ← readName host scopes place name
              let new ← updateInPlace operator old (← evaluate host fuel scopes value)
              writeName scopes place name new
              return .next
          | .index object key =>
              let object ← evaluate host fuel scopes object
              let key ← evaluate host fuel scopes key
              let old ← indexed object key
              let new ← updateInPlace operator old (← evaluate host fuel scopes value)
              setIndexed object key new
              return .next
          | .attribute object name =>
              let old ← methodOf (← evaluate host fuel scopes object) name
              let _ ← updateInPlace operator old (← evaluate host fuel scopes value)
              fail
          | _ => fail
      | .branch condition yes no =>
          let chosen := if ← isTrue (← evaluate host fuel scopes condition) then yes else no
          inSequence (execute host fuel scopes) chosen
      | .loop target source body =>
          let source ← evaluate host fuel scopes source
          goThrough source fun value => do
            assign host fuel scopes target value
            inSequence (execute host fuel scopes) body
      | .define place code name parameters body =>
          let parameters ← evaluateDefaults host fuel scopes parameters
          let function ← allocate (.function ⟨code, name, parameters, .statements body, scopes⟩)
          writeName scopes place name (.function function)
          return .next
      | .load _ _ => fail

end

/-! ### Scripts -/

/-- How a script ends. -/
inductive Outcome (σ ε : Type) where
  /-- It is no script, or uses a name that nothing defines. -/
  | malformed
  | stopped (stop : Stop ε)
  | finished (state : σ)
  deriving DecidableEq, Repr

/-- **A script's run** on behalf of a host, from a state of the host. -/
def run (host : Host σ ε) (state : σ) (text : Text) : Outcome σ ε :=
  match (parse? text).bind (resolve? host.predefined) with
  | none => .malformed
  | some script =>
      -- The comprehensions outside of functions keep their variables at the first address.
      let machine : Machine σ := { host := state, memory := { objects := #[.variables []] } }
      match (inSequence (execute host (8 * text.length + 8) [0]) script).run machine with
      | .error stop => .stopped stop
      | .ok (_, machine) => .finished machine.host

end Script

end TableAssembler
