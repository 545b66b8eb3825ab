/-
**Where the names of a script are found.**

Before a script runs, every name in it is looked up.  A name belongs to the innermost function or
comprehension that binds it, wherever in it the binding stands; otherwise to the script, if the
script binds it; otherwise to the names that are there before.  Outside of functions and
comprehensions the script's own bindings count from where they stand, within them all of them count.
A name that is found nowhere makes the script malformed, as do misplaced statements, parameters and
arguments.

Main definitions:

* `Script.targetNames`, `Script.boundNames` — the names that a target or a statement binds;
* `Script.areParameters`, `Script.areArguments` — the rules for their order;
* `Script.Block`, `Script.Scope` — what is known at a place of the script;
* `Script.resolve?` — **the script with every name in its place**.
-/

import TableAssembler.Script.Tree

set_option relaxedAutoImplicit false
set_option autoImplicit false

namespace TableAssembler

namespace Script

/-! ### Bindings -/

mutual

/-- The names that an assignment to a target binds. -/
def targetNames : Expression → List Text
  | .name _ name => [name]
  | .tuple items => targetNamesOf items
  | .list items => targetNamesOf items
  | _ => []

/-- The names that an assignment to several targets binds. -/
def targetNamesOf : List Expression → List Text
  | [] => []
  | item :: items => targetNames item ++ targetNamesOf items

end

mutual

/-- The names that a statement binds. -/
def boundNames : Statement → List Text
  | .assign target _ => targetNames target
  | .update _ target _ => targetNames target
  | .branch _ yes no => boundNamesOf yes ++ boundNamesOf no
  | .loop target _ body => targetNames target ++ boundNamesOf body
  | .define _ _ name _ _ => [name]
  | .load _ targets => targets
  | _ => []

/-- The names that several statements bind. -/
def boundNamesOf : List Statement → List Text
  | [] => []
  | statement :: statements => boundNames statement ++ boundNamesOf statements

end

/-- The names that a clause binds. -/
def clauseNames : Clause Expression → List Text
  | .each target _ => targetNames target
  | .filter _ => []

/-- The name of a parameter. -/
def Parameter.name? {α : Type} : Parameter α → Option Text
  | required name => some name
  | optional name _ => some name
  | rest name => name
  | namedRest name => some name

/-! ### Parameters and arguments -/

/-- Whether parameters are in order: those without a default come before those with one, until a
star; at most one star; the parameter for other named arguments comes last. -/
def areOrdered {α : Type} (seenOptional seenStar : Bool) : List (Parameter α) → Bool
  | [] => true
  | .required _ :: rest => (seenStar || !seenOptional) && areOrdered seenOptional seenStar rest
  | .optional _ _ :: rest => areOrdered true seenStar rest
  | .rest none :: rest =>
      !seenStar && rest.any (fun parameter => parameter matches .required _ | .optional _ _) &&
        areOrdered seenOptional true rest
  | .rest (some _) :: rest => !seenStar && areOrdered seenOptional true rest
  | .namedRest _ :: rest => rest.isEmpty

/-- Whether a list of names has none twice. -/
def areDistinct (names : List Text) : Bool := names.eraseDups.length = names.length

/-- **Whether the parameters of a function are well-formed.** -/
def areParameters {α : Type} (parameters : List (Parameter α)) : Bool :=
  areOrdered false false parameters && areDistinct (parameters.filterMap Parameter.name?)

/-- The place of an argument among the others: positional ones come first, then named ones, then
those that are spread out. -/
def Argument.rank {α : Type} : Argument α → Nat
  | positional _ => 0
  | named _ _ => 1
  | spread _ => 2
  | namedSpread _ => 3

/-- Whether the ranks of arguments are in order, those of spread arguments occurring once. -/
def areRanked : List Nat → Bool
  | first :: second :: rest =>
      (first < second || (first = second && first < 2)) && areRanked (second :: rest)
  | _ => true

/-- The most arguments of a kind that a call may have. -/
def argumentLimit : Nat := 255

/-- **Whether the arguments of a call are well-formed.** -/
def areArguments {α : Type} (arguments : List (Argument α)) : Bool :=
  let ranks := arguments.map Argument.rank
  let names := arguments.filterMap fun argument =>
    match argument with
    | .named name _ => some name
    | _ => none
  areRanked ranks && areDistinct names && ranks.count 0 ≤ argumentLimit &&
    ranks.count 1 ≤ argumentLimit

/-! ### Scopes -/

/-- A function or a comprehension, with the names that it binds. -/
structure Block where
  /-- What tells a comprehension from the others; zero for a function. -/
  code : Nat
  names : List Text

/-- Whether a block is a function. -/
def Block.isFunction (block : Block) : Bool := block.code = 0

/-- What is known at a place of a script. -/
structure Scope where
  /-- The functions and comprehensions around the place, innermost first. -/
  inner : List Block := []
  /-- The names that the script binds. -/
  script : List Text
  /-- The names that are there before. -/
  predefined : List Text
  inFunction : Bool := false
  inLoop : Bool := false
  inBranch : Bool := false

/-- Reading a script from its start, with the names that it has bound so far. -/
abbrev Resolver := StateT (List Text) Option

namespace Scope

/-- Goes on only if a condition holds. -/
def require (condition : Bool) : Resolver Unit := if condition then pure () else failure

/-- The place of a name in the innermost of some blocks that binds it, `depth` functions outwards
from where it is used. -/
def scopedPlace? (name : Text) : (depth : Nat) → List Block → Option Place
  | _, [] => none
  | depth, block :: outer =>
      if block.names.contains name then some (.scoped depth block.code)
      else scopedPlace? name (if block.isFunction then depth + 1 else depth) outer

/-- The place of a name. -/
def placeOf (scope : Scope) (name : Text) : Resolver Place := do
  let bound ← if scope.inner.isEmpty then get else pure scope.script
  match scopedPlace? name 0 scope.inner with
  | some place => return place
  | none =>
      if bound.contains name then return .global
      else if scope.predefined.contains name then return .predefined
      else failure

/-- Binds a name at a place. -/
def bind (scope : Scope) (name : Text) : Resolver Place := do
  match scope.inner with
  | [] =>
      modify (name :: ·)
      return .global
  | block :: _ => return .scoped 0 block.code

/-- The scope within a function or a comprehension. -/
def enter (scope : Scope) (block : Block) : Scope := { scope with inner := block :: scope.inner }

mutual

/-- An expression with its names in their places. -/
def expression (scope : Scope) : Expression → Resolver Expression
  | .name _ name => do return .name (← scope.placeOf name) name
  | .int value => return .int value
  | .float value => return .float value
  | .string value => return .string value
  | .bytes value => return .bytes value
  | .tuple items => do return .tuple (← expressions scope items)
  | .list items => do return .list (← expressions scope items)
  | .dict entries => do return .dict (← entriesOf scope entries)
  | .unary operator operand => do return .unary operator (← expression scope operand)
  | .binary operator left right => do
      return .binary operator (← expression scope left) (← expression scope right)
  | .both left right => do return .both (← expression scope left) (← expression scope right)
  | .either left right => do return .either (← expression scope left) (← expression scope right)
  | .choice condition yes no => do
      return .choice (← expression scope condition) (← expression scope yes) (← expression scope no)
  | .attribute object name => do return .attribute (← expression scope object) name
  | .index object key => do return .index (← expression scope object) (← expression scope key)
  | .slice object start stop step => do
      return .slice (← expression scope object) (← optional scope start) (← optional scope stop)
        (← optional scope step)
  | .call function arguments => do
      require (areArguments arguments)
      return .call (← expression scope function) (← argumentsOf scope arguments)
  | .listOf block item clauses => do
      let inner := scope.enter ⟨block, clauses.flatMap clauseNames⟩
      let clauses ← clausesOf scope inner clauses
      return .listOf block (← expression inner item) clauses
  | .dictOf block key value clauses => do
      let inner := scope.enter ⟨block, clauses.flatMap clauseNames⟩
      let clauses ← clausesOf scope inner clauses
      return .dictOf block (← expression inner key) (← expression inner value) clauses
  | .lambda code parameters body => do
      require (areParameters parameters)
      let inner := scope.enter ⟨0, parameters.filterMap Parameter.name?⟩
      let parameters ← parametersOf scope parameters
      return .lambda code parameters (← expression inner body)

/-- Expressions with their names in their places. -/
def expressions (scope : Scope) : List Expression → Resolver (List Expression)
  | [] => return []
  | item :: items => do return (← expression scope item) :: (← expressions scope items)

/-- An expression that may be missing, with its names in their places. -/
def optional (scope : Scope) : Option Expression → Resolver (Option Expression)
  | none => return none
  | some value => do return some (← expression scope value)

/-- Entries of a dictionary with their names in their places. -/
def entriesOf (scope : Scope) :
    List (Expression × Expression) → Resolver (List (Expression × Expression))
  | [] => return []
  | (key, value) :: entries => do
      return (← expression scope key, ← expression scope value) :: (← entriesOf scope entries)

/-- Arguments with their names in their places. -/
def argumentsOf (scope : Scope) :
    List (Argument Expression) → Resolver (List (Argument Expression))
  | [] => return []
  | .positional value :: rest => do
      return .positional (← expression scope value) :: (← argumentsOf scope rest)
  | .named name value :: rest => do
      return .named name (← expression scope value) :: (← argumentsOf scope rest)
  | .spread values :: rest => do
      return .spread (← expression scope values) :: (← argumentsOf scope rest)
  | .namedSpread values :: rest => do
      return .namedSpread (← expression scope values) :: (← argumentsOf scope rest)

/-- Parameters with the names in their defaults in their places. -/
def parametersOf (scope : Scope) :
    List (Parameter Expression) → Resolver (List (Parameter Expression))
  | [] => return []
  | .optional name value :: rest => do
      return .optional name (← expression scope value) :: (← parametersOf scope rest)
  | .required name :: rest => do return .required name :: (← parametersOf scope rest)
  | .rest name :: rest => do return .rest name :: (← parametersOf scope rest)
  | .namedRest name :: rest => do return .namedRest name :: (← parametersOf scope rest)

/-- The clauses of a comprehension with their names in their places; the source of the first lies
outside of the comprehension. -/
def clausesOf (scope inner : Scope) :
    List (Clause Expression) → Resolver (List (Clause Expression))
  | [] => return []
  | .each target source :: rest => do
      let source ← expression scope source
      let target ← targetOf inner false target
      return .each target source :: (← clausesOf inner inner rest)
  | .filter condition :: rest => do
      return .filter (← expression inner condition) :: (← clausesOf inner inner rest)

/-- A target of an assignment with its names in their places; a target that is updated is no list
of targets. -/
def targetOf (scope : Scope) (isUpdate : Bool) : Expression → Resolver Expression
  | .name _ name => do return .name (← scope.bind name) name
  | .index object key => do return .index (← expression scope object) (← expression scope key)
  | .attribute object name => do return .attribute (← expression scope object) name
  | .tuple items => do
      require !isUpdate
      return .tuple (← targetsOf scope items)
  | .list items => do
      require !isUpdate
      return .list (← targetsOf scope items)
  | _ => failure

/-- Targets of an assignment with their names in their places. -/
def targetsOf (scope : Scope) : List Expression → Resolver (List Expression)
  | [] => return []
  | item :: items => do return (← targetOf scope false item) :: (← targetsOf scope items)

end

/-- Whether a name may be taken from another script. -/
def isExported : Text → Bool
  | [] => false
  | c :: _ => c ≠ Text.byte '_'

mutual

/-- A statement with its names in their places. -/
def statement (scope : Scope) : Statement → Resolver Statement
  | .pass => return .pass
  | .stopLoop => do
      require scope.inLoop
      return .stopLoop
  | .nextTurn => do
      require scope.inLoop
      return .nextTurn
  | .result value => do
      require scope.inFunction
      return .result (← optional scope value)
  | .expression value => do return .expression (← expression scope value)
  | .assign target value => do
      let value ← expression scope value
      return .assign (← targetOf scope false target) value
  | .update operator target value => do
      let value ← expression scope value
      return .update operator (← targetOf scope true target) value
  | .branch condition yes no => do
      let condition ← expression scope condition
      let inner := { scope with inBranch := true }
      let yes ← statementsOf inner yes
      return .branch condition yes (← statementsOf inner no)
  | .loop target source body => do
      let source ← expression scope source
      let target ← targetOf scope false target
      return .loop target source (← statementsOf { scope with inLoop := true } body)
  | .define _ code name parameters body => do
      let place ← scope.bind name
      require (areParameters parameters)
      let block : Block := ⟨0, parameters.filterMap Parameter.name? ++ boundNamesOf body⟩
      let inner := { scope.enter block with inFunction := true, inLoop := false, inBranch := false }
      let parameters ← parametersOf scope parameters
      return .define place code name parameters (← statementsOf inner body)
  | .load sources targets => do
      require (!scope.inFunction && !scope.inLoop && !scope.inBranch && sources.all isExported)
      for target in targets do
        let _ ← scope.bind target
      return .load sources targets

/-- Statements with their names in their places. -/
def statementsOf (scope : Scope) : List Statement → Resolver (List Statement)
  | [] => return []
  | first :: rest => do return (← statement scope first) :: (← statementsOf scope rest)

end

end Scope

/-- **The script with every name in its place**, if it is well-formed. -/
def resolve? (predefined : List Text) (script : List Statement) : Option (List Statement) :=
  let scope : Scope := { script := boundNamesOf script, predefined := predefined }
  (Scope.statementsOf scope script []).map Prod.fst

end Script

end TableAssembler
