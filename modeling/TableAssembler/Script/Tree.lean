/-
**The trees of scripts.**

Main definitions:

* `Script.Operator`, `Script.UnaryOperator` — the operators;
* `Script.Expression` — expressions;
* `Script.Argument`, `Script.Clause`, `Script.Parameter` — the parts of calls, comprehensions
  and functions;
* `Script.Statement` — statements.
-/

import TableAssembler.Text.Basic

set_option relaxedAutoImplicit false
set_option autoImplicit false

namespace TableAssembler

namespace Script

/-- The operators between two operands that are always evaluated. -/
inductive Operator where
  | add | subtract | multiply | divide | floorDivide | modulo
  | and | or | xor | shiftLeft | shiftRight
  | equal | unequal | less | greater | atMost | atLeast | isIn | notIn
  deriving DecidableEq, Repr

/-- The operators in front of an operand. -/
inductive UnaryOperator where
  | plus | minus | invert | not
  deriving DecidableEq, Repr

/-- Where the value of a name is found. -/
inductive Place where
  /-- Not decided yet. -/
  | unresolved
  /-- Among the variables of a function that is being called, `depth` functions outwards.  The
  comprehensions of a function keep their variables there too, each its own: `block` is the
  comprehension that binds the name, or zero. -/
  | scoped (depth block : Nat)
  /-- Among the names that the script defines. -/
  | global
  /-- Among the names that are there before the script runs. -/
  | predefined
  deriving DecidableEq, Repr

/-- A formal parameter of a function, with `α` for the default values. -/
inductive Parameter (α : Type) where
  | required (name : Text)
  | optional (name : Text) (default : α)
  /-- The star that collects positional arguments, or only ends them. -/
  | rest (name : Option Text)
  | namedRest (name : Text)

/-- An argument of a call. -/
inductive Argument (α : Type) where
  | positional (value : α)
  | named (name : Text) (value : α)
  | spread (values : α)
  | namedSpread (values : α)

/-- A clause of a comprehension. -/
inductive Clause (α : Type) where
  | each (target source : α)
  | filter (condition : α)

/-- An expression. -/
inductive Expression where
  | name (place : Place) (name : Text)
  | int (value : Int)
  | float (value : Float)
  | string (value : Text)
  | bytes (value : Text)
  | tuple (items : List Expression)
  | list (items : List Expression)
  | dict (entries : List (Expression × Expression))
  | unary (operator : UnaryOperator) (operand : Expression)
  | binary (operator : Operator) (left right : Expression)
  | both (left right : Expression)
  | either (left right : Expression)
  | choice (condition yes no : Expression)
  | attribute (object : Expression) (name : Text)
  | index (object key : Expression)
  | slice (object : Expression) (start stop step : Option Expression)
  | call (function : Expression) (arguments : List (Argument Expression))
  /-- A comprehension; `block` tells it from all others of the script, and is not zero. -/
  | listOf (block : Nat) (item : Expression) (clauses : List (Clause Expression))
  | dictOf (block : Nat) (key value : Expression) (clauses : List (Clause Expression))
  /-- A function without a name; `code` tells it from all others of the script. -/
  | lambda (code : Nat) (parameters : List (Parameter Expression)) (body : Expression)

/-- A statement. -/
inductive Statement where
  | pass
  | stopLoop
  | nextTurn
  | result (value : Option Expression)
  | expression (value : Expression)
  | assign (target value : Expression)
  | update (operator : Operator) (target value : Expression)
  | branch (condition : Expression) (yes no : List Statement)
  | loop (target source : Expression) (body : List Statement)
  | define (place : Place) (code : Nat) (name : Text) (parameters : List (Parameter Expression))
      (body : List Statement)
  /-- Takes names from another script, of which there is none. -/
  | load (sources targets : List Text)

end Script

end TableAssembler
