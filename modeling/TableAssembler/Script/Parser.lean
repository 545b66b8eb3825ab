/-
**From the tokens of a script to its tree.**

The grammar needs no more than a token of look-ahead.  Operators bind in ten levels, the loosest
first: `or`, `and`, `not`, comparisons, `|`, `^`, `&`, shifts, sums, products.  Comparisons do not
chain.

Every reading function takes a bound on its depth, which is a multiple of the number of tokens.

Main definitions:

* `Script.Reader` — a reading function;
* `Script.test`, `Script.expression` — a single expression, and a tuple without parentheses;
* `Script.statement`, `Script.suite` — a statement, and a block;
* `Script.parse?` — **the statements of a script**.
-/

import TableAssembler.Script.Lexer
import TableAssembler.Script.Tree

set_option relaxedAutoImplicit false
set_option autoImplicit false

namespace TableAssembler

namespace Script

/-- A function that reads tokens, and fails on those that it does not expect. -/
abbrev Reader := StateT (List Token) Option

/-! ### Single tokens -/

/-- Whether a token is a given mark. -/
def Token.isMark (symbol : String) : Token → Bool
  | .mark other => other = symbol
  | _ => false

/-- Whether a token is a given keyword. -/
def Token.isKeyword (word : String) : Token → Bool
  | .keyword other => other = word
  | _ => false

/-- Whether a token ends a line. -/
def Token.isNewline : Token → Bool
  | .newline => true
  | _ => false

/-- Whether the next token, if there is one, has a property. -/
def nextIs (property : Token → Bool) : Reader Bool := do return (← get).head?.any property

/-- Whether there is no further token. -/
def atEndOfTokens : Reader Bool := do return (← get).isEmpty

/-- Passes over the next token. -/
def skip : Reader Unit := modify (·.drop 1)

/-- Passes over the next token if it has a property. -/
def accept (property : Token → Bool) : Reader Bool := do
  let found ← nextIs property
  if found then skip
  return found

/-- Passes over the next token, which must have a property. -/
def expect (property : Token → Bool) : Reader Unit := do
  unless ← accept property do failure

/-- A name. -/
def identifier : Reader Text := do
  match (← get).head? with
  | some (.name name) => skip; return name
  | _ => failure

/-- A string literal. -/
def stringToken : Reader Text := do
  match (← get).head? with
  | some (.string value) => skip; return value
  | _ => failure

/-! ### Operators -/

/-- What joins two operands. -/
inductive Connective where
  | both
  | either
  | operator (operator : Operator)

/-- The expression of two operands that are joined. -/
def Connective.join : Connective → Expression → Expression → Expression
  | both, x, y => .both x y
  | either, x, y => .either x y
  | operator op, x, y => .binary op x y

/-- The level of comparisons. -/
def comparisonLevel : Nat := 3

/-- The level above which there are no operators between operands. -/
def highestLevel : Nat := 10

/-- The operator that a mark stands for, with its level. -/
def operatorOf? (symbol : String) : Option (Nat × Operator) :=
  match symbol with
  | "==" => some (3, .equal)
  | "!=" => some (3, .unequal)
  | "<" => some (3, .less)
  | ">" => some (3, .greater)
  | "<=" => some (3, .atMost)
  | ">=" => some (3, .atLeast)
  | "|" => some (4, .or)
  | "^" => some (5, .xor)
  | "&" => some (6, .and)
  | "<<" => some (7, .shiftLeft)
  | ">>" => some (7, .shiftRight)
  | "-" => some (8, .subtract)
  | "+" => some (8, .add)
  | "*" => some (9, .multiply)
  | "%" => some (9, .modulo)
  | "/" => some (9, .divide)
  | "//" => some (9, .floorDivide)
  | _ => none

/-- The operator of an assignment that updates its target. -/
def updateOf? (symbol : String) : Option Operator :=
  match symbol with
  | "+=" => some .add
  | "-=" => some .subtract
  | "*=" => some .multiply
  | "/=" => some .divide
  | "//=" => some .floorDivide
  | "%=" => some .modulo
  | "&=" => some .and
  | "|=" => some .or
  | "^=" => some .xor
  | "<<=" => some .shiftLeft
  | ">>=" => some .shiftRight
  | _ => none

/-- What joins the next operand, with its level and the tokens after it. -/
def connective? : List Token → Option (Nat × Connective × List Token)
  | .keyword "or" :: rest => some (0, .either, rest)
  | .keyword "and" :: rest => some (1, .both, rest)
  | .keyword "in" :: rest => some (comparisonLevel, .operator .isIn, rest)
  | .keyword "not" :: .keyword "in" :: rest => some (comparisonLevel, .operator .notIn, rest)
  | .mark symbol :: rest =>
      (operatorOf? symbol).map fun (level, operator) => (level, .operator operator, rest)
  | _ => none

/-- The operator in front of an operand. -/
def signOf? (symbol : String) : Option UnaryOperator :=
  match symbol with
  | "+" => some .plus
  | "-" => some .minus
  | "~" => some .invert
  | _ => none

/-- Whether a token ends a list of expressions. -/
def Token.endsList : Token → Bool
  | .newline => true
  | .mark symbol => ["=", "\x7d", "]", ")", ";"].contains symbol
  | _ => false

/-- Whether the next token ends a list of expressions. -/
def atListEnd : Reader Bool := do return (← atEndOfTokens) || (← nextIs Token.endsList)

/-! ### Expressions -/

mutual

/-- A single expression. -/
def test : Nat → Reader Expression
  | 0 => failure
  | fuel + 1 => do
      if ← nextIs (·.isKeyword "lambda") then lambda fuel true
      else
        let x ← operation fuel 0
        if ← accept (·.isKeyword "if") then
          let condition ← operation fuel 0
          expect (·.isKeyword "else")
          let y ← test fuel
          return .choice condition x y
        else return x

/-- A function without a name; `choices` says whether its body may be a conditional expression. -/
def lambda : Nat → (choices : Bool) → Reader Expression
  | 0, _ => failure
  | fuel + 1, choices => do
      let code := (← get).length
      expect (·.isKeyword "lambda")
      let parameters ← parameters fuel true
      expect (·.isMark ":")
      let body ← if choices then test fuel else unconditional fuel
      return .lambda code parameters body

/-- A single expression that is no conditional expression. -/
def unconditional : Nat → Reader Expression
  | 0 => failure
  | fuel + 1 => do
      if ← nextIs (·.isKeyword "lambda") then lambda fuel false else operation fuel 0

/-- Operands that are joined by operators of a level at least. -/
def operation : Nat → (level : Nat) → Reader Expression
  | 0, _ => failure
  | fuel + 1, level => do
      if highestLevel ≤ level then operand fuel
      else if level = 2 then
        if ← accept (·.isKeyword "not") then
          return .unary .not (← operation fuel level)
        else operations fuel level true (← operation fuel (level + 1))
      else operations fuel level true (← operation fuel (level + 1))

/-- The operands that follow a first one; `isFirst` says that none has followed yet. -/
def operations : Nat → (level : Nat) → (isFirst : Bool) → Expression → Reader Expression
  | 0, _, _, _ => failure
  | fuel + 1, level, isFirst, x => do
      match connective? (← get) with
      | none => return x
      | some (found, connective, rest) =>
          if found < level then return x
          else if isFirst = false ∧ found = comparisonLevel then failure
          else
            set rest
            let y ← operation fuel (found + 1)
            operations fuel level false (connective.join x y)

/-- An operand: a primary expression with what is applied to it. -/
def operand : Nat → Reader Expression
  | 0 => failure
  | fuel + 1 => do applications fuel (← primary fuel)

/-- The attributes, indices and calls that are applied to an expression. -/
def applications : Nat → Expression → Reader Expression
  | 0, _ => failure
  | fuel + 1, x => do
      if ← accept (·.isMark ".") then
        let name ← identifier
        applications fuel (.attribute x name)
      else if ← accept (·.isMark "[") then
        let y ← subscript fuel x
        applications fuel y
      else if ← accept (·.isMark "(") then
        let arguments ← arguments fuel true
        expect (·.isMark ")")
        applications fuel (.call x arguments)
      else return x

/-- An index or a slice, after its opening bracket. -/
def subscript : Nat → Expression → Reader Expression
  | 0, _ => failure
  | fuel + 1, x => do
      let start ← if ← nextIs (·.isMark ":") then pure none else some <$> expression fuel false
      match start, ← nextIs (·.isMark "]") with
      | some key, true => skip; return .index x key
      | _, _ =>
          let stop ←
            if ← accept (·.isMark ":") then
              if ← nextIs fun token => token.isMark ":" || token.isMark "]" then pure none
              else some <$> test fuel
            else pure none
          let step ←
            if ← accept (·.isMark ":") then
              if ← nextIs (·.isMark "]") then pure none else some <$> test fuel
            else pure none
          expect (·.isMark "]")
          return .slice x start stop step

/-- The arguments of a call, up to its closing parenthesis. -/
def arguments : Nat → (isFirst : Bool) → Reader (List (Argument Expression))
  | 0, _ => failure
  | fuel + 1, isFirst => do
      if ← nextIs (·.isMark ")") then return []
      unless isFirst do expect (·.isMark ",")
      if ← nextIs (·.isMark ")") then return []
      let argument ← argument fuel
      return argument :: (← arguments fuel false)

/-- An argument of a call. -/
def argument : Nat → Reader (Argument Expression)
  | 0 => failure
  | fuel + 1 => do
      if ← accept (·.isMark "*") then return .spread (← test fuel)
      else if ← accept (·.isMark "**") then return .namedSpread (← test fuel)
      else
        match ← get with
        | .name name :: .mark "=" :: rest =>
            set rest
            return .named name (← test fuel)
        | _ => return .positional (← test fuel)

/-- A primary expression. -/
def primary : Nat → Reader Expression
  | 0 => failure
  | fuel + 1 => do
      match (← get).head? with
      | some (.name name) => skip; return .name .unresolved name
      | some (.int value) => skip; return .int value
      | some (.float value) => skip; return .float value
      | some (.string value) => skip; return .string value
      | some (.bytes value) => skip; return .bytes value
      | some (.mark symbol) =>
          skip
          if symbol = "[" then listRest fuel
          else if symbol = "\x7b" then dictRest fuel
          else if symbol = "(" then
            if ← accept (·.isMark ")") then return .tuple []
            else
              let x ← expression fuel true
              expect (·.isMark ")")
              return x
          else
            match signOf? symbol with
            | some operator => return .unary operator (← operand fuel)
            | none => failure
      | _ => failure

/-- A list after its opening bracket. -/
def listRest : Nat → Reader Expression
  | 0 => failure
  | fuel + 1 => do
      if ← accept (·.isMark "]") then return .list []
      let x ← test fuel
      if ← nextIs (·.isKeyword "for") then
        let block := (← get).length
        let clauses ← clauses fuel "]"
        return .listOf block x clauses
      else
        let items ← items fuel true
        expect (·.isMark "]")
        return .list (x :: items)

/-- A dictionary after its opening brace. -/
def dictRest : Nat → Reader Expression
  | 0 => failure
  | fuel + 1 => do
      if ← accept (·.isMark "\x7d") then return .dict []
      let entry ← entry fuel
      if ← nextIs (·.isKeyword "for") then
        let block := (← get).length
        let clauses ← clauses fuel "\x7d"
        return .dictOf block entry.1 entry.2 clauses
      else
        let entries ← entries fuel
        expect (·.isMark "\x7d")
        return .dict (entry :: entries)

/-- A key and its value. -/
def entry : Nat → Reader (Expression × Expression)
  | 0 => failure
  | fuel + 1 => do
      let key ← test fuel
      expect (·.isMark ":")
      let value ← test fuel
      return (key, value)

/-- The further entries of a dictionary. -/
def entries : Nat → Reader (List (Expression × Expression))
  | 0 => failure
  | fuel + 1 => do
      if ← accept (·.isMark ",") then
        if ← nextIs (·.isMark "\x7d") then return []
        else
          let entry ← entry fuel
          return entry :: (← entries fuel)
      else return []

/-- The clauses of a comprehension, with the mark that closes it. -/
def clauses : Nat → (closing : String) → Reader (List (Clause Expression))
  | 0, _ => failure
  | fuel + 1, closing => do
      if ← accept (·.isMark closing) then return []
      else if ← accept (·.isKeyword "for") then
        let target ← loopTarget fuel
        expect (·.isKeyword "in")
        let source ← operation fuel 0
        return .each target source :: (← clauses fuel closing)
      else
        expect (·.isKeyword "if")
        let condition ← unconditional fuel
        return .filter condition :: (← clauses fuel closing)

/-- What a loop assigns to: one operand or several. -/
def loopTarget : Nat → Reader Expression
  | 0 => failure
  | fuel + 1 => do
      let x ← operand fuel
      if ← nextIs (·.isMark ",") then return .tuple (x :: (← loopTargets fuel)) else return x

/-- The further operands that a loop assigns to. -/
def loopTargets : Nat → Reader (List Expression)
  | 0 => failure
  | fuel + 1 => do
      if ← accept (·.isMark ",") then
        if ← atListEnd then return []
        else
          let x ← operand fuel
          return x :: (← loopTargets fuel)
      else return []

/-- An expression, or several with commas between them; `isClosed` says whether a comma may stand
at the end. -/
def expression : Nat → (isClosed : Bool) → Reader Expression
  | 0, _ => failure
  | fuel + 1, isClosed => do
      let x ← test fuel
      if ← nextIs (·.isMark ",") then return .tuple (x :: (← items fuel isClosed)) else return x

/-- The further items of a list. -/
def items : Nat → (isClosed : Bool) → Reader (List Expression)
  | 0, _ => failure
  | fuel + 1, isClosed => do
      if ← accept (·.isMark ",") then
        if ← atListEnd then
          if isClosed then return [] else failure
        else
          let x ← test fuel
          return x :: (← items fuel isClosed)
      else return []

/-- The parameters of a function. -/
def parameters : Nat → (isFirst : Bool) → Reader (List (Parameter Expression))
  | 0, _ => failure
  | fuel + 1, isFirst => do
      if ← nextIs fun token => token.isMark ")" || token.isMark ":" then return []
      unless isFirst do expect (·.isMark ",")
      if ← nextIs (·.isMark ")") then return []
      let parameter ← parameter fuel
      return parameter :: (← parameters fuel false)

/-- A parameter of a function. -/
def parameter : Nat → Reader (Parameter Expression)
  | 0 => failure
  | fuel + 1 => do
      if ← accept (·.isMark "*") then
        match (← get).head? with
        | some (.name name) => skip; return .rest (some name)
        | _ => return .rest none
      else if ← accept (·.isMark "**") then return .namedRest (← identifier)
      else
        let name ← identifier
        if ← accept (·.isMark "=") then return .optional name (← test fuel)
        else return .required name

end

/-! ### Statements -/

/-- A name that is taken from another script, and the name it gets. -/
def loadedName : Reader (Text × Text) := do
  match ← get with
  | .name target :: .mark "=" :: rest =>
      set rest
      return (← stringToken, target)
  | _ =>
      let name ← stringToken
      return (name, name)

/-- The names that are taken from another script, up to the closing parenthesis. -/
def loadedNames : Nat → Reader (List (Text × Text))
  | 0 => failure
  | fuel + 1 => do
      if ← accept (·.isMark ")") then return []
      expect (·.isMark ",")
      if ← accept (·.isMark ")") then return []
      let name ← loadedName
      return name :: (← loadedNames fuel)

/-- A statement that is no block. -/
def smallStatement (fuel : Nat) : Reader Statement := do
  if ← accept (·.isKeyword "return") then
    if (← atEndOfTokens) || (← nextIs fun token => token.isNewline || token.isMark ";") then
      return .result none
    else return .result (some (← expression fuel false))
  else if ← accept (·.isKeyword "break") then return .stopLoop
  else if ← accept (·.isKeyword "continue") then return .nextTurn
  else if ← accept (·.isKeyword "pass") then return .pass
  else if ← accept (·.isKeyword "load") then
    expect (·.isMark "(")
    let _ ← stringToken
    let names ← loadedNames fuel
    if names.isEmpty then failure
    return .load (names.map Prod.fst) (names.map Prod.snd)
  else
    let x ← expression fuel false
    match (← get).head? with
    | some (.mark symbol) =>
        if symbol = "=" then
          skip
          return .assign x (← expression fuel false)
        else
          match updateOf? symbol with
          | some operator =>
              skip
              return .update operator x (← expression fuel false)
          | none => return .expression x
    | _ => return .expression x

/-- The statements of a line. -/
def lineOfStatements : Nat → Reader (List Statement)
  | 0 => failure
  | fuel + 1 => do
      let statement ← smallStatement fuel
      if ← accept (·.isMark ";") then
        if ← atEndOfTokens then return [statement]
        else if ← accept Token.isNewline then return [statement]
        else return statement :: (← lineOfStatements fuel)
      else if ← atEndOfTokens then return [statement]
      else
        expect Token.isNewline
        return [statement]

/-- Whether a token opens a block. -/
def Token.isIndent : Token → Bool
  | .indent => true
  | _ => false

/-- Whether a token closes a block. -/
def Token.isOutdent : Token → Bool
  | .outdent => true
  | _ => false

mutual

/-- A statement, or the statements of a line. -/
def statement : Nat → Reader (List Statement)
  | 0 => failure
  | fuel + 1 => do
      if ← nextIs (·.isKeyword "def") then
        let code := (← get).length
        skip
        let name ← identifier
        expect (·.isMark "(")
        let parameters ← parameters fuel true
        expect (·.isMark ")")
        expect (·.isMark ":")
        return [.define .unresolved code name parameters (← suite fuel)]
      else if ← accept (·.isKeyword "if") then return [← branch fuel]
      else if ← accept (·.isKeyword "for") then
        let target ← loopTarget fuel
        expect (·.isKeyword "in")
        let source ← expression fuel false
        expect (·.isMark ":")
        return [.loop target source (← suite fuel)]
      else lineOfStatements fuel

/-- A conditional statement after its first word. -/
def branch : Nat → Reader Statement
  | 0 => failure
  | fuel + 1 => do
      let condition ← test fuel
      expect (·.isMark ":")
      let yes ← suite fuel
      if ← accept (·.isKeyword "elif") then return .branch condition yes [← branch fuel]
      else if ← accept (·.isKeyword "else") then
        expect (·.isMark ":")
        return .branch condition yes (← suite fuel)
      else return .branch condition yes []

/-- A block: the rest of a line, or the indented lines after it. -/
def suite : Nat → Reader (List Statement)
  | 0 => failure
  | fuel + 1 => do
      if ← accept Token.isNewline then
        expect Token.isIndent
        block fuel
      else lineOfStatements fuel

/-- The statements of indented lines. -/
def block : Nat → Reader (List Statement)
  | 0 => failure
  | fuel + 1 => do
      if ← accept Token.isOutdent then return []
      else
        let statements ← statement fuel
        return statements ++ (← block fuel)

end

/-- The statements of all lines. -/
def statements : Nat → Reader (List Statement)
  | 0 => failure
  | fuel + 1 => do
      if ← atEndOfTokens then return []
      else if ← accept Token.isNewline then statements fuel
      else
        let first ← statement fuel
        return first ++ (← statements fuel)

/-- **The statements of a script.** -/
def parse? (t : Text) : Option (List Statement) := do
  let tokens ← tokens? t
  let (result, _) ← (statements (20 * tokens.length + 20)).run tokens
  some result

end Script

end TableAssembler
