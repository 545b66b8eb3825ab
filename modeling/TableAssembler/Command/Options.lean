/-
**The options of the command line.**

Words of the command line that start with a dash are options, the others are arguments, in any
order; after the word `--` everything is an argument.  An option has a long name and may have a
letter, and letters can be written together behind one dash.  A switch is on when it is named, or
has a truth value behind an equals sign; every other option takes a value, from behind the equals
sign or from what follows.

Main definitions:

* `Flag`, `Options` — the options there are, and what they were set to;
* `UsageError`, `UsageError.message` — what is wrong with a command line;
* `Flag.set` — gives an option a value;
* `CommandLine.parse` — **the options and arguments of a command line**.
-/

import TableAssembler.Text.Quoted

set_option relaxedAutoImplicit false
set_option autoImplicit false

namespace TableAssembler

open Text (utf8)

/-- The options of the command. -/
inductive Flag where
  | config
  | output
  | hex
  | list
  | ast
  | json
  | verbose
  | help
  deriving DecidableEq, Repr

/-- What the options are set to; of the paths of opcode tables there can be several. -/
structure Options where
  configs : List Text := []
  output : Text := []
  hex : Bool := false
  list : Bool := false
  ast : Bool := false
  json : Bool := false
  verbose : Bool := false
  help : Bool := false
  deriving DecidableEq, Repr

namespace Flag

/-- All options. -/
def all : List Flag := [config, output, hex, list, ast, json, verbose, help]

/-- The long name of an option. -/
def name : Flag → Text
  | config => utf8 "config"
  | output => utf8 "output"
  | hex => utf8 "hex"
  | list => utf8 "list"
  | ast => utf8 "ast"
  | json => utf8 "json"
  | verbose => utf8 "verbose"
  | help => utf8 "help"

/-- The letter of an option. -/
def letter? : Flag → Option UInt8
  | config => some (Text.byte 'c')
  | output => some (Text.byte 'o')
  | verbose => some (Text.byte 'v')
  | help => some (Text.byte 'h')
  | _ => none

/-- Whether an option is a switch, which needs no value. -/
def isSwitch : Flag → Bool
  | config | output => false
  | _ => true

/-- The option with a long name. -/
def ofName? (name : Text) : Option Flag := all.find? fun flag => flag.name = name

/-- The option with a letter. -/
def ofLetter? (letter : UInt8) : Option Flag := all.find? fun flag => flag.letter? = some letter

/-- An option with all its names, as messages show it. -/
def describe (flag : Flag) : Text :=
  match flag.letter? with
  | some letter => utf8 "-" ++ [letter] ++ utf8 ", --" ++ flag.name
  | none => utf8 "--" ++ flag.name

end Flag

/-! ### Errors -/

/-- What can be wrong with a command line. -/
inductive UsageError where
  /-- A word with dashes in front of no name. -/
  | malformed (word : Text)
  | unknownName (name : Text)
  /-- A letter that no option has, at the head of the given letters. -/
  | unknownLetter (letter : UInt8) (letters : Text)
  /-- An option without its value at the end of the line. -/
  | missingValue (word : Text)
  | missingLetterValue (letter : UInt8) (letters : Text)
  /-- A switch with a value that is no truth value. -/
  | notTruth (flag : Flag) (value : Text)
  /-- More or fewer arguments than the one that is needed. -/
  | argumentCount (count : Nat)
  deriving DecidableEq, Repr

/-- The text of a usage error. -/
def UsageError.message : UsageError → Text
  | malformed word => utf8 "bad flag syntax: " ++ word
  | unknownName name => utf8 "unknown flag: --" ++ name
  | unknownLetter letter letters =>
      utf8 "unknown shorthand flag: " ++ Text.quotedChar letter.toNat ++ utf8 " in -" ++ letters
  | missingValue word => utf8 "flag needs an argument: " ++ word
  | missingLetterValue letter letters =>
      utf8 "flag needs an argument: " ++ Text.quotedChar letter.toNat ++ utf8 " in -" ++ letters
  | notTruth flag value =>
      utf8 "invalid argument " ++ Text.quoted value ++ utf8 " for " ++ Text.quoted flag.describe ++
        utf8 " flag: strconv.ParseBool: parsing " ++ Text.quoted value ++ utf8 ": invalid syntax"
  | argumentCount count => utf8 "accepts 1 arg(s), received " ++ Text.decimal count

/-! ### Values -/

/-- The truth value that a text stands for. -/
def truthValue? (text : Text) : Option Bool :=
  if ["1", "t", "T", "TRUE", "true", "True"].any fun word => utf8 word = text then some true
  else if ["0", "f", "F", "FALSE", "false", "False"].any fun word => utf8 word = text then
    some false
  else none

/-- The options with a switch set. -/
def Flag.setSwitch (flag : Flag) (value : Bool) (options : Options) : Options :=
  match flag with
  | hex => { options with hex := value }
  | list => { options with list := value }
  | ast => { options with ast := value }
  | json => { options with json := value }
  | verbose => { options with verbose := value }
  | help => { options with help := value }
  | config | output => options

/-- The options with an option set: a later value replaces an earlier one, but the paths of opcode
tables add up. -/
def Flag.set (flag : Flag) (value : Text) (options : Options) : Except UsageError Options :=
  match flag with
  | config => .ok { options with configs := options.configs ++ [value] }
  | output => .ok { options with output := value }
  | flag =>
      match truthValue? value with
      | some truth => .ok (flag.setSwitch truth options)
      | none => .error (.notTruth flag value)

/-! ### Words -/

/-- What a word leaves: the options after it, and an option that waits for its value, with the
error in case nothing follows. -/
structure Pending where
  options : Options
  waiting : Option (Flag × UsageError) := none
  deriving DecidableEq, Repr

namespace CommandLine

/-- Letters that are passed over silently, with all behind them. -/
def ignoredLetters : Text := utf8 "test."

/-- The options after the letters of a word. -/
def readLetters (options : Options) : Text → Except UsageError Pending
  | [] => .ok { options := options }
  | letter :: rest =>
      if Text.startsWith (letter :: rest) ignoredLetters then .ok { options := options }
      else
        match Flag.ofLetter? letter with
        | none => .error (.unknownLetter letter (letter :: rest))
        | some flag =>
            if rest.head? = some (Text.byte '=') ∧ 1 < rest.length then
              (flag.set rest.tail options).map fun options => { options := options }
            else if flag.isSwitch then readLetters (flag.setSwitch true options) rest
            else if rest ≠ [] then
              (flag.set rest options).map fun options => { options := options }
            else
              .ok { options := options,
                    waiting := some (flag, .missingLetterValue letter (letter :: rest)) }

/-- The part of a text before its first equals sign, and the part behind it. -/
def splitValue (text : Text) : Text × Option Text :=
  let name := text.takeWhile (· != Text.byte '=')
  match text.drop name.length with
  | [] => (name, none)
  | _ :: value => (name, some value)

/-- The options after a word with a long name, its two dashes left out. -/
def readName (options : Options) (text : Text) : Except UsageError Pending :=
  if text.head? = some (Text.byte '-') ∨ text.head? = some (Text.byte '=') then
    .error (.malformed (utf8 "--" ++ text))
  else
    match splitValue text with
    | (name, value?) =>
        match Flag.ofName? name, value? with
        | none, _ => .error (.unknownName name)
        | some flag, some value =>
            (flag.set value options).map fun options => { options := options }
        | some flag, none =>
            if flag.isSwitch then .ok { options := flag.setSwitch true options }
            else
              .ok { options := options,
                    waiting := some (flag, .missingValue (utf8 "--" ++ text)) }

/-- Whether a word is an argument: it has no dash in front, or is a dash. -/
def isArgument (word : Text) : Bool := word.head? ≠ some (Text.byte '-') || word.length = 1

/-- The options after a word that starts with a dash. -/
def readWord (options : Options) (word : Text) : Except UsageError Pending :=
  match word.tail with
  | [] => .ok { options := options }
  | c :: rest =>
      if c = Text.byte '-' then readName options rest else readLetters options (c :: rest)

/-- The options and arguments of the words that are left. -/
def parseFrom (options : Options) (arguments : List Text) :
    List Text → Except UsageError (Options × List Text)
  | [] => .ok (options, arguments)
  | word :: rest =>
      if isArgument word then parseFrom options (arguments ++ [word]) rest
      else if word = utf8 "--" then .ok (options, arguments ++ rest)
      else
        match readWord options word with
        | .error error => .error error
        | .ok ⟨options, none⟩ => parseFrom options arguments rest
        | .ok ⟨options, some (flag, error)⟩ =>
            match rest with
            | [] => .error error
            | value :: rest =>
                match flag.set value options with
                | .error error => .error error
                | .ok options => parseFrom options arguments rest

/-- **The options and arguments of a command line.** -/
def parse (words : List Text) : Except UsageError (Options × List Text) := parseFrom {} [] words

end CommandLine

end TableAssembler
