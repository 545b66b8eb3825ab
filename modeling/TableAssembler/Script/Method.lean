/-
**The methods of strings, lists and dictionaries.**

Main definitions:

* `Script.Arguments` — the arguments of a call, when they have been evaluated;
* `Script.methodNames` — the names of the methods of a type;
* `Script.callMethod` — **a call of a method**.
-/

import TableAssembler.Script.Operator
import TableAssembler.Text.Search

set_option relaxedAutoImplicit false
set_option autoImplicit false

namespace TableAssembler

namespace Script

open Text (utf8 byte)

/-! ### Arguments -/

/-- The arguments of a call. -/
structure Arguments where
  positional : List Value := []
  named : List (Text × Value) := []

namespace Arguments

/-- The positional arguments, of which there must be a number between two bounds, and no named
ones. -/
def only (arguments : Arguments) (least most : Nat) : Step (List Value) := do
  require (arguments.named.isEmpty && least ≤ arguments.positional.length &&
    arguments.positional.length ≤ most)
  return arguments.positional

/-- The arguments for parameters with given names, the first `required` of which must be there. -/
def byName (arguments : Arguments) (names : List String) (required : Nat) :
    Step (List (Option Value)) := do
  let texts := names.map utf8
  let count := arguments.positional.length
  let rest := texts.drop count
  let given := arguments.named.map Prod.fst
  require (count ≤ names.length && given.all rest.contains &&
    given.eraseDups.length = given.length)
  let values := arguments.positional.map some ++ rest.map fun name => arguments.named.lookup name
  require ((values.take required).all Option.isSome)
  return values

end Arguments

/-- A string. -/
def textOf (value : Value) : Step Text :=
  match value with
  | .string t => pure t
  | _ => fail

/-! ### Strings -/

/-- The bounds of a part of a text that two optional arguments give. -/
def partBounds (length : Nat) (bounds : List Value) : Step (Nat × Nat) := do
  let start ← boundOf length 0 (bounds[0]?.getD .none)
  let stop ← boundOf length length (bounds[1]?.getD .none)
  return ((clamp length start).toNat, (clamp length stop).toNat)

/-- The place of a part of a text, if it is there. -/
def findPart (t : Text) (fromEnd : Bool) (arguments : Arguments) : Step (Option Nat) := do
  match ← arguments.only 1 3 with
  | part :: bounds =>
      let part ← textOf part
      let (start, stop) ← partBounds t.length bounds
      let slice := (t.take stop).drop start
      let found := if fromEnd then Text.findLast? part slice else Text.find? part slice
      return found.map (· + start)
  | [] => fail

/-- Whether a text starts or ends with one of some texts. -/
def hasEdge (t : Text) (edge : Text → Text → Bool) (arguments : Arguments) : Step Value := do
  match ← arguments.only 1 3 with
  | edges :: bounds =>
      let (start, stop) ← partBounds t.length bounds
      let slice := (t.take stop).drop start
      let edges ← match edges with
        | .string _ => pure [edges]
        | .tuple items => pure items
        | _ => fail
      return .bool (← (Series.items edges).anyM fun item => do return edge (← textOf item) slice)
  | [] => fail

/-- A text without some characters at its ends: those of the argument, or blanks. -/
def stripped (t : Text) (left right : Bool) (arguments : Arguments) : Step Value := do
  match ← (← arguments.only 0 1).mapM textOf with
  | [] | [[]] => return .string (Text.strip left right Text.isBlank t)
  | cutset :: _ => return .string (Text.strip left right (Text.chars cutset).contains t)

/-- The pieces of a text between separators, or between blanks. -/
def split (t : Text) (fromEnd : Bool) (arguments : Arguments) : Step Value := do
  let values ← arguments.only 0 2
  let most ← match values[1]? with
    | some limit => wordInt limit
    | none => pure (-1)
  let pieces ← match values[0]?.getD .none with
    | .none =>
        pure (if most < 0 then Text.words t
          else if fromEnd then Text.splitLastWords most.toNat t
          else Text.splitWords most.toNat t)
    | .string separator => do
        require (!separator.isEmpty)
        pure (if most < 0 then Text.splitAll separator t
          else if fromEnd then Text.splitLast separator most.toNat t
          else Text.splitFirst separator most.toNat t)
    | _ => fail
  newList (pieces.map .string)

/-- A text before a separator, the separator, and the text after it. -/
def partitioned (t : Text) (fromEnd : Bool) (arguments : Arguments) : Step Value := do
  match ← arguments.only 1 1 with
  | [.string separator] =>
      require (!separator.isEmpty)
      let found := if fromEnd then Text.findLast? separator t else Text.find? separator t
      let pieces := match found with
        | some place => [t.take place, separator, t.drop (place + separator.length)]
        | none => if fromEnd then [[], [], t] else [t, [], []]
      return .tuple (pieces.map .string)
  | _ => fail

/-- The lines of a text, with their ends or without. -/
def splitLines (t : Text) (keepEnds : Bool) : List Text :=
  let pieces := Text.lines t
  let last := pieces.getLast?.getD []
  let ended := pieces.dropLast.map fun line => if keepEnds then line ++ [Text.newline] else line
  ended ++ (if last.isEmpty then [] else [last])

/-- Whether the capital letters of characters stand at the start of words only, and there are
letters. -/
def isTitle (afterLetter seen : Bool) : List Char → Bool
  | [] => seen
  | c :: rest =>
      if c.isUpper then !afterLetter && isTitle true true rest
      else if c.isLower then afterLetter && isTitle true true rest
      else isTitle false seen rest

/-- A test of the characters of a text, of which there must be one at least. -/
def allChars (t : Text) (test : Char → Bool) : Value :=
  .bool (!t.isEmpty && (Text.chars t).all test)

/-- The names of the methods of strings. -/
def stringMethods : List String :=
  ["capitalize", "codepoint_ords", "codepoints", "count", "elem_ords", "elems", "endswith", "find",
    "format", "index", "isalnum", "isalpha", "isdigit", "islower", "isspace", "istitle", "isupper",
    "join", "lower", "lstrip", "partition", "removeprefix", "removesuffix", "replace", "rfind",
    "rindex", "rpartition", "rsplit", "rstrip", "split", "splitlines", "startswith", "strip",
    "title", "upper"]

/-- A call of a method without arguments. -/
def plainStringMethod (t : Text) (name : String) : Step Value := do
  let cs := Text.chars t
  match name with
  | "capitalize" =>
      return .string (Text.ofChars ((cs.take 1).map Char.toUpper ++ (cs.drop 1).map Char.toLower))
  | "codepoint_ords" => return .parts .characterNumbers t
  | "codepoints" => return .parts .characters t
  | "elem_ords" => return .parts .elementNumbers t
  | "elems" => return .parts .elements t
  | "isalnum" => return allChars t fun c => Text.isLetter c || c.isDigit
  | "isalpha" => return allChars t Text.isLetter
  | "isdigit" => return allChars t Char.isDigit
  | "isspace" => return allChars t Text.isBlank
  | "islower" => return .bool (cs.any Text.isCased && !cs.any Char.isUpper)
  | "isupper" => return .bool (cs.any Text.isCased && !cs.any Char.isLower)
  | "istitle" => return .bool (isTitle false false cs)
  | "lower" => return .string (Text.lower t)
  | "upper" => return .string (Text.upper t)
  | "title" => return .string (Text.titled t)
  | _ => fail

/-- **A call of a method of a string.** -/
def callStringMethod (t : Text) (name : String) (arguments : Arguments) : Step Value := do
  match name with
  | "count" =>
      match ← arguments.only 1 3 with
      | part :: bounds =>
          let (start, stop) ← partBounds t.length bounds
          return .int (Text.count (← textOf part) ((t.take stop).drop start))
      | [] => fail
  | "startswith" => hasEdge t (fun edge slice => edge.isPrefixOf slice) arguments
  | "endswith" => hasEdge t (fun edge slice => edge.isSuffixOf slice) arguments
  | "find" => return .int (((← findPart t false arguments).map Int.ofNat).getD (-1))
  | "rfind" => return .int (((← findPart t true arguments).map Int.ofNat).getD (-1))
  | "index" => return .int (← orFail (← findPart t false arguments))
  | "rindex" => return .int (← orFail (← findPart t true arguments))
  | "format" => return .string (← formatted t arguments.positional arguments.named)
  | "join" =>
      match ← arguments.only 1 1 with
      | [items] => return .string (Text.join t (← (← series items).mapM textOf))
      | _ => fail
  | "strip" => stripped t true true arguments
  | "lstrip" => stripped t true false arguments
  | "rstrip" => stripped t false true arguments
  | "split" => split t false arguments
  | "rsplit" => split t true arguments
  | "partition" => partitioned t false arguments
  | "rpartition" => partitioned t true arguments
  | "removeprefix" =>
      match ← arguments.only 1 1 with
      | [.string start] => return .string (if start.isPrefixOf t then t.drop start.length else t)
      | _ => fail
  | "removesuffix" =>
      match ← arguments.only 1 1 with
      | [.string tail] => return .string (Text.dropTail t tail)
      | _ => fail
  | "replace" =>
      match ← arguments.only 2 3 with
      | [.string part, .string replacement] =>
          return .string (Text.replaceFirst part replacement (t.length + 1) t)
      | [.string part, .string replacement, count] =>
          let count ← wordInt count
          let count := if count < 0 then t.length + 1 else count.toNat
          return .string (Text.replaceFirst part replacement count t)
      | _ => fail
  | "splitlines" =>
      match ← arguments.only 0 1 with
      | [] => newList ((splitLines t false).map .string)
      | [.bool keepEnds] => newList ((splitLines t keepEnds).map .string)
      | _ => fail
  | _ =>
      let _ ← arguments.only 0 0
      plainStringMethod t name

/-! ### Lists -/

/-- The names of the methods of lists. -/
def listMethods : List String := ["append", "clear", "extend", "index", "insert", "pop", "remove"]

/-- The first place of a value in a list, counted from `place`. -/
def placeOfValue (value : Value) (place : Nat) : List Value → Step (Option Nat)
  | [] => return none
  | item :: items => do
      if ← equal item value then return some place else placeOfValue value (place + 1) items

/-- **A call of a method of a list.** -/
def callListMethod (address : Nat) (name : String) (arguments : Arguments) : Step Value := do
  match name with
  | "append" =>
      match ← arguments.only 1 1 with
      | [item] =>
          changeList address (·.push item)
          return .none
      | _ => fail
  | "clear" =>
      let _ ← arguments.only 0 0
      changeList address fun _ => #[]
      return .none
  | "extend" =>
      match ← arguments.only 1 1 with
      | [items] =>
          let items ← elements items
          changeList address (· ++ items.toArray)
          return .none
      | _ => fail
  | "index" =>
      match ← arguments.only 1 3 with
      | value :: bounds =>
          let items := (← listItems address).toList
          let (start, stop) ← partBounds items.length bounds
          return .int (← orFail (← placeOfValue value start ((items.take stop).drop start)))
      | [] => fail
  | "insert" =>
      match ← arguments.only 2 2 with
      | [place, item] =>
          let place ← wordInt place
          changeList address fun items =>
            let place := if place < 0 then place + items.size else place
            let place := min items.size place.toNat
            (items.toList.take place ++ item :: items.toList.drop place).toArray
          return .none
      | _ => fail
  | "pop" =>
      let place := ((← arguments.only 0 1)[0]?).getD (.int (-1))
      let items ← listItems address
      let place ← placeOf items.size place
      changeList address fun items => items.eraseIdxIfInBounds place
      orFail items[place]?
  | "remove" =>
      match ← arguments.only 1 1 with
      | [value] =>
          let place ← orFail (← placeOfValue value 0 (← listItems address).toList)
          changeList address fun items => items.eraseIdxIfInBounds place
          return .none
      | _ => fail
  | _ => fail

/-! ### Dictionaries -/

/-- The names of the methods of dictionaries. -/
def dictMethods : List String :=
  ["clear", "get", "items", "keys", "pop", "popitem", "setdefault", "update", "values"]

/-- The pairs of a value: the entries of a dictionary, or the pairs that it goes through, each of
which has a length. -/
def pairsOf (value : Value) : Step (List (Value × Value)) := do
  match value with
  | .dict address => dictEntries address
  | _ =>
      (← series value).mapM fun pair => do
        require ((← length? pair) = some 2)
        match ← elements pair with
        | [key, value] => return (key, value)
        | _ => fail

/-- Sets the keys of a dictionary that arguments give. -/
def updateDict (address : Nat) (arguments : Arguments) : Step Unit := do
  let names := arguments.named.map Prod.fst
  require (arguments.positional.length ≤ 1 && names.eraseDups.length = names.length)
  for value in arguments.positional do
    for (key, value) in ← pairsOf value do
      setKey address key value
  for (key, value) in arguments.named do
    setKey address (.string key) value

/-- **A call of a method of a dictionary.** -/
def callDictMethod (address : Nat) (name : String) (arguments : Arguments) : Step Value := do
  let entries ← dictEntries address
  match name with
  | "clear" =>
      let _ ← arguments.only 0 0
      changeDict address fun _ => []
      return .none
  | "get" =>
      match ← arguments.only 1 2 with
      | key :: default =>
          require (isKey key)
          return (lookup? entries key).getD (default.head?.getD .none)
      | [] => fail
  | "items" =>
      let _ ← arguments.only 0 0
      newList (entries.map fun (key, value) => .tuple [key, value])
  | "keys" =>
      let _ ← arguments.only 0 0
      newList (entries.map Prod.fst)
  | "values" =>
      let _ ← arguments.only 0 0
      newList (entries.map Prod.snd)
  | "pop" =>
      match ← arguments.only 1 2 with
      | key :: default =>
          require (isKey key)
          changeDict address (removeEntry · key)
          orFail ((lookup? entries key).orElse fun _ => default.head?)
      | [] => fail
  | "popitem" =>
      let _ ← arguments.only 0 0
      let (key, value) ← orFail entries.head?
      changeDict address (removeEntry · key)
      return .tuple [key, value]
  | "setdefault" =>
      match ← arguments.only 1 2 with
      | key :: default =>
          require (isKey key)
          match lookup? entries key with
          | some value => return value
          | none =>
              let value := default.head?.getD .none
              setKey address key value
              return value
      | [] => fail
  | "update" =>
      updateDict address arguments
      return .none
  | _ => fail

/-! ### All types -/

/-- The names of the methods of a value. -/
def methodNames : Value → List String
  | .string _ => stringMethods
  | .bytes _ => ["elems"]
  | .list _ => listMethods
  | .dict _ => dictMethods
  | _ => []

/-- Whether a value has a method with a given name. -/
def hasMethod (object : Value) (name : Text) : Bool :=
  (methodNames object).any fun other => utf8 other = name

/-- The method of a value with a given name, as a function of its own. -/
def methodOf (object : Value) (name : Text) : Step Value := do
  require (hasMethod object name)
  let memory ← get
  set { memory with lookups := memory.lookups + 1 }
  return .method memory.lookups object name

/-- **A call of a method.** -/
def callMethod (object : Value) (name : Text) (arguments : Arguments) : Step Value :=
  let name := Text.toString name
  match object with
  | .string t => callStringMethod t name arguments
  | .bytes t => do
      let _ ← arguments.only 0 0
      return .parts .bytes t
  | .list address => callListMethod address name arguments
  | .dict address => callDictMethod address name arguments
  | _ => fail

end Script

end TableAssembler
