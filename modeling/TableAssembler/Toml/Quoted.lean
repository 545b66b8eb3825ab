/-
**The strings of TOML.**

A basic string knows escapes, a literal one does not; each comes on one line or on several.  A
string on several lines may hold quotation marks and may end in up to two of them before the three
that close it.

Main definitions:

* `Toml.unescape?` — the characters that the body of a basic string means;
* `Toml.basicString?`, `Toml.literalString?` — strings on one line;
* `Toml.longBasicString?`, `Toml.longLiteralString?` — strings on several lines;
* `Toml.quotedString?` — any string.
-/

import TableAssembler.Toml.Scalar

set_option relaxedAutoImplicit false
set_option autoImplicit false

namespace TableAssembler

namespace Toml

/-- The quotation mark of literal strings. -/
def apostrophe : Char := Char.ofNat 39

/-! ### Escapes -/

/-- The character of a code point written with `count` hexadecimal digits, and the rest. -/
def codePoint? (count : Nat) (cs : List Char) : Option (Char × List Char) :=
  let digits := cs.take count
  if digits.length = count ∧ digits.all isHex then
    let n := numberOf 16 digits
    if n < 0xD800 ∨ (0xDFFF < n ∧ n ≤ 0x10FFFF) then some (Char.ofNat n, cs.drop count) else none
  else none

/-- The character that an escape stands for, and the rest; the backslash is passed already. -/
def escape? : List Char → Option (Char × List Char)
  | 'b' :: rest => some (Char.ofNat 8, rest)
  | 't' :: rest => some ('\t', rest)
  | 'n' :: rest => some ('\n', rest)
  | 'f' :: rest => some (Char.ofNat 12, rest)
  | 'r' :: rest => some ('\r', rest)
  | '"' :: rest => some ('"', rest)
  | '\\' :: rest => some ('\\', rest)
  | 'u' :: rest => codePoint? 4 rest
  | 'U' :: rest => codePoint? 8 rest
  | _ => none

/-- An escape is never empty. -/
theorem escape?_length {cs rest : List Char} {c : Char} (h : escape? cs = some (c, rest)) :
    rest.length < cs.length := by
  unfold escape? codePoint? at h
  split at h
  all_goals first
    | (obtain ⟨-, rfl⟩ := Prod.mk.inj (Option.some.inj h); simp)
    | simp at h
  all_goals
    obtain ⟨-, -, -, rfl⟩ := h
    simp only [List.length_drop, List.length_cons]
    omega

/-- The characters that the body of a basic string means. -/
def unescape? (cs : List Char) : Option (List Char) :=
  match cs with
  | [] => some []
  | c :: rest =>
      if c = '\\' then
        match h : escape? rest with
        | none => none
        | some (meant, after) =>
            have _ := escape?_length h
            (unescape? after).map (meant :: ·)
      else (unescape? rest).map (c :: ·)
termination_by cs.length
decreasing_by all_goals simp only [List.length_cons]; omega

/-! ### Bodies on one line -/

/-- The body of a basic string up to its closing mark, as it is written, and the rest. -/
def basicBody? : List Char → Option (List Char × List Char)
  | [] => none
  | '"' :: rest => some ([], rest)
  | '\\' :: c :: rest =>
      if c = '\n' ∨ c = '\r' then none
      else (basicBody? rest).map fun (body, after) => ('\\' :: c :: body, after)
  | c :: rest =>
      if c = '\n' ∨ c = '\r' then none
      else (basicBody? rest).map fun (body, after) => (c :: body, after)

/-- A basic string whose opening mark is passed already. -/
def basicString? (cs : List Char) : Option (List Char × List Char) := do
  let (body, rest) ← basicBody? cs
  return (← unescape? body, rest)

/-- A literal string whose opening mark is passed already. -/
def literalString? (cs : List Char) : Option (List Char × List Char) :=
  let body := cs.takeWhile fun c => c ≠ apostrophe && c ≠ '\n' && c ≠ '\r'
  match cs.drop body.length with
  | c :: rest => if c = apostrophe then some (body, rest) else none
  | [] => none

/-! ### Bodies on several lines -/

/-- Whether the characters read so far, given backwards, end in five marks: a sixth would follow.
A mark behind a backslash does not count. -/
def endsInFive (mark : Char) (escapes : Bool) (read : List Char) : Bool :=
  read.take 5 = List.replicate 5 mark && !(escapes && read[5]? = some '\\')

/-- The body of a string up to its three closing marks, as it is written, and the rest; `read` has
the characters read so far, backwards. -/
def longBody? (mark : Char) (escapes : Bool) (read : List Char) :
    List Char → Option (List Char × List Char)
  | [] => none
  | c :: rest =>
      if c = '\\' ∧ escapes = true then
        match rest with
        | [] => none
        | d :: more => longBody? mark escapes (d :: c :: read) more
      else if c = mark ∧ rest.take 2 = [mark, mark] then
        if (rest.drop 2).head? ≠ some mark then some (read.reverse, rest.drop 2)
        else if endsInFive mark escapes (mark :: mark :: mark :: read) then none
        else longBody? mark escapes (c :: read) rest
      else longBody? mark escapes (c :: read) rest

/-- A body without the line break right after its opening marks. -/
def dropFirstBreak : List Char → List Char
  | '\n' :: rest => rest
  | '\r' :: '\n' :: rest => rest
  | cs => cs

/-- White space within a string: blanks and line breaks. -/
def isSpace (c : Char) : Bool := c = ' ' || c = '\t' || c = '\r' || c = '\n'

/-- Removes every backslash at the end of a line, with all white space that follows it; `skipping`
says that such white space is being passed over. -/
def joinLines (skipping : Bool) : List Char → List Char
  | [] => []
  | c :: rest =>
      if skipping = true ∧ isSpace c = true then joinLines true rest
      else if c = '\\' then
        if rest.head? = some '\\' then
          match rest with
          | d :: more => c :: d :: joinLines false more
          | [] => [c]
        else if (rest.takeWhile isSpace).contains '\n' then joinLines true rest
        else c :: joinLines false rest
      else c :: joinLines false rest

/-- A basic string on several lines whose opening marks are passed already. -/
def longBasicString? (cs : List Char) : Option (List Char × List Char) := do
  let (body, rest) ← longBody? '"' true [] cs
  return (← unescape? (joinLines false (dropFirstBreak body)), rest)

/-- A literal string on several lines whose opening marks are passed already. -/
def longLiteralString? (cs : List Char) : Option (List Char × List Char) :=
  (longBody? apostrophe false [] cs).map fun (body, rest) => (dropFirstBreak body, rest)

/-- **The string at the start of a text**, and the rest. -/
def quotedString? (cs : List Char) : Option (List Char × List Char) :=
  match cs with
  | '"' :: '"' :: '"' :: rest => longBasicString? rest
  | '"' :: rest => basicString? rest
  | a :: b :: c :: rest =>
      if a ≠ apostrophe then none
      else if b = apostrophe ∧ c = apostrophe then longLiteralString? rest
      else literalString? (b :: c :: rest)
  | a :: rest => if a = apostrophe then literalString? rest else none
  | [] => none

end Toml

end TableAssembler
