/-
**Finding, cutting and replacing parts of a text.**

Main definitions:

* `Text.find?`, `Text.findLast?` — the first and the last place of a part;
* `Text.splitAll`, `Text.splitFirst`, `Text.splitLast` — the pieces between separators;
* `Text.words`, `Text.splitWords`, `Text.splitLastWords` — the pieces between blanks;
* `Text.replaceFirst` — a text with occurrences of a part replaced;
* `Text.count` — the number of occurrences of a part;
* `Text.isBlank`, `Text.strip` — blanks, and texts without some characters at their ends;
* `Text.lower`, `Text.upper`, `Text.titled` — ASCII letters in one case.
-/

import TableAssembler.Text.Letter
import TableAssembler.Text.Basic

set_option relaxedAutoImplicit false
set_option autoImplicit false

namespace TableAssembler

namespace Text

/-! ### Parts -/

/-- The first place of a part in a text. -/
def find? (part : Text) : Text → Option Nat
  | [] => if part.isEmpty then some 0 else none
  | t@(_ :: rest) => if part.isPrefixOf t then some 0 else (find? part rest).map (· + 1)

/-- The last place of a part in a text. -/
def findLast? (part t : Text) : Option Nat :=
  (find? part.reverse t.reverse).map fun place => t.length - place - part.length

/-- The pieces of a text between at most `count` separators; the separator is not empty. -/
def splitFirst (separator : Text) : (count : Nat) → Text → List Text
  | 0, t => [t]
  | count + 1, t =>
      match find? separator t with
      | none => [t]
      | some place =>
          t.take place :: splitFirst separator count (t.drop (place + separator.length))

/-- The pieces of a text between all separators. -/
def splitAll (separator t : Text) : List Text := splitFirst separator t.length t

/-- The pieces of a text between the last separators, at most `count` of them. -/
def splitLast (separator : Text) (count : Nat) (t : Text) : List Text :=
  let pieces := splitAll separator t
  let surplus := pieces.length - count
  if surplus = 0 then pieces else join separator (pieces.take surplus) :: pieces.drop surplus

/-- A text with its first `count` occurrences of a part replaced.  The empty part occurs before
every character and at the end. -/
def replaceFirst (part replacement : Text) (count : Nat) (t : Text) : Text :=
  if part.isEmpty then
    let pieces := (chars t).map ofChar
    let marked := (pieces.take count).flatMap fun piece => replacement ++ piece
    marked ++ (pieces.drop count).flatten ++
      (if pieces.length < count then replacement else [])
  else join replacement (splitFirst part count t)

/-- The number of occurrences of a part that do not overlap. -/
def count (part t : Text) : Nat :=
  if part.isEmpty then runeCount t + 1 else (splitAll part t).length - 1

/-! ### Blanks -/

/-- The blanks of Unicode. -/
def isBlank (c : Char) : Bool :=
  let n := c.toNat
  (9 ≤ n && n ≤ 13) || n = 0x20 || n = 0x85 || n = 0xA0 || n = 0x1680 ||
    (0x2000 ≤ n && n ≤ 0x200A) || n = 0x2028 || n = 0x2029 || n = 0x202F || n = 0x205F || n = 0x3000

/-- A text without some characters at its start. -/
def stripLeft (drop : Char → Bool) (cs : List Char) : List Char := cs.dropWhile drop

/-- A text without some characters at its end. -/
def stripRight (drop : Char → Bool) (cs : List Char) : List Char :=
  (cs.reverse.dropWhile drop).reverse

/-- A text without some characters at its ends. -/
def strip (left right : Bool) (drop : Char → Bool) (t : Text) : Text :=
  let cs := chars t
  let cs := if left then stripLeft drop cs else cs
  ofChars (if right then stripRight drop cs else cs)

/-- The words of a text: at most `count` from the start, and what is left. -/
def wordsFrom : (count : Nat) → (fuel : Nat) → List Char → List (List Char)
  | _, 0, _ => []
  | count, fuel + 1, cs =>
      match cs.dropWhile isBlank with
      | [] => []
      | rest =>
          match count with
          | 0 => [rest]
          | count + 1 =>
              rest.takeWhile (!isBlank ·) :: wordsFrom count fuel (rest.dropWhile (!isBlank ·))

/-- At most `count` words from the start of a text, and what is left. -/
def splitWords (count : Nat) (t : Text) : List Text :=
  let cs := chars t
  (wordsFrom count (cs.length + 1) cs).map ofChars

/-- The words of a text. -/
def words (t : Text) : List Text := splitWords t.length t

/-- At most `count` words from the end of a text, and what is left. -/
def splitLastWords (count : Nat) (t : Text) : List Text :=
  let cs := (chars t).reverse
  ((wordsFrom count (cs.length + 1) cs).map fun word => ofChars word.reverse).reverse

/-! ### Cases

The letters with two cases are those of ASCII; all other characters stay as they are. -/

/-- Whether a character is a letter that has two cases. -/
def isCased (c : Char) : Bool := c.isUpper || c.isLower

/-- A text with small letters. -/
def lower (t : Text) : Text := ofChars ((chars t).map Char.toLower)

/-- A text with capital letters. -/
def upper (t : Text) : Text := ofChars ((chars t).map Char.toUpper)

/-- Characters with capital letters at the start of words, `afterLetter` telling whether one has
just been read. -/
def titledFrom (afterLetter : Bool) : List Char → List Char
  | [] => []
  | c :: rest => (if afterLetter then c.toLower else c.toUpper) :: titledFrom (isCased c) rest

/-- A text with capital letters at the start of words only. -/
def titled (t : Text) : Text := ofChars (titledFrom false (chars t))

end Text

end TableAssembler
