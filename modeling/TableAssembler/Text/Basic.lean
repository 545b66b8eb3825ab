/-
**Texts: byte strings read as runes.**

A source file is a string of bytes, and nothing forces those bytes to be UTF-8.  Offsets count
bytes, columns count *runes*: the characters of the well-formed parts, and one rune for every byte
that is no part of a well-formed character.

Main definitions:

* `Text` — a byte string;
* `Text.utf8` — the bytes of a string;
* `Rune`, `Text.firstRune`, `Text.runes` — the runes of a text, from left to right;
* `Text.isUtf8`, `Text.toString` — well-formedness, and the reading in which every stray byte
  becomes U+FFFD.

Main results:

* `Text.firstRune_length_le` — the first rune takes no more bytes than there are;
* `Text.runes_cons` — the runes of a text are its first rune and the runes of what follows it.
-/

set_option relaxedAutoImplicit false
set_option autoImplicit false

namespace TableAssembler

/-- A text is a string of bytes; it is UTF-8 by custom only. -/
abbrev Text := List UInt8

/-- A rune: a character, or a byte that belongs to none. -/
inductive Rune where
  | scalar (c : Char)
  | stray (b : UInt8)
  deriving DecidableEq, Repr

namespace Rune

/-- The character a rune is shown as: U+FFFD for a stray byte. -/
def char : Rune → Char
  | scalar c => c
  | stray _ => Char.ofNat 0xFFFD

/-- Whether a rune is a character of the text. -/
def isScalar : Rune → Bool
  | scalar _ => true
  | stray _ => false

@[simp] theorem char_scalar (c : Char) : (scalar c).char = c := rfl

@[simp] theorem isScalar_scalar (c : Char) : (scalar c).isScalar = true := rfl

@[simp] theorem isScalar_stray (b : UInt8) : (stray b).isScalar = false := rfl

end Rune

namespace Text

/-! ### Bytes of strings -/

/-- The bytes of a string. -/
def utf8 (s : String) : Text := s.toUTF8.data.toList

/-- The bytes of a character. -/
def ofChar (c : Char) : Text := String.utf8EncodeChar c

/-- The bytes of a list of characters. -/
def ofChars (cs : List Char) : Text := cs.flatMap ofChar

/-- The byte of an ASCII character. -/
abbrev byte (c : Char) : UInt8 := c.toUInt8

/-- The byte that ends a line. -/
def newline : UInt8 := 10

/-! ### Runes -/

/-- The number of bytes that a character with first byte `b` takes; zero if no character starts
with `b`. -/
def leadLength (b : UInt8) : Nat :=
  if b < 0x80 then 1
  else if 0xC2 ≤ b ∧ b ≤ 0xDF then 2
  else if 0xE0 ≤ b ∧ b ≤ 0xEF then 3
  else if 0xF0 ≤ b ∧ b ≤ 0xF4 then 4
  else 0

/-- Whether `c` continues a character. -/
def isTail (c : UInt8) : Bool := 0x80 ≤ c && c ≤ 0xBF

/-- Whether `c` may be the second byte after `b`: overlong forms, surrogates and what lies beyond
U+10FFFF are excluded here. -/
def isSecond (b c : UInt8) : Bool :=
  if b = 0xE0 then 0xA0 ≤ c && c ≤ 0xBF
  else if b = 0xED then 0x80 ≤ c && c ≤ 0x9F
  else if b = 0xF0 then 0x90 ≤ c && c ≤ 0xBF
  else if b = 0xF4 then 0x80 ≤ c && c ≤ 0x8F
  else isTail c

/-- The payload bits of a continuation byte. -/
def tailBits (c : UInt8) : Nat := c.toNat % 64

/-- The first rune of the text `b :: rest`, and the number of bytes it takes. -/
def firstRune (b : UInt8) (rest : Text) : Rune × Nat :=
  match leadLength b, rest with
  | 1, _ => (.scalar (Char.ofNat b.toNat), 1)
  | 2, c :: _ =>
      if isSecond b c then (.scalar (Char.ofNat (b.toNat % 32 * 64 + tailBits c)), 2)
      else (.stray b, 1)
  | 3, c :: d :: _ =>
      if isSecond b c && isTail d then
        (.scalar (Char.ofNat ((b.toNat % 16 * 64 + tailBits c) * 64 + tailBits d)), 3)
      else (.stray b, 1)
  | 4, c :: d :: e :: _ =>
      if isSecond b c && isTail d && isTail e then
        (.scalar (Char.ofNat
          (((b.toNat % 8 * 64 + tailBits c) * 64 + tailBits d) * 64 + tailBits e)), 4)
      else (.stray b, 1)
  | _, _ => (.stray b, 1)

/-- A rune takes no more bytes than the text has. -/
theorem firstRune_length_le (b : UInt8) (rest : Text) :
    (firstRune b rest).2 ≤ (b :: rest).length := by
  unfold firstRune
  split <;> (try split) <;> simp only [List.length_cons] <;> omega

/-- The runes of a text, once `skip` bytes more have been passed over. -/
def runesFrom : Nat → Text → List Rune
  | _, [] => []
  | skip + 1, _ :: rest => runesFrom skip rest
  | 0, b :: rest => (firstRune b rest).1 :: runesFrom ((firstRune b rest).2 - 1) rest

/-- **The runes of a text.** -/
def runes (t : Text) : List Rune := runesFrom 0 t

/-- The number of runes of a text. -/
def runeCount (t : Text) : Nat := (runes t).length

@[simp] theorem runes_nil : runes [] = [] := rfl

theorem runesFrom_eq_drop (skip : Nat) (t : Text) : runesFrom skip t = runes (t.drop skip) := by
  induction t generalizing skip with
  | nil => cases skip <;> simp [runesFrom]
  | cons b rest ih =>
      cases skip with
      | zero => rfl
      | succ skip => simpa [runesFrom] using ih skip

/-- The runes of a text are its first rune and the runes of the bytes after it. -/
theorem runes_cons (b : UInt8) (rest : Text) :
    runes (b :: rest) = (firstRune b rest).1 :: runes (rest.drop ((firstRune b rest).2 - 1)) := by
  rw [← runesFrom_eq_drop]
  rfl

/-- Whether every byte of a text is part of a character. -/
def isUtf8 (t : Text) : Bool := (runes t).all Rune.isScalar

/-- The characters of a text, a stray byte being shown as U+FFFD. -/
def chars (t : Text) : List Char := (runes t).map Rune.char

/-- The string of a text, a stray byte being shown as U+FFFD. -/
def toString (t : Text) : String := String.ofList (chars t)

/-! ### Cutting and joining -/

/-- Puts a byte in front of the pieces of the text behind it. -/
def addToLines (b : UInt8) : List Text → List Text
  | [] => [[b]]
  | piece :: more => if b = newline then [] :: piece :: more else (b :: piece) :: more

/-- The pieces of a text between its newlines; there is always at least one. -/
def lines (t : Text) : List Text := t.foldr addToLines [[]]

/-- The texts of a list, one after the other, with `separator` between neighbours. -/
def join (separator : Text) (ts : List Text) : Text := separator.intercalate ts

/-- Whether `t` starts with `start`. -/
def startsWith (t start : Text) : Bool := start.isPrefixOf t

/-- Whether `t` ends with `tail`. -/
def endsWith (t tail : Text) : Bool := tail.isSuffixOf t

/-- The text without `tail` at its end, if it ends so, and the text itself otherwise. -/
def dropTail (t tail : Text) : Text :=
  if endsWith t tail then t.take (t.length - tail.length) else t

/-- Texts are ordered byte by byte, a proper beginning coming first. -/
def le : Text → Text → Bool
  | [], _ => true
  | _ :: _, [] => false
  | a :: t, b :: u => a < b || (a == b && le t u)

end Text

end TableAssembler
