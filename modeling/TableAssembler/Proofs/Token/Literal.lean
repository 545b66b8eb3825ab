/-
**Number literals and the numbers they write.**

A number is written in base ten, or behind a mark in base sixteen, two or eight; letters stand for
digits in either case, and underscores may stand between digits.  The scanner takes every such text
for one token, and the value of the token is the number written, unless it takes more than
sixty-four bits: then the token has no value, but is not malformed either.

The reading from left to right compares with the bound at every digit.  The number read so far never
shrinks (`Literal.le_horner`), so the comparison fails at some digit exactly when it would fail at
the end (`Literal.readDigits_append`).

Main definitions:

* `Literal.StandsFor` — the characters of a digit;
* `Literal.Digits` — texts of digits of a base, with underscores among them;
* `Literal.Writes` — **the texts that write a number**;
* `Literal` — a number in writing.

Main results:

* `Literal.Writes.spells` — a number in writing is spelled as a number token;
* `Literal.Writes.value_eq` — **the value of a number in writing**.
-/

import Mathlib.Data.Nat.Digits.Defs
import TableAssembler.Proofs.Token.Lexemes
import TableAssembler.Token.Number

set_option relaxedAutoImplicit false
set_option autoImplicit false

namespace TableAssembler

namespace Literal

open Text (byte isDigit isNamePart utf8)

/-! ### Digits -/

/-- The digits of bases up to sixteen, with small letters. -/
def smallDigits : Text := utf8 "0123456789abcdef"

/-- The digits of bases up to sixteen, with capital letters. -/
def capitalDigits : Text := utf8 "0123456789ABCDEF"

/-- A character stands for a digit. -/
def StandsFor (c : UInt8) (digit : Nat) : Prop :=
  smallDigits[digit]? = some c ∨ capitalDigits[digit]? = some c

instance (c : UInt8) (digit : Nat) : Decidable (StandsFor c digit) :=
  inferInstanceAs (Decidable (_ ∨ _))

/-- **A text writes digits of a base**, the most significant first; underscores mean nothing. -/
inductive Digits (base : Nat) : Text → List Nat → Prop
  | nil : Digits base [] []
  | underscore {t : Text} {digits : List Nat} (h : Digits base t digits) :
      Digits base (byte '_' :: t) digits
  | digit {c : UInt8} {d : Nat} {t : Text} {digits : List Nat} (hc : StandsFor c d)
      (hd : d < base) (h : Digits base t digits) : Digits base (c :: t) (d :: digits)

/-- The number that digits of a base make, the most significant first. -/
def numberOf (base : Nat) (digits : List Nat) : Nat := Nat.ofDigits base digits.reverse

/-- The marks in front of the digits of a base. -/
def marks : List (Text × Nat) :=
  [(utf8 "0x", 16), (utf8 "0X", 16), (utf8 "0b", 2), (utf8 "0B", 2), (utf8 "0o", 8),
    (utf8 "0O", 8)]

/-- **A text writes a number**: in decimal digits, or in the digits of another base behind its
mark.  Underscores stand behind the first digit, or anywhere behind the mark. -/
inductive Writes : Text → Nat → Prop
  | decimal {c : UInt8} {d : Nat} {t : Text} {digits : List Nat} (hc : StandsFor c d) (hd : d < 10)
      (h : Digits 10 t digits) : Writes (c :: t) (numberOf 10 (d :: digits))
  | marked {mark : Text} {base : Nat} {t : Text} {digits : List Nat} (hmark : (mark, base) ∈ marks)
      (h : Digits base t digits) (hne : digits ≠ []) : Writes (mark ++ t) (numberOf base digits)

/-- A property of all characters of digits holds of a character that stands for one. -/
theorem forall_standsFor {P : UInt8 → Nat → Prop}
    (hsmall : ∀ d : Fin 16, P (smallDigits.getD d 0) d)
    (hcapital : ∀ d : Fin 16, P (capitalDigits.getD d 0) d) {c : UInt8} {d : Nat}
    (h : StandsFor c d) : P c d := by
  rcases h with h | h
  · obtain ⟨hlt, -⟩ := List.getElem?_eq_some_iff.1 h
    have hdigit := hsmall ⟨d, hlt⟩
    rwa [List.getD_eq_getElem?_getD, h] at hdigit
  · obtain ⟨hlt, -⟩ := List.getElem?_eq_some_iff.1 h
    have hdigit := hcapital ⟨d, hlt⟩
    rwa [List.getD_eq_getElem?_getD, h] at hdigit

theorem digitValue?_of_standsFor {c : UInt8} {d : Nat} (h : StandsFor c d) :
    digitValue? c = some d :=
  forall_standsFor (P := fun c d => digitValue? c = some d) (by decide) (by decide) h

theorem isNamePart_of_standsFor {c : UInt8} {d : Nat} (h : StandsFor c d) :
    isNamePart c = true ∧ c ≠ byte '_' :=
  forall_standsFor (P := fun c _ => isNamePart c = true ∧ c ≠ byte '_') (by decide) (by decide) h

/-- The characters of decimal digits start a number. -/
theorem isDigit_of_standsFor {c : UInt8} {d : Nat} (h : StandsFor c d) (hd : d < 10) :
    isDigit c = true :=
  forall_standsFor (P := fun c d => d < 10 → isDigit c = true) (by decide) (by decide) h hd

namespace Digits

variable {base : Nat} {t : Text} {digits : List Nat}

theorem isNamePart (h : Digits base t digits) : ∀ c ∈ t, isNamePart c = true := by
  induction h with
  | nil => simp
  | underscore _ ih => exact List.forall_mem_cons.2 ⟨by decide, ih⟩
  | digit hc _ _ ih => exact List.forall_mem_cons.2 ⟨(isNamePart_of_standsFor hc).1, ih⟩

/-- Without its underscores a text is as long as its digits are many. -/
theorem length_filter (h : Digits base t digits) :
    (t.filter (· != byte '_')).length = digits.length := by
  induction h with
  | nil => rfl
  | underscore _ ih => simpa using ih
  | digit hc _ _ ih => simp [(isNamePart_of_standsFor hc).2, ih]

end Digits

/-! ### The reading from left to right -/

/-- The number made by further digits behind a number read already. -/
def horner (base read : Nat) (digits : List Nat) : Nat :=
  digits.foldl (fun read d => read * base + d) read

/-- Read from left to right, digits make their number. -/
theorem horner_zero (base : Nat) (digits : List Nat) :
    horner base 0 digits = numberOf base digits := by
  rw [numberOf, Nat.ofDigits_eq_foldr, List.foldr_reverse, horner]
  simp only [Nat.cast_id, Nat.mul_comm base, Nat.add_comm]

/-- Further digits never make a number smaller. -/
theorem le_horner {base : Nat} (hbase : 0 < base) (read : Nat) (digits : List Nat) :
    read ≤ horner base read digits := by
  induction digits generalizing read with
  | nil => exact Nat.le_refl read
  | cons d digits ih =>
      calc read ≤ read * base := Nat.le_mul_of_pos_right read hbase
        _ ≤ read * base + d := Nat.le_add_right _ d
        _ ≤ horner base (read * base + d) digits := ih _

/-- **The reading from left to right** goes on behind digits with the number made, or stops because
it is out of range: the bound is passed at some digit exactly when the number passes it. -/
theorem readDigits_append {base : Nat} {t : Text} {digits : List Nat} (h : Digits base t digits)
    {read : Nat} (hread : read < valueBound) (more : Text) :
    readDigits base read (t.filter (· != byte '_') ++ more) =
      if horner base read digits < valueBound then readDigits base (horner base read digits) more
      else .error .outOfRange := by
  induction h generalizing read with
  | nil => exact (if_pos hread).symm
  | underscore _ ih => simpa using ih hread
  | @digit c d t digits hc hd _ ih =>
      have hkeep : (c :: t).filter (· != byte '_') = c :: t.filter (· != byte '_') :=
        List.filter_cons_of_pos (by simpa using (isNamePart_of_standsFor hc).2)
      rw [hkeep, List.cons_append, readDigits, digitValue?_of_standsFor hc]
      dsimp only
      rw [if_neg (Nat.not_le.2 hd)]
      by_cases hnext : read * base + d < valueBound
      · rw [if_pos hnext, ih hnext]
        rfl
      · -- the digits that follow cannot bring the number back below the bound
        have hle := le_horner (Nat.zero_lt_of_lt hd) (read * base + d) digits
        have hout : ¬horner base read (d :: digits) < valueBound := by
          change ¬horner base (read * base + d) digits < valueBound
          omega
        rw [if_neg hnext, if_neg hout]

/-- Read from left to right, digits give their number, or are found out of range. -/
theorem readDigits_filter {base : Nat} {t : Text} {digits : List Nat} (h : Digits base t digits) :
    readDigits base 0 (t.filter (· != byte '_')) =
      if numberOf base digits < valueBound then .ok (numberOf base digits)
      else .error .outOfRange := by
  have hread := @readDigits_append base t digits h 0 (by decide) []
  rwa [List.append_nil, horner_zero] at hread

/-! ### Tokens -/

/-- A decimal digit and more of them announce no other base. -/
theorem numberBase_decimal {c : UInt8} {t : Text} {digits : List Nat} (h : Digits 10 t digits) :
    numberBase (c :: t) = 10 := by
  have hmark : ∀ d ∈ t.head?, d ≠ byte 'x' ∧ d ≠ byte 'X' ∧ d ≠ byte 'b' ∧ d ≠ byte 'B' ∧
      d ≠ byte 'o' ∧ d ≠ byte 'O' := by
    cases h with
    | nil => simp
    | underscore _ => rintro d ⟨rfl⟩; decide
    | digit hc hd _ =>
        have hdigit := isDigit_of_standsFor hc hd
        rintro d ⟨rfl⟩
        refine ⟨?_, ?_, ?_, ?_, ?_, ?_⟩ <;> exact Lexer.ne_of_class hdigit (by decide)
  cases t with
  | nil => rfl
  | cons d t =>
      obtain ⟨hx, hX, hb, hB, ho, hO⟩ := hmark d rfl
      simp [numberBase, hx, hX, hb, hB, ho, hO]

/-- A mark announces its base, which is one that literals can have. -/
theorem numberBase_marked {mark : Text} {base : Nat} (h : (mark, base) ∈ marks) (t : Text) :
    numberBase (mark ++ t) = base ∧ mark.length = 2 ∧ 2 ≤ base ∧ base ≤ 36 ∧ base ≠ 10 := by
  simp only [marks, List.mem_cons, Prod.mk.injEq, List.not_mem_nil, or_false] at h
  rcases h with ⟨rfl, rfl⟩ | ⟨rfl, rfl⟩ | ⟨rfl, rfl⟩ | ⟨rfl, rfl⟩ | ⟨rfl, rfl⟩ | ⟨rfl, rfl⟩ <;>
    exact ⟨rfl, by decide⟩

/-- A literal that starts with no mark announces base ten. -/
theorem numberBase_unmarked {text : Text}
    (h : ∀ mark base, (mark, base) ∈ marks → ¬mark <+: text) : numberBase text = 10 := by
  unfold numberBase
  split
  next zero letter rest =>
    by_cases hzero : zero = byte '0'
    · subst hzero
      have hne : ∀ d base, ([byte '0', d], base) ∈ marks → letter ≠ d := by
        rintro d base hmark rfl
        exact h _ base hmark ⟨rest, rfl⟩
      simp [hne (byte 'x') 16 (by decide), hne (byte 'X') 16 (by decide),
        hne (byte 'b') 2 (by decide), hne (byte 'B') 2 (by decide), hne (byte 'o') 8 (by decide),
        hne (byte 'O') 8 (by decide)]
    · rw [if_pos hzero]
  next => rfl

/-- A mark is a zero and a letter. -/
theorem mark_eq {mark : Text} {base : Nat} (h : (mark, base) ∈ marks) :
    ∃ letter, mark = [byte '0', letter] ∧ isNamePart letter = true := by
  simp only [marks, List.mem_cons, Prod.mk.injEq, List.not_mem_nil, or_false] at h
  rcases h with ⟨rfl, rfl⟩ | ⟨rfl, rfl⟩ | ⟨rfl, rfl⟩ | ⟨rfl, rfl⟩ | ⟨rfl, rfl⟩ | ⟨rfl, rfl⟩ <;>
    exact ⟨_, rfl, by decide⟩

namespace Writes

variable {text : Text} {value : Nat}

/-- **A number in writing is spelled as a number token.** -/
theorem spells (h : Writes text value) : Lexer.Spells .number text := by
  cases h with
  | decimal hc hd h => exact .number (isDigit_of_standsFor hc hd) h.isNamePart
  | marked hmark h =>
      obtain ⟨letter, rfl, hletter⟩ := mark_eq hmark
      exact .number (by decide) (List.forall_mem_cons.2 ⟨hletter, h.isNamePart⟩)

/-- What a token reads its value from: digits of its base. -/
theorem exists_digits (h : Writes text value) {token : Token} (htext : token.text = text)
    (hbase : token.base = numberBase text) :
    ∃ (base : Nat) (body : Text) (digits : List Nat), token.effectiveBase = base ∧ 2 ≤ base ∧
      base ≤ 36 ∧ token.digits = body.filter (· != byte '_') ∧ Digits base body digits ∧
        digits ≠ [] ∧ value = numberOf base digits := by
  have heffective : token.effectiveBase = numberBase text := by
    rw [Token.effectiveBase, hbase, htext, ite_self]
  cases h with
  | @decimal c d t digits hc hd h =>
      rw [numberBase_decimal h] at heffective
      refine ⟨10, c :: t, d :: digits, heffective, by decide, by decide, ?_, .digit hc hd h,
        List.cons_ne_nil d digits, rfl⟩
      rw [Token.digits, heffective, if_neg (by simp), htext]
  | @marked mark base t digits hmark h hne =>
      obtain ⟨hannounced, hlength, htwo, hmax, hten⟩ := numberBase_marked hmark t
      rw [hannounced] at heffective
      refine ⟨base, t, digits, heffective, htwo, hmax, ?_, h, hne, rfl⟩
      have hcut : token.effectiveBase ≠ 10 ∧ 2 ≤ token.text.length := by
        rw [heffective, htext, List.length_append]
        omega
      rw [Token.digits, if_pos hcut, htext, ← hlength, List.drop_left]

/-- **The value of a number in writing**: the number written, if it stays below two to the
sixty-fourth, and else none for this reason. -/
theorem value_eq (h : Writes text value) {token : Token} (hkind : token.kind = .number)
    (htext : token.text = text) (hbase : token.base = numberBase text) :
    token.value =
      if value < valueBound then .ok value else .error ⟨token.digits, .outOfRange⟩ := by
  obtain ⟨base, body, digits, heffective, htwo, hmax, hdigits, hbody, hne, rfl⟩ :=
    h.exists_digits htext hbase
  have hsome : token.digits ≠ [] := by
    rw [hdigits, ← List.length_pos_iff, hbody.length_filter]
    exact List.length_pos_iff.2 hne
  have hrange : ¬(token.effectiveBase < 2 ∨ 36 < token.effectiveBase) := by
    rw [heffective]
    omega
  have hread := readDigits_filter hbody
  rw [← hdigits] at hread
  rw [Token.value, if_neg (by simp [hkind, hsome]), if_neg hrange, heffective, Int.toNat_natCast,
    hread]
  split
  · rfl
  · rfl

/-- A number in writing is a literal of its base, also if it is out of range. -/
theorem isMalformed_eq (h : Writes text value) {token : Token} (hkind : token.kind = .number)
    (htext : token.text = text) (hbase : token.base = numberBase text) :
    token.isMalformed = false := by
  rw [Token.isMalformed, hkind, h.value_eq hkind htext hbase]
  split
  · rename_i error herror
    split at herror
    · cases herror
    · cases herror
      rfl
  · rfl

end Writes

end Literal

/-- **A number in writing**: a text and the number that it writes. -/
structure Literal where
  text : Text
  value : Nat
  writes : Literal.Writes text value

end TableAssembler
