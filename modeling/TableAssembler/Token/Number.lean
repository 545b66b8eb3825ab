/-
**The value of a number literal.**

A literal is read from left to right.  It is out of range as soon as the digits read so far reach
two to the sixty-fourth, whatever follows them, and malformed at the first character that is no
digit of its base.  Underscores may separate digits anywhere after the base mark.

Main definitions:

* `NumberFault`, `NumberError` — why a literal has no value, and the digits at fault;
* `digitValue?` — the value of a digit, letters counting from ten in either case;
* `readDigits` — the left-to-right reading;
* `Token.value` — the value of a token;
* `Token.isMalformed`, `Token.describe` — whether a number is no literal of its base, and the
  description of a token in messages.
-/

import TableAssembler.Token.Basic
import TableAssembler.Text.Quoted

set_option relaxedAutoImplicit false
set_option autoImplicit false

namespace TableAssembler

open Text (utf8)

/-- Why a literal has no value. -/
inductive NumberFault where
  | malformed
  | outOfRange
  | badBase (base : Int)
  deriving DecidableEq, Repr

namespace NumberFault

/-- The text of a fault. -/
def message : NumberFault → Text
  | malformed => utf8 "invalid syntax"
  | outOfRange => utf8 "value out of range"
  | badBase base => utf8 "invalid base " ++ Text.decimal base

/-- The value that stands for a faulty literal: the greatest word if it is too large. -/
def standIn : NumberFault → Nat
  | outOfRange => 0xFFFFFFFFFFFFFFFF
  | _ => 0

end NumberFault

/-- A faulty literal, with the digits in which the fault lies. -/
structure NumberError where
  digits : Text
  fault : NumberFault
  deriving DecidableEq, Repr

/-- The text of a faulty literal. -/
def NumberError.message (error : NumberError) : Text :=
  utf8 "strconv.ParseUint: parsing " ++ Text.quoted error.digits ++ utf8 ": " ++
    error.fault.message

/-- The value of a digit: letters of either case count from ten. -/
def digitValue? (c : UInt8) : Option Nat :=
  if Text.byte '0' ≤ c ∧ c ≤ Text.byte '9' then some (c.toNat - 48)
  else if Text.byte 'a' ≤ c ∧ c ≤ Text.byte 'z' then some (c.toNat - 87)
  else if Text.byte 'A' ≤ c ∧ c ≤ Text.byte 'Z' then some (c.toNat - 55)
  else none

/-- Two to the sixty-fourth, which the value of a literal stays below. -/
def valueBound : Nat := 0x10000000000000000

/-- Reads digits from left to right, `read` being the value of those read already. -/
def readDigits (base read : Nat) : Text → Except NumberFault Nat
  | [] => .ok read
  | c :: rest =>
      match digitValue? c with
      | none => .error .malformed
      | some d =>
          if base ≤ d then .error .malformed
          else if read * base + d < valueBound then readDigits base (read * base + d) rest
          else .error .outOfRange

namespace Token

/-- The base of a token: the one it bears, or else the one its text announces. -/
def effectiveBase (token : Token) : Int :=
  if token.base = 0 then numberBase token.text else token.base

/-- The digits of a token: its text without base mark and underscores. -/
def digits (token : Token) : Text :=
  let body :=
    if token.effectiveBase ≠ 10 ∧ 2 ≤ token.text.length then token.text.drop 2 else token.text
  body.filter (· != Text.byte '_')

/-- **The value of a number token.** -/
def value (token : Token) : Except NumberError Nat :=
  if token.kind ≠ .number ∨ token.digits = [] then .error ⟨token.text, .malformed⟩
  else if token.effectiveBase < 2 ∨ 36 < token.effectiveBase then
    .error ⟨token.digits, .badBase token.effectiveBase⟩
  else
    (readDigits token.effectiveBase.toNat 0 token.digits).mapError fun fault =>
      ⟨token.digits, fault⟩

/-- Whether a token is a number, but no literal of its base. -/
def isMalformed (token : Token) : Bool :=
  match token.kind, token.value with
  | .number, .error error => error.fault = .malformed
  | _, _ => false

/-- The description of a token in messages. -/
def describe (token : Token) : Text :=
  if token.kind = .newline ∨ token.kind = .endOfInput then token.kind.name
  else if token.isMalformed then utf8 "malformed number '" ++ token.text ++ utf8 "'"
  else token.kind.name ++ utf8 " '" ++ token.text ++ utf8 "'"

end Token

end TableAssembler
