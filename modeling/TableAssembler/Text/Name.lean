/-
**Names.**

Mnemonics, labels and identifiers are names: letters, digits and underscores, not starting with a
digit.

Main definitions:

* `Text.isDigit`, `Text.isNameStart`, `Text.isNamePart` — the classes of bytes;
* `Text.isName` — whether a text is a name.
-/

import TableAssembler.Text.Basic

set_option relaxedAutoImplicit false
set_option autoImplicit false

namespace TableAssembler

namespace Text

/-- Decimal digits. -/
def isDigit (c : UInt8) : Bool := byte '0' ≤ c && c ≤ byte '9'

/-- Bytes that start a name: letters and the underscore. -/
def isNameStart (c : UInt8) : Bool :=
  c = byte '_' || (byte 'a' ≤ c && c ≤ byte 'z') || (byte 'A' ≤ c && c ≤ byte 'Z')

/-- Bytes that continue a name. -/
def isNamePart (c : UInt8) : Bool := isNameStart c || isDigit c

/-- Whether a text is a name. -/
def isName : Text → Bool
  | [] => false
  | c :: rest => isNameStart c && rest.all isNamePart

end Text

end TableAssembler
