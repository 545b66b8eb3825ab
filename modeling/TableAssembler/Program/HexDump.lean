/-
**Hex dumps.**

A hex dump shows a binary in rows of sixteen bytes: the offset of the row, its bytes in two groups
of eight columns, and the same bytes as characters.  A short last row keeps its columns.

Main definitions:

* `HexDump.rows` — the rows of a binary with their offsets;
* `HexDump.render` — **the hex dump of a binary**.
-/

import TableAssembler.Text.Numeral

set_option relaxedAutoImplicit false
set_option autoImplicit false

namespace TableAssembler

open Text (utf8)

namespace HexDump

/-- The number of bytes in a row. -/
def width : Nat := 16

/-- The rows of a binary, the first of them at `offset`; there are no more than `bound`. -/
def rowsFrom : Nat → Nat → Text → List (Nat × Text)
  | 0, _, _ => []
  | _ + 1, _, [] => []
  | bound + 1, offset, b :: rest =>
      (offset, (b :: rest).take width) ::
        rowsFrom bound (offset + width) ((b :: rest).drop width)

/-- The rows of a binary with their offsets. -/
def rows (binary : Text) : List (Nat × Text) := rowsFrom binary.length 0 binary

/-- The columns of a byte that may be missing. -/
def cell : Option UInt8 → Text
  | some b => Text.hex 2 b.toNat ++ utf8 " "
  | none => utf8 "   "

/-- The columns of eight bytes, and a blank behind them. -/
def group (row : Text) (first : Nat) : Text :=
  (List.range' first 8).flatMap (fun i => cell row[i]?) ++ utf8 " "

/-- A byte as a character: what is not printable ASCII is a dot. -/
def shown (b : UInt8) : UInt8 := if b < 32 ∨ 126 < b then Text.byte '.' else b

/-- A row with its line break. -/
def line (row : Nat × Text) : Text :=
  Text.hex 8 row.1 ++ utf8 "  " ++ group row.2 0 ++ group row.2 8 ++
    utf8 "|" ++ row.2.map shown ++ utf8 "|" ++ [Text.newline]

/-- **The hex dump of a binary.** -/
def render (binary : Text) : Text := (rows binary).flatMap line

end HexDump

end TableAssembler
