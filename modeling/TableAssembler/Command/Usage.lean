/-
**The usage text of the command.**

Main definitions:

* `Command.usage` — what the command prints when asked for help.
-/

import TableAssembler.Text.Basic

set_option relaxedAutoImplicit false
set_option autoImplicit false

namespace TableAssembler

open Text (utf8)

namespace Command

/-- The lines of the usage text. -/
def usageLines : List String := [
  "Nandasm assembles a single source file into a flat binary.",
  "",
  "The instruction set is read from one or more opcode tables, either TOML",
  "files (.toml) with an [[opcode]] array, or Starlark scripts (.star) calling",
  "opcode(mnemonic, binary, *operands). A source of '-' is read from stdin.",
  "",
  "Usage:",
  "  nandasm -c opcodes.toml [flags] source.asm",
  "",
  "Flags:",
  "      --ast                  dump the assembled program structure",
  "  -c, --config stringArray   opcode table (.toml or .star); may be repeated",
  "  -h, --help                 help for nandasm",
  "      --hex                  write a hex dump instead of binary",
  "      --json                 report errors as JSON on stderr",
  "      --list                 write an assembly listing",
  "  -o, --output string        binary output file ('-' for stdout)",
  "  -v, --verbose              verbose mode"]

/-- **The usage text.** -/
def usage : Text := usageLines.flatMap fun line => utf8 line ++ [Text.newline]

end Command

end TableAssembler
