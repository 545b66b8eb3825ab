import TableAssembler.Text.Basic
import TableAssembler.Text.Name
import TableAssembler.Text.Numeral
import TableAssembler.Text.Printable
import TableAssembler.Text.Quoted
import TableAssembler.Text.Search
import TableAssembler.Text.Letter
import TableAssembler.Span
import TableAssembler.Token.Basic
import TableAssembler.Token.Number
import TableAssembler.Token.Lexer
import TableAssembler.Opcode.Kind
import TableAssembler.Opcode.Table
import TableAssembler.Opcode.Config
import TableAssembler.Error.Source
import TableAssembler.Error.Table
import TableAssembler.Error.Failure
import TableAssembler.Statement.Basic
import TableAssembler.Statement.Parser
import TableAssembler.Program.Basic
import TableAssembler.Program.Resolver
import TableAssembler.Program.HexDump
import TableAssembler.Program.Outline
import TableAssembler.Assembler
import TableAssembler.Lookahead
import TableAssembler.Sequence
import TableAssembler.Session
import TableAssembler.Report.Basic
import TableAssembler.Report.Json
import TableAssembler.File.Path
import TableAssembler.File.Store
import TableAssembler.File.Tree
import TableAssembler.Binary64.Basic
import TableAssembler.Binary64.Decimal
import TableAssembler.Toml.Scalar
import TableAssembler.Toml.Quoted
import TableAssembler.Toml.Reader
import TableAssembler.Toml.Document
import TableAssembler.Script.Token
import TableAssembler.Script.Lexer
import TableAssembler.Script.Tree
import TableAssembler.Script.Parser
import TableAssembler.Script.Scope
import TableAssembler.Script.Value
import TableAssembler.Script.Show
import TableAssembler.Script.Compare
import TableAssembler.Script.Format
import TableAssembler.Script.Operator
import TableAssembler.Script.Method
import TableAssembler.Script.Builtin
import TableAssembler.Script.Run
import TableAssembler.OpcodeFile.Entry
import TableAssembler.OpcodeFile.Document
import TableAssembler.OpcodeFile.Script
import TableAssembler.OpcodeFile.Load
import TableAssembler.Command.Options
import TableAssembler.Command.Usage
import TableAssembler.Command.Run
import TableAssembler.Main
import TableAssembler.Proofs.Outcome
import TableAssembler.Proofs.File.Path
import TableAssembler.Proofs.File.Tree
import TableAssembler.Proofs.Command.Effect
import TableAssembler.Proofs.Command.Inputs
import TableAssembler.Proofs.Text.Runes
import TableAssembler.Proofs.Opcode.Table
import TableAssembler.Proofs.Opcode.Config
import TableAssembler.Proofs.Program.Layout
import TableAssembler.Proofs.Program.Encoding
import TableAssembler.Proofs.Program.Linking
import TableAssembler.Proofs.Program.Tiling
import TableAssembler.Proofs.Program.Independence
import TableAssembler.Proofs.Program.Faults
import TableAssembler.Proofs.Program.Decoding
import TableAssembler.Proofs.Program.Relocation
import TableAssembler.Proofs.Statement.Advance
import TableAssembler.Proofs.Statement.Skeleton
import TableAssembler.Proofs.Statement.Grammar
import TableAssembler.Proofs.Statement.Refusal
import TableAssembler.Proofs.Likeness
import TableAssembler.Proofs.Statement.Likeness
import TableAssembler.Proofs.Program.Likeness
import TableAssembler.Proofs.Program.Renaming
import TableAssembler.Proofs.Token.Lexemes
import TableAssembler.Proofs.Token.Position
import TableAssembler.Proofs.Token.Partition
import TableAssembler.Proofs.Statement.Printing
import TableAssembler.Proofs.Location
import TableAssembler.Proofs.Seam
import TableAssembler.Proofs.Joining
import TableAssembler.Proofs.Token.Outline
import TableAssembler.Proofs.Relayout
import TableAssembler.Proofs.Token.Literal
import TableAssembler.Proofs.Writing
import TableAssembler.Proofs.Program.Rules
import TableAssembler.Proofs.Token.Coordinates
import TableAssembler.Proofs.Token.Cutting
import TableAssembler.Proofs.Mnemonics
import TableAssembler.Proofs.Numbers
import TableAssembler.Proofs.Statement.Spans
import TableAssembler.Proofs.Excerpt
import TableAssembler.Proofs.Error.Tree
import TableAssembler.Proofs.Opcode.Validation
import TableAssembler.Proofs.Program.Listing
import TableAssembler.Proofs.Report
import TableAssembler.Proofs.Program.Labels
import TableAssembler.Proofs.Program.Fixups
import TableAssembler.Proofs.Script.Host
import TableAssembler.Proofs.OpcodeFile.Entry
import TableAssembler.Proofs.OpcodeFile.Calls
import TableAssembler.Proofs.OpcodeFile.Formats
import TableAssembler.Proofs.OpcodeFile.Loading
import TableAssembler.Proofs.Cursor
import TableAssembler.Proofs.Session
