import FieldProgram.Address.Basic
import FieldProgram.Address.Reader
import FieldProgram.Artifact.Error
import FieldProgram.Artifact.Layout
import FieldProgram.Artifact.Load
import FieldProgram.Artifact.Sections
import FieldProgram.Artifact.Source
import FieldProgram.Binary64.Basic
import FieldProgram.Binary64.Shortest
import FieldProgram.Binary64.Text
import FieldProgram.CommandLine.Options
import FieldProgram.CommandLine.Run
import FieldProgram.CommandLine.Summary
import FieldProgram.Document.Basic
import FieldProgram.Document.Display
import FieldProgram.Document.Integer
import FieldProgram.Document.Layer
import FieldProgram.Entries
import FieldProgram.Files
import FieldProgram.Hint
import FieldProgram.Identifier
import FieldProgram.Json.Error
import FieldProgram.Json.Reader
import FieldProgram.Json.Token
import FieldProgram.Json.Writer
import FieldProgram.Log
import FieldProgram.Main
import FieldProgram.Numeral.Decimal
import FieldProgram.Numeral.Hexadecimal
import FieldProgram.Numeral.Literal
import FieldProgram.Numeral.Positional
import FieldProgram.Program.Basic
import FieldProgram.Proofs.Matched
import FieldProgram.Proofs.Numeral.Positional
import FieldProgram.Record.Fault
import FieldProgram.Record.Field
import FieldProgram.Reference.Basic
import FieldProgram.Reference.Table
import FieldProgram.Room
import FieldProgram.Schema.Basic
import FieldProgram.Settings.Basic
import FieldProgram.Settings.Source
import FieldProgram.Text.Basic
import FieldProgram.Text.Blank
import FieldProgram.Text.CaseContext
import FieldProgram.Text.CodeRanges
import FieldProgram.Text.DecimalDigit
import FieldProgram.Text.Lowercase
import FieldProgram.Text.Octets
import FieldProgram.Text.Position
import FieldProgram.Text.Printable
import FieldProgram.Text.Quoted
import FieldProgram.Text.Sniffed
import FieldProgram.Text.Template
import FieldProgram.Text.Utf8
import FieldProgram.Text.WideUnits
import FieldProgram.Text.WordChar
import FieldProgram.Word.Arithmetic
import FieldProgram.Word.Basic
import FieldProgram.Word.Codec
import FieldProgram.Word.Order
import FieldProgram.Yaml.Atom
import FieldProgram.Yaml.Base64
import FieldProgram.Yaml.Cursor
import FieldProgram.Yaml.Fault
import FieldProgram.Yaml.Form
import FieldProgram.Yaml.Lexer
import FieldProgram.Yaml.Node.Basic
import FieldProgram.Yaml.Node.Merge
import FieldProgram.Yaml.Node.OfTokens
import FieldProgram.Yaml.Number
import FieldProgram.Yaml.Property
import FieldProgram.Yaml.Read
import FieldProgram.Yaml.Scalar.Block
import FieldProgram.Yaml.Scalar.Plain
import FieldProgram.Yaml.Scalar.Quoted
import FieldProgram.Yaml.Timestamp
import FieldProgram.Yaml.Token
import FieldProgram.Yaml.Value.Basic
import FieldProgram.Yaml.Value.KeyOrder
import FieldProgram.Yaml.Value.OfNodes
import FieldProgram.Proofs.Numeral.Length
import FieldProgram.Proofs.Numeral.Literal
import FieldProgram.Proofs.Record.Described
import FieldProgram.Proofs.Schema.Basic
import FieldProgram.Proofs.Artifact.Layout
import FieldProgram.Proofs.Document.Short
import FieldProgram.Proofs.Schema.Worded
import FieldProgram.Proofs.Json.Short
import FieldProgram.Proofs.Word.Described
import FieldProgram.Proofs.Artifact.Settled
import FieldProgram.Proofs.Artifact.Sections
import FieldProgram.Proofs.Artifact.HintKey
import FieldProgram.Proofs.Artifact.HintMembers
import FieldProgram.Proofs.Artifact.Load
import FieldProgram.Proofs.Program.WellFormed
import FieldProgram.Proofs.Program.Reload
import FieldProgram.Proofs.Artifact.Stages
import FieldProgram.Proofs.Artifact.FirstFault
import FieldProgram.Proofs.Artifact.Overrun
import FieldProgram.Proofs.Json.Taken
import FieldProgram.Proofs.Json.Grammar
import FieldProgram.Proofs.Json.Distinct
import FieldProgram.Proofs.Artifact.RepeatedKey
import FieldProgram.Proofs.Text.Blank
import FieldProgram.Proofs.Address.Grammar
import FieldProgram.Proofs.Address.Parts
import FieldProgram.Proofs.Address.Brackets
import FieldProgram.Proofs.Address.Forms
import FieldProgram.Proofs.Address.Nested
import FieldProgram.Proofs.Address.Reader
import FieldProgram.Proofs.Address.Render
import FieldProgram.Proofs.Json.Joined
import FieldProgram.Proofs.Json.Written
import FieldProgram.Proofs.Document.Every
import FieldProgram.Proofs.Program.Agree
import FieldProgram.Proofs.Program.Printed
import FieldProgram.Proofs.CommandLine.Inspect
import FieldProgram.Proofs.Json.Ascii
import FieldProgram.Proofs.CommandLine.Reload
import FieldProgram.Proofs.Document.OneLine
import FieldProgram.Proofs.Numeral.TextOrder
import FieldProgram.Proofs.Artifact.Builtins
import FieldProgram.Proofs.Document.Reordered
import FieldProgram.Proofs.Record.Reordered
import FieldProgram.Proofs.Artifact.Reordered
import FieldProgram.Proofs.Record.Known
import FieldProgram.Proofs.Artifact.Known
import FieldProgram.Proofs.Settings.Agreement
import FieldProgram.Proofs.Settings.Load
import FieldProgram.Proofs.Settings.Logging
import FieldProgram.Proofs.CommandLine.Settings
import FieldProgram.Proofs.CommandLine.Options
import FieldProgram.Proofs.CommandLine.ExpectedPrime
import FieldProgram.Proofs.CommandLine.Reading
import FieldProgram.Proofs.CommandLine.Blocks
import FieldProgram.Proofs.CommandLine.Seen
import FieldProgram.Proofs.CommandLine.Verbose
import FieldProgram.Proofs.CommandLine.Precedence
import FieldProgram.Proofs.Word.Expression
import FieldProgram.Proofs.Address.Dereferenced
import FieldProgram.Proofs.Text.Utf8
import FieldProgram.Proofs.Artifact.Source
import FieldProgram.Proofs.Numeral.Grammar
import FieldProgram.Proofs.Text.Decoded
import FieldProgram.Proofs.Json.Lexical
import FieldProgram.Proofs.Yaml.Cursor
import FieldProgram.Proofs.Yaml.Scalars
import FieldProgram.Proofs.Yaml.Brackets
import FieldProgram.Proofs.Yaml.Lexer
import FieldProgram.Proofs.Yaml.JsonTokens
import FieldProgram.Proofs.Yaml.Nodes
import FieldProgram.Proofs.Yaml.Members
import FieldProgram.Proofs.Settings.Apart
import FieldProgram.Proofs.CommandLine.Logging
import FieldProgram.Proofs.Text.Order
import FieldProgram.Proofs.Program.Observed
import FieldProgram.Proofs.Word.Canonical
import FieldProgram.Proofs.Word.Order
import FieldProgram.Proofs.Program.Hints
import FieldProgram.Proofs.Reference.Table
import FieldProgram.Proofs.Program.Naming
