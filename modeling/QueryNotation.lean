import QueryNotation.Chain.Arguments
import QueryNotation.Chain.Call
import QueryNotation.Chain.Literal
import QueryNotation.Chain.Reader
import QueryNotation.Chain.Segment
import QueryNotation.Chain.Service
import QueryNotation.Chain.Writer
import QueryNotation.Column
import QueryNotation.CommandLine.Arguments
import QueryNotation.CommandLine.Report
import QueryNotation.CommandLine.Run
import QueryNotation.Conversion
import QueryNotation.Decimal.Binary64
import QueryNotation.Decimal.Shortest
import QueryNotation.Embed
import QueryNotation.Fault
import QueryNotation.Filter
import QueryNotation.Json.Basic
import QueryNotation.Json.Number
import QueryNotation.Json.Printer
import QueryNotation.Json.Reader
import QueryNotation.Main
import QueryNotation.Metadata
import QueryNotation.Notation
import QueryNotation.Operator
import QueryNotation.Options
import QueryNotation.Proofs.Chain.Argument
import QueryNotation.Proofs.Chain.Call
import QueryNotation.Proofs.Chain.Comparison
import QueryNotation.Proofs.Chain.Filter
import QueryNotation.Proofs.Chain.Fold
import QueryNotation.Proofs.Chain.Formatting
import QueryNotation.Proofs.Chain.Nested
import QueryNotation.Proofs.Chain.Quoted
import QueryNotation.Proofs.Chain.Reading
import QueryNotation.Proofs.Chain.Received
import QueryNotation.Proofs.Chain.Reformatted
import QueryNotation.Proofs.Chain.Roundtrip
import QueryNotation.Proofs.Chain.Run
import QueryNotation.Proofs.Chain.SelectPlace
import QueryNotation.Proofs.Chain.Service
import QueryNotation.Proofs.Chain.Spelling
import QueryNotation.Proofs.Chain.Tagged
import QueryNotation.Proofs.Chain.Value
import QueryNotation.Proofs.Column
import QueryNotation.Proofs.Comparison
import QueryNotation.Proofs.Embed
import QueryNotation.Proofs.EmbedAddress
import QueryNotation.Proofs.EmbedPath
import QueryNotation.Proofs.EmbedPlace
import QueryNotation.Proofs.Json.Number
import QueryNotation.Proofs.Json.Printer
import QueryNotation.Proofs.Json.Quoted
import QueryNotation.Proofs.Json.Text
import QueryNotation.Proofs.Metadata
import QueryNotation.Proofs.Number
import QueryNotation.Proofs.Numeral
import QueryNotation.Proofs.Outcome
import QueryNotation.Proofs.Precision
import QueryNotation.Proofs.Request.Headers
import QueryNotation.Proofs.Request.QueryString
import QueryNotation.Proofs.Request.Text
import QueryNotation.Proofs.RequestOnly
import QueryNotation.Proofs.Rest.Comparison
import QueryNotation.Proofs.Rest.Configuration
import QueryNotation.Proofs.Rest.Edit
import QueryNotation.Proofs.Rest.Edits
import QueryNotation.Proofs.Rest.Filter
import QueryNotation.Proofs.Rest.Grouped
import QueryNotation.Proofs.Rest.Header
import QueryNotation.Proofs.Rest.Meaning
import QueryNotation.Proofs.Rest.Modifiers
import QueryNotation.Proofs.Rest.Parameter
import QueryNotation.Proofs.Rest.Reorder
import QueryNotation.Proofs.Rest.Reserved
import QueryNotation.Proofs.Rest.Roundtrip
import QueryNotation.Proofs.Rest.Routing
import QueryNotation.Proofs.Rest.Text
import QueryNotation.Proofs.SelectList
import QueryNotation.Proofs.SelectList.Brackets
import QueryNotation.Proofs.SelectList.Cast
import QueryNotation.Proofs.Sql.Change
import QueryNotation.Proofs.Sql.Comparison
import QueryNotation.Proofs.Sql.Condition
import QueryNotation.Proofs.Sql.Deletion
import QueryNotation.Proofs.Sql.Denotation
import QueryNotation.Proofs.Sql.Dropped
import QueryNotation.Proofs.Sql.Grammar
import QueryNotation.Proofs.Sql.Identifier
import QueryNotation.Proofs.Sql.Insert
import QueryNotation.Proofs.Sql.Joined
import QueryNotation.Proofs.Sql.Mention
import QueryNotation.Proofs.Sql.Numeral
import QueryNotation.Proofs.Sql.Reading
import QueryNotation.Proofs.Sql.Reference
import QueryNotation.Proofs.Sql.Region
import QueryNotation.Proofs.Sql.Row
import QueryNotation.Proofs.Sql.Settled
import QueryNotation.Proofs.Sql.Spelling
import QueryNotation.Proofs.Sql.Statement
import QueryNotation.Proofs.Sql.Token
import QueryNotation.Proofs.Sql.Tree
import QueryNotation.Proofs.Sql.Unread
import QueryNotation.Proofs.Sql.Upsert
import QueryNotation.Proofs.Stability
import QueryNotation.Proofs.Text.Balanced
import QueryNotation.Proofs.Text.Blank
import QueryNotation.Proofs.Text.Bracket
import QueryNotation.Proofs.Text.Cut
import QueryNotation.Proofs.Text.Percent
import QueryNotation.Proofs.Text.Separated
import QueryNotation.Proofs.Text.Unsigned
import QueryNotation.Proofs.Text.Word
import QueryNotation.Proofs.TypeName
import QueryNotation.Proofs.Validation
import QueryNotation.Proofs.Value.Array
import QueryNotation.Proofs.Value.Number
import QueryNotation.Proofs.Value.Wire
import QueryNotation.Query
import QueryNotation.Request.Address
import QueryNotation.Request.Basic
import QueryNotation.Request.QueryString
import QueryNotation.Request.Text
import QueryNotation.Rest.Filter
import QueryNotation.Rest.Reader
import QueryNotation.Rest.Writer
import QueryNotation.SelectList
import QueryNotation.Settings
import QueryNotation.Sql.Clause
import QueryNotation.Sql.Condition
import QueryNotation.Sql.Delete
import QueryNotation.Sql.Grammar.Basic
import QueryNotation.Sql.Grammar.Call
import QueryNotation.Sql.Grammar.Change
import QueryNotation.Sql.Grammar.Definition
import QueryNotation.Sql.Grammar.Expression
import QueryNotation.Sql.Grammar.Level
import QueryNotation.Sql.Grammar.Operand
import QueryNotation.Sql.Grammar.Query
import QueryNotation.Sql.Grammar.Statement
import QueryNotation.Sql.Grammar.Table
import QueryNotation.Sql.Grammar.TypeName
import QueryNotation.Sql.Grammar.Window
import QueryNotation.Sql.Grammar.WordForm
import QueryNotation.Sql.Identifier
import QueryNotation.Sql.Insert
import QueryNotation.Sql.Join
import QueryNotation.Sql.Literal
import QueryNotation.Sql.Reader
import QueryNotation.Sql.Reader.Change
import QueryNotation.Sql.Reader.Column
import QueryNotation.Sql.Reader.Condition
import QueryNotation.Sql.Reader.Constant
import QueryNotation.Sql.Reader.Scope
import QueryNotation.Sql.Reader.Select
import QueryNotation.Sql.Select
import QueryNotation.Sql.Token
import QueryNotation.Sql.Token.Scan
import QueryNotation.Sql.Tree
import QueryNotation.Sql.Tree.Text
import QueryNotation.Sql.Update
import QueryNotation.Sql.Writer
import QueryNotation.Text.Blank
import QueryNotation.Text.Bracket
import QueryNotation.Text.Character
import QueryNotation.Text.Cut
import QueryNotation.Text.EditDistance
import QueryNotation.Text.Letter
import QueryNotation.Text.Percent
import QueryNotation.Text.Unsigned
import QueryNotation.Text.Utf8
import QueryNotation.Toml.Document
import QueryNotation.Toml.Scalar
import QueryNotation.TypeName
import QueryNotation.Validation
import QueryNotation.Value
import QueryNotation.Value.Wire
import QueryNotation.Proofs.Paging
import QueryNotation.Proofs.Sql.Quoted
import QueryNotation.Proofs.Sql.StringLiteral
import QueryNotation.Proofs.Sql.Qualifier
import QueryNotation.Proofs.Sql.Placement
import QueryNotation.Proofs.TypeName.Grammar
import QueryNotation.Proofs.Sql.Parts
import QueryNotation.Proofs.Sql.QuotedTable
import QueryNotation.Proofs.Rest.Preference
import QueryNotation.Proofs.Depth
