import QueryBlend.Blend
import QueryBlend.CommandLine.Arguments
import QueryBlend.CommandLine.Command
import QueryBlend.CommandLine.Run
import QueryBlend.Definition
import QueryBlend.DerivedTable
import QueryBlend.Dialect
import QueryBlend.Dict
import QueryBlend.Files
import QueryBlend.Findings
import QueryBlend.JoinGraph
import QueryBlend.Json.Document
import QueryBlend.Json.Magnitude
import QueryBlend.Json.Reading
import QueryBlend.Json.Token
import QueryBlend.Json.Value
import QueryBlend.Main
import QueryBlend.Pivot
import QueryBlend.Request
import QueryBlend.Segments
import QueryBlend.Settings
import QueryBlend.Sql.Clause
import QueryBlend.Sql.Layout
import QueryBlend.Sql.TopLevel
import QueryBlend.Sql.Trailing
import QueryBlend.SqlSource
import QueryBlend.Statement
import QueryBlend.Template
import QueryBlend.Text.Basic
import QueryBlend.Text.Classes
import QueryBlend.Text.Pattern
import QueryBlend.Text.Properties
import QueryBlend.Text.Ranges
import QueryBlend.Text.Unprintable
import QueryBlend.Toml.Moment
import QueryBlend.Toml.Reader
import QueryBlend.Toml.Scalar
import QueryBlend.Toml.Value
import QueryBlend.Proofs.ListFacts
import QueryBlend.Proofs.Sql.Closed
import QueryBlend.Proofs.JoinGraph.Order
import QueryBlend.Proofs.JoinTree
import QueryBlend.Proofs.Sql.TopText
import QueryBlend.Proofs.Statement.Isolation
import QueryBlend.Proofs.Statement.Resolution
import QueryBlend.Proofs.Text.Forms
import QueryBlend.Proofs.Text.Substitution
import QueryBlend.Proofs.DerivedTable.BuildBlock
import QueryBlend.Proofs.Segments
import QueryBlend.Proofs.DerivedTable.StableViews
import QueryBlend.Proofs.Segments.Partition
import QueryBlend.Proofs.Statement.ColumnNames
import QueryBlend.Proofs.Statement.Selection
import QueryBlend.Proofs.Text.Occurrences
import QueryBlend.Proofs.Pivot.OrderAndCap
import QueryBlend.Proofs.Pivot.Wrapper
import QueryBlend.Proofs.Sql.Comment
import QueryBlend.Proofs.Statement.Comments
import QueryBlend.Proofs.Request.Isolation
import QueryBlend.Proofs.Json.Tokens
import QueryBlend.Proofs.Json.Documents
import QueryBlend.Proofs.Definition
import QueryBlend.Proofs.Sql.Totals
import QueryBlend.Proofs.Segments.Totals
import QueryBlend.Proofs.Sql.Cuts
import QueryBlend.Proofs.Sql.Lexemes
import QueryBlend.Proofs.Segments.Rendering
import QueryBlend.Proofs.Request.Placeholders
import QueryBlend.Proofs.Text.Places
import QueryBlend.Proofs.Sql.Standing
import QueryBlend.Proofs.Sql.RowCaps
import QueryBlend.Proofs.Sql.Announced
import QueryBlend.Proofs.Pivot.ExistingCap
import QueryBlend.Proofs.Text.Lines
import QueryBlend.Proofs.Text.Seams
import QueryBlend.Proofs.DerivedTable.Lines
import QueryBlend.Proofs.DerivedTable.Announcement
import QueryBlend.Proofs.Text.Ahead
import QueryBlend.Proofs.Pivot.Lists
import QueryBlend.Proofs.Pivot.Dimensions
import QueryBlend.Proofs.Pivot.Enclosed
import QueryBlend.Proofs.Pivot.Projections
import QueryBlend.Proofs.JoinGraph.Reports
import QueryBlend.Proofs.Text.Replacement
import QueryBlend.Proofs.DerivedTable.Redirection
import QueryBlend.Proofs.DerivedTable.Written
import QueryBlend.Proofs.Template
import QueryBlend.Proofs.Aliases
import QueryBlend.Proofs.SqlSource.Directory
import QueryBlend.Proofs.Pivot.RowFirst
import QueryBlend.Proofs.Sql.Agreement
import QueryBlend.Proofs.Sql.Seams
