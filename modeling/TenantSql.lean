import TenantSql.Audit.Concern
import TenantSql.Audit.Project
import TenantSql.Build.Project
import TenantSql.Build.Stage
import TenantSql.Check.Checked
import TenantSql.Check.Read
import TenantSql.CommandLine.Arguments
import TenantSql.CommandLine.Command
import TenantSql.CommandLine.Option
import TenantSql.Definition.Error
import TenantSql.Definition.File
import TenantSql.Definition.Link
import TenantSql.Definition.Project
import TenantSql.Definition.Relations
import TenantSql.Definition.Sketch
import TenantSql.Diagnostic
import TenantSql.Digest.Sha256
import TenantSql.Disk.Failure
import TenantSql.Disk.Path
import TenantSql.Disk.Tree
import TenantSql.Export.Exporter
import TenantSql.Export.Manifest
import TenantSql.Formatter.Command
import TenantSql.Generation.Task
import TenantSql.Json.Printer
import TenantSql.Json.Reader
import TenantSql.Main
import TenantSql.Migration.Printer
import TenantSql.Migration.Order
import TenantSql.Migration.Script
import TenantSql.Migration.Table
import TenantSql.Model.Assignment
import TenantSql.Model.Basic
import TenantSql.Model.Field
import TenantSql.Model.Identifier
import TenantSql.Model.Kinds
import TenantSql.Model.Read
import TenantSql.Model.Record
import TenantSql.Model.Relation
import TenantSql.Model.Settings
import TenantSql.Number.Binary64
import TenantSql.Number.Decimal
import TenantSql.Number.Integer
import TenantSql.Output.FileMap
import TenantSql.Output.Files
import TenantSql.Query.Identity
import TenantSql.Query.Operation
import TenantSql.Query.Order
import TenantSql.Query.Plan
import TenantSql.Query.Population
import TenantSql.Query.Write
import TenantSql.Report.Record
import TenantSql.Report.Report
import TenantSql.Shell.Builtin
import TenantSql.Shell.Place
import TenantSql.Shell.Print
import TenantSql.Shell.Reader
import TenantSql.Shell.Run
import TenantSql.Shell.Script
import TenantSql.Shell.State
import TenantSql.Shell.Utilities
import TenantSql.Sql.Builder
import TenantSql.Sql.Draft
import TenantSql.Sql.Piece
import TenantSql.Sql.Printer
import TenantSql.Sql.Quoting
import TenantSql.Sql.Session
import TenantSql.Sql.Statement
import TenantSql.Text.Blank
import TenantSql.Text.CharRange
import TenantSql.Text.Order
import TenantSql.Text.SnakeCase
import TenantSql.Text.Quoted
import TenantSql.Text.WordChar
import TenantSql.Value.Basic
import TenantSql.Value.Date
import TenantSql.Value.Display
import TenantSql.Value.Fault
import TenantSql.Value.Sequence
import TenantSql.Yaml.Calendar
import TenantSql.Yaml.Cursor
import TenantSql.Yaml.Grammar
import TenantSql.Yaml.Lexer
import TenantSql.Yaml.Merge
import TenantSql.Yaml.Node
import TenantSql.Yaml.Number
import TenantSql.Yaml.Property
import TenantSql.Yaml.Reader
import TenantSql.Yaml.Text
import TenantSql.Proofs.Sql.Legible
import TenantSql.Proofs.Sql.EachName
import TenantSql.Proofs.Audit.Passed
import TenantSql.Proofs.Check.Result
import TenantSql.Proofs.Definition.Field
import TenantSql.Proofs.Definition.Link
import TenantSql.Proofs.Definition.Loaded
import TenantSql.Proofs.Query.Closure
import TenantSql.Proofs.Query.Population
import TenantSql.Proofs.Query.Tenancy
import TenantSql.Proofs.Build.Files
import TenantSql.Proofs.Generation.Run
import TenantSql.Proofs.Migration.Agreement
import TenantSql.Proofs.Output.QueryFiles
import TenantSql.Proofs.Query.PlanName
import TenantSql.Proofs.Query.Lexemes
import TenantSql.Proofs.Generation.Catalogue
import TenantSql.Proofs.Sql.Session
import TenantSql.Proofs.Query.Values
import TenantSql.Proofs.Migration.Order
import TenantSql.Proofs.Migration.Scripts
import TenantSql.Proofs.Generation.Pool
import TenantSql.Proofs.Definition.ForeignKeys
import TenantSql.Proofs.Definition.Reordering
import TenantSql.Proofs.Definition.Reported
import TenantSql.Proofs.Query.Deletion
import TenantSql.Proofs.Sql.Uses
import TenantSql.Proofs.Query.Outputs
import TenantSql.Proofs.Query.Covers
import TenantSql.Proofs.Query.Global
import TenantSql.Proofs.Query.Withheld
import TenantSql.Proofs.Build.Gates
import TenantSql.Proofs.Migration.Dependencies
import TenantSql.Proofs.Migration.Spelling
import TenantSql.Proofs.Query.Permission
import TenantSql.Proofs.Query.PairedTypes
import TenantSql.Proofs.Query.Returning
import TenantSql.Proofs.Query.Tier
import TenantSql.Proofs.Definition.Crossing
import TenantSql.Proofs.Query.Removal
import TenantSql.Proofs.Query.NestedRows
import TenantSql.Proofs.Query.Labels
import TenantSql.Proofs.Migration.IndexNames
import TenantSql.Proofs.Query.Order
import TenantSql.Proofs.Json.RoundTrip
import TenantSql.Proofs.Build.QueryLists
import TenantSql.Proofs.Build.Survivors
import TenantSql.Proofs.Export.Protection
import TenantSql.Proofs.Text.SnakeCase
