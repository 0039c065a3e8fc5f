import NotebookService.Text.Blank
import NotebookService.Text.Lines
import NotebookService.Text.Indent
import NotebookService.Text.Nesting
import NotebookService.Text.WordChar
import NotebookService.Text.Casing
import NotebookService.Table
import NotebookService.Decimal.Basic
import NotebookService.Decimal.Shortest
import NotebookService.Diagnostic
import NotebookService.Metadata.Value
import NotebookService.Metadata.Key
import NotebookService.Metadata.Inline
import NotebookService.Metadata.Block
import NotebookService.Field
import NotebookService.Declaration
import NotebookService.Directive
import NotebookService.Signature
import NotebookService.Code.Statement
import NotebookService.Code.Layout
import NotebookService.Code.Literal
import NotebookService.Endpoint.Route
import NotebookService.Endpoint.Http
import NotebookService.Endpoint.Socket
import NotebookService.Job
import NotebookService.Cell
import NotebookService.ServiceModule
import NotebookService.Session
import NotebookService.Json.Document
import NotebookService.Json.Reader
import NotebookService.Json.Value
import NotebookService.Json.Printer
import NotebookService.Ignore.Pattern
import NotebookService.Ignore.Rules
import NotebookService.Notebook
import NotebookService.Registry.Fault
import NotebookService.Registry.Outbound
import NotebookService.Registry.Basic
import NotebookService.Registry.Delivery
import NotebookService.Files.Path
import NotebookService.Files.Node
import NotebookService.Files.Disk
import NotebookService.Project.SupportModule
import NotebookService.Project.Error
import NotebookService.Project.Config
import NotebookService.Project.Listing
import NotebookService.Project.Report
import NotebookService.Project.Build
import NotebookService.Command.Arguments
import NotebookService.Command.Run
import NotebookService.Main
import NotebookService.Proofs.Registry.Invariant
import NotebookService.Proofs.Registry.History
import NotebookService.Proofs.Registry.Delivery
import NotebookService.Proofs.Registry.Routing
import NotebookService.Proofs.Registry.EmptyId
import NotebookService.Proofs.Text.Indent
import NotebookService.Proofs.Text.Lines
import NotebookService.Proofs.Text.Bytes
import NotebookService.Proofs.Declaration.Forms
import NotebookService.Proofs.Declaration.Conserved
import NotebookService.Proofs.Decimal.Digits
import NotebookService.Proofs.Text.WordChar
import NotebookService.Proofs.Text.Ascii
import NotebookService.Proofs.Metadata.Row
import NotebookService.Proofs.Metadata.Scalar
import NotebookService.Proofs.Metadata.BlockStyle
import NotebookService.Proofs.Metadata.Result
import NotebookService.Proofs.Metadata.Placed
import NotebookService.Proofs.Metadata.Layout
import NotebookService.Proofs.Metadata.Composed
import NotebookService.Proofs.Metadata.Blamed
import NotebookService.Proofs.Metadata.Taken
import NotebookService.Proofs.Metadata.Keyed
import NotebookService.Proofs.Metadata.Quoting
import NotebookService.Proofs.Endpoint.Names
import NotebookService.Proofs.Cell.Explained
import NotebookService.Proofs.Text.Nesting
import NotebookService.Proofs.Text.TopLevel
import NotebookService.Proofs.Metadata.Flow
import NotebookService.Proofs.Metadata.Quoted
import NotebookService.Proofs.Field.Written
import NotebookService.Proofs.Field.Spellings
import NotebookService.Proofs.Field.Names
import NotebookService.Proofs.Field.Markers
import NotebookService.Proofs.Files.Path
import NotebookService.Proofs.Files.Node
import NotebookService.Proofs.Files.Disk
import NotebookService.Proofs.Project.Building
import NotebookService.Proofs.Project.Walk
import NotebookService.Proofs.Project.Listed
import NotebookService.Proofs.Project.Reached
import NotebookService.Proofs.Project.Laid
import NotebookService.Proofs.Project.Copied
import NotebookService.Proofs.Project.Rebuilt
import NotebookService.Proofs.Project.Removed
import NotebookService.Proofs.Notebook.Written
import NotebookService.Proofs.Code.Layout
import NotebookService.Proofs.Code.Suites
import NotebookService.Proofs.Code.Items
import NotebookService.Proofs.Code.Outline
import NotebookService.Proofs.Code.Verbatim
import NotebookService.Proofs.Code.Literal
import NotebookService.Proofs.Cell.Head
import NotebookService.Proofs.Cell.Outcome
import NotebookService.Proofs.Cell.Errors
import NotebookService.Proofs.Cell.Suites
import NotebookService.Proofs.Cell.Rendered
import NotebookService.Proofs.Cell.Blamed
import NotebookService.Proofs.ServiceModule.Assembly
import NotebookService.Proofs.ServiceModule.Isolation
import NotebookService.Proofs.Session.Names
import NotebookService.Proofs.Endpoint.Agreement
import NotebookService.Proofs.Endpoint.Locals
import NotebookService.Proofs.Endpoint.Binding
import NotebookService.Proofs.Endpoint.Path
import NotebookService.Proofs.Signature.Line
import NotebookService.Proofs.Signature.Reader
import NotebookService.Proofs.Signature.Edited
import NotebookService.Proofs.Signature.Comments
import NotebookService.Proofs.Signature.Written
import NotebookService.Proofs.Signature.ReadBack
import NotebookService.Proofs.Job.Splice
import NotebookService.Proofs.Job.Decorators
import NotebookService.Proofs.Job.Wrapped
import NotebookService.Proofs.Job.Interval
import NotebookService.Proofs.Ignore.Reincluded
import NotebookService.Proofs.Ignore.Matching
import NotebookService.Proofs.Ignore.TakenBack
import NotebookService.Proofs.Files.Tree
import NotebookService.Proofs.Files.Making
import NotebookService.Proofs.Files.Removing
import NotebookService.Proofs.Endpoint.ClassNames
import NotebookService.Proofs.Endpoint.ParameterOrder
import NotebookService.Proofs.Metadata.Rounds
import NotebookService.Proofs.Metadata.Progress
