import CrudUi.Ascending
import CrudUi.Calendar
import CrudUi.CommandLine.Address
import CrudUi.CommandLine.Arguments
import CrudUi.CommandLine.Batch
import CrudUi.CommandLine.Failure
import CrudUi.CommandLine.FilePath
import CrudUi.CommandLine.FileSystem
import CrudUi.CommandLine.FileTree
import CrudUi.CommandLine.Origin
import CrudUi.CommandLine.Output
import CrudUi.CommandLine.OutputFormat
import CrudUi.CommandLine.Program
import CrudUi.Compile
import CrudUi.Crud.Action
import CrudUi.Crud.Path
import CrudUi.Decode
import CrudUi.Double
import CrudUi.Double.Shortest
import CrudUi.Entries
import CrudUi.Errors
import CrudUi.Inference.FieldType
import CrudUi.Inference.Fields
import CrudUi.Inference.Views
import CrudUi.Json
import CrudUi.Json.Node
import CrudUi.Json.Numeral
import CrudUi.Json.Printing
import CrudUi.Json.TextError
import CrudUi.Json.Token
import CrudUi.Main
import CrudUi.Naming
import CrudUi.OpenApi.Document
import CrudUi.OpenApi.Document.Reading
import CrudUi.OpenApi.Method
import CrudUi.OpenApi.Reference
import CrudUi.OpenApi.Resolution
import CrudUi.OpenApi.Schema
import CrudUi.OpenApi.Schema.Keywords
import CrudUi.Proofs.Ascending.Members
import CrudUi.Proofs.Calendar
import CrudUi.Proofs.CommandLine.Batch
import CrudUi.Proofs.CommandLine.Commands
import CrudUi.Proofs.CommandLine.Documents
import CrudUi.Proofs.CommandLine.Edits
import CrudUi.Proofs.CommandLine.FilePaths
import CrudUi.Proofs.CommandLine.FileTree
import CrudUi.Proofs.CommandLine.Listing
import CrudUi.Proofs.CommandLine.Outputs
import CrudUi.Proofs.CommandLine.Rerun
import CrudUi.Proofs.Compile.Choices
import CrudUi.Proofs.Compile.DeclarationOrder
import CrudUi.Proofs.Compile.Entities
import CrudUi.Proofs.Compile.PathOrder
import CrudUi.Proofs.Compile.Reachability
import CrudUi.Proofs.Compile.Success
import CrudUi.Proofs.Compile.WellFormed
import CrudUi.Proofs.Computations
import CrudUi.Proofs.Crud.Collections
import CrudUi.Proofs.Crud.Slashes
import CrudUi.Proofs.Decode.Places
import CrudUi.Proofs.Decode.Records
import CrudUi.Proofs.Entries.Merging
import CrudUi.Proofs.Entries.Reordering
import CrudUi.Proofs.Entries.Values
import CrudUi.Proofs.Inference.Choices
import CrudUi.Proofs.Inference.FieldNames
import CrudUi.Proofs.Inference.NamedFields
import CrudUi.Proofs.Inference.Polymorphism
import CrudUi.Proofs.Inference.Projections
import CrudUi.Proofs.Inference.Properties
import CrudUi.Proofs.Inference.Reachability
import CrudUi.Proofs.Inference.ReferenceNodes
import CrudUi.Proofs.Inference.Reordering
import CrudUi.Proofs.Inference.Unwrapping
import CrudUi.Proofs.Inference.ViewOrder
import CrudUi.Proofs.Json.Names
import CrudUi.Proofs.Json.Rereading
import CrudUi.Proofs.Json.Tokens
import CrudUi.Proofs.OpenApi.Choices
import CrudUi.Proofs.OpenApi.DocumentPlaces
import CrudUi.Proofs.OpenApi.Keywords
import CrudUi.Proofs.OpenApi.KnownKeys
import CrudUi.Proofs.OpenApi.References
import CrudUi.Proofs.OpenApi.Reordering
import CrudUi.Proofs.OpenApi.Respelling
import CrudUi.Proofs.OpenApi.SchemaPlaces
import CrudUi.Proofs.Places
import CrudUi.Proofs.Resolution.Choices
import CrudUi.Proofs.Resolution.Flags
import CrudUi.Proofs.Resolution.Folding
import CrudUi.Proofs.Resolution.Induction
import CrudUi.Proofs.Resolution.Inlining
import CrudUi.Proofs.Resolution.Items
import CrudUi.Proofs.Resolution.Nesting
import CrudUi.Proofs.Resolution.NormalForm
import CrudUi.Proofs.Resolution.Origins
import CrudUi.Proofs.Resolution.Reachability
import CrudUi.Proofs.Resolution.Reordering
import CrudUi.Proofs.Server.Isolation
import CrudUi.Proofs.Server.Statuses
import CrudUi.Proofs.Store.Allocation
import CrudUi.Proofs.Store.AssignedKeys
import CrudUi.Proofs.Store.Counter
import CrudUi.Proofs.Store.Creation
import CrudUi.Proofs.Store.Forms
import CrudUi.Proofs.Store.Keys
import CrudUi.Proofs.Store.Refusals
import CrudUi.Proofs.Store.Removal
import CrudUi.Proofs.Store.Runs
import CrudUi.Proofs.Store.SampleKeys
import CrudUi.Proofs.Store.Samples
import CrudUi.Proofs.Store.Validity
import CrudUi.Proofs.Text.ByteOrder
import CrudUi.Proofs.Text.Percent
import CrudUi.Proofs.Text.Utf8
import CrudUi.Proofs.Ui.Rereading
import CrudUi.Proofs.Ui.Texts
import CrudUi.Proofs.Walk.Grouping
import CrudUi.Proofs.Walk.Names
import CrudUi.Proofs.Walk.Reordering
import CrudUi.Proofs.Walk.SchemaMaps
import CrudUi.Proofs.Walk.Selection
import CrudUi.Server
import CrudUi.Server.Route
import CrudUi.Store
import CrudUi.Store.Backend
import CrudUi.Store.Sample
import CrudUi.Store.Validation
import CrudUi.Text.CaseMap
import CrudUi.Text.CodePoints
import CrudUi.Text.Hex
import CrudUi.Text.Letters
import CrudUi.Text.Percent
import CrudUi.Text.Quoted
import CrudUi.Text.Split
import CrudUi.Text.Utf8
import CrudUi.Text.Words
import CrudUi.Ui.Entity
import CrudUi.Ui.Field
import CrudUi.Ui.Reading
import CrudUi.Ui.Writing
import CrudUi.Walk.Draft
import CrudUi.Walk.Identity
import CrudUi.Walk.Payload
import CrudUi.Yaml.Cell
import CrudUi.Yaml.Node
import CrudUi.Yaml.Printing
import CrudUi.Yaml.Reading
import CrudUi.Yaml.Scalar
import CrudUi.Yaml.Token
import CrudUi.Yaml.Token.Block
import CrudUi.Yaml.Token.Layout
import CrudUi.Yaml.Token.Scalar
import CrudUi.Yaml.Token.Tag
import CrudUi.Yaml.Tree
