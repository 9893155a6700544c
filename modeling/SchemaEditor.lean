import SchemaEditor.Command.Run
import SchemaEditor.Main
import SchemaEditor.Database.Rebuild
import SchemaEditor.Database.Transfer
import SchemaEditor.Proofs.Csv.RoundTrip
import SchemaEditor.Proofs.Database.Dependents
import SchemaEditor.Proofs.Database.ExportImport
import SchemaEditor.Proofs.Database.ForeignKeys
import SchemaEditor.Proofs.Database.Import
import SchemaEditor.Proofs.Database.Mirror
import SchemaEditor.Proofs.Database.Values
import SchemaEditor.Proofs.Table.RoundTrip
import SchemaEditor.Settings
import SchemaEditor.Sql.Script
import SchemaEditor.Store.Connection
import SchemaEditor.Store.Image
import SchemaEditor.Table.Stored
import SchemaEditor.Proofs.Table.Grammar
import SchemaEditor.Proofs.Table.Clauses
import SchemaEditor.Proofs.Table.Statements
import SchemaEditor.Proofs.Table.Losses
import SchemaEditor.Proofs.Sql.Truncation
import SchemaEditor.Proofs.Table.Nesting
import SchemaEditor.Proofs.Table.Closing
import SchemaEditor.Proofs.Table.Accepted
import SchemaEditor.Proofs.Table.Results
import SchemaEditor.Proofs.Table.FixedPoint
import SchemaEditor.Proofs.Command.Files
import SchemaEditor.Proofs.Command.Runs
import SchemaEditor.Proofs.Database.AssignedKeys
import SchemaEditor.Proofs.Database.Described
import SchemaEditor.Proofs.Database.Bookkeeping
import SchemaEditor.Proofs.Sql.Remainders
import SchemaEditor.Proofs.Sql.Splitting
import SchemaEditor.Proofs.Table.Items
import SchemaEditor.Proofs.Database.Placement
import SchemaEditor.Proofs.Database.Moves
import SchemaEditor.Proofs.Table.RowColumn
import SchemaEditor.Proofs.Sql.Triggers
import SchemaEditor.Proofs.Table.LexicalErrors
import SchemaEditor.Proofs.Table.References
import SchemaEditor.Proofs.Sql.Returns
import SchemaEditor.Proofs.Table.Layout
import SchemaEditor.Proofs.Table.Returns
import SchemaEditor.Proofs.Database.Header
import SchemaEditor.Proofs.Csv.Limits
import SchemaEditor.Proofs.Sql.Neighbours
import SchemaEditor.Proofs.Table.Compacting
import SchemaEditor.Proofs.Sql.Tiling
import SchemaEditor.Proofs.Sql.Quoting
import SchemaEditor.Proofs.Table.Progress
