import SchemaEditor.Database.Operation
import SchemaEditor.Table.Printer

/-!
# Creating tables

The changes that one statement makes: a new table, a new column at the end of a table, and a new name for
a table.
-/

namespace SchemaEditor

variable {σ : Type} [Engine σ]

/-! ## Statements -/

def addColumnSql (table : String) (f : Field) : String :=
  "ALTER TABLE " ++ quoteIdentifier table ++ " ADD COLUMN " ++ f.definition

def renameTableSql (source target : String) : String :=
  "ALTER TABLE " ++ quoteIdentifier source ++ " RENAME TO " ++ quoteIdentifier target

namespace Op

def checkModel (r : Except ModelError Unit) : Op σ Unit := ofExcept (r.mapError .invalidSchema)

def checkTable (name : String) : Op σ Unit := do
  if ((← catalog).table? name).isNone then throw (.tableNotFound name)

def createTableFrom (t : Table) : Op σ Unit := do
  checkModel t.validate
  if t.fields.isEmpty then throw (.noColumns t.name)
  let _ ← change "oxide_create_table" (execute t.sql)
  note (.tableCreated t.name)

def createTable (name : String) (fields : List Field) : Op σ Unit := createTableFrom { name, fields }

/-- Adds a column after the last one. A key or unique column cannot be added to a table that exists. -/
def addColumn (table : String) (f : Field) : Op σ Unit := do
  checkTable table
  if f.name = "" then throw (.invalidSchema .emptyFieldName)
  if f.primaryKey || f.unique then throw (.keyColumn f.name table)
  let _ ← change "oxide_add_column" (execute (addColumnSql table f))
  note (.columnAdded table f.name)

/-- Executes the renaming of a table. -/
def executeRename (source target : String) : Op σ Unit := do
  if let .error e ← tryExecute (renameTableSql source target) then throw (.renameTable source target e)

def renameTable (source target : String) : Op σ Unit := do
  checkTable source
  change "oxide_rename_table" (executeRename source target)
  note (.tableRenamed source target)

end Op

end SchemaEditor
