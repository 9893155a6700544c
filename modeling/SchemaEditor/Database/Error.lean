import SchemaEditor.Engine.Basic
import SchemaEditor.Json.Error
import SchemaEditor.Table.Basic

/-!
# Errors of database operations

Each way an operation can fail, and how it is worded.
-/

namespace SchemaEditor

/-- The steps of a table rebuild that can fail. -/
inductive RebuildStep where
  | createTable
  | copyData
  | dropTable
  | foreignKeyCheck
deriving DecidableEq, Repr

def RebuildStep.describe : RebuildStep → String
  | createTable => "creating new table"
  | copyData => "copying data"
  | dropTable => "deleting old table"
  | foreignKeyCheck => "checking foreign keys"

inductive SchemaError where
  | parse (table text : String)
  | tableNotFound (name : String)
  | columnNotFound (table column : String)
  | savepointNotFound (name : String)
  | engine (e : EngineError)
  | transform (step : RebuildStep) (e : EngineError)
  | renameTable (source target : String) (e : EngineError)
  | conflict (text : String)
  | cancelled
  | invalidSchema (e : ModelError)
  | invalidArgument (text : String)
  | notADatabase (path : String)
  | csvColumnMismatch (table : String) (expected found : Nat)
  | io (text : String)
  | serialization (e : JsonError)
deriving DecidableEq, Repr

namespace SchemaError

def message : SchemaError → String
  | parse table text => "Could not parse the definition of table '" ++ table ++ "': " ++ text
  | tableNotFound name => "Table '" ++ name ++ "' not found"
  | columnNotFound table column => "Column '" ++ column ++ "' not found in table '" ++ table ++ "'"
  | savepointNotFound name => "Savepoint '" ++ name ++ "' is not active"
  | engine e => e.message
  | transform step e => step.describe ++ " failed: " ++ e.message
  | renameTable source target e =>
    "Error renaming table '" ++ source ++ "' to '" ++ target ++ "'. Message from database engine: " ++ e.message
  | conflict text => "Conflicting operation in progress: " ++ text
  | cancelled => "Operation cancelled"
  | invalidSchema e => "Invalid table definition: " ++ e.message
  | invalidArgument text => "Invalid argument: " ++ text
  | notADatabase path => "Not a SQLite database: " ++ path
  | csvColumnMismatch table expected found =>
    "Table '" ++ table ++ "' has " ++ toString expected ++ " columns but the file has " ++ toString found
  | io text => "IO error: " ++ text
  | serialization e => "Serialization error: " ++ e.message

/-- What caused an error, in the words of the cause. -/
def causes : SchemaError → List String
  | transform _ e | renameTable _ _ e => [e.message]
  | invalidSchema e => [e.message]
  | io text => [text]
  | serialization e => [e.message]
  | _ => []

/-! ## Conflicts and arguments -/

def savepointInUse (name : String) : SchemaError :=
  conflict ("savepoint '" ++ name ++ "' from an earlier operation is still active")

def pendingChanges : SchemaError :=
  conflict <| "foreign key enforcement cannot be suspended while changes are pending; "
    ++ "commit or revert them first"

def noColumns (table : String) : SchemaError := invalidArgument ("table '" ++ table ++ "' has no columns")

def keyColumn (column table : String) : SchemaError :=
  invalidArgument ("cannot add PRIMARY KEY or UNIQUE column '" ++ column ++ "' to '" ++ table ++ "'")

def moveOutside (column : String) (offset : Int) : SchemaError :=
  invalidArgument ("cannot move column '" ++ column ++ "' by " ++ toString offset)

def onlyColumn (column table : String) : SchemaError :=
  invalidArgument ("cannot drop '" ++ column ++ "', the only column of '" ++ table ++ "'")

def pragmaName (name : String) : SchemaError := invalidArgument ("invalid pragma name '" ++ name ++ "'")

def pragmaValue (name value : String) : SchemaError :=
  invalidArgument ("invalid value '" ++ value ++ "' for pragma " ++ name)

end SchemaError

end SchemaEditor
