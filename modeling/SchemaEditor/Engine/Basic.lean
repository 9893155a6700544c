import SchemaEditor.Number.Decimal
import SchemaEditor.Text.Utf8

/-!
# Database engines

What the library asks of a database engine. An engine has a state; each request gives an answer or an
error, and the state after it. A text may hold several statements, and those before a failing one stay
applied, so a failure has a state of its own.
-/

namespace SchemaEditor

inductive Value where
  | null
  | integer (n : Int)
  | real (x : Float)
  | text (s : String)
  | blob (bytes : List UInt8)
deriving DecidableEq, Repr, Inhabited

/-- A value as text. NULL is the empty text, and bytes are read as UTF-8 as far as they are. -/
def Value.shown : Value → String
  | .null => ""
  | .integer n => toString n
  | .real x => Decimal.print x
  | .text s => s
  | .blob bytes => String.ofList (Text.Utf8.decodeLossy bytes)

/-- An error in the engine's own words. -/
structure EngineError where
  text : String
  /-- Which statement of a script failed, counted from one. -/
  statement : Option Nat := none
deriving DecidableEq, Repr

namespace EngineError

def inStatement (e : EngineError) (n : Nat) : EngineError := { e with statement := some n }

def message (e : EngineError) : String :=
  match e.statement with
  | some n => "Error in statement #" ++ toString n ++ ": " ++ e.text
  | none => e.text

end EngineError

/-- A row of the engine's list of schema objects. An object that the engine made by itself has no SQL. -/
structure SchemaRow where
  kind : String
  name : String
  sql : Option String
  tableName : String
deriving DecidableEq, Repr

/-- A row that refers to a row that is not there. A row of a table without row numbers has no number. -/
structure Violation where
  child : String
  rowid : Option Int
  parent : String
deriving DecidableEq, Repr

/-- The rows that a query gave, and the error that came after them if one did. -/
structure QueryResult where
  rows : List (List Value)
  failure : Option EngineError := none
deriving DecidableEq, Repr

class Engine (σ : Type) where
  /-- Runs the statements of a text, and counts the rows they change. -/
  execute : String → σ → Except EngineError Nat × σ
  /-- Reads a setting of the connection. -/
  pragma : String → σ → Except EngineError String × σ
  /-- The schema objects, ordered by kind and name. -/
  schema : σ → Except EngineError (List SchemaRow)
  /-- The columns of a view, with their types. -/
  viewColumns : String → σ → Except EngineError (List (String × String))
  /-- The names of the columns that a query gives. -/
  queryColumns : String → σ → Except EngineError (List String)
  queryRows : String → σ → QueryResult × σ
  /-- Inserts one row of texts into a table; `none` is NULL. -/
  insertRow : String → List (Option String) → σ → Except EngineError Unit × σ
  violations : σ → Except EngineError (List Violation)

/-- How a database is opened. -/
structure Access where
  foreignKeys : Bool := false
  readOnly : Bool := false
  /-- Whether it is in a file, and not in memory. -/
  isFile : Bool := true
deriving DecidableEq, Repr

/-- How an engine keeps its data in files of the form `φ`. -/
class Storage (σ : Type) (φ : outParam Type) where
  empty : φ
  /-- Reads the bytes of a file. -/
  read : List UInt8 → Except EngineError φ
  openFile : φ → Access → σ
  /-- The connection after its file was emptied by other means. -/
  emptied : σ → σ
  /-- What the file holds once the connection is closed. -/
  close : σ → φ

end SchemaEditor
