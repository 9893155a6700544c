import SchemaEditor.Csv.Decoder
import SchemaEditor.Csv.Encoder
import SchemaEditor.Database.Create

/-!
# Transfer of rows

Rows go out to delimited text and come in from it. NULL goes out as the empty text. Records come in by the
width of the first one, field for field into the columns of the table; fields that are missing at the end
are NULL. A table that does not exist is made, with a text column for each field.
-/

namespace SchemaEditor

variable {σ : Type} [Engine σ]

/-- Rows that were written as text. -/
structure Exported where
  rows : Nat
  text : String
deriving DecidableEq, Repr

/-- Rows that were written until the last one, or until an error. -/
structure Written extends Exported where
  failure : Option SchemaError := none

/-- The fields of a row of `width` columns. -/
def paddedRow (width : Nat) (row : List String) : List (Option String) :=
  (List.range width).map fun i => row[i]?

/-- The name of the column at `i`: as the header has it, or by its number. -/
def importedName (header : List String) (i : Nat) : String :=
  let name := Text.trimmed (header[i]?.getD "")
  if name = "" then "field" ++ toString (i + 1) else name

/-- The table that records of this width and header make. -/
def importedTable (name : String) (header : List String) (width : Nat) : Table :=
  { name, fields := (List.range width).map fun i => { name := importedName header i, sqlType := "TEXT" } }

/-- Parts the header from the other rows, if there is one. -/
def splitHeader (header : Bool) (rows : List (List String)) : List String × List (List String) :=
  if header then (rows.headD [], rows.tail) else ([], rows)

namespace Op

/-! ## Export -/

/-- Writes rows, unless it is stopped, and the error that came after them. -/
def writeRows (o : Csv.Options) (signal : Signal) (failure : Option SchemaError) : List (List Value) → Op σ Written
  | [] => return { rows := 0, text := "", failure }
  | row :: rows => do
    if ← poll signal then return { rows := 0, text := "", failure := some .cancelled }
    let rest ← writeRows o signal failure rows
    return { rest with
      rows := rest.rows + 1
      text := Csv.writeRecord o (row.map Value.shown) ++ rest.text }

/-- Writes the column names of a query. -/
def exportHeader (query : String) (o : Csv.Options) : Op σ String := do
  if o.header then
    return Csv.writeRecord o (← ofEngine (Engine.queryColumns query (← session).engine))
  else return ""

/-- Writes the rows of a query as far as they come. -/
def writeQuery (query : String) (o : Csv.Options) (signal : Signal) : Op σ Written := do
  let header ← exportHeader query o
  let result ← request (Engine.queryRows query)
  let w ← writeRows o signal (result.failure.map .engine) result.rows
  if w.failure.isNone then note (.exportedCsv w.rows)
  return { w with text := header ++ w.text }

/-- Writes the rows of a table or view as far as they come. -/
def writeTable (name : String) (o : Csv.Options) (signal : Signal) : Op σ Written := do
  match (← catalog).get? name with
  | none => throw (.tableNotFound name)
  | some object => writeQuery ("SELECT * FROM " ++ quoteIdentifier object.name) o signal

/-- What was written, if all of it was. -/
def completed (w : Written) : Op σ Exported := do
  if let some e := w.failure then throw e
  return w.toExported

/-- Writes all rows of a query. -/
def exportQuery (query : String) (o : Csv.Options) (signal : Signal) : Op σ Exported := do
  completed (← writeQuery query o signal)

/-- Writes all rows of a table or view. -/
def exportTable (name : String) (o : Csv.Options) (signal : Signal) : Op σ Exported := do
  completed (← writeTable name o signal)

/-! ## Import -/

/-- Reads records, and looks at the signal after each. -/
def decode (lines : List Csv.Line) (o : Csv.Options) (signal : Signal) : Op σ Csv.Decoded := fun s =>
  let after (n : Nat) := { s.progress with polls := s.progress.polls + n }
  match Csv.decodeLines o { cancelled := fun n => signal (after n) } lines with
  | .ok d => .ok d { s with progress := after d.records }
  | .error .cancelled => .error .cancelled s
  | .error .encoding => .error (.io "stream did not contain valid UTF-8") s

/-- The table to be made for an import, unless there is one, which must have as many columns. -/
def tableForImport (table : String) (header : List String) (width : Nat) : Op σ (Option Table) := do
  match (← catalog).table? table with
  | some object =>
    if object.fields.length ≠ width then throw (.csvColumnMismatch table object.fields.length width)
    return none
  | none =>
    let t := importedTable table header width
    checkModel t.validate
    return some t

def insertRows (table : String) (width : Nat) (signal : Signal) : List (List String) → Op σ Unit
  | [] => return ()
  | row :: rows => do
    checkSignal signal
    ofEngine (← request (Engine.insertRow table (paddedRow width row)))
    insertRows table width signal rows

/-- Imports records and counts the rows that were inserted. -/
def importCsv (table : String) (lines : List Csv.Line) (o : Csv.Options) (signal : Signal) : Op σ Nat := do
  let decoded ← decode lines o signal
  if decoded.isEmpty then return 0
  let (header, rows) := splitHeader o.header decoded.rows
  let created ← tableForImport table header decoded.columns
  change "oxide_csv_import" do
    if let some t := created then let _ ← execute t.sql
    insertRows table decoded.columns signal rows
  note (.importedCsv table rows.length)
  return rows.length

end Op

end SchemaEditor
