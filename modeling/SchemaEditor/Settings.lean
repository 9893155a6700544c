import SchemaEditor.Csv.Stored
import SchemaEditor.Json.Printer

/-!
# Settings

What is remembered between runs: whether foreign keys are enforced, and the formats of the last
export and import.
-/

namespace SchemaEditor

structure Settings where
  foreignKeys : Bool := false
  exportCsv : Csv.Options := {}
  importCsv : Csv.Options := {}
deriving DecidableEq, Repr, Inhabited

namespace Settings

def reader : Json.Reader Settings :=
  open Json.Reader in
  record "Settings" [
    field "foreign_keys" bool fun b s => { s with foreignKeys := b },
    field "export_csv" Csv.Options.reader fun o s => { s with exportCsv := o },
    field "import_csv" Csv.Options.reader fun o s => { s with importCsv := o }] {}

def toJson (s : Settings) : Json :=
  .object [("foreign_keys", .bool s.foreignKeys), ("export_csv", s.exportCsv.toJson),
    ("import_csv", s.importCsv.toJson)]

/-- Reads the text of a settings file. -/
def parse (text : String) : Except JsonError Settings := Json.read reader text

/-- The text of a settings file. -/
def render (s : Settings) : String := s.toJson.print 0

end Settings

end SchemaEditor
