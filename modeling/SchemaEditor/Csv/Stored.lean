import SchemaEditor.Csv.Options
import SchemaEditor.Json.Record

/-!
# Stored formats

The JSON form of a format of delimited text. A field that is not there has its default.
-/

namespace SchemaEditor.Csv.Options

open Json.Reader (bool text character? field record)

def reader : Json.Reader Options :=
  record "CsvOptions" [
    field "header" bool fun b o => { o with header := b },
    field "separator" character? fun c o => { o with separator := c },
    field "quote" character? fun c o => { o with quote := c },
    field "newline" text fun s o => { o with newline := s }] {}

def characterToJson : Option Char → Json
  | some c => .text c.toString
  | none => .null

def toJson (o : Options) : Json :=
  .object [("header", .bool o.header), ("separator", characterToJson o.separator),
    ("quote", characterToJson o.quote), ("newline", .text o.newline)]

/-- Reads the text of a format, with nothing after it. -/
def parse (s : String) : Except JsonError Options := Json.read reader s

end SchemaEditor.Csv.Options
