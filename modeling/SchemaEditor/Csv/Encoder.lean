import SchemaEditor.Csv.Options
import SchemaEditor.Sql.Identifier

/-!
# Writing delimited text

A field is quoted if it holds the separator, the quote or a character of the newline, and only then. With
quoting switched off every field is written as it is.
-/

namespace SchemaEditor.Csv

def isSpecial (o : Options) (c : Char) : Bool :=
  some c == o.separator || some c == o.quote || o.newline.toList.contains c

def encodeField (o : Options) (field : String) : String :=
  match o.quote with
  | none => field
  | some q => if field.toList.any (isSpecial o) then quoteWith q field else field

def encodeRecord (o : Options) (fields : List String) : String :=
  (match o.separator with | some c => c.toString | none => "").intercalate (fields.map (encodeField o))

def writeRecord (o : Options) (fields : List String) : String := encodeRecord o fields ++ o.newline

def writeRecords (o : Options) (records : List (List String)) : String :=
  String.join (records.map (writeRecord o))

end SchemaEditor.Csv
