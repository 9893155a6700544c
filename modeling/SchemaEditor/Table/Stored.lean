import SchemaEditor.Json.Record
import SchemaEditor.Table.Basic

/-!
# Stored tables

The JSON form of a table. The order of the key may be absent; every other field has to be there.
-/

namespace SchemaEditor

open Json.Reader (bool text list field requiredField record)

def Field.reader : Json.Reader Field :=
  record "Field" [
    requiredField "name" text fun s f => { f with name := s },
    requiredField "sql_type" text fun s f => { f with sqlType := s },
    requiredField "not_null" bool fun b f => { f with notNull := b },
    requiredField "primary_key" bool fun b f => { f with primaryKey := b },
    requiredField "auto_increment" bool fun b f => { f with autoIncrement := b },
    requiredField "unique" bool fun b f => { f with unique := b },
    requiredField "default_value" text fun s f => { f with defaultValue := s },
    requiredField "check" text fun s f => { f with check := s }] { name := "" }

namespace Table

def reader : Json.Reader Table :=
  record "Table" [
    requiredField "name" text fun s t => { t with name := s },
    requiredField "fields" (list Field.reader) fun fields t => { t with fields },
    requiredField "rowid_column" text fun s t => { t with rowidColumn := s },
    requiredField "without_rowid" bool fun b t => { t with withoutRowid := b },
    field "key_order" (list text) fun names t => { t with keyOrder := names }] { name := "" }

/-- Reads the text of a table, with nothing after it. -/
def ofJsonText (s : String) : Except JsonError Table := Json.read reader s

end Table

end SchemaEditor
