import SchemaEditor.Sql.Identifier
import SchemaEditor.Table.Basic

/-!
# Printing table definitions

`Table.sql` writes a definition in its one canonical form: a line for each column, the key after the
columns unless it is a single integer column, which carries its key itself. Reading the form back and
printing it again gives the same text.
-/

namespace SchemaEditor

/-- A column definition, with `separator` between name and type. -/
def Field.render (f : Field) (separator : String) (inlineKey : Bool) : String :=
  quoteIdentifier f.name ++ separator ++ f.sqlType
    ++ (if inlineKey then " PRIMARY KEY" ++ (if f.autoIncrement then " AUTOINCREMENT" else "") else "")
    ++ (if f.notNull then " NOT NULL" else "")
    ++ (if f.unique then " UNIQUE" else "")
    ++ (if f.defaultValue = "" then "" else " DEFAULT " ++ f.defaultValue)
    ++ (if f.check = "" then "" else " CHECK(" ++ f.check ++ ")")

/-- The definition of a column by itself, as adding it to a table takes it. -/
def Field.definition (f : Field) : String := f.render " " (f.primaryKey && f.isInteger)

namespace Table

/-- Whether the key is a single integer column, which then carries it. -/
def hasInlineKey (t : Table) : Bool :=
  match t.primaryKey with
  | [key] => key.isInteger
  | _ => false

def keyClause (t : Table) : List String :=
  let keys := t.primaryKeyOrder.map Field.name
  if t.hasInlineKey || keys.isEmpty then [] else ["PRIMARY KEY(" ++ quoteIdentifierList keys ++ ")"]

def definitionLines (t : Table) : List String :=
  t.fields.map (fun f => f.render "\t" (t.hasInlineKey && f.primaryKey)) ++ t.keyClause

def sql (t : Table) : String :=
  "CREATE TABLE " ++ quoteIdentifier t.name ++ " (\n\t" ++ ",\n\t".intercalate t.definitionLines ++ "\n)"
    ++ (if t.withoutRowid then " WITHOUT ROWID" else "") ++ ";"

end Table

end SchemaEditor
