import SchemaEditor.Catalog
import SchemaEditor.Database.Error
import SchemaEditor.FreshName
import SchemaEditor.Table.Printer

/-!
# Plans for rebuilding a table

A change of a column that the engine cannot make in place is made by rebuilding the table under a temporary
name. A plan holds the new definition and, for each of its columns in order, the column of the old
table that its values come from.
-/

namespace SchemaEditor

/-- What is to happen to a column: it changes places with the column `offset` places away and becomes
`replacement`, or it is dropped if there is none. -/
structure ColumnChange where
  table : String
  column : String
  replacement : Option Field
  offset : Int := 0
deriving DecidableEq, Repr

/-- Reads the stored definition of a table. Also gives the clauses that the definition does not keep. -/
def Catalog.definition? (c : Catalog) (name : String) : Except SchemaError (Table × List String) := do
  let some object := c.table? name | throw (.tableNotFound name)
  match Table.parse object.sql with
  | .error e => throw (.parse object.name e.message)
  | .ok t =>
    if t.fields.isEmpty then throw (.parse object.name "no columns found")
    return (t, Table.discardedClauses object.sql)

/-- The stored definition of a column. -/
def Catalog.column? (c : Catalog) (table column : String) : Except SchemaError Field := do
  let (t, _) ← c.definition? table
  match t.field? column with
  | some f => return f
  | none => throw (.columnNotFound table column)

structure RebuildPlan where
  /-- The table that is rebuilt. -/
  table : String
  /-- The name of the new table until the old one is gone. -/
  temporary : String
  rebuilt : Table
  /-- The columns of the old table in the order in which their values are copied. -/
  columns : List String
  /-- The clauses of the old definition that the rebuilt table will lack. -/
  discarded : List String
deriving DecidableEq, Repr

namespace RebuildPlan

def temporaryName (c : Catalog) : String :=
  freshName c.contains c.objects.length "oxide_transform_new_table"

/-- The place `offset` places from `i`, if it is one of `n`. -/
def placeAt? (n i : Nat) (offset : Int) : Option Nat :=
  let j := (i : Int) + offset
  if 0 ≤ j ∧ j < n then some j.toNat else none

/-- Makes a change to the column at `i`, which goes to `j`. Also gives the columns whose values the new
columns take. -/
def rearrange? (t : Table) (change : ColumnChange) (i j : Nat) : Option (List String × Table) :=
  match change.replacement with
  | none => (t.removeField? change.column).map fun (_, rebuilt) => (rebuilt.fieldNames, rebuilt)
  | some f => do
    let swapped ← t.swapFields? i j
    let (_, rebuilt) ← swapped.setField? j f
    pure (swapped.fieldNames, rebuilt)

def make (c : Catalog) (change : ColumnChange) : Except SchemaError RebuildPlan := do
  let (t, discarded) ← c.definition? change.table
  let some i := t.find? change.column | throw (.columnNotFound change.table change.column)
  let some j := placeAt? t.fields.length i change.offset | throw (.moveOutside change.column change.offset)
  if change.replacement.isNone && t.fields.length == 1 then throw (.onlyColumn change.column t.name)
  let temporary := temporaryName c
  let some (columns, rebuilt) := rearrange? { t with name := temporary } change i j
    | throw (.moveOutside change.column change.offset)
  rebuilt.validate.mapError .invalidSchema
  return { table := t.name, temporary, rebuilt, columns, discarded }

/-! ## Statements -/

def copySql (p : RebuildPlan) : String :=
  "INSERT INTO " ++ quoteIdentifier p.temporary ++ " SELECT " ++ quoteIdentifierList p.columns
    ++ " FROM " ++ quoteIdentifier p.table

/-- The statements that put the new table beside the old one and drop that. -/
def steps (p : RebuildPlan) : List (RebuildStep × String) :=
  [(.createTable, p.rebuilt.sql), (.copyData, p.copySql), (.dropTable, "DROP TABLE " ++ quoteIdentifier p.table)]

end RebuildPlan

end SchemaEditor
