import SchemaEditor.Store.Renaming

/-!
# Changing definitions

New columns and new names are written into the stored text of the statements. The objects are then read from their
text again, so that the two always agree, and have to make sense.
-/

namespace SchemaEditor.Store

namespace Content

/-! ## New columns -/

/-- Whether a default can be worked out when the column is added. -/
def isPlainDefault : Expr → Bool
  | .literal _ => true
  | .unary .keep e | .unary .negate e | .cast e _ => isPlainDefault e
  | .column n => n.table.isNone && ["TRUE", "FALSE"].contains n.name.toUpper
  | _ => false

/-- The default of a column, unless it is a literal NULL. -/
def ownDefault (c : Column) : Option Expr :=
  match c.default with
  | some (.literal .null) => none
  | e => e

/-- What a new column may not be, if the table has rows or not. -/
def checkNewColumn (enforce : Bool) (t : StoredTable) (column : ColumnDefinition) (c : Column) : Except Failure Unit := do
  column.clauses.forM fun
    | .primaryKey .. => throw (.invalid "Cannot add a PRIMARY KEY column")
    | .unique _ => throw (.invalid "Cannot add a UNIQUE column")
    | _ => return ()
  let refuse (text : String) : Except Failure Unit := if t.rows.isEmpty then .ok () else .error (.invalid text)
  let refers := column.clauses.any fun
    | .references _ => true
    | _ => false
  match c.generation, ownDefault c with
  | some g, _ => if g.stored then refuse "cannot add a STORED column"
  | none, default =>
    if enforce && refers && default.isSome then
      refuse "Cannot add a REFERENCES column with non-NULL default value"
    if c.notNull && default.isNone then refuse "Cannot add a NOT NULL column with default value NULL"
    if !default.all isPlainDefault then refuse "Cannot add a column with non-constant default"

/-- A row with one more value, which the rules of the new column have to allow. -/
def extendRow (t : StoredTable) (rules : Rules) (column : Column) (v : Value) (r : Row) : Except Failure Row := do
  let r ← rules.generate t { r with values := r.values ++ [(column.affinity.getD .blob).convert v] }
  if let some _ ← rules.broken? r then throw (.invalid "CHECK constraint failed")
  if !(t.missing r.values).isEmpty then throw (.invalid "NOT NULL constraint failed")
  if (t.checkTypes r.values) matches .error _ then throw (.invalid "type mismatch on DEFAULT")
  return r

/-- Adds a last column to a table. It has its default value in every row. -/
def addColumn (content : Content) (enforce : Bool) (n : ObjectName) (column : ColumnDefinition) (text : String) :
    Except Failure Content := do
  let t ← content.findAltered n fun _ => .invalid "Cannot add a column to a view"
  let c ← Definition.columnOf t.definition.strict column
  if (Definition.find? t.definition.columns c.name).isSome then throw (.duplicateColumn c.name)
  if t.definition.columns.length ≥ Definition.maxColumns then
    throw (.invalid ("too many columns on sqlite_altertab_" ++ t.name))
  checkDefaults { columns := [column], clauses := [], withoutRowid := false, strict := false }
  checkNewColumn enforce t column c
  let sql := String.ofList (insertColumn (", ".toList ++ text.toList) 0 (tokens t.sql))
  let changed ← within .table t.name "add column" (t.reread t.name sql)
  let rules ← within .table t.name "add column" ((content.putTable changed).rules changed)
  let value ← if t.rows.isEmpty then pure .null else StoredTable.earlierValue c
  let added := changed.definition.columns.getLastD c
  return content.putTable { changed with rows := ← t.rows.mapM (extendRow changed rules added value) }

/-! ## Columns less -/

def dropColumn (c : Content) (everywhere : Bool) (n : ObjectName) (column : String) : Except Failure Content := do
  let t ← c.findAltered n fun view => .invalid ("cannot drop column from view \"" ++ view ++ "\"")
  let some i := Definition.find? t.definition.columns column | throw (.noSuchColumn ("\"" ++ column ++ "\""))
  let refuse (kind : String) : Except Failure Content :=
    .error (.invalid ("cannot drop " ++ kind ++ " column: \"" ++ column ++ "\""))
  if t.definition.key.any fun k => k.place == i then refuse "PRIMARY KEY"
  else if t.definition.autoIndexes.any fun index => (index.columns.map KeyColumn.place) == [i] then refuse "UNIQUE"
  else if t.definition.columns.length = 1 then
    throw (.invalid ("cannot drop column \"" ++ column ++ "\": no other columns exist"))
  else
    let c ← c.prepared everywhere t.temporary
    let t := (c.tableIn? t.temporary t.name).getD t
    let changed ← within .table t.name "drop column" do
        t.reread t.name (removeColumn t.sql (← readTable t.sql).2.columns i)
    let rows := t.rows.map fun r => { r with values := r.values.eraseIdx i }
    let dropped := c.putTable { changed with rows }
    dropped.checkChanged everywhere t.temporary "drop column"
    return dropped

def alter (c : Content) (legacy enforce : Bool) (n : ObjectName) : Alteration → Except Failure Content
  | .addColumn column text => c.addColumn enforce n column text
  | .renameTable target => c.renameTable (!legacy) enforce n target
  | .renameColumn column target quoted => c.renameColumn (!legacy) n column target quoted
  | .dropColumn column => c.dropColumn (!legacy) n column

end Content

end SchemaEditor.Store
