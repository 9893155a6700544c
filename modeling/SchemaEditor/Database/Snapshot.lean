import SchemaEditor.Database.Session

/-!
# Reading the catalog

The catalog is read anew after every change. A table whose SQL cannot be read and a view whose columns
cannot be read have no fields, which is worth a warning and no more.
-/

namespace SchemaEditor

variable {σ : Type} [Engine σ]

namespace Op

def viewFields (view : String) : Op σ (List Field) := do
  match Engine.viewColumns view (← session).engine with
  | .ok columns => return columns.map fun (name, sqlType) => { name, sqlType }
  | .error _ =>
    warn (.unreadableView view)
    return []

def fieldsOf (kind : ObjectKind) (name sql : String) : Op σ (List Field) := do
  match kind with
  | .table =>
    let fields := (Table.parseLenient sql).fields
    if fields.isEmpty then warn (.unreadableTable name)
    return fields
  | .view => viewFields name
  | .index | .trigger => return []

/-- The object of a row, if its kind is known. -/
def objectOf (row : SchemaRow) : Op σ (Option SchemaObject) := do
  match ObjectKind.ofTag? row.kind with
  | none =>
    warn (.unknownKind row.kind row.name)
    return none
  | some kind =>
    let sql := withoutReturns (row.sql.getD "")
    let fields ← fieldsOf kind row.name sql
    return some { kind, name := row.name, tableName := row.tableName, sql, fields }

def readObjects (signal : Signal) : List SchemaRow → Op σ (List SchemaObject)
  | [] => return []
  | row :: rows => do
    checkSignal signal
    let object ← objectOf row
    let objects ← readObjects signal rows
    return object.toList ++ objects

def readCatalog (signal : Signal) : Op σ Catalog := do
  let rows ← ofEngine (Engine.schema (← session).engine)
  return { objects := ← readObjects signal rows }

/-- Replaces the snapshot by the schema as it is now. -/
def refreshCatalog (signal : Signal := Signal.never) : Op σ Catalog := do
  let catalog ← readCatalog signal
  setCatalog catalog
  return catalog

end Op

end SchemaEditor
