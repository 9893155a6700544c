import SchemaEditor.Store.Definition

/-!
# The content of a store

The objects of a store and the rows of its tables. Objects live in the main schema or, if they are
temporary, in one that ends with the connection. A name without a schema is looked up among the temporary
objects first. Each object has a serial number, which rises with its age.
-/

namespace SchemaEditor.Store

/-- A row and its number. Rows of a table WITHOUT ROWID all have the number zero. -/
structure Row where
  rowid : Int
  values : List Value
deriving DecidableEq, Repr

structure StoredTable where
  name : String
  sql : String
  temporary : Bool
  serial : Nat
  definition : Definition
  /-- By row number, or by key in a table WITHOUT ROWID. -/
  rows : List Row := []

structure StoredIndex where
  name : String
  table : String
  sql : String
  temporary : Bool
  serial : Nat
  body : IndexBody

structure StoredTrigger where
  name : String
  table : String
  sql : String
  temporary : Bool
  serial : Nat
  /-- Whether the table is temporary. -/
  onTemporary : Bool
  body : TriggerBody

structure StoredView where
  name : String
  sql : String
  temporary : Bool
  serial : Nat
  body : ViewBody

structure Content where
  tables : List StoredTable := []
  indexes : List StoredIndex := []
  triggers : List StoredTrigger := []
  views : List StoredView := []
  userVersion : Int := 0
  /-- How often the schema has changed. -/
  schemaVersion : Int := 0
  applicationId : Int := 0
  /-- The serial number of the next object. -/
  serial : Nat := 0

/-- Whether a term of an index is a text, because it is a name in double quotes and no column. -/
def isText (columns : List Column) (t : IndexTerm) : Bool :=
  (Definition.termColumn? t.expr).any fun (n, _) => n.loose && (Definition.find? columns n.name).isNone

/-- The key of an index that holds nothing but columns. -/
def StoredIndex.key? (i : StoredIndex) (d : Definition) : Option (List KeyColumn) :=
  i.body.terms.mapM fun t => (Definition.keyColumn d.columns t).toOption

namespace Content

/-! ## Looking up -/

def schemaOf (temporary : Bool) : String := if temporary then "temp" else "main"

/-- The schemas that a name can be in; `true` stands for the temporary one. -/
def schemas (n : ObjectName) : List Bool :=
  [true, false].filter fun temporary => n.schema.all (sameName (schemaOf temporary))

def tableIn? (c : Content) (temporary : Bool) (name : String) : Option StoredTable :=
  c.tables.find? fun t => t.temporary == temporary && sameName t.name name

def viewIn? (c : Content) (temporary : Bool) (name : String) : Option StoredView :=
  c.views.find? fun v => v.temporary == temporary && sameName v.name name

def indexIn? (c : Content) (temporary : Bool) (name : String) : Option StoredIndex :=
  c.indexes.find? fun i => i.temporary == temporary && sameName i.name name

def table? (c : Content) (n : ObjectName) : Option StoredTable :=
  (schemas n).findSome? fun temporary => c.tableIn? temporary n.name

/-- A table or a view. -/
def source? (c : Content) (n : ObjectName) : Option (StoredTable ⊕ StoredView) :=
  (schemas n).findSome? fun temporary =>
    ((c.tableIn? temporary n.name).map Sum.inl).orElse fun _ => (c.viewIn? temporary n.name).map Sum.inr

/-- The indexes of a table that were made for it, the earliest first. -/
def indexesOf (c : Content) (t : StoredTable) : List StoredIndex :=
  c.indexes.filter fun i => i.temporary == t.temporary && sameName i.table t.name

/-- The triggers of a table or view, the latest first and temporary ones before all others. -/
def triggersOf (c : Content) (temporary : Bool) (name : String) : List StoredTrigger :=
  let own := (c.triggers.filter fun g => g.onTemporary == temporary && sameName g.table name).reverse
  own.filter (fun g => g.temporary && !temporary) ++ own.filter fun g => !g.temporary || temporary

/-! ## Changing -/

/-- Gives a serial number to a new object. -/
def withNext (c : Content) (add : Nat → Content → Content) : Content := add c.serial { c with serial := c.serial + 1 }

def isTable (t : StoredTable) (temporary : Bool) (name : String) : Bool :=
  t.temporary == temporary && sameName t.name name

/-- Replaces a table by one of the same name. -/
def putTable (c : Content) (t : StoredTable) : Content :=
  { c with tables := c.tables.map fun u => if isTable u t.temporary t.name then t else u }

/-- Removes a table with its indexes and triggers. -/
def removeTable (c : Content) (t : StoredTable) : Content :=
  { c with
    tables := c.tables.filter fun u => !isTable u t.temporary t.name
    indexes := c.indexes.filter fun i => !(i.temporary == t.temporary && sameName i.table t.name)
    triggers := c.triggers.filter fun g => !(g.onTemporary == t.temporary && sameName g.table t.name) }

def withoutRows (c : Content) : Content := { c with tables := c.tables.map fun t => { t with rows := [] } }

/-- What is left when the connection ends. -/
def withoutTemporary (c : Content) : Content :=
  { c with
    tables := c.tables.filter fun t => !t.temporary
    indexes := c.indexes.filter fun i => !i.temporary
    triggers := c.triggers.filter fun g => !g.temporary
    views := c.views.filter fun v => !v.temporary }

/-! ## Counters -/

/-- The table that holds the largest row numbers of the tables that never use one twice. -/
def sequenceTable : String := "sqlite_sequence"

/-- The table of counters, empty. -/
def newSequence (temporary : Bool) (serial : Nat) : StoredTable :=
  let column (name : String) : Column := { name, affinity := some .blob }
  { name := sequenceTable
    sql := "CREATE TABLE " ++ sequenceTable ++ "(name,seq)"
    temporary, serial
    definition := { columns := [column "name", column "seq"] } }

def withSequence (c : Content) (temporary : Bool) : Content :=
  if (c.tableIn? temporary sequenceTable).isSome then c
  else c.withNext fun serial c => { c with tables := c.tables ++ [newSequence temporary serial] }

/-- Changes the counter of a table; there may be none. -/
def modifyCounter (c : Content) (temporary : Bool) (change : List Row → List Row) : Content :=
  match c.tableIn? temporary sequenceTable with
  | some s => c.putTable { s with rows := change s.rows }
  | none => c

def isCounterOf (name : String) (r : Row) : Bool := r.values.head? == some (.text name)

/-- The largest row number that a table ever had. -/
def counter? (c : Content) (t : StoredTable) : Option Int := do
  let s ← c.tableIn? t.temporary sequenceTable
  let r ← s.rows.find? (isCounterOf t.name)
  return (r.values.getD 1 .null).toInteger

/-- The number after the largest number of some rows. -/
def nextRowid (rows : List Row) : Int :=
  match rows.map Row.rowid with
  | [] => 1
  | n :: ns => ns.foldl max n + 1

def setCounter (c : Content) (t : StoredTable) (n : Int) : Content :=
  c.modifyCounter t.temporary fun rows =>
    let values := [.text t.name, .integer n]
    match rows.findIdx? (isCounterOf t.name) with
    | some i => rows.modify i fun r => { r with values }
    | none => rows ++ [{ rowid := nextRowid rows, values }]

def removeCounter (c : Content) (t : StoredTable) : Content :=
  c.modifyCounter t.temporary fun rows => rows.filter fun r => !isCounterOf t.name r

def renameCounter (c : Content) (t : StoredTable) (name : String) : Content :=
  c.modifyCounter t.temporary fun rows =>
    rows.map fun r => if isCounterOf t.name r then { r with values := .text name :: r.values.tail } else r

end Content

end SchemaEditor.Store
