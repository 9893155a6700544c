import SchemaEditor.Store.NameTable
import SchemaEditor.Store.Rules
import SchemaEditor.Store.View

/-!
# References between tables

A row may refer to a row of another table by the values of a key. Where foreign keys are enforced, a statement
may not leave more rows without the rows that they refer to than it found. What happens to rows when the row that
they refer to goes away or changes is a statement of its own.
-/

namespace SchemaEditor.Store

/-- The table that a reference leads to, and the columns there. -/
structure Parent where
  table : StoredTable
  columns : List Nat

/-- The columns that a change of rows concerns; none stands for all. -/
abbrev ChangedColumns := Option (List Nat)

def ChangedColumns.concerns (changed : ChangedColumns) (columns : List Nat) : Bool :=
  changed.all fun changed => columns.any changed.contains

namespace Content

/-! ## Where references lead -/

def sameColumns (a b : List Nat) : Bool := a.length == b.length && a.all b.contains && b.all a.contains

/-- Whether a key compares texts as its columns do. -/
def isPlain (t : StoredTable) (key : List KeyColumn) : Bool :=
  key.all fun k => (t.definition.columns[k.place]?).any fun c => c.collation == k.collation

/-- The keys of columns that no two rows of a table share. -/
def columnKeys (c : Content) (t : StoredTable) : List (List KeyColumn) :=
  let made := (c.indexesOf t).filterMap fun i =>
    if i.body.unique && i.body.filter.isNone then i.key? t.definition else none
  t.definition.autoIndexes.map AutoIndex.columns ++ made

/-- Whether columns of a table hold no group of values twice. -/
def isKey (c : Content) (t : StoredTable) (columns : List Nat) : Bool :=
  (t.definition.rowColumn.map fun i => [i]).any (sameColumns columns)
    || (c.columnKeys t).any fun key => isPlain t key && sameColumns columns (key.map KeyColumn.place)

/-- The table that a reference of `child` leads to, unless there is none. The reference has to meet a key. -/
def parent? (c : Content) (child : StoredTable) (r : Reference) : Except Failure (Option Parent) := do
  match c.tableIn? child.temporary r.parent with
  | none => return none
  | some t =>
    let mismatch : Failure := .foreignKeyMismatch child.name r.parent
    let columns := if r.parentColumns.isEmpty then some (t.definition.key.map KeyColumn.place)
      else r.parentColumns.mapM (Definition.find? t.definition.columns)
    match columns with
    | some columns =>
      let isKey := !columns.isEmpty && (r.parentColumns.isEmpty || c.isKey t columns)
      if columns.length = r.columns.length ∧ isKey then return some ⟨t, columns⟩ else throw mismatch
    | none => throw mismatch

def findParent (c : Content) (t : StoredTable) (r : Reference) : Except Failure Parent := do
  match ← c.parent? t r with
  | some p => return p
  | none => throw (.noSuchTable { schema := some (schemaOf t.temporary), name := r.parent })

/-- The references of all tables that lead to a table, the latest first. -/
def referencesTo (c : Content) (t : StoredTable) : List (StoredTable × Reference) :=
  ((c.tables.filter fun u => u.temporary == t.temporary).flatMap fun u =>
    (u.definition.references.filter fun r => sameName r.parent t.name).map fun r => (u, r)).reverse

/-- Whether references matter to a table. -/
def isReferring (c : Content) (t : StoredTable) : Bool := !t.definition.references.isEmpty || !(c.referencesTo t).isEmpty

/-! ## Sound references -/

/-- Whether the values of a reference are those of a row of the parent. -/
def Parent.hasKey (p : Parent) (key : List Value) (r : Row) : Bool :=
  (p.columns.zip key).all fun (i, v) =>
    match p.table.definition.columns[i]? with
    | some column => sameValue column.collation ((column.affinity.getD .blob).convert v) (r.values.getD i .null)
    | none => false

/-- The values of a reference in a row; a NULL among them refers to nothing. -/
def keyOf (r : Reference) (values : List Value) : Option (List Value) :=
  let key := r.columns.map fun i => values.getD i .null
  if key.contains .null then none else some key

/-- Whether the row that a row refers to is there. -/
def isSatisfied (parent : Option Parent) (r : Reference) (values : List Value) : Bool :=
  match keyOf r values, parent with
  | none, _ => true
  | some key, some p => p.table.rows.any (Parent.hasKey p key)
  | some _, none => false

/-- The rows of a table that a reference leads to nothing from. -/
def danglingRows (c : Content) (t : StoredTable) (r : Reference) : Except Failure (List Row) := do
  let parent ← c.parent? t r
  return t.rows.filter fun row => !isSatisfied parent r row.values

/-- The references of a table with their numbers, which start at the latest. -/
def numberedReferences (t : StoredTable) : List (Reference × Nat) := t.definition.references.reverse.zipIdx

/-- The rows of a table that refer to nothing, with the references that do and their numbers. -/
def brokenReferences (c : Content) (t : StoredTable) : Except Failure (List (Row × Reference × Nat)) := do
  let parents ← (numberedReferences t).mapM fun (r, n) => return (r, n, ← c.parent? t r)
  return t.rows.flatMap fun row =>
    (parents.filter fun (r, _, parent) => !isSatisfied parent r row.values).map fun (r, n, _) => (row, r, n)

/-- The names of the tables and views of a schema in the order in which they are found, that of the list of its objects
included. -/
def foundNames (c : Content) (temporary : Bool) : List String :=
  let sources := (c.listing temporary).filter fun r => r.kind == "table" || r.kind == "view"
  NameTable.order ((if temporary then "sqlite_temp_master" else "sqlite_master") :: sources.map SchemaRow.name)

/-- The tables of a schema in the order in which they are found. -/
def foundTables (c : Content) (temporary : Bool) : List StoredTable :=
  (c.foundNames temporary).filterMap (c.tableIn? temporary)

/-- The number of a row, if rows of its table have numbers. -/
def rowNumber (t : StoredTable) (r : Row) : Option Int := if t.definition.withoutRowid then none else some r.rowid

/-- The rows of the main schema that refer to nothing. -/
def violations (c : Content) : Except Failure (List Violation) :=
  (c.foundTables false).flatMapM fun t => do
    return (← c.brokenReferences t).map fun (row, r, _) => ⟨t.name, rowNumber t row, r.parent⟩

/-- The number of rows that refer to nothing, by references that are checked at the end of a statement, or by
those that are checked at the end of a transaction. -/
def danglingCount (c : Content) (deferred : Bool) : Nat :=
  c.tables.foldl (fun n t =>
    (t.definition.references.filter fun r => r.deferred == deferred).foldl (fun n r =>
      match c.danglingRows t r with
      | .ok rows => n + rows.length
      | .error _ => n) n) 0

/-! ## References that a statement is concerned with -/

/-- Whether a reference is concerned if columns of its parent change. -/
def concernsParent (changed : ChangedColumns) (t : StoredTable) (r : Reference) : Bool :=
  if r.parentColumns.isEmpty then changed.concerns (t.definition.key.map KeyColumn.place)
  else changed.concerns (r.parentColumns.filterMap (Definition.find? t.definition.columns))

/-- Fails if a reference leads nowhere that a change of rows of a table is concerned with. If it is concerned with any,
it is with those of the table to itself. A single new row does not concern the references to its table. -/
def checkReferences (c : Content) (t : StoredTable) (changed : ChangedColumns) (isSingle : Bool) :
    Except Failure Unit := do
  let own := t.definition.references.filter fun r => changed.concerns r.columns
  let others := (c.referencesTo t).filter fun (_, r) => concernsParent changed t r
  if own.isEmpty && others.isEmpty then return ()
  (t.definition.references.filter fun r => sameName r.parent t.name || changed.concerns r.columns).forM fun r => do
    let _ ← c.findParent t r
  (others.filter fun (_, r) => !(isSingle && !r.deferred)).forM fun (child, r) => do
    let _ ← c.findParent child r

/-! ## What becomes of rows that refer -/

def oldColumn (name : String) : Expr := .column { table := some "old", name }

def newColumn (name : String) : Expr := .column { table := some "new", name }

def allOf : List Expr → Option Expr
  | [] => none
  | e :: es => some (es.foldl (.binary .and) e)

/-- The condition that a row refers to the one that goes away or changes. -/
def refersToOld (columns : List (String × String)) : Option Expr :=
  allOf (columns.map fun (own, parent) => .binary (.compare .equal) (oldColumn parent) (.column { name := own }))

def refusal (child : ObjectName) (condition : Option Expr) : RowStatement :=
  let item := SelectItem.value (.raise .abort (Failure.message .foreignKey)) none ""
  .select (.mk [] (.rows false [item] (some (.table child none)) condition [] none []) [] [] none none)

/-- The statement that a reference asks for; `columns` are its own columns and those of the parent. -/
def actionStatement (child : StoredTable) (action : ReferenceAction) (isDelete : Bool)
    (columns : List (String × String)) : Option RowStatement :=
  let condition := refersToOld columns
  let target := child.objectName
  let assigned (e : String × String → Expr) : RowStatement :=
    .update { target, condition, assignments := columns.map fun p => ⟨[{ name := p.1 }], e p⟩ }
  let default (name : String) : Expr :=
    (((child.definition.columns.find? fun c => sameName c.name name).bind Column.default)).getD (.literal .null)
  match action with
  | .wait => none
  | .refuse => some (refusal target condition)
  | .cascade => some (if isDelete then .delete { target, condition } else assigned fun p => newColumn p.2)
  | .setNull => some (assigned fun _ => .literal .null)
  | .setDefault => some (assigned fun p => default p.1)

/-- What a reference asks for when a row of its parent is deleted, or, if `new` is given, changed. -/
def actionOf? (c : Content) (child : StoredTable) (r : Reference) (old : Row) (new : Option Row) :
    Option RowStatement := do
  let some p := (c.parent? child r).toOption | none
  let p ← p
  let isKept := new.any fun new => p.columns.all fun i =>
    let k := (p.table.definition.columns[i]?.map Column.collation).getD .binary
    compareValues k (old.values.getD i .null) (new.values.getD i .null) == .eq
  if isKept then none
  let columns := (r.columns.map child.columnName).zip (p.columns.map p.table.columnName)
  actionStatement child (if new.isSome then r.onUpdate else r.onDelete) new.isNone columns

/-- The statements that the references to a table ask for. -/
def actions (c : Content) (t : StoredTable) (old : Row) (new : Option Row) : List RowStatement :=
  (c.referencesTo t).filterMap fun (child, r) => c.actionOf? child r old new

end Content

end SchemaEditor.Store
