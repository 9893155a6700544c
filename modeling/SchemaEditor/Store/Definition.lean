import SchemaEditor.Store.Comparison
import SchemaEditor.Store.Statement

/-!
# Definitions of tables

What the body of a CREATE TABLE statement says, worked out: columns with their rules, the column that
stands for the row number, keys, and references to other tables. Columns are meant by their place.
-/

namespace SchemaEditor.Store

def findCollation (name : String) : Except Failure Collation :=
  match Collation.ofName? name with
  | some k => .ok k
  | none => .error (.noSuchCollation name)

/-- How the values of a column are computed that cannot be given. -/
structure Generation where
  expr : Expr
  stored : Bool

structure Column where
  name : String
  sqlType : String := ""
  /-- What it makes of values; the columns of a query may leave them as they are. -/
  affinity : Option Affinity := none
  collation : Collation := .binary
  notNull : Bool := false
  onNull : Option Conflict := none
  default : Option Expr := none
  /-- How the default is written, if it is a number. -/
  numeral : Option String := none
  defaultText : Option String := none
  generation : Option Generation := none
  /-- What keeps its values from being worked out, although all names mean something. -/
  defect : Option Failure := none

structure Reference where
  columns : List Nat
  parent : String
  /-- The key of the parent, if none are named. -/
  parentColumns : List String
  onDelete : ReferenceAction
  onUpdate : ReferenceAction
  deferred : Bool

/-- A key or unique constraint that has an index of its own. -/
structure AutoIndex where
  columns : List KeyColumn
  /-- The index holds the table itself and is not listed. -/
  isTable : Bool
  onConflict : Option Conflict

structure Definition where
  columns : List Column
  /-- The column that stands for the row number. -/
  rowColumn : Option Nat := none
  onRowConflict : Option Conflict := none
  autoIncrement : Bool := false
  withoutRowid : Bool := false
  strict : Bool := false
  key : List KeyColumn := []
  autoIndexes : List AutoIndex := []
  references : List Reference := []
  checks : List Condition := []

namespace Definition

def find? (columns : List Column) (name : String) : Option Nat := columns.findIdx? fun c => sameName c.name name

def findColumn (columns : List Column) (name : String) : Except Failure Nat :=
  match find? columns name with
  | some i => .ok i
  | none => .error (.noSuchColumn name)

def isRowNumber (name : String) : Bool := ["rowid", "oid", "_rowid_"].any (sameName name)

/-! ## Columns -/

/-- The types of a STRICT table. -/
def strictTypes : List String := ["INT", "INTEGER", "REAL", "TEXT", "BLOB", "ANY"]

def columnAffinity (strict : Bool) (sqlType : String) : Affinity :=
  if strict && sameName sqlType "ANY" then .blob else .ofType sqlType

def columnOf (strict : Bool) (c : ColumnDefinition) : Except Failure Column := do
  let collations ← c.clauses.filterMapM fun
    | .collate name => some <$> findCollation name
    | _ => return none
  let defaults := c.clauses.filterMap fun
    | .default e numeral text => some (e, numeral, text)
    | _ => none
  let rules := c.clauses.filterMap fun
    | .notNull onConflict => some onConflict
    | _ => none
  let generations := c.clauses.filterMap fun
    | .generated e stored => some (⟨e, stored⟩ : Generation)
    | _ => none
  if generations.length > 1 then throw (.invalid ("error in generated column \"" ++ c.name ++ "\""))
  if !generations.isEmpty && !defaults.isEmpty then throw (.invalid "cannot use DEFAULT on a generated column")
  return {
    name := c.name, sqlType := c.sqlType
    affinity := some (columnAffinity strict c.sqlType)
    notNull := !rules.isEmpty
    onNull := rules.getLast?.join
    default := defaults.getLast?.map Prod.fst
    numeral := defaults.getLast?.bind fun d => d.2.1
    defaultText := defaults.getLast?.map fun d => d.2.2
    collation := collations.getLast?.getD .binary
    generation := generations.head? }

/-- The largest number of columns that a table can have. -/
def maxColumns : Nat := 2000

def columnsFrom (table : String) (strict : Bool) (earlier : List Column) :
    List ColumnDefinition → Except Failure (List Column)
  | [] => return earlier.reverse
  | c :: cs => do
    if (find? earlier c.name).isSome then throw (.duplicateColumn c.name)
    columnsFrom table strict ((← columnOf strict c) :: earlier) cs

/-- A STRICT table knows the types of its columns. -/
def checkTypes (table : String) (columns : List Column) : Except Failure Unit :=
  columns.forM fun c => do
    let place := table ++ "." ++ c.name
    if c.sqlType = "" then throw (.invalid ("missing datatype for " ++ place))
    if !strictTypes.any (sameName c.sqlType) then
      throw (.invalid ("unknown datatype for " ++ place ++ ": \"" ++ c.sqlType ++ "\""))

/-! ## Keys -/

/-- The column that a term of a key names, with its collation if the term has one. -/
def termColumn? : Expr → Option (ColumnName × Option String)
  | .column n => if n.table.isNone then some (n, none) else none
  | .collate e collation => (termColumn? e).map fun (n, inner) => (n, some (inner.getD collation))
  | _ => none

/-- A column as part of a key. Its texts are compared as the column has it, unless the key says otherwise. -/
def keyColumnAt (columns : List Column) (place : Nat) (collation : Option String) (descending : Bool) :
    Except Failure KeyColumn := do
  let collation ← match collation with
    | none => pure ((columns[place]?.map Column.collation).getD .binary)
    | some name => findCollation name
  return { place, collation, descending }

def keyColumn (columns : List Column) (t : IndexTerm) : Except Failure KeyColumn := do
  match termColumn? t.expr with
  | some (n, collation) => keyColumnAt columns (← findColumn columns n.name) collation t.descending
  | none => throw (.invalid "expressions prohibited in PRIMARY KEY and UNIQUE constraints")

/-- A key or unique constraint, in the order of the statement. -/
structure Constraint where
  terms : List IndexTerm
  isKey : Bool
  /-- The row number cannot stand for a column that is declared to be a descending key. -/
  descending : Bool := false
  autoIncrement : Bool := false
  onConflict : Option Conflict

def columnConstraints (c : ColumnDefinition) : List Constraint :=
  let term : IndexTerm := { expr := .column { name := c.name } }
  c.clauses.filterMap fun
    | .primaryKey descending autoIncrement onConflict =>
      some { terms := [{ term with descending }], isKey := true, descending, autoIncrement, onConflict }
    | .unique onConflict => some { terms := [term], isKey := false, onConflict }
    | _ => none

def constraints (body : TableBody) : List Constraint :=
  body.columns.flatMap columnConstraints ++ body.clauses.filterMap fun
    | .primaryKey terms autoIncrement onConflict => some { terms, isKey := true, autoIncrement, onConflict }
    | .unique terms onConflict => some { terms, isKey := false, onConflict }
    | _ => none

/-- Whether a key is a column that stands for the row number. -/
def standsForRow (columns : List Column) (c : Constraint) (key : List KeyColumn) : Bool :=
  match key with
  | [k] => c.isKey && !c.descending && (columns[k.place]?).any fun column => sameName column.sqlType "INTEGER"
  | _ => false

/-- Whether an index of some columns can serve for others. -/
def sameKey (a b : List KeyColumn) : Bool :=
  a.map (fun k => (k.place, k.collation)) == b.map fun k => (k.place, k.collation)

/-- Adds an index that a constraint needs. A second one of the same columns is not made. -/
def addAutoIndex (indexes : List AutoIndex) (index : AutoIndex) : Except Failure (List AutoIndex) := do
  match indexes.find? fun i => sameKey i.columns index.columns with
  | none => return indexes ++ [index]
  | some other =>
    if other.onConflict.isSome && index.onConflict.isSome && other.onConflict != index.onConflict then
      throw (.invalid "conflicting ON CONFLICT clauses specified")
    let isTable := other.isTable || index.isTable
    let onConflict := other.onConflict.orElse fun _ => index.onConflict
    return indexes.map fun i => if sameKey i.columns index.columns then { i with isTable, onConflict } else i

/-- The columns of a key, each once. -/
def distinctKey (key : List KeyColumn) : List KeyColumn :=
  key.foldl (fun key k => if key.any fun e => e.place == k.place then key else key ++ [k]) []

/-! ## References -/

def referenceOf (columns : List Column) (names : List ColumnName) (r : ReferenceClause) : Except Failure Reference := do
  let places ← names.mapM fun n =>
    match find? columns n.name with
    | some i => .ok i
    | none => .error (.invalid ("unknown column \"" ++ n.name ++ "\" in foreign key definition"))
  if !r.parentColumns.isEmpty && r.parentColumns.length ≠ places.length then
    throw (.invalid "number of columns in foreign key does not match the number of columns in the referenced table")
  return {
    columns := places, parent := r.parent.name, parentColumns := r.parentColumns.map ColumnName.name
    onDelete := r.onDelete, onUpdate := r.onUpdate, deferred := r.deferred }

/-- The references of a column. Each may be followed by when it is checked. -/
def columnReferences (columns : List Column) (c : ColumnDefinition) : Except Failure (List Reference) :=
  c.clauses.foldlM (fun references clause =>
    match clause with
    | .references r => do
      if r.parentColumns.length > 1 then
        throw (.invalid ("foreign key on " ++ c.name ++ " should reference only one column of table " ++ r.parent.name))
      return references ++ [← referenceOf columns [{ name := c.name }] r]
    | .deferral deferred =>
      return match references.reverse with
        | last :: earlier => ({ last with deferred } :: earlier).reverse
        | [] => []
    | _ => return references) []

def referencesOf (columns : List Column) (body : TableBody) : Except Failure (List Reference) := do
  let ofColumns ← body.columns.flatMapM (columnReferences columns)
  let ofTable ← body.clauses.filterMapM fun
    | .foreignKey names r => some <$> referenceOf columns names r
    | _ => return none
  return ofColumns ++ ofTable

def checksOf (body : TableBody) : List Condition :=
  let ofColumns := body.columns.flatMap fun c => c.clauses.filterMap fun
    | .check condition => some condition
    | _ => none
  ofColumns ++ body.clauses.filterMap fun
    | .check condition => some condition
    | _ => none

/-! ## Tables -/

/-- The columns of a key that has an index of its own cannot be NULL in some tables. -/
def keepFromNull (body : TableBody) (rowColumn : Option Nat) (key : List KeyColumn) (columns : List Column) :
    List Column :=
  columns.mapIdx fun i c =>
    let isKey := key.any fun k => k.place == i
    if isKey && !c.notNull && (body.withoutRowid || (body.strict && rowColumn.isNone)) then { c with notNull := true }
    else c

/-- Works out the definition of a table. The names in its conditions are not looked at. -/
def ofBody (table : String) (body : TableBody) : Except Failure Definition := do
  if body.columns.length > maxColumns then throw (.invalid ("too many columns on " ++ table))
  let columns ← columnsFrom table body.strict [] body.columns
  let placed ← (constraints body).mapM fun c => return (c, ← c.terms.mapM (keyColumn columns))
  let keys := placed.filter fun (c, _) => c.isKey
  if 1 < keys.length then throw (.invalid ("table \"" ++ table ++ "\" has more than one primary key"))
  let key := distinctKey (keys.flatMap Prod.snd)
  if key.any fun k => (columns[k.place]?.bind Column.generation).isSome then
    throw (.invalid "generated columns cannot be part of the PRIMARY KEY")
  let rowKey := if body.withoutRowid then none else keys.find? fun (c, key) => standsForRow columns c key
  let rowColumn := rowKey.bind fun (_, key) => key.head?.map KeyColumn.place
  let autoIncrement := keys.any fun (c, _) => c.autoIncrement
  if autoIncrement && body.withoutRowid then
    throw (.invalid "AUTOINCREMENT not allowed on WITHOUT ROWID tables")
  if autoIncrement && rowColumn.isNone then
    throw (.invalid "AUTOINCREMENT is only allowed on an INTEGER PRIMARY KEY")
  if body.strict then checkTypes table columns
  if columns.all fun c => c.generation.isSome then
    throw (.invalid "must have at least one non-generated column")
  if body.withoutRowid && keys.isEmpty then throw (.invalid ("PRIMARY KEY missing on table " ++ table))
  let needsIndex (p : Constraint × List KeyColumn) : Bool := !standsForRow columns p.1 p.2
  let autoIndexes ← (placed.filter needsIndex).foldlM
    (fun indexes (c, key) => addAutoIndex indexes ⟨key, body.withoutRowid && c.isKey, c.onConflict⟩) []
  let onKeyConflict := (keys.head?).bind fun (c, _) => c.onConflict
  let autoIndexes ← if body.withoutRowid then addAutoIndex autoIndexes ⟨key, true, onKeyConflict⟩ else pure autoIndexes
  return {
    columns := keepFromNull body rowColumn key columns
    rowColumn
    onRowConflict := rowKey.bind fun (c, _) => c.onConflict
    autoIncrement
    withoutRowid := body.withoutRowid
    strict := body.strict
    key
    autoIndexes
    references := ← referencesOf columns body
    checks := checksOf body }

/-! ## Names of columns -/

def columnName (d : Definition) (i : Nat) : String := ((d.columns[i]?).map Column.name).getD ""

/-- The places of the columns that can be given values. -/
def givenPlaces (d : Definition) : List Nat :=
  (List.range d.columns.length).filter fun i => (d.columns[i]?.bind Column.generation).isNone

end Definition

end SchemaEditor.Store
