import SchemaEditor.Store.Rows

/-!
# Rules of a table

What must hold of the rows of a table, worked out for its columns: conditions, keys that no two rows share, and
how the values of some columns follow from those of others.
-/

namespace SchemaEditor.Store

/-- Values that no two rows have in common, unless one of them is NULL. -/
structure UniqueKey where
  terms : List Meaning
  /-- The rows that it is about. -/
  filter : Option Meaning
  onConflict : Option Conflict
  failure : Failure
  /-- The terms as a clause on conflicts can name them. -/
  exprs : List IndexTerm

structure Rules where
  checks : List (String × Meaning)
  /-- The columns that follow from others, and how. -/
  generations : List (Nat × Meaning)
  /-- The keys in the order in which they are looked at. -/
  keys : List UniqueKey

/-- A row as the only source of an expression. -/
def Row.env (r : Row) : Env := [{ rows := [some r] }]

namespace StoredTable

/-- The table as a source of the expressions that belong to it. -/
def scopeSource (t : StoredTable) (name : Option String := some t.name) : ScopeSource where
  name
  origin := some ⟨t.temporary, t.name⟩
  schema := some (Content.schemaOf t.temporary)
  columns := t.definition.columns
  rowColumn := t.definition.rowColumn
  hasRowid := !t.definition.withoutRowid

/-- What expressions in the definition of the table refer to. -/
def context (t : StoredTable) (place : Place) : Context := (Context.isolated place).enter { sources := [t.scopeSource] }

/-! ## Keys -/

def keyMeaning (t : StoredTable) (k : KeyColumn) : Meaning :=
  { Meaning.ofColumn (t.definition.columns.getD k.place { name := "" }) ⟨0, 0, k.place⟩ with
    collation := some k.collation }

def keyExpr (t : StoredTable) (k : KeyColumn) : IndexTerm := { expr := .column { name := t.columnName k.place } }

/-- A key of columns. -/
def columnKey (t : StoredTable) (key : List KeyColumn) (onConflict : Option Conflict) : UniqueKey where
  terms := key.map t.keyMeaning
  filter := none
  onConflict
  failure := .notUnique t.name (key.map fun k => t.columnName k.place)
  exprs := key.map t.keyExpr

end StoredTable

namespace StoredIndex

/-- A term of an index. A name that is no column is a text. -/
def termMeaning (t : StoredTable) (term : IndexTerm) : Except Failure Meaning := term.expr.meaning (t.context .indexTerm)

/-- The key that a unique index watches over. -/
def uniqueKey (i : StoredIndex) (t : StoredTable) : Except Failure UniqueKey := do
  let filter ← i.body.filter.mapM fun e => e.meaning (t.context .indexFilter)
  let failure : Failure := match i.key? t.definition with
    | some key => .notUnique t.name (key.map fun k => t.columnName k.place)
    | none => .notUniqueIndex i.name
  return { terms := ← i.body.terms.mapM (termMeaning t), filter, onConflict := none, failure, exprs := i.body.terms }

end StoredIndex

namespace UniqueKey

/-- The values of a row that no other row may have, if there are any. -/
def entry (k : UniqueKey) (r : Row) : Except Failure (Option (List Value)) := do
  if !(← Meaning.isTrue k.filter r.env) then return none
  let values ← Meaning.values k.terms r.env
  return if values.contains .null then none else some values

def isEqual (k : UniqueKey) (a b : List Value) : Bool :=
  ((k.terms.map fun m => m.collation.getD .binary).zip (a.zip b)).all fun (k, v, w) => compareValues k v w == .eq

/-- The first of some rows that has the same key. -/
def conflict? (k : UniqueKey) (rows : List Row) (r : Row) : Except Failure (Option Row) := do
  match ← k.entry r with
  | none => return none
  | some values =>
    rows.findM? fun o => do
      return match ← k.entry o with
        | some others => k.isEqual values others
        | none => false

/-- Whether some rows have different keys. -/
def holds (k : UniqueKey) : List Row → Except Failure Bool
  | [] => return true
  | r :: rows => do
    if (← k.conflict? rows r).isSome then return false
    k.holds rows

end UniqueKey

namespace Content

/-- The keys of a table: the latest first, but those that replace rows after all others. -/
def uniqueKeys (c : Content) (t : StoredTable) : Except Failure (List UniqueKey) := do
  let own := t.definition.autoIndexes.map fun i => t.columnKey i.columns i.onConflict
  let made ← ((c.indexesOf t).filter fun i => i.body.unique).mapM fun i => i.uniqueKey t
  let keys := (own ++ made).reverse
  let replaces (k : UniqueKey) : Bool := k.onConflict == some .replace
  return keys.filter (fun k => !replaces k) ++ keys.filter replaces

/-- The rules of a table whose definition makes sense. -/
def rules (c : Content) (t : StoredTable) : Except Failure Rules := do
  let checks ← t.definition.checks.mapM fun condition => do
    return (condition.name, ← condition.expr.meaning (t.context .check))
  let generations ← t.definition.columns.zipIdx.filterMapM fun (column, i) =>
    column.generation.mapM fun g => do return (i, ← g.expr.meaning (t.context .generation))
  return { checks, generations, keys := ← c.uniqueKeys t }

end Content

namespace Rules

/-- Those of some columns that follow from themselves in the end. -/
def circular (generations : List (Nat × Meaning)) : List (Nat × Meaning) :=
  let step (rest : List (Nat × Meaning)) : List (Nat × Meaning) :=
    rest.filter fun (_, m) => m.uses.any fun u => rest.any fun (i, _) => i == u.place
  generations.foldl (fun rest _ => step rest) generations

/-- Fails if the values of some columns cannot be worked out one after another. -/
def checkOrder (t : StoredTable) (generations : List (Nat × Meaning)) : Except Failure Unit :=
  match circular generations with
  | [] => .ok ()
  | (i, _) :: _ => .error (.invalid ("generated column loop on \"" ++ t.columnName i ++ "\""))

/-- Works out the columns that follow from others, as often as one may follow from another. -/
def generate (rules : Rules) (t : StoredTable) (r : Row) : Except Failure Row := do
  let step (r : Row) (p : Nat × Meaning) : Except Failure Row := do
    let v ← p.2.eval r.env
    let affinity := (t.definition.columns[p.1]?.bind Column.affinity).getD .blob
    return { r with values := r.values.set p.1 (affinity.convert v) }
  rules.generations.foldlM (fun r _ => rules.generations.foldlM step r) r

/-- The first condition that a row breaks. -/
def broken? (rules : Rules) (r : Row) : Except Failure (Option Failure) := do
  let isBroken (p : String × Meaning) : Except Failure Bool := do
    return (← p.2.eval r.env).truth == some false
  return (← rules.checks.findM? isBroken).map fun (name, _) => .check name

end Rules

/-- The columns that may not be NULL and are. -/
def StoredTable.missing (t : StoredTable) (values : List Value) : List (Nat × Column) :=
  (t.definition.columns.zipIdx.filter fun (c, i) =>
    c.notNull && t.definition.rowColumn != some i && values.getD i .null == .null).map fun (c, i) => (i, c)

end SchemaEditor.Store
