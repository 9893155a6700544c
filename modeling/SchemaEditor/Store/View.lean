import SchemaEditor.Catalog
import SchemaEditor.Store.Diagnosis

/-!
# Tables and views as relations

What a name in a query means: the rows of a table, the rows of the query that a view was made with, or the list
of the objects of a schema. A view is worked out when it is asked for, so it fails if what it names is gone.
-/

namespace SchemaEditor.Store

/-! ## Sorting -/

/-- Puts an element before the first one that it may precede. -/
def insertBy {α : Type} (precedes : α → α → Bool) (a : α) : List α → List α
  | [] => [a]
  | b :: bs => if precedes a b then a :: b :: bs else b :: insertBy precedes a bs

/-- Sorts a short list by insertion. Elements that may precede each other keep their order. -/
def sortShort {α : Type} (precedes : α → α → Bool) (as : List α) : List α := as.foldr (insertBy precedes) []

namespace Content

/-! ## The list of schema objects -/

def autoIndexRows (t : StoredTable) : List SchemaRow :=
  let numbered := t.definition.autoIndexes.mapIdx fun n i => (n + 1, i)
  (numbered.filter fun (_, i) => !i.isTable).map fun (n, _) =>
    ⟨"index", "sqlite_autoindex_" ++ t.name ++ "_" ++ toString n, none, t.name⟩

/-- The objects of a schema, the oldest first. An index that comes with a table follows it. -/
def listing (c : Content) (temporary : Bool) : List SchemaRow :=
  let tables := (c.tables.filter fun t => t.temporary == temporary).map fun t =>
    (t.serial, ⟨"table", t.name, some t.sql, t.name⟩ :: autoIndexRows t)
  let indexes := (c.indexes.filter fun i => i.temporary == temporary).map fun i =>
    (i.serial, [(⟨"index", i.name, some i.sql, i.table⟩ : SchemaRow)])
  let triggers := (c.triggers.filter fun g => g.temporary == temporary).map fun g =>
    (g.serial, [(⟨"trigger", g.name, some g.sql, g.table⟩ : SchemaRow)])
  let views := (c.views.filter fun v => v.temporary == temporary).map fun v =>
    (v.serial, [(⟨"view", v.name, some v.sql, v.name⟩ : SchemaRow)])
  let all := sortShort (fun a b => decide (a.1 ≤ b.1)) (tables ++ indexes ++ triggers ++ views)
  all.flatMap Prod.snd

/-- The schema whose list of objects has this name. -/
def listed? (n : ObjectName) : Option Bool :=
  let isNamed (names : List String) : Bool := names.any (sameName n.name)
  (schemas n).findSome? fun temporary =>
    if temporary then
      if isNamed ["sqlite_temp_master", "sqlite_temp_schema"]
          || (n.schema.isSome && isNamed ["sqlite_master", "sqlite_schema"]) then some true else none
    else if isNamed ["sqlite_master", "sqlite_schema"] then some false else none

/-- The list of the objects of a schema as a table. -/
def listingRelation (c : Content) (temporary : Bool) : Relation :=
  let column (name sqlType : String) : Column := { name, sqlType, affinity := some (.ofType sqlType) }
  let rowOf (r : SchemaRow) (n : Nat) : Row :=
    let root : Int := if r.kind = "table" || r.kind = "index" then n + 2 else 0
    ⟨n + 1, [.text r.kind, .text r.name, .text r.tableName, .integer root, (r.sql.map Value.text).getD .null]⟩
  { Relation.ofRows
      [column "type" "TEXT", column "name" "TEXT", column "tbl_name" "TEXT", column "rootpage" "INT",
        column "sql" "TEXT"]
      ((c.listing temporary).mapIdx fun n r => rowOf r n) with
    hasRowid := true }

/-! ## Tables and views -/

def tableRelation (c : Content) (t : StoredTable) : Relation where
  columns := t.definition.columns
  origin := some ⟨t.temporary, t.name⟩
  rowColumn := t.definition.rowColumn
  hasRowid := !t.definition.withoutRowid
  sorts := c.sorts t
  read d _ := { items := c.scan t d }

/-- What a name means in an object of a schema: one of the main schema does not see temporary objects. -/
def nameWithin (temporary : Bool) (n : ObjectName) : ObjectName :=
  if temporary then n else { n with schema := some (n.schema.getD (schemaOf false)) }

def viewMismatch (view : String) (labels columns : Nat) : Failure :=
  .invalid ("expected " ++ toString labels ++ " columns for '" ++ view ++ "' but got " ++ toString columns)

/-- What the query of a view refers to, by what names mean. -/
def viewContext (v : StoredView) (find : ObjectName → Except Failure (Option String × Relation)) : Context :=
  { find := fun n => find (nameWithin v.temporary n) }

/-- What the query of a view gives. -/
def viewRelation (v : StoredView) (find : ObjectName → Except Failure (Option String × Relation)) :
    Except Failure Relation :=
  v.body.select.relation (viewContext v find)

/-- A table or view with its schema, where views are used at most `depth` deep. -/
def relationUpTo : Nat → Content → ObjectName → Except Failure (Option String × Relation)
  | 0, _, n => .error (.invalid ("view " ++ n.name ++ " is circularly defined"))
  | depth + 1, c, n => do
    match c.source? n with
    | some (.inl t) => return (schemaOf t.temporary, c.tableRelation t)
    | some (.inr v) =>
      let rel ← viewRelation v (relationUpTo depth c)
      return (schemaOf v.temporary, ← rel.labelled v.body.labels (viewMismatch v.name))
    | none =>
      match listed? n with
      | some temporary => return (schemaOf temporary, c.listingRelation temporary)
      | none => throw (.noSuchTable n)

def relation (c : Content) (n : ObjectName) : Except Failure (Option String × Relation) :=
  c.relationUpTo (c.views.length + 1) n

/-- What expressions of a statement refer to. -/
def context (c : Content) (counts : Counts) : Context := { find := c.relation, counts }

/-- What a query gives. -/
def query (c : Content) (counts : Counts) (s : Select) : Except Failure Relation := do
  let rel ← s.relationOrFault (c.context counts)
  rel.checkSound
  return rel

/-- The columns of a view with their types. Labels for more or less columns than there are have no types. -/
def viewColumns (c : Content) (v : StoredView) : Except Failure (List (String × String)) := do
  let rel ← viewRelation v (c.relationUpTo c.views.length)
  let labels := v.body.labels
  let columns : List Column :=
    if labels.isEmpty then rel.columns
    else if labels.length = rel.columns.length then (rel.columns.zip labels).map fun (c, name) => { c with name }
    else labels.map fun name => { name }
  return (Relation.distinctColumns [] columns).map fun column => (column.name, column.sqlType)

end Content

end SchemaEditor.Store
