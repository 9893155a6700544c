import SchemaEditor.Store.ForeignKeys
import SchemaEditor.Store.State

/-!
# Questions about a store

What a store tells about its objects: the columns of a table, its indexes and references, the rows that refer to
nothing, and the list of its tables. Each answer is a table of its own.
-/

namespace SchemaEditor.Store

/-- An answer to a question. -/
structure Inspection where
  headings : List String
  rows : List (List Value)

namespace Content

def number (n : Nat) : Value := .integer n

def flag (b : Bool) : Value := .ofTruth (some b)

def textOrNull (s : Option String) : Value := (s.map Value.text).getD .null

/-! ## Columns -/

/-- The place of a column in the key, counted from one; zero if it is not in it. -/
def keyPlace (t : StoredTable) (i : Nat) : Nat :=
  ((t.definition.key.findIdx? fun k => k.place == i).map (· + 1)).getD 0

/-- The columns of a table. Those that are computed are shown only if all are. -/
def tableColumns (t : StoredTable) (isAll : Bool) : List (List Value) :=
  let shown := t.definition.columns.zipIdx.filter fun (c, _) => isAll || c.generation.isNone
  shown.mapIdx fun n (c, i) =>
    [number n, .text c.name, .text (standardType c.sqlType), flag c.notNull,
      textOrNull (if c.generation.isSome then none else c.defaultText), number (keyPlace t i)]
      ++ if isAll then [number ((c.generation.map fun g => if g.stored then 3 else 2).getD 0)] else []

def plainColumns (columns : List (String × String)) (isAll : Bool) : List (List Value) :=
  columns.mapIdx fun n (name, sqlType) =>
    [number n, .text name, .text sqlType, flag false, .null, number 0] ++ if isAll then [number 0] else []

def inspectColumns (c : Content) (n : ObjectName) (isAll : Bool) : Except Failure (List (List Value)) := do
  match c.source? n with
  | some (.inl t) => return tableColumns t isAll
  | some (.inr v) => return plainColumns (← c.viewColumns v) isAll
  | none =>
    match listed? n with
    | some temporary =>
      return plainColumns ((c.listingRelation temporary).columns.map fun k => (k.name, k.sqlType)) isAll
    | none => return []

/-! ## Indexes -/

/-- An index as questions about it see it. -/
structure IndexView where
  name : String
  unique : Bool
  /-- What it was made by: a statement, a constraint or a key. -/
  origin : String
  isPartial : Bool
  replaces : Bool := false
  /-- Its columns, and what it keeps besides. None stands for an expression. -/
  key : List (Option KeyColumn × String)
  rest : List KeyColumn

def collationName (k : Collation) : String :=
  match k with
  | .binary => "BINARY"
  | .noCase => "NOCASE"
  | .trimEnd => "RTRIM"

/-- What an index of a table without row numbers keeps besides its columns: the rest of the key. -/
def restOfKey (t : StoredTable) (key : List (Option KeyColumn)) : List KeyColumn :=
  t.definition.key.filter fun k => !key.any fun e => e.any fun e => e.place == k.place && e.collation == k.collation

def autoIndexView (t : StoredTable) (n : Nat) (i : AutoIndex) : IndexView where
  name := "sqlite_autoindex_" ++ t.name ++ "_" ++ toString (n + 1)
  unique := true
  origin := if Definition.sameKey i.columns t.definition.key then "pk" else "u"
  isPartial := false
  replaces := i.onConflict == some .replace
  key := i.columns.map fun k => (some k, collationName k.collation)
  rest :=
    if !t.definition.withoutRowid then []
    else if i.isTable then
      let others := (StoredTable.places t).filter fun p => !i.columns.any fun k => k.place == p
      others.map fun i => ⟨i, (t.definition.columns[i]?.map Column.collation).getD .binary, false⟩
    else restOfKey t (i.columns.map some)

/-- A term of an index as a column, and its collation as it is written. -/
def indexTermView (t : StoredTable) (term : IndexTerm) : Option KeyColumn × String :=
  match Definition.termColumn? term.expr with
  | some (_, collation) =>
    let key := (Definition.keyColumn t.definition.columns term).toOption
    (key, collation.getD ((key.map fun k => collationName k.collation).getD "BINARY"))
  | none => (none, "BINARY")

def indexView (t : StoredTable) (i : StoredIndex) : IndexView :=
  let key := i.body.terms.map (indexTermView t)
  { name := i.name
    unique := i.body.unique
    origin := "c"
    isPartial := i.body.filter.isSome
    key
    rest := if t.definition.withoutRowid then restOfKey t (key.map Prod.fst) else [] }

/-- The indexes of a table, the latest first. Those that replace rows come last. -/
def indexViews (c : Content) (t : StoredTable) : List IndexView :=
  let made := (c.indexesOf t).map (indexView t)
  let all := (t.definition.autoIndexes.mapIdx (autoIndexView t) ++ made).reverse
  all.filter (fun i => !i.replaces) ++ all.filter IndexView.replaces

def inspectIndexes (c : Content) (n : ObjectName) : List (List Value) :=
  match c.source? n with
  | some (.inl t) =>
    (c.indexViews t).mapIdx fun k i => [number k, .text i.name, flag i.unique, .text i.origin, flag i.isPartial]
  | _ => []

/-- The index of a name. A table without row numbers is one itself. -/
def findIndexView (c : Content) (n : ObjectName) : Option (StoredTable × IndexView) :=
  let named := (schemas n).findSome? fun temporary =>
    (c.tables.filter fun t => t.temporary == temporary).findSome? fun t =>
      ((c.indexViews t).find? fun i => sameName i.name n.name).map fun i => (t, i)
  named.orElse fun _ =>
    match c.source? n with
    | some (.inl t) => ((c.indexViews t).find? fun i => t.definition.withoutRowid && i.origin == "pk").map fun i => (t, i)
    | _ => none

/-- The columns of an index, and what it keeps besides if all are asked for. -/
def inspectIndex (c : Content) (n : ObjectName) (isAll : Bool) : List (List Value) :=
  match c.findIndexView n with
  | none => []
  | some (t, i) =>
    let key : List (Value × Value × List Value) := i.key.map fun (k, collation) =>
      let place : Value := (k.map fun k => number k.place).getD (.integer (-2))
      (place, textOrNull (k.map fun k => t.columnName k.place),
        [flag ((k.map KeyColumn.descending).getD false), .text collation, number 1])
    let rest := i.rest.map fun k =>
      (number k.place, Value.text (t.columnName k.place), [number 0, .text (collationName k.collation), number 0])
    let rowid := if t.definition.withoutRowid then [] else
      [(Value.integer (-1), Value.null, [number 0, .text (collationName .binary), number 0])]
    (key ++ if isAll then rest ++ rowid else []).mapIdx fun n (place, name, more) =>
      [number n, place, name] ++ if isAll then more else []

/-! ## References -/

def describeAction : ReferenceAction → String
  | .wait => "NO ACTION"
  | .refuse => "RESTRICT"
  | .cascade => "CASCADE"
  | .setNull => "SET NULL"
  | .setDefault => "SET DEFAULT"

def inspectReferences (c : Content) (n : ObjectName) : List (List Value) :=
  match c.source? n with
  | some (.inl t) =>
    (numberedReferences t).flatMap fun (r, id) => r.columns.mapIdx fun seq i =>
      [number id, number seq, .text r.parent, .text (t.columnName i), textOrNull r.parentColumns[seq]?,
        .text (describeAction r.onUpdate), .text (describeAction r.onDelete), .text "NONE"]
  | _ => []

/-- The rows that refer to nothing: those of one table, or of all. -/
def inspectViolations (c : Content) (schema table : Option String) : Except Failure (List (List Value)) := do
  let tables ← match table with
    | none => pure (c.foundTables (schema.any (sameName "temp")))
    | some name =>
      match c.source? { schema, name } with
      | some (.inl t) => pure [t]
      | some (.inr _) => pure []
      | none => if (listed? { schema, name }).isSome then pure [] else throw (.noSuchTable { schema, name })
  tables.flatMapM fun t => do
    return (← c.brokenReferences t).map fun (row, r, id) =>
      [.text t.name, ((rowNumber t row).map Value.integer).getD .null, .text r.parent, number id]

/-! ## Tables -/

/-- A table or a view in the list of all. -/
def inspectSource (c : Content) (temporary : Bool) (name : String) : List Value :=
  let row (name kind : String) (count : Nat) (withoutRowid strict : Bool) : List Value :=
    [.text (schemaOf temporary), .text name, .text kind, number count, flag withoutRowid, flag strict]
  match c.tableIn? temporary name, c.viewIn? temporary name with
  | some t, _ => row t.name "table" t.definition.columns.length t.definition.withoutRowid t.definition.strict
  | none, some v => row v.name "view" (((c.viewColumns v).toOption.map List.length).getD 0) false false
  | none, none => row (if temporary then "sqlite_temp_schema" else "sqlite_schema") "table" 5 false false

/-- The tables and views, those of a name or all. -/
def inspectTables (c : Content) (schema name : Option String) : List (List Value) :=
  ([false, true].filter fun temporary => schema.all (sameName (schemaOf temporary))).flatMap fun temporary =>
    ((c.foundNames temporary).filter fun n => name.all (sameName n)).map (c.inspectSource temporary)

end Content

namespace State

/-- The questions, with the columns of their answers. -/
def questions : List (String × List String) :=
  let columns := ["cid", "name", "type", "notnull", "dflt_value", "pk"]
  let terms := ["seqno", "cid", "name"]
  [("table_info", columns), ("table_xinfo", columns ++ ["hidden"]), ("index_info", terms),
    ("index_xinfo", terms ++ ["desc", "coll", "key"]), ("index_list", ["seq", "name", "unique", "origin", "partial"]),
    ("foreign_key_list", ["id", "seq", "table", "from", "to", "on_update", "on_delete", "match"]),
    ("foreign_key_check", ["table", "rowid", "parent", "fkid"]),
    ("table_list", ["schema", "name", "type", "ncol", "wr", "strict"]), ("collation_list", ["seq", "name"]),
    ("database_list", ["seq", "name", "file"]), ("wal_checkpoint", ["busy", "log", "checkpointed"]),
    ("integrity_check", ["integrity_check"]), ("quick_check", ["quick_check"]), ("optimize", ["optimize"])]

/-- Checks a table, or all. -/
def inspectIntegrity (s : State) (schema argument : Option String) : Except Failure (List (List Value)) :=
  let isTable (name : String) : Bool :=
    (s.content.source? { schema, name }).isSome || (Content.listed? { schema, name }).isSome
  match argument with
  | none => .ok [[.text "ok"]]
  | some a =>
    if Setting.startsWithDigit a || isTable a then .ok [[.text "ok"]]
    else .error (.noSuchTable { schema, name := a })

/-- The answer to a question, if it is one. -/
def inspect? (s : State) (n : ObjectName) (argument : Option String) : Option (Except Failure Inspection) :=
  (questions.find? fun (q, _) => sameName q n.name).map fun (question, headings) => do
    let c := s.content
    let about {α : Type} (find : ObjectName → List α) : List α :=
      (argument.map fun name => find { schema := n.schema, name }).getD []
    let columns (isAll : Bool) : Except Failure (List (List Value)) :=
      match argument with
      | some name => c.inspectColumns { schema := n.schema, name } isAll
      | none => .ok []
    let rows ← match question with
      | "table_info" => columns false
      | "table_xinfo" => columns true
      | "index_list" => pure (about c.inspectIndexes)
      | "index_info" => pure (about fun i => c.inspectIndex i false)
      | "index_xinfo" => pure (about fun i => c.inspectIndex i true)
      | "foreign_key_list" => pure (about c.inspectReferences)
      | "foreign_key_check" => c.inspectViolations n.schema argument
      | "table_list" => pure (c.inspectTables n.schema argument)
      | "collation_list" => pure (["RTRIM", "NOCASE", "BINARY"].mapIdx fun i k => [Content.number i, .text k])
      | "database_list" => pure (["main", "temp"].mapIdx fun i k => [Content.number i, .text k, .text ""])
      | "wal_checkpoint" =>
        if s.transaction.isSome then throw (.invalid "database table is locked")
        else pure [[.integer 0, .integer (-1), .integer (-1)]]
      | "optimize" => pure []
      | _ => s.inspectIntegrity n.schema argument
    return ⟨headings, rows⟩

end State

end SchemaEditor.Store
