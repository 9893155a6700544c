import SchemaEditor.Store.PageFile
import SchemaEditor.Store.Stored

/-!
# Contents of files

The first page of a database file is the root of the list of its objects. The objects follow from their statements,
one after the other, and the rows of a table from the tree of the table.
-/

namespace SchemaEditor.Store

/-- A row of the list of objects. -/
structure FileObject where
  kind : String
  name : String
  table : String
  root : Int
  sql : String

namespace FileObject

def malformedSchema (name detail : String) : Failure :=
  .invalid ("malformed database schema (" ++ name ++ ")" ++ if detail = "" then "" else " - " ++ detail)

def ofEntry (e : PageFile.Entry) : Except Failure FileObject := do
  let value (i : Nat) : Value := e.values.getD i .null
  let name := if value 1 == .null then "?" else (value 1).shown
  if value 3 == .null then throw (malformedSchema name "")
  return { kind := (value 0).shown, name, table := (value 2).shown, root := (value 3).toInteger, sql := (value 4).shown }

def refuse {α : Type} (o : FileObject) (detail : String) : Except Failure α := .error (malformedSchema o.name detail)

/-- An object is what its statement says. -/
def check (o : FileObject) (kind : ObjectKind) (name table : String) : Except Failure Unit :=
  if o.kind = kind.tag && sameName o.name name && sameName o.table table then .ok () else .error (.invalid "")

end FileObject

namespace StoredTable

/-- The places of the columns in the records of a table. The key of a table WITHOUT ROWID comes first, and columns
that are worked out when they are read are left out. -/
def recordPlaces (d : Definition) : List Nat :=
  let kept := (List.range d.columns.length).filter fun i =>
    ((d.columns[i]?).bind Column.generation).all Generation.stored
  if d.withoutRowid then
    let key := d.key.map KeyColumn.place
    key ++ kept.filter fun i => !key.contains i
  else kept

/-- A row from its record. Columns that are younger than the record have their defaults. -/
def rowOfEntry (t : StoredTable) (rules : Rules) (e : PageFile.Entry) : Except Failure Row := do
  let places := recordPlaces t.definition
  let values ← t.definition.columns.zipIdx.mapM fun (c, i) => do
    if t.definition.rowColumn = some i then return .integer e.rowid
    let affinity := c.affinity.getD .blob
    match e.values[places.idxOf i]?, affinity with
    | some (.integer n), .real => return .real (.ofInt n)
    | some v, _ => return v
    | none, _ => return affinity.convert (← earlierValue c)
  rules.generate t { rowid := e.rowid, values }

/-- The rows of a table that a tree holds. -/
def restoredRows (t : StoredTable) (rules : Rules) (f : PageFile) (root : Nat) : Except Failure (List Row) := do
  let kind : PageFile.TreeKind := if t.definition.withoutRowid then .plain else .numbered
  (← f.entries kind root).mapM (t.rowOfEntry rules)

end StoredTable

namespace Content

/-- Adds a table of a file. A table whose tree makes no sense is taken to be empty. -/
def restoreTable (content : Content) (f : PageFile) (o : FileObject) (c : Creation) (body : TableBody) :
    Except Failure Content := do
  o.check .table c.target.name c.target.name
  if let some kind := content.tableKind? false o.name then throw (.taken kind o.name)
  if (content.indexIn? false o.name).isSome then throw (.takenAs .index o.name)
  checkDefaults body
  let definition ← Definition.ofBody c.target.name body
  let t : StoredTable := { name := c.target.name, sql := o.sql, temporary := false, serial := content.serial, definition }
  let rules ← content.rules t
  let rows := ((t.restoredRows rules f o.root.toNat).toOption).getD []
  return content.withNext fun _ content => { content with tables := content.tables ++ [{ t with rows }] }

def restoreIndex (content : Content) (o : FileObject) (c : Creation) (body : IndexBody) : Except Failure Content := do
  match ← content.findOwner (some (schemaOf false)) body.table.name with
  | .inr _ => throw (.invalid "views may not be indexed")
  | .inl t =>
    o.check .index c.target.name t.name
    if (content.indexIn? false o.name).isSome then throw (.taken .index o.name)
    let i : StoredIndex := ⟨c.target.name, t.name, o.sql, false, content.serial, body⟩
    checkIndex t i
    return content.withNext fun _ content => { content with indexes := content.indexes ++ [i] }

def restoreTrigger (content : Content) (o : FileObject) (c : Creation) (body : TriggerBody) : Except Failure Content := do
  checkTrigger (← content.findOwner (some (schemaOf false)) body.table.name) body.time
  o.check .trigger c.target.name body.table.name
  if content.triggers.any fun g => sameName g.name o.name then throw (.taken .trigger o.name)
  return content.withNext fun serial content =>
    { content with triggers := content.triggers ++ [⟨c.target.name, body.table.name, o.sql, false, serial, false, body⟩] }

def restoreView (content : Content) (o : FileObject) (c : Creation) (body : ViewBody) : Except Failure Content := do
  o.check .view c.target.name c.target.name
  if let some kind := content.tableKind? false o.name then throw (.taken kind o.name)
  if (content.indexIn? false o.name).isSome then throw (.takenAs .index o.name)
  return content.withNext fun serial content =>
    { content with views := content.views ++ [⟨c.target.name, o.sql, false, serial, body⟩] }

/-- Whether an object is an index that comes with a table. -/
def hasAutoIndex (content : Content) (o : FileObject) : Bool :=
  content.tables.any fun t => (autoIndexRows t).any fun r => sameName r.name o.name

/-- Adds an object of a file. -/
def restoreObject (content : Content) (f : PageFile) (o : FileObject) : Except Failure Content := do
  if "cr".toList.isPrefixOf (foldCase o.sql) then
    if f.count < o.root.toNat then o.refuse "invalid rootpage"
    let restored : Except Failure Content := do
      match ← readStored o.sql with
      | .createTable c body => content.restoreTable f o c body
      | .createIndex c body => content.restoreIndex o c body
      | .createTrigger c body => content.restoreTrigger o c body
      | .createView c body => content.restoreView o c body
      | _ => throw (.invalid "")
    match restored with
    | .ok content => return content
    | .error e => o.refuse e.message
  else if o.sql ≠ "" then o.refuse ""
  else if !content.hasAutoIndex o then o.refuse "orphan index"
  else if o.root < 2 || f.count < o.root.toNat then o.refuse "invalid rootpage"
  else return content

/-- The content of a database file. -/
def ofFile (bytes : List UInt8) : Except Failure Content := do
  let f ← PageFile.ofBytes bytes
  let objects ← (← f.entries .numbered 1).mapM FileObject.ofEntry
  let content : Content ← objects.foldlM (fun content o => restoreObject content f o) {}
  return { content with
    schemaVersion := signedAt f.bytes 40 4
    userVersion := signedAt f.bytes 60 4
    applicationId := signedAt f.bytes 68 4 }

end Content

end SchemaEditor.Store
