import SchemaEditor.Sql.Identifier
import SchemaEditor.Store.Lexer
import SchemaEditor.Store.Mutation
import SchemaEditor.Store.Reading

/-!
# Creating objects

New tables, indexes, triggers and views. A name can be taken only once in a schema, but a trigger may have the name
of something else.
-/

namespace SchemaEditor.Store

namespace Content

/-! ## Names -/

def isReserved (name : String) : Bool := "sqlite_".toList.isPrefixOf (foldCase name)

/-- Whether a new object goes to the temporary schema. -/
def creationSchema (c : Creation) : Except Failure Bool :=
  match c.target.schema with
  | none => .ok c.temporary
  | some s =>
    if sameName s "temp" then .ok true
    else if !sameName s "main" then .error (.unknownSchema s)
    else if c.temporary then .error (.invalid "temporary table name must be unqualified")
    else .ok false

def checkName (name : String) : Except Failure Unit := if isReserved name then .error (.reservedName name) else .ok ()

/-- What has a name that tables and views share. -/
def tableKind? (c : Content) (temporary : Bool) (name : String) : Option ObjectKind :=
  if (c.tableIn? temporary name).isSome then some .table
  else if (c.viewIn? temporary name).isSome then some .view
  else none

/-- Makes a table or view, unless its name is reserved or taken. It may be there already if the statement says
so. -/
def createNamed (content : Content) (c : Creation) (temporary : Bool) (create : Content → Except Failure Content) :
    Except Failure Content := do
  checkName c.target.name
  match content.tableKind? temporary c.target.name with
  | some kind => if c.ifNotExists then return content else throw (.taken kind c.target.name)
  | none =>
    if (content.indexIn? temporary c.target.name).isSome then throw (.takenAs .index c.target.name)
    create content

/-! ## Tables -/

/-- The default of a column names no other column. -/
def checkDefaults (body : TableBody) : Except Failure Unit :=
  body.columns.forM fun c => c.clauses.forM fun
    | .default e .. =>
      if e.isConstant true then .ok () else .error (.invalid ("default value of column [" ++ c.name ++ "] is not constant"))
    | _ => .ok ()

/-- Adds a table whose rules make sense. -/
def addTable (content : Content) (name sql : String) (temporary : Bool) (definition : Definition) (rows : List Row) :
    Except Failure Content := do
  let content := content.withNext fun serial content =>
    { content with tables := content.tables ++ [{ name, sql, temporary, serial, definition, rows }] }
  if let some t := content.tableIn? temporary name then
    let isStored (i : Nat) : Bool := (t.definition.columns[i]?.bind Column.generation).any Generation.stored
    let rules ← content.rules t
    Meaning.checkSound (rules.generations.map Prod.snd)
    Rules.checkOrder t (rules.generations.filter fun (i, _) => !isStored i)
  return if definition.autoIncrement then content.withSequence temporary else content

def createTable (content : Content) (c : Creation) (body : TableBody) : Except Failure Content := do
  let temporary ← creationSchema c
  content.createNamed c temporary fun content => do
    checkDefaults body
    content.addTable c.target.name ("CREATE TABLE " ++ c.text) temporary (← Definition.ofBody c.target.name body) []

/-- A name as it is written into a statement: in double quotes unless it is a word that means nothing else. -/
def writtenName (name : String) : String :=
  let cs := name.toList
  let isPlain := cs.all (fun c => c.isAlphanum || c == '_') && !cs.isEmpty && !(cs.head?.any Char.isDigit)
  if isPlain && !isKeyword name then name else quoteWith '"' name

def shownAffinity : Affinity → String
  | .blob => ""
  | .text => " TEXT"
  | .numeric => " NUM"
  | .integer => " INT"
  | .real => " REAL"

/-- The statement that a table could have been created with. A long one has a line for each column. -/
def writtenTable (name : String) (columns : List Column) : String :=
  let quoted (n : String) : Nat := (quoteWith '"' n).utf8ByteSize
  let isShort := columns.foldl (fun n c => n + quoted c.name + 5) (quoted name) < 50
  let items := columns.map fun c => writtenName c.name ++ shownAffinity (c.affinity.getD .blob)
  let separator := if isShort then "," else ",\n  "
  "CREATE TABLE " ++ writtenName name ++ "(" ++ (if isShort then "" else "\n  ") ++ separator.intercalate items
    ++ if isShort then ")" else "\n)"

def typeOfAffinity (a : Affinity) : String := ((shownAffinity a).dropWhile (· == ' ')).toString

/-- Creates a table for the rows of a query. -/
def createTableAs (content : Content) (counts : Counts) (c : Creation) (s : Select) : Except Failure Content := do
  let temporary ← creationSchema c
  content.createNamed c temporary fun content => do
    let rel ← content.query counts s
    let rel ← rel.labelled [] labelMismatch
    let columns : List Column := rel.columns.map fun column =>
      let affinity := column.affinity.getD .blob
      { name := column.name, sqlType := typeOfAffinity affinity, affinity := some affinity }
    let rows := (← rel.rows).mapIdx fun i r =>
      let values := (columns.zip r.values).map fun (c, v) => (c.affinity.getD .blob).convert v
      (⟨i + 1, values⟩ : Row)
    content.addTable c.target.name (writtenTable c.target.name columns) temporary { columns } rows
where
  labelMismatch (labels columns : Nat) : Failure := .columnCount labels columns

/-! ## Indexes -/

/-- The table that a new index or trigger is for, among those of the schema of the new object. -/
def findOwner (content : Content) (schema : Option String) (table : String) : Except Failure (StoredTable ⊕ StoredView) :=
  match content.source? { schema, name := table } with
  | some owner => .ok owner
  | none => .error (.noSuchTable { schema := some (schema.getD (schemaOf false)), name := table })

def checkIndexed (t : StoredTable) : Except Failure Unit :=
  if isReserved t.name then .error (.invalid ("table " ++ t.name ++ " may not be indexed")) else .ok ()

/-- Fails if the terms or the condition of an index make no sense. -/
def checkIndex (t : StoredTable) (i : StoredIndex) : Except Failure Unit := do
  i.body.terms.forM fun term => do
    Meaning.checkSound [← StoredIndex.termMeaning t term]
    match Definition.termColumn? term.expr with
    | some (_, some collation) => let _ ← findCollation collation
    | _ => return ()
  if let some e := i.body.filter then
    Meaning.checkSound [← e.meaning (t.context .indexFilter)]

def createIndex (content : Content) (c : Creation) (body : IndexBody) : Except Failure Content := do
  if let some s := c.target.schema then
    if (schemas c.target).isEmpty then throw (.unknownSchema s)
  match ← content.findOwner c.target.schema body.table.name with
  | .inr _ => throw (.invalid "views may not be indexed")
  | .inl t =>
    checkIndexed t
    checkName c.target.name
    if let some kind := content.tableKind? t.temporary c.target.name then throw (.takenAs kind c.target.name)
    if (content.indexIn? t.temporary c.target.name).isSome then
      if c.ifNotExists then return content else throw (.taken .index c.target.name)
    let sql := (if body.unique then "CREATE UNIQUE INDEX " else "CREATE INDEX ") ++ c.text
    let i : StoredIndex := ⟨c.target.name, t.name, sql, t.temporary, content.serial, body⟩
    checkIndex t i
    if body.unique then
      let key ← i.uniqueKey t
      if !(← key.holds t.rows) then throw key.failure
    return content.withNext fun serial content => { content with indexes := content.indexes ++ [{ i with serial }] }

/-! ## Triggers and views -/

def checkTrigger (owner : StoredTable ⊕ StoredView) (time : TriggerTime) : Except Failure Unit :=
  match owner, time with
  | .inl t, .insteadOf => .error (.invalid ("cannot create INSTEAD OF trigger on table: " ++ t.name))
  | .inl t, _ => if isReserved t.name then .error (.invalid "cannot create trigger on system table") else .ok ()
  | .inr _, .insteadOf => .ok ()
  | .inr v, time =>
    .error (.invalid ("cannot create " ++ (if time = .before then "BEFORE" else "AFTER") ++ " trigger on view: " ++ v.name))

def createTrigger (content : Content) (c : Creation) (body : TriggerBody) : Except Failure Content := do
  if c.temporary && c.target.schema.isSome then throw (.invalid "temporary trigger may not have qualified name")
  if let some s := c.target.schema then
    if (schemas c.target).isEmpty then throw (.unknownSchema s)
  let owner ← content.findOwner (body.table.schema.orElse fun _ => c.target.schema) body.table.name
  let onTemporary := match owner with
    | .inl t => t.temporary
    | .inr v => v.temporary
  let temporary := c.temporary || onTemporary || (schemas c.target == [true])
  checkName c.target.name
  if content.triggers.any fun g => g.temporary == temporary && sameName g.name c.target.name then
    if c.ifNotExists then return content else throw (.taken .trigger c.target.name)
  checkTrigger owner body.time
  body.readings.forM (Reading.check .trigger c.target.name temporary)
  return content.withNext fun serial content =>
    { content with triggers := content.triggers ++
      [⟨c.target.name, body.table.name, "CREATE TRIGGER " ++ c.text, temporary, serial, onTemporary, body⟩] }

def createView (content : Content) (c : Creation) (body : ViewBody) : Except Failure Content := do
  let temporary ← creationSchema c
  content.createNamed c temporary fun content => do
    body.select.readings.forM (Reading.check .view c.target.name temporary)
    return content.withNext fun serial content =>
      { content with views := content.views ++ [⟨c.target.name, "CREATE VIEW " ++ c.text, temporary, serial, body⟩] }

end Content

end SchemaEditor.Store
