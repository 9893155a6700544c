import SchemaEditor.Store.Execution
import SchemaEditor.Store.Restoring

/-!
# The store as a database engine

The store answers the requests of the library, and its content without temporary objects is what a file
keeps. A connection that ends inside a transaction discards it.
-/

namespace SchemaEditor.Store

def engineError (f : Failure) : EngineError := { text := f.message }

namespace Content

/-! ## The list of schema objects -/

def compareTexts (a b : String) : Ordering := compareOfLessAndEq a b

def compareSchemaRows (a b : SchemaRow) : Ordering :=
  (compareTexts a.kind b.kind).then <| (compareTexts a.name b.name).then <|
    (compare a.sql.isSome b.sql.isSome).then <| (compareTexts (a.sql.getD "") (b.sql.getD "")).then <|
      compareTexts a.tableName b.tableName

/-- The schema objects in order, each once. -/
def schema (c : Content) : List SchemaRow :=
  (sortShort (fun a b => compareSchemaRows a b != .gt) (c.listing false ++ c.listing true)).eraseReps

/-- The columns of the view of a name, or of the temporary table that hides it. -/
def columnsOfView (c : Content) (name : String) : Except Failure (List (String × String)) := do
  match c.source? { name } with
  | some (.inr v) => c.viewColumns v
  | some (.inl t) => return t.definition.columns.map fun column => (column.name, standardType column.sqlType)
  | none => return []

end Content

namespace State

/-- The columns that a statement gives. Fails if the statement makes no sense, which does not depend on rows. -/
def columnsOf (s : State) (statement : Statement) : Except Failure (List String) := do
  match statement with
  | .rows statement => return (← Change.planOf s.content s.stage statement).1
  | .pragma n value => return (← s.answerPragma n value).1.headings
  | .savepoint _ | .release _ | .rollbackTo _ | .begin | .commit | .rollback | .vacuum => return []
  | statement =>
    match (({ s with content := s.content.withoutRows }).perform statement).1 with
    | .error (.inObject ..) | .ok _ => return []
    | .error e => throw e

/-- The columns of the first statement that has any, of at most `n` statements. All of them have to make sense. -/
def columnsUpTo (s : State) : Nat → List Token → Except Failure (List String)
  | 0, _ => return []
  | n + 1, ts => do
    match ← Reader.statement.run ts with
    | (none, _) => return []
    | (some statement, rest) =>
      let columns ← s.columnsOf statement
      let others ← s.columnsUpTo n rest
      return if columns.isEmpty then others else columns

def queryColumns (s : State) (sql : String) : Except Failure (List String) :=
  let ts := tokens (Text.trimmed sql)
  s.columnsUpTo ts.length ts

/-- The first value that a setting or an answer to a question shows. -/
def pragmaText (s : State) (name : String) : Except Failure String := do
  let (answer, _) ← s.answerPragma { name } none
  return ((answer.rows.head?.bind List.head?).map Value.shown).getD ""

/-- The statement that inserts texts into all columns of a table. -/
def insertion (table : String) (values : List (Option String)) : RowStatement :=
  let row := values.map fun v => Expr.literal ((v.map Value.text).getD .null)
  .insert { target := { name := table }, source := some (.mk [] (.values [row]) [] [] none none) }

/-- Inserts a row of texts. -/
def insertTexts (s : State) (table : String) (values : List (Option String)) : Except Failure Unit × State :=
  let (outcome, s) := s.run (.rows (insertion table values))
  (outcome.map fun _ => (), s)

end State

instance : Engine State where
  execute sql s :=
    let (o, s) := s.runText sql
    ((o.rows.whole.map fun _ => o.changes).mapError engineError, s)
  pragma name s := ((s.pragmaText name).mapError engineError, s)
  schema s := .ok s.content.schema
  viewColumns view s := (s.content.columnsOfView view).mapError engineError
  queryColumns sql s := (s.queryColumns sql).mapError engineError
  queryRows sql s :=
    let (o, s) := s.runText sql
    ({ rows := o.rows.items, failure := o.rows.failure.map engineError }, s)
  insertRow table values s :=
    let (outcome, s) := s.insertTexts table values
    (outcome.mapError engineError, s)
  violations s := s.content.violations.mapError engineError

instance : Storage State Content where
  empty := {}
  read bytes := (Content.ofFile bytes).mapError engineError
  openFile content access := { content, foreignKeys := access.foreignKeys, access }
  emptied s := { s with emptied := true }
  close s := s.abandon.content.withoutTemporary

end SchemaEditor.Store
