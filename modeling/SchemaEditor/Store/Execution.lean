import SchemaEditor.Store.Alter
import SchemaEditor.Store.Inspection
import SchemaEditor.Store.Removal
import SchemaEditor.Store.State

/-!
# Carrying out statements

What each statement does to a connection. A statement that fails changes no content, unless it is to keep what it
did, or to end the transaction. A text of several statements keeps what those before the failing one did.
-/

namespace SchemaEditor.Store

/-- The rows that a statement gives. -/
abbrev Answer := List (List Value)

namespace State

/-! ## Statements on rows -/

/-- Fails if more rows refer to nothing after a statement than before it. Outside a transaction all references
count. -/
def checkDangling (s : State) (after : Content) : Except Failure Unit :=
  let grows (deferred : Bool) : Bool := s.content.danglingCount deferred < after.danglingCount deferred
  let isConcerned := s.foreignKeys && after.tables.any fun t => !t.definition.references.isEmpty
  let fails := if s.transaction.isNone then grows false || grows true else !s.deferForeignKeys && grows false
  if isConcerned && fails then .error .foreignKey else .ok ()

/-- What a statement leaves that fails at a row. -/
def afterRefusal (s : State) (w : Work) (e : Refusal) : State :=
  let counts := { s.counts with changes := 0 }
  match e.action with
  | .fail => { s with content := w.content, counts := w.closed, violations := s.violationsAfter w.content }
  | .rollback => { s.abandon with counts }
  | _ => { s with counts }

/-- Runs a change of rows, and counts the rows that it changes. -/
def change {α : Type} (s : State) (change : Change α) : Except Failure α × State :=
  match change { content := s.content, counts := s.counts } with
  | .error e w => (.error e.failure, s.afterRefusal w e)
  | .ok a w =>
    match s.checkDangling w.content with
    | .error e => (.error e, s.afterRefusal w ⟨e, .abort⟩)
    | .ok () => (.ok a, { s with content := w.content, counts := w.closed, violations := s.violationsAfter w.content })

/-- Runs a statement on rows, after it was worked out with all that it may fire. -/
def runRows (s : State) (statement : RowStatement) : Except Failure Answer × State :=
  match Change.check s.content s.stage statement with
  | .error e => (.error e, s)
  | .ok () =>
    let perform := Change.perform (Change.runUpTo Change.maxDepth) s.stage statement
    match statement with
    | .select _ =>
      match perform { content := s.content, counts := s.counts } with
      | .ok rows _ => (.ok rows, s)
      | .error e _ => (.error e.failure, s)
    | _ => s.change perform

/-! ## Other statements -/

/-- The content after its objects have changed, with the next number for its schema if that did. -/
def withVersion (s : State) (after : Content) : Content :=
  if after.listing false = s.content.listing false then after
  else { after with schemaVersion := after.schemaVersion + 1 }

def onContent (s : State) (change : Except Failure Content) : Except Failure Answer × State :=
  match change with
  | .ok content => (.ok [], { s with content := s.withVersion content })
  | .error e => (.error e, s)

def onTransaction (s : State) (change : Except Failure State) : Except Failure Answer × State :=
  match change with
  | .ok s => (.ok [], s)
  | .error e => (.error e, s)

/-- Drops a table. If its rows are deleted one by one, they count. -/
def dropTable (s : State) (ifExists : Bool) (n : ObjectName) : Except Failure Answer × State :=
  match s.content.source? n with
  | none => s.onContent (Content.missing ifExists .table n s.content)
  | some (.inr v) => (.error (.invalid ("use DROP VIEW to delete view " ++ v.name)), s)
  | some (.inl t) =>
    match Content.checkDroppable t with
    | .error e => (.error e, s)
    | .ok () =>
      if s.foreignKeys && s.content.isCleared (s.violations != 0) t then
        let (outcome, s') := s.change (s.content.clearTable s.stage t)
        match outcome with
        | .error e => (.error e, s')
        | .ok () => s'.onContent (.ok (s'.content.dropTable ((s'.content.tableIn? t.temporary t.name).getD t)))
      else s.onContent (.ok (s.content.dropTable t))

def dropView (s : State) (ifExists : Bool) (n : ObjectName) : Except Failure Answer × State :=
  match s.content.source? n with
  | none => s.onContent (Content.missing ifExists .view n s.content)
  | some (.inl t) => (.error (.invalid ("use DROP TABLE to delete table " ++ t.name)), s)
  | some (.inr v) => s.onContent (.ok (s.content.dropView v))

def drop (s : State) (ifExists : Bool) (n : ObjectName) : ObjectKind → Except Failure Answer × State
  | .table => s.dropTable ifExists n
  | .view => s.dropView ifExists n
  | .index => s.onContent (s.content.dropIndex ifExists n)
  | .trigger => s.onContent (s.content.dropTrigger ifExists n)

/-- What cannot be set inside a transaction. -/
def checkPragma (s : State) (n : ObjectName) (value : String) : Except Failure Unit := do
  if s.transaction.isSome then
    if sameName n.name "synchronous" then throw (.invalid "Safety level may not be changed inside a transaction")
    let isOther := ((Setting.find? n.name).bind fun p => p.read value) != s.setting? n.name
    if sameName n.name "temp_store" && isOther then
      throw (.invalid "temporary storage cannot be changed from within a transaction")

/-- The column that shows a setting, with its value. One that is set is shown only if it echoes. -/
def shownSetting (s : State) (name : String) (isSet : Bool) : Option (String × Value) :=
  let isEcho := ["journal_mode", "page_count"].any (sameName name) || (Setting.find? name).any Setting.isEcho
  if isSet && !isEcho then none
  else (s.pragma? name).map fun v => (((Setting.find? name).map Setting.heading).getD (String.ofList (foldCase name)), v)

/-- The answer to a question about the store, or the value of a setting after it is set. -/
def answerPragma (s : State) (n : ObjectName) (value : Option String) : Except Failure (Inspection × State) := do
  if let some schema := n.schema then
    if (Content.schemas n).isEmpty then throw (.unknownSchema schema)
  match s.inspect? n value, value with
  | some answer, _ => return (← answer, s)
  | none, none => return (shown (s.shownSetting n.name false), s)
  | none, some v =>
    s.checkPragma n v
    let s := s.setPragma n.name v
    return (shown (s.shownSetting n.name true), s)
where
  shown : Option (String × Value) → Inspection
    | some (heading, v) => ⟨[heading], [[v]]⟩
    | none => ⟨[], []⟩

def runPragma (s : State) (n : ObjectName) (value : Option String) : Except Failure Answer × State :=
  match s.answerPragma n value with
  | .ok (answer, s) => (.ok answer.rows, s)
  | .error e => (.error e, s)

/-- Makes indexes anew, which changes nothing. A name has to be that of a table, a view, an index or a collation. -/
def reindex (s : State) (target : Option ObjectName) : Except Failure Answer × State :=
  let isKnown (n : ObjectName) : Bool :=
    (n.schema.isNone && (findCollation n.name).isOk) || (Content.listed? n).isSome ||
      (Content.schemas n).any fun temporary =>
        (s.content.listing temporary).any fun r => r.kind != "trigger" && sameName r.name n.name
  if target.all isKnown then (.ok [], s) else (.error (.invalid "unable to identify the object to be reindexed"), s)

def perform (s : State) : Statement → Except Failure Answer × State
  | .createTable c body => s.onContent (s.content.createTable c body)
  | .createTableAs c select => s.onContent (s.content.createTableAs s.counts c select)
  | .createIndex c body => s.onContent (s.content.createIndex c body)
  | .createTrigger c body => s.onContent (s.content.createTrigger c body)
  | .createView c body => s.onContent (s.content.createView c body)
  | .drop kind ifExists n => s.drop ifExists n kind
  | .alter n change => s.onContent (s.content.alter s.legacyAlter s.foreignKeys n change)
  | .rows statement => s.runRows statement
  | .savepoint name => (.ok [], s.openSavepoint name)
  | .release name => s.onTransaction (s.release name)
  | .rollbackTo name => s.onTransaction (s.rollbackTo name)
  | .begin => s.onTransaction s.begin
  | .commit => s.onTransaction s.commit
  | .rollback => s.onTransaction s.rollback
  | .pragma n value => s.runPragma n value
  | .vacuum => s.onTransaction s.vacuum
  | .reindex target => s.reindex target

/-- Whether a statement that makes sense writes to the file. -/
def writes (s : State) (after : State) : Statement → Bool
  | .rows statement => (statement.target?.bind s.content.table?).any fun t => !t.temporary
  | .pragma .. | .vacuum => true
  | _ => after.content.listing false != s.content.listing false

/-- Runs a statement, unless it would change what may only be read. -/
def run (s : State) (statement : Statement) : Except Failure Answer × State :=
  if s.isOn "query_only" && statement.changesContent then (.error .readOnly, s)
  else
    let (answer, after) := s.perform statement
    let isWorkedOut := match statement with
      | .rows rows => (Change.check s.content s.stage rows).isOk
      | _ => answer.isOk
    if s.access.readOnly && statement.changesContent && isWorkedOut && s.writes after statement then
      (.error .readOnly, s)
    else (answer, after)

/-- Runs a statement for its rows. Those of a query come one by one. -/
def answer (s : State) (statement : Statement) : Flow (List Value) × State :=
  match statement with
  | .rows (.select select) =>
    match s.content.query s.counts select with
    | .ok rel => (rel.flow.map Row.values, s)
    | .error e => ({ items := [], failure := some e }, s)
  | statement => let (outcome, s) := s.run statement; (.ofExcept outcome, s)

/-! ## Texts -/

/-- What the statements of a text gave. -/
structure Outcome where
  rows : Flow (List Value)
  /-- The sum of the changes after each statement. -/
  changes : Nat

/-- Runs the statements of a text, of which there are at most `n`. -/
def runUpTo : Nat → List Token → State → Outcome × State
  | 0, _, s => (⟨{ items := [] }, 0⟩, s)
  | n + 1, ts, s =>
    match Reader.statement.run ts with
    | .error e => (⟨{ items := [], failure := some e }, 0⟩, s)
    | .ok (none, _) => (⟨{ items := [] }, 0⟩, s)
    | .ok (some statement, rest) =>
      let (rows, s) := s.answer statement
      if rows.failure.isSome then (⟨rows, 0⟩, s)
      else
        let (o, s') := runUpTo n rest s
        (⟨rows.append fun _ => o.rows, s.counts.changes + o.changes⟩, s')

/-- Runs a text. Blanks around it do not belong to any statement. -/
def runText (sql : String) (s : State) : Outcome × State :=
  let ts := tokens (Text.trimmed sql)
  runUpTo ts.length ts s.reread

end State

end SchemaEditor.Store
