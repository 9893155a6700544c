import SchemaEditor.Store.Parser.Table

/-!
# The grammar of statements

Reads one statement from the front of a list of tokens.
-/

namespace SchemaEditor.Store

namespace Reader

/-! ## Statements on rows -/

/-- Reads the table that a statement changes. -/
def target : Reader (ObjectName × Option String) := do
  let n ← objectName
  return (n, ← after "AS" name)

def returning : Reader (List SelectItem) := do
  if ← takeWord "RETURNING" then listOf (← grammar).item else return []

def assignment : Reader Assignment := do
  let columns ← if ← atKind .leftParen then columnNames else return ⟨[← columnName], ← value⟩
  return ⟨columns, ← value⟩
where
  value : Reader Expr := do
    kind .eq
    expr

def assignments : Reader (List Assignment) := do
  expect "SET"
  listOf assignment

/-- Reads what becomes of rows that are already there, if it is said. -/
def upsert : Reader (Option Upsert) := do
  if !(← takeWord "ON") then return none
  expect "CONFLICT"
  let target ← if ← atKind .leftParen then parenthesized (listOf indexTerm) else pure []
  let targetFilter ← if target.isEmpty then pure none else after "WHERE" expr
  expect "DO"
  if ← takeWord "NOTHING" then return some { target, targetFilter, update := none }
  expect "UPDATE"
  let assignments ← assignments
  return some { target, targetFilter, update := some (assignments, ← after "WHERE" expr) }

def insertInto (tables : List CommonTable) (onConflict : Option Conflict) : Reader Insertion := do
  expect "INTO"
  let (target, label) ← target
  let columns ← columnNames
  if ← takeWord "DEFAULT" then
    expect "VALUES"
    return { tables, onConflict, target, label, columns, source := none, returning := ← returning }
  let source ← select
  let upserts ← many upsert
  return { tables, onConflict, target, label, columns, source := some source, upserts, returning := ← returning }

/-- Reads what a statement does when a row breaks a rule. -/
def orConflict : Reader (Option Conflict) := after "OR" conflict

def update (tables : List CommonTable) : Reader Update := do
  let onConflict ← orConflict
  let (target, label) ← target
  Grammar.indexHint
  let assignments ← assignments
  let source ← after "FROM" do (← grammar).source
  let condition ← after "WHERE" expr
  return { tables, onConflict, target, label, assignments, source, condition, returning := ← returning }

def delete (tables : List CommonTable) : Reader Deletion := do
  expect "FROM"
  let (target, label) ← target
  Grammar.indexHint
  let condition ← after "WHERE" expr
  return { tables, target, label, condition, returning := ← returning }

/-- Reads a statement on rows, if one stands here. -/
def rowStatement : Reader (Option RowStatement) := do
  let before ← get
  let tables ← (← grammar).commonTables
  match ← takeOneOf ["INSERT", "REPLACE", "UPDATE", "DELETE"] with
  | some "INSERT" => return some (.insert (← insertInto tables (← orConflict)))
  | some "REPLACE" => return some (.insert (← insertInto tables (some .replace)))
  | some "UPDATE" => return some (.update (← update tables))
  | some _ => return some (.delete (← delete tables))
  | none =>
    if ← Grammar.atQuery then
      set before
      return some (.select (← select))
    else if tables.isEmpty then return none
    else fail

/-! ## Statements that create something -/

def ifNotExists : Reader Bool := do
  let found ← takeWord "IF"
  if found then expectAll ["NOT", "EXISTS"]
  return found

/-- A text without the blanks at its end. -/
def withoutTrailing (cs : List Char) : String := String.ofList (cs.reverse.dropWhile isBlank).reverse

/-- Where the text of a statement that is stored ends. -/
inductive TextEnd where
  | lastToken
  /-- Comments and blanks after the last token belong to the text. -/
  | endOfStatement
  /-- Comments after the last token belong to the text, and the blanks before them. -/
  | lastComment

/-- Reads the name of a new object and what follows it. -/
def creation {α : Type} (temporary : Bool) (rest : Reader (α × TextEnd)) : Reader (Creation × α) := do
  let ifNotExists ← ifNotExists
  let schema ← schemaName
  let ((target, a, stop), ts) ← withTokens do return (← plainObject, ← rest)
  let gap := (← peek).gap
  let text := match stop with
    | .lastToken => String.ofList (Token.source ts)
    | .endOfStatement => String.ofList (Token.source ts ++ gap)
    | .lastComment => withoutTrailing (Token.source ts ++ gap)
  return ({ temporary, ifNotExists, target := { target with schema }, text }, a)

def createTable (temporary : Bool) : Reader Statement := do
  let (c, body) ← creation temporary do
    if ← takeWord "AS" then return (Sum.inr (← select), .lastToken)
    let (body, hasOptions) ← tableBody
    return (Sum.inl body, if hasOptions then .endOfStatement else .lastToken)
  return match body with
    | .inl body => .createTable c body
    | .inr s => .createTableAs c s

def createIndex (unique : Bool) : Reader Statement := do
  let (c, body) ← creation false do
    expect "ON"
    let table ← plainObject
    let terms ← parenthesized (listOf indexTerm)
    return ({ unique, table, terms, filter := ← after "WHERE" expr : IndexBody }, .endOfStatement)
  return .createIndex c body

def triggerTime : Reader TriggerTime := do
  match ← takeOneOf ["BEFORE", "AFTER", "INSTEAD"] with
  | some "AFTER" => return .after
  | some "INSTEAD" =>
    expect "OF"
    return .insteadOf
  | _ => return .before

def triggerEvent : Reader TriggerEvent := do
  match ← takeOneOf ["DELETE", "INSERT", "UPDATE"] with
  | some "DELETE" => return .delete
  | some "INSERT" => return .insert
  | some _ => return .update ((← after "OF" (listOf columnName)).getD [])
  | none => fail

/-- Statements in triggers change tables without a schema, and give no rows back. -/
def checkStep (s : RowStatement) : Reader Unit := do
  let isPlain (n : ObjectName) (label : Option String) : Reader Unit := do
    if n.schema.isSome then
      throw (.invalid ("qualified table names are not allowed on INSERT, UPDATE, and DELETE statements "
        ++ "within triggers"))
    if label.isSome then throw (.syntaxError "AS")
  match s with
  | .insert i =>
    isPlain i.target i.label
    if i.source.isNone then throw (.syntaxError "DEFAULT")
    if !i.tables.isEmpty || !i.returning.isEmpty then fail
  | .update u =>
    isPlain u.target u.label
    if !u.tables.isEmpty || !u.returning.isEmpty then fail
  | .delete d =>
    isPlain d.target d.label
    if !d.tables.isEmpty || !d.returning.isEmpty then fail
  | .select _ => return ()

/-- Reads a statement of a trigger and its semicolon. -/
def triggerStep : Reader (Option RowStatement) := do
  let some s ← rowStatement | return none
  checkStep s
  kind .semicolon
  return some s

def createTrigger (temporary : Bool) : Reader Statement := do
  let (c, body) ← creation temporary do
    let time ← triggerTime
    let event ← triggerEvent
    expect "ON"
    let table ← objectName
    if ← takeWord "FOR" then expectAll ["EACH", "ROW"]
    let condition ← after "WHEN" expr
    expect "BEGIN"
    let steps ← many triggerStep
    if steps.isEmpty then fail
    expect "END"
    return ({ time, event, table, condition, steps : TriggerBody }, .lastToken)
  return .createTrigger c body

def createView (temporary : Bool) : Reader Statement := do
  let (c, body) ← creation temporary do
    let labels ← names
    expect "AS"
    return ({ labels, select := ← select : ViewBody }, .lastComment)
  return .createView c body

def create : Reader Statement := do
  if ← takeWord "UNIQUE" then
    expect "INDEX"
    createIndex true
  else if ← takeWord "INDEX" then createIndex false
  else
    let temporary := (← takeOneOf ["TEMP", "TEMPORARY"]).isSome
    match ← takeOneOf ["TABLE", "VIEW", "TRIGGER"] with
    | some "TABLE" => createTable temporary
    | some "VIEW" => createView temporary
    | some _ => createTrigger temporary
    | none => fail

/-! ## Other statements -/

def drop : Reader Statement := do
  match (← takeOneOf ["TABLE", "VIEW", "INDEX", "TRIGGER"]).bind fun w => ObjectKind.ofTag? w.toLower with
  | none => fail
  | some k =>
    let ifExists ← takeWord "IF"
    if ifExists then expect "EXISTS"
    return .drop k ifExists (← objectName)

def addition : Reader Alteration := do
  let _ ← takeWord "COLUMN"
  let (column, ts) ← withTokens columnDefinition
  return .addColumn column (withoutTrailing (Token.source ts ++ (← peek).gap))

def nameChange : Reader Alteration := do
  if ← takeWord "TO" then return .renameTable (← name)
  let _ ← takeWord "COLUMN"
  let column ← name
  expect "TO"
  let isQuoted := !(← peek).text.head?.any isWordStart
  return .renameColumn column (← name) isQuoted

def alter : Reader Statement := do
  expect "TABLE"
  let table ← objectName
  match ← takeOneOf ["RENAME", "ADD", "DROP"] with
  | some "RENAME" => return .alter table (← nameChange)
  | some "ADD" => return .alter table (← addition)
  | some _ =>
    let _ ← takeWord "COLUMN"
    return .alter table (.dropColumn (← name))
  | none => fail

/-- Reads the value of a setting. -/
def pragmaValue : Reader String := do
  let (_, ts) ← withTokens do
    if (← takeKind .minus) || (← takeKind .plus) then kind .number
    else if ← atKind .number then skip
    else if (← takeOneOf ["ON", "DELETE", "DEFAULT"]).isNone then
      let _ ← name
  return match ts with
    | [t] => (nameOf? t).getD (String.ofList t.text)
    | _ => String.ofList ((ts.filter fun t => t.kind != .plus).flatMap Token.text)

def pragma : Reader Statement := do
  let target ← objectName
  if ← takeKind .eq then return .pragma target (some (← pragmaValue))
  else if ← atKind .leftParen then return .pragma target (some (← parenthesized pragmaValue))
  else return .pragma target none

/-- Reads the word for a transaction, and its name. -/
def transaction : Reader Unit := do
  if ← takeWord "TRANSACTION" then
    if !(← atWord "TO") then
      let _ ← takeName

def rollback : Reader Statement := do
  transaction
  if ← takeWord "TO" then
    let _ ← takeWord "SAVEPOINT"
    return .rollbackTo (← name)
  else return .rollback

/-- The words that a statement can start with, apart from those on rows. -/
def statementWords : List String :=
  ["CREATE", "DROP", "ALTER", "SAVEPOINT", "RELEASE", "BEGIN", "COMMIT", "END", "ROLLBACK", "PRAGMA", "REINDEX",
    "ANALYZE", "VACUUM"]

/-- Reads a statement that starts with this word. -/
def statementOf : String → Reader Statement
  | "CREATE" => create
  | "DROP" => drop
  | "ALTER" => alter
  | "SAVEPOINT" => return .savepoint (← name)
  | "RELEASE" => do
    let _ ← takeWord "SAVEPOINT"
    return .release (← name)
  | "BEGIN" => do
    let _ ← takeOneOf ["DEFERRED", "IMMEDIATE", "EXCLUSIVE"]
    transaction
    return .begin
  | "COMMIT" | "END" => do
    transaction
    return .commit
  | "ROLLBACK" => rollback
  | "PRAGMA" => pragma
  | "REINDEX" => do
    if (nameOf? (← peek)).isSome then return .reindex (some (← objectName)) else return .reindex none
  | "VACUUM" => do
    let _ ← takeName
    return .vacuum
  | _ => fail

/-- Reads a statement and its semicolon, or nothing at the end of the text. -/
def statement : Reader (Option Statement) := do
  let _ ← many do
    if ← takeKind .semicolon then return some () else return none
  if ← atKind .eof then return none
  let s ← match ← rowStatement with
    | some s => pure (.rows s)
    | none =>
      match ← takeOneOf statementWords with
      | some w => statementOf w
      | none => fail
  if !((← takeKind .semicolon) || (← atKind .eof)) then fail
  return some s

end Reader

end SchemaEditor.Store
