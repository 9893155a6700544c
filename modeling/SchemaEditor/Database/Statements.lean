import SchemaEditor.Database.Savepoints
import SchemaEditor.Sql.Script

/-!
# Statements and pragmas

Statements, scripts and settings that come from outside. A script stops at its first failure, and what ran
before it stays applied under the restore point. Settings take no part in savepoints, so pending changes
are committed before one is set.
-/

namespace SchemaEditor

variable {σ : Type} [Engine σ]

namespace Op

/-! ## Statements -/

/-- Executes one statement, under the restore point if it may change something. -/
def executeSql (sql : String) (dirty : Bool) : Op σ Nat := do
  if dirty then setRestorePoint
  execute sql

/-- Executes statements in turn; the first of them has the number `n` in error messages. -/
def executeEach (signal : Signal) (n : Nat) : List String → Op σ Unit
  | [] => return ()
  | sql :: rest => do
    checkSignal signal
    match ← tryExecute sql with
    | .error e => throw (.engine (e.inStatement n))
    | .ok _ => executeEach signal (n + 1) rest

/-- Executes a script and counts its statements. -/
def executeScript (sql : String) (signal : Signal) : Op σ Nat := do
  setRestorePoint
  let statements := Script.statements sql
  let result ← observe (executeEach signal 1 statements)
  let _ ← refreshCatalog
  ofExcept result
  note (.executedScript statements.length)
  return statements.length

/-! ## Pragmas -/

def isPragmaNameChar (c : Char) : Bool := c.isAlphanum || c == '_'

def isPragmaName (name : String) : Bool := name != "" && name.toList.all isPragmaNameChar

def isPragmaValue (value : String) : Bool :=
  value != "" && value.toList.all fun c => isPragmaNameChar c || c == '-'

def checkPragmaName (name : String) : Op σ Unit := do
  if !isPragmaName name then throw (.pragmaName name)

/-- Reads a setting; one that has no value reads as the empty text. -/
def pragma (name : String) : Op σ String := do
  checkPragmaName name
  logStatement ("PRAGMA " ++ name)
  ofEngine (← request (Engine.pragma name))

/-- Commits all changes and sets a setting. -/
def setPragma (name value : String) : Op σ Unit := do
  checkPragmaName name
  if !isPragmaValue value then throw (.pragmaValue name value)
  commitAll
  let _ ← execute ("PRAGMA " ++ name ++ " = " ++ value)
  note (.pragmaSet name value)

/-- Stops the enforcement of foreign keys until all changes are settled. The engine ignores this while a
savepoint is open, so there must not be one. -/
def suspendForeignKeys : Op σ Unit := do
  if (← pragma "foreign_keys") == "1" then
    if (← session).isDirty then throw .pendingChanges
    let _ ← execute "PRAGMA foreign_keys = 0"
    setSuspended true

end Op

end SchemaEditor
