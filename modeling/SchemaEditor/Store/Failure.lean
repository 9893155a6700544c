import SchemaEditor.Catalog
import SchemaEditor.Store.Expression

/-!
# Failures of the store

Why the store refuses a statement, and the words in which it says so.
-/

namespace SchemaEditor.Store

inductive Failure where
  -- The text is no statement.
  | syntaxError (near : String)
  | unrecognizedToken (text : String)
  -- Names.
  | noSuchTable (n : ObjectName)
  | noSuchColumn (name : String)
  | ambiguousColumn (name : String)
  | noSuchObject (kind : ObjectKind) (n : ObjectName)
  | noSuchFunction (name : String)
  | noSuchCollation (name : String)
  | noSuchSavepoint (name : String)
  | unknownSchema (name : String)
  | unknownInsertColumn (table column : String)
  | taken (kind : ObjectKind) (name : String)
  | takenAs (kind : ObjectKind) (name : String)
  | takenTarget (name : String)
  | reservedName (name : String)
  | duplicateColumn (name : String)
  -- Expressions.
  | argumentCount (function : String)
  | misusedAggregate (function : String)
  /-- An aggregate where none can stand. -/
  | misplacedAggregate (function : String)
  | misusedWindow (function : String)
  | prohibited (what place : String)
  | rowValue
  /-- A row among others of another width. -/
  | elementWidth (found expected : Nat)
  | columnCount (expected found : Nat)
  -- Definitions and statements that make no sense.
  | invalid (text : String)
  /-- An object makes no sense, or would make none after a change. -/
  | inObject (kind : ObjectKind) (name change : String) (cause : Failure)
  | protectedTable (name : String)
  | notModifiable (view : String)
  | valueCount (table : String) (expected found : Nat)
  | listCount (values columns : Nat)
  | foreignKeyMismatch (child parent : String)
  -- Rows that break a rule.
  | typeMismatch
  | wrongType (value sqlType table column : String)
  | notNull (table column : String)
  | check (name : String)
  | notUnique (table : String) (columns : List String)
  | notUniqueIndex (index : String)
  | foreignKey
  /-- A trigger ends the statement. -/
  | raised (action : Conflict) (message : String)
  | integerOverflow
  | full
  | triggerDepth
  | readOnly
  -- Transactions.
  | transactionOpen
  | noTransaction (action : String)

namespace Failure

def shownName (n : ObjectName) : String := ((n.schema.map (· ++ ".")).getD "") ++ n.name

def plural (n : Nat) (word : String) : String := toString n ++ " " ++ word ++ if n = 1 then "" else "s"

def message : Failure → String
  | syntaxError "" => "incomplete input"
  | syntaxError near => "near \"" ++ near ++ "\": syntax error"
  | unrecognizedToken text => "unrecognized token: \"" ++ text ++ "\""
  | noSuchTable n => "no such table: " ++ shownName n
  | noSuchColumn name => "no such column: " ++ name
  | ambiguousColumn name => "ambiguous column name: " ++ name
  | noSuchObject kind n => "no such " ++ kind.tag ++ ": " ++ shownName n
  | noSuchFunction name => "no such function: " ++ name
  | noSuchCollation name => "no such collation sequence: " ++ name
  | noSuchSavepoint name => "no such savepoint: " ++ name
  | unknownSchema name => "unknown database " ++ name
  | unknownInsertColumn table column => "table " ++ table ++ " has no column named " ++ column
  | taken kind name => kind.tag ++ " " ++ name ++ " already exists"
  | takenAs kind name =>
    "there is already " ++ (if kind = .index then "an " else "a ") ++ kind.tag ++ " named " ++ name
  | takenTarget name => "there is already another table or index with this name: " ++ name
  | reservedName name => "object name reserved for internal use: " ++ name
  | duplicateColumn name => "duplicate column name: " ++ name
  | argumentCount function => "wrong number of arguments to function " ++ function ++ "()"
  | misusedAggregate function => "misuse of aggregate: " ++ function ++ "()"
  | misplacedAggregate function => "misuse of aggregate function " ++ function ++ "()"
  | misusedWindow function => "misuse of window function " ++ function ++ "()"
  | prohibited what place => what ++ " prohibited in " ++ place
  | rowValue => "row value misused"
  | columnCount expected found =>
    "sub-select returns " ++ toString found ++ " columns - expected " ++ toString expected
  | elementWidth found expected =>
    "IN(...) element has " ++ plural found "term" ++ " - expected " ++ toString expected
  | invalid text => text
  | inObject kind name change cause =>
    "error in " ++ kind.tag ++ " " ++ name ++ (if change = "" then "" else " after " ++ change) ++ ": " ++ cause.message
  | protectedTable name => "table " ++ name ++ " may not be modified"
  | notModifiable view => "cannot modify " ++ view ++ " because it is a view"
  | valueCount table expected found =>
    "table " ++ table ++ " has " ++ toString expected ++ " columns but " ++ toString found ++ " values were supplied"
  | listCount values columns => toString values ++ " values for " ++ toString columns ++ " columns"
  | foreignKeyMismatch child parent =>
    "foreign key mismatch - \"" ++ child ++ "\" referencing \"" ++ parent ++ "\""
  | typeMismatch => "datatype mismatch"
  | wrongType value sqlType table column =>
    "cannot store " ++ value ++ " value in " ++ sqlType ++ " column " ++ table ++ "." ++ column
  | notNull table column => "NOT NULL constraint failed: " ++ table ++ "." ++ column
  | check name => "CHECK constraint failed: " ++ name
  | notUnique table columns =>
    "UNIQUE constraint failed: " ++ ", ".intercalate (columns.map fun c => table ++ "." ++ c)
  | notUniqueIndex index => "UNIQUE constraint failed: index '" ++ index ++ "'"
  | foreignKey => "FOREIGN KEY constraint failed"
  | raised _ message => message
  | integerOverflow => "integer overflow"
  | full => "database or disk is full"
  | triggerDepth => "too many levels of trigger recursion"
  | readOnly => "attempt to write a readonly database"
  | transactionOpen => "cannot start a transaction within a transaction"
  | noTransaction action => "cannot " ++ action ++ " - no transaction is active"

end Failure

end SchemaEditor.Store
