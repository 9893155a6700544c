import SchemaEditor.Store.Failure

/-!
# Statements of the store

What the statements say that the store carries out.
-/

namespace SchemaEditor.Store

/-! ## Definitions of tables -/

/-- What happens to rows that refer to a row that is deleted or gets another key. -/
inductive ReferenceAction where
  /-- Nothing, but the reference has to be sound again in the end. -/
  | wait
  | refuse
  | cascade
  | setNull
  | setDefault
deriving DecidableEq, Repr

structure ReferenceClause where
  parent : ObjectName
  /-- The key of the parent, if none are named. -/
  parentColumns : List ColumnName
  onDelete : ReferenceAction
  onUpdate : ReferenceAction
  /-- Whether the reference has to be sound only when the transaction ends. -/
  deferred : Bool
deriving DecidableEq, Repr

/-- A term of a key or an index. -/
structure IndexTerm where
  expr : Expr
  descending : Bool := false

/-- A condition on rows, with the name that a failure mentions. -/
structure Condition where
  name : String
  expr : Expr

inductive ColumnClause where
  | notNull (onConflict : Option Conflict)
  | primaryKey (descending autoIncrement : Bool) (onConflict : Option Conflict)
  | unique (onConflict : Option Conflict)
  /-- A default, how it is written if it is a number, and its text. -/
  | default (e : Expr) (numeral : Option String) (text : String)
  | check (c : Condition)
  | references (r : ReferenceClause)
  /-- Says of the reference before it when it is checked. -/
  | deferral (deferred : Bool)
  | collate (name : String)
  | generated (e : Expr) (stored : Bool)
  | ignored

structure ColumnDefinition where
  name : String
  /-- Where the name stands in the text that it was read from. -/
  place : Option Nat := none
  sqlType : String
  clauses : List ColumnClause

inductive TableClause where
  | primaryKey (terms : List IndexTerm) (autoIncrement : Bool) (onConflict : Option Conflict)
  | unique (terms : List IndexTerm) (onConflict : Option Conflict)
  | check (c : Condition)
  | foreignKey (columns : List ColumnName) (r : ReferenceClause)

structure TableBody where
  columns : List ColumnDefinition
  clauses : List TableClause
  withoutRowid : Bool
  strict : Bool

/-! ## Statements on rows -/

structure Assignment where
  columns : List ColumnName
  expr : Expr

/-- What becomes of a new row that is already there. -/
structure Upsert where
  target : List IndexTerm
  targetFilter : Option Expr
  /-- The assignments to the row that is there, and on which condition; none if it is left alone. -/
  update : Option (List Assignment × Option Expr)

structure Insertion where
  tables : List CommonTable := []
  onConflict : Option Conflict := none
  target : ObjectName
  label : Option String := none
  columns : List ColumnName := []
  /-- The new rows; a row of defaults if there is none. -/
  source : Option Select
  upserts : List Upsert := []
  returning : List SelectItem := []

structure Update where
  tables : List CommonTable := []
  onConflict : Option Conflict := none
  target : ObjectName
  label : Option String := none
  assignments : List Assignment
  source : Option Source := none
  condition : Option Expr
  returning : List SelectItem := []

structure Deletion where
  tables : List CommonTable := []
  target : ObjectName
  label : Option String := none
  condition : Option Expr
  returning : List SelectItem := []

/-- A statement that reads or changes rows. -/
inductive RowStatement where
  | insert (i : Insertion)
  | update (u : Update)
  | delete (d : Deletion)
  | select (s : Select)

/-- The table or view that a statement changes. -/
def RowStatement.target? : RowStatement → Option ObjectName
  | insert i => some i.target
  | update u => some u.target
  | delete d => some d.target
  | select _ => none

/-! ## Triggers -/

inductive TriggerTime where
  | before
  | after
  | insteadOf
deriving DecidableEq, Repr

inductive TriggerEvent where
  | insert
  | delete
  /-- A change of some columns, or of any if none are named. -/
  | update (columns : List ColumnName)
deriving DecidableEq, Repr

structure TriggerBody where
  time : TriggerTime
  event : TriggerEvent
  table : ObjectName
  condition : Option Expr
  steps : List RowStatement

/-! ## Statements -/

/-- What the statements that create an object have in common. -/
structure Creation where
  temporary : Bool
  ifNotExists : Bool
  target : ObjectName
  /-- The text of the statement from the name on. -/
  text : String
deriving DecidableEq, Repr

structure IndexBody where
  unique : Bool
  table : ObjectName
  terms : List IndexTerm
  filter : Option Expr

structure ViewBody where
  labels : List String
  select : Select

inductive Alteration where
  | addColumn (column : ColumnDefinition) (text : String)
  | renameTable (target : String)
  /-- Gives a column another name, which is written in quotes or not. -/
  | renameColumn (column target : String) (quoted : Bool)
  | dropColumn (column : String)

inductive Statement where
  | createTable (c : Creation) (body : TableBody)
  /-- Creates a table for the rows of a query. -/
  | createTableAs (c : Creation) (s : Select)
  | createIndex (c : Creation) (body : IndexBody)
  | createTrigger (c : Creation) (body : TriggerBody)
  | createView (c : Creation) (body : ViewBody)
  | drop (kind : ObjectKind) (ifExists : Bool) (target : ObjectName)
  | alter (table : ObjectName) (change : Alteration)
  | rows (s : RowStatement)
  | savepoint (name : String)
  | release (name : String)
  | rollbackTo (name : String)
  | begin
  | commit
  | rollback
  | pragma (target : ObjectName) (value : Option String)
  | vacuum
  /-- Makes indexes anew: all, or those that a name means. -/
  | reindex (target : Option ObjectName)

namespace Statement

/-- Whether a statement changes rows one by one, and so may set their number. -/
def changesRows : Statement → Bool
  | rows (.select _) => false
  | rows _ | drop .table .. => true
  | _ => false

/-- Whether a statement changes what a store keeps. -/
def changesContent : Statement → Bool
  | rows (.select _) | savepoint _ | release _ | rollbackTo _ | begin | commit | rollback => false
  | pragma n value => value.isSome && ["user_version", "application_id", "schema_version"].any (sameName n.name)
  | _ => true

end Statement

end SchemaEditor.Store
