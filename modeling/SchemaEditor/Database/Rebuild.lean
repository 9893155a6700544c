import SchemaEditor.Database.Create
import SchemaEditor.Database.RebuildPlan
import SchemaEditor.Database.Statements

/-!
# Rebuilding tables

Carrying out a rebuild: the new table is made, filled and given the name of the old one. Indices and
triggers go with the old table and are made again from their SQL. One that cannot be made again is reported,
as is every clause of the old definition that the new one lacks.
-/

namespace SchemaEditor

variable {σ : Type} [Engine σ]

/-- An index or trigger that could not be made again. -/
structure LostDependent where
  object : SchemaObject
  error : EngineError
deriving DecidableEq, Repr

structure RebuildReport where
  lost : List LostDependent
  /-- The clauses of the old definition that the rebuilt table lacks. -/
  discarded : List String
deriving DecidableEq, Repr

def RebuildReport.isClean (r : RebuildReport) : Bool := r.lost.isEmpty && r.discarded.isEmpty

/-- How violations of foreign keys are told: their number, and the first of them. -/
def violationText (first : Violation) (count : Nat) : String :=
  toString count ++ " foreign key violation(s), first in '" ++ first.child ++ "' (rowid "
    ++ (match first.rowid with | some r => toString r | none => "-")
    ++ ") referencing '" ++ first.parent ++ "'"

namespace Op

def runSteps (signal : Signal) : List (RebuildStep × String) → Op σ Unit
  | [] => return ()
  | (step, sql) :: steps => do
    checkSignal signal
    match ← tryExecute sql with
    | .error e => throw (.transform step e)
    | .ok _ => runSteps signal steps

/-- Gives the rebuilt table its name. Views that refer to the old table, which is gone, do not hinder this. -/
def renameRebuilt (source target : String) : Op σ Unit := do
  let legacy ← pragma "legacy_alter_table"
  let _ ← execute "PRAGMA legacy_alter_table = 1"
  let renamed ← observe (executeRename source target)
  let _ ← execute ("PRAGMA legacy_alter_table = " ++ if legacy == "1" then "1" else "0")
  ofExcept renamed

def restoreDependents (table : String) : List SchemaObject → Op σ (List LostDependent)
  | [] => return []
  | object :: objects => do
    match ← tryExecute object.sql with
    | .ok _ => restoreDependents table objects
    | .error error =>
      warn (.dependentFailed table object.name object.kind error.message)
      return { object, error } :: (← restoreDependents table objects)

/-- Fails if a row refers to a row that is not there. -/
def checkForeignKeys : Op σ Unit := do
  match Engine.violations (← session).engine with
  | .error e => throw (.transform .foreignKeyCheck e)
  | .ok [] => return ()
  | .ok (v :: vs) => throw (.transform .foreignKeyCheck { text := violationText v (vs.length + 1) })

def rebuild (p : RebuildPlan) (dependents : List SchemaObject) (signal : Signal) : Op σ (List LostDependent) := do
  runSteps signal p.steps
  checkSignal signal
  renameRebuilt p.temporary p.table
  let lost ← restoreDependents p.table dependents
  if (← session).foreignKeysSuspended then checkForeignKeys
  return lost

/-- Changes a column. Foreign keys are not enforced meanwhile, but checked at the end. -/
def transformColumn (c : ColumnChange) (signal : Signal) : Op σ RebuildReport := do
  let plan ← ofExcept (RebuildPlan.make (← catalog) c)
  let dependents := (← catalog).dependentsOf plan.table
  checkSignal signal
  suspendForeignKeys
  let result ← observe (change "oxide_transform" (rebuild plan dependents signal))
  resumeForeignKeys
  let lost ← ofExcept result
  plan.discarded.forM fun clause => warn (.clauseDropped plan.table clause)
  note (.tableRebuilt plan.table c.column lost.length plan.discarded.length)
  return { lost, discarded := plan.discarded }

/-! ## Single changes -/

def renameColumn (table column name : String) (signal : Signal) : Op σ RebuildReport := do
  let f ← ofExcept ((← catalog).column? table column)
  transformColumn { table, column, replacement := some (f.renamed name) } signal

/-- Replaces the definition of a column. -/
def modifyColumn (table column : String) (f : Field) (signal : Signal) : Op σ RebuildReport :=
  transformColumn { table, column, replacement := some f } signal

/-- Exchanges a column with the one `offset` places away. -/
def moveColumn (table column : String) (offset : Int) (signal : Signal) : Op σ RebuildReport := do
  let f ← ofExcept ((← catalog).column? table column)
  transformColumn { table, column, replacement := some f, offset } signal

def dropColumn (table column : String) (signal : Signal) : Op σ RebuildReport :=
  transformColumn { table, column, replacement := none } signal

end Op

end SchemaEditor
