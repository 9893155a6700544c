import SchemaEditor.Catalog

/-!
# Events

What a database operation reports while it runs: the statements it executes, warnings, and notices of what
was done.
-/

namespace SchemaEditor

inductive Warning where
  | unknownKind (kind name : String)
  | unreadableTable (table : String)
  | unreadableView (view : String)
  | releaseFailed (error : String)
  | rollbackFailed (savepoint error : String)
  | dependentFailed (table object : String) (kind : ObjectKind) (error : String)
  | clauseDropped (table clause : String)
deriving DecidableEq, Repr

inductive Notice where
  | opened (path : String)
  | committedAll
  | revertedAll
  | pragmaSet (pragma value : String)
  | executedScript (statements : Nat)
  | scriptExecuted (statements : Nat)
  | tableCreated (table : String)
  | columnAdded (table column : String)
  | tableRebuilt (table column : String) (failedDependents droppedClauses : Nat)
  | tableRenamed (source target : String)
  | importedCsv (table : String) (rows : Nat)
  | exportedCsv (rows : Nat)
  | dryRun
deriving DecidableEq, Repr

inductive Event where
  /-- A statement that was handed to the engine. -/
  | executed (sql : String)
  | warned (w : Warning)
  | noted (n : Notice)
deriving DecidableEq, Repr

/-- A message, and the fields that belong to it. -/
structure Report where
  message : String
  fields : List (String × String)
deriving DecidableEq, Repr

def Warning.report : Warning → Report
  | unknownKind kind name => ⟨"Skipping schema object of unknown type", [("kind", kind), ("name", name)]⟩
  | unreadableTable table => ⟨"Could not parse table definition", [("table", table)]⟩
  | unreadableView view => ⟨"Could not read view columns", [("view", view)]⟩
  | releaseFailed error => ⟨"Could not release restore point", [("error", error)]⟩
  | rollbackFailed savepoint error => ⟨"Rollback failed", [("savepoint", savepoint), ("error", error)]⟩
  | dependentFailed table object kind error =>
    ⟨"Could not recreate dependent object",
      [("table", table), ("object", object), ("kind", kind.tag), ("error", error)]⟩
  | clauseDropped table clause => ⟨"Clause not carried over", [("table", table), ("clause", clause)]⟩

def Notice.report : Notice → Report
  | opened path => ⟨"Opened database", [("path", path)]⟩
  | committedAll => ⟨"Committed all changes", []⟩
  | revertedAll => ⟨"Reverted all changes", []⟩
  | pragmaSet pragma value => ⟨"Pragma set", [("pragma", pragma), ("value", value)]⟩
  | executedScript statements => ⟨"Executed script", [("statements", toString statements)]⟩
  | scriptExecuted statements => ⟨"Script executed", [("statements", toString statements)]⟩
  | tableCreated table => ⟨"Table created", [("table", table)]⟩
  | columnAdded table column => ⟨"Column added", [("table", table), ("column", column)]⟩
  | tableRebuilt table column failedDependents droppedClauses =>
    ⟨"Table rebuilt", [("table", table), ("column", column),
      ("failed_dependents", toString failedDependents), ("dropped_clauses", toString droppedClauses)]⟩
  | tableRenamed source target => ⟨"Table renamed", [("from", source), ("to", target)]⟩
  | importedCsv table rows => ⟨"Imported CSV", [("table", table), ("rows", toString rows)]⟩
  | exportedCsv rows => ⟨"Exported CSV", [("rows", toString rows)]⟩
  | dryRun => ⟨"Dry run - reverting all changes.", []⟩

end SchemaEditor
