import SchemaEditor.Database.Savepoints

/-!
# Operations

Every change of the schema runs under a savepoint of its own, inside the restore point. If the change
fails, what it did is reverted; the restore point stays open, so that earlier changes can still be reverted.
-/

namespace SchemaEditor

variable {σ : Type} [Engine σ]

namespace Op

/-- Reverts the restore point of an operation that could not start. -/
def releaseRestorePoint : Op σ Unit := do
  if let .error e ← observe (revertSavepoint restorePoint) then warn (.releaseFailed e.message)

/-- Opens the restore point and the savepoint of an operation. -/
def beginOperation (savepoint : String) : Op σ Unit := do
  if (← ledger).isActive savepoint then throw (.savepointInUse savepoint)
  let held := (← ledger).isActive restorePoint
  setRestorePoint
  if let .error e ← observe (openSavepoint savepoint) then
    if !held then releaseRestorePoint
    throw e

/-- Reverts the savepoint of an operation that failed. -/
def abort {α : Type} (savepoint : String) (e : SchemaError) : Op σ α := do
  if let .error r ← observe (revertSavepoint savepoint) then warn (.rollbackFailed savepoint r.message)
  throw e

/-- Keeps the changes of an operation. -/
def finishOperation (savepoint : String) : Op σ Unit := do
  commit savepoint
  let _ ← refreshCatalog

/-- Runs a change under a savepoint of its own. -/
def change {α : Type} (savepoint : String) (body : Op σ α) : Op σ α := do
  beginOperation savepoint
  match ← observe body with
  | .error e => abort savepoint e
  | .ok a =>
    finishOperation savepoint
    return a

end Op

end SchemaEditor
