import SchemaEditor.Database.Snapshot

/-!
# Savepoints

Opening and settling savepoints, on the engine and in the ledger. A savepoint that is settled takes the
ones inside it along. Suspended foreign keys come back when the last savepoint is settled.
-/

namespace SchemaEditor

variable {σ : Type} [Engine σ]

namespace Op

/-! ## On engine and ledger alone -/

/-- Opens a savepoint, unless it is open. -/
def openSavepoint (name : String) : Op σ Unit := do
  if !(← ledger).isActive name then
    let _ ← execute (savepointSql name)
    modifyLedger (·.push name)

def position (name : String) : Op σ Nat := fun s =>
  match s.ledger.position? name with
  | some i => .ok i s
  | none => .error (.savepointNotFound name) s

/-- Keeps the changes since a savepoint. -/
def releaseSavepoint (name : String) : Op σ Unit := do
  let i ← position name
  let _ ← execute (releaseSql name)
  modifyLedger (·.truncate i)

/-- Discards the changes since a savepoint. -/
def revertSavepoint (name : String) : Op σ Unit := do
  let i ← position name
  let _ ← execute (rollbackSql name)
  let _ ← execute (releaseSql name)
  modifyLedger (·.truncate i)

/-- An operation that settles a savepoint leaves fewer of them, if it succeeds. -/
class Settles (settle : String → Op σ Unit) : Prop where
  settles : ∀ {name s s'}, settle name s = .ok () s' → s'.ledger.active.length < s.ledger.active.length

/-- Settles every savepoint from the inside out, and stops at the first failure. -/
def settleAll (settle : String → Op σ Unit) [Settles settle] : Op σ Unit := fun s =>
  match s.ledger.active.getLast? with
  | none => .ok () s
  | some name =>
    match _h : settle name s with
    | .ok () s' => settleAll settle s'
    | .error e s' => .error e s'
termination_by s => s.ledger.active.length
decreasing_by exact Settles.settles _h

omit [Engine σ] in
theorem position_ok {name : String} {s s' : Session σ} {i : Nat} (h : position name s = .ok i s') :
    s' = s ∧ i < s.ledger.active.length := by
  unfold position at h
  split at h
  · next j hj => cases h; exact ⟨rfl, Ledger.position?_lt hj⟩
  · cases h

theorem execute_ok {sql : String} {s s' : Session σ} {n : Nat} (h : execute sql s = .ok n s') :
    s'.ledger = s.ledger := by
  obtain ⟨r, s₁, hr, h⟩ := bind_ok h
  have hs : s₁.ledger = s.ledger := by injection hr with _ hr; rw [← hr]; rfl
  cases r with
  | ok m => cases h; exact hs
  | error e => cases h

instance : Settles (releaseSavepoint : String → Op σ Unit) := by
  constructor
  intro name s s' h
  obtain ⟨i, s₁, hi, hr⟩ := bind_ok h
  obtain ⟨rfl, hlt⟩ := position_ok hi
  obtain ⟨n, s₂, hn, ht⟩ := bind_ok hr
  cases ht
  simp only [Ledger.truncate, Ledger.announce, execute_ok hn, List.length_take]
  omega

instance : Settles (revertSavepoint : String → Op σ Unit) := by
  constructor
  intro name s s' h
  obtain ⟨i, s₁, hi, hr⟩ := bind_ok h
  obtain ⟨rfl, hlt⟩ := position_ok hi
  obtain ⟨n, s₂, hn, hr⟩ := bind_ok hr
  obtain ⟨m, s₃, hm, ht⟩ := bind_ok hr
  cases ht
  simp only [Ledger.truncate, Ledger.announce, execute_ok hm, execute_ok hn, List.length_take]
  omega

def releaseAll : Op σ Unit := settleAll releaseSavepoint

def revertAll : Op σ Unit := settleAll revertSavepoint

/-! ## Foreign keys -/

/-- Enforces foreign keys again, if they were suspended and no savepoint is open. -/
def resumeForeignKeys : Op σ Unit := do
  let s ← session
  if s.foreignKeysSuspended && !s.isDirty then
    let _ ← execute "PRAGMA foreign_keys = 1"
    setSuspended false

/-! ## On the whole session -/

def setRestorePoint : Op σ Unit := openSavepoint restorePoint

def commit (name : String) : Op σ Unit := do
  releaseSavepoint name
  resumeForeignKeys

def rollback (name : String) : Op σ Unit := do
  revertSavepoint name
  resumeForeignKeys
  let _ ← refreshCatalog

def commitAll : Op σ Unit := do
  releaseAll
  resumeForeignKeys
  note .committedAll

def rollbackAll : Op σ Unit := do
  revertAll
  resumeForeignKeys
  let _ ← refreshCatalog
  note .revertedAll

/-- What to do with pending changes when a session ends. -/
inductive CloseAction where
  | commit
  | rollback
deriving DecidableEq, Repr

/-- Settles the pending changes of a session that ends. -/
def settle (action : CloseAction) : Op σ Unit := do
  match action with
  | .commit => releaseAll
  | .rollback => revertAll
  modifyLedger Ledger.clear

end Op

end SchemaEditor
