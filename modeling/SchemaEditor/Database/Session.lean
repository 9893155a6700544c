import SchemaEditor.Database.Error
import SchemaEditor.Database.Event
import SchemaEditor.Database.Ledger
import SchemaEditor.Text.Logged

/-!
# Sessions

A session is one connection to a database: the engine's state, the savepoints that are open on it, and the
last snapshot of its schema. Its operations are written in `Op`, which keeps the state of the session also
when the operation fails, as a connection does.
-/

namespace SchemaEditor

/-- How far an operation has come: the statements it has executed, and how often it has looked at its
signal. -/
structure Progress where
  statements : Nat := 0
  polls : Nat := 0
deriving DecidableEq, Repr

/-- Tells an operation, by how far it has come, whether it should stop. -/
abbrev Signal := Progress → Bool

def Signal.never : Signal := fun _ => false

structure Session (σ : Type) where
  engine : σ
  /-- The file of the database, if it has one. -/
  location : Option String := none
  ledger : Ledger := {}
  catalog : Catalog := {}
  /-- Foreign keys are not enforced until the pending changes are settled. -/
  foreignKeysSuspended : Bool := false
  progress : Progress := {}
  /-- The events so far, the last one first. -/
  events : List Event := []

abbrev Op (σ : Type) := EStateM SchemaError (Session σ)

variable {σ : Type}

namespace Session

def isDirty (s : Session σ) : Bool := s.ledger.isDirty

def report (s : Session σ) (e : Event) : Session σ := { s with events := e :: s.events }

/-- Counts and reports a statement that is about to be executed. -/
def logStatement (s : Session σ) (sql : String) : Session σ :=
  { s.report (.executed (Text.logged sql)) with
    progress := { s.progress with statements := s.progress.statements + 1 } }

end Session

namespace Op

/-- An operation that is followed by another succeeds if both do. -/
theorem bind_ok {α β : Type} {op : Op σ α} {next : α → Op σ β} {s s' : Session σ} {b : β}
    (h : (op >>= next) s = .ok b s') : ∃ a s₁, op s = .ok a s₁ ∧ next a s₁ = .ok b s' := by
  change EStateM.bind op next s = _ at h
  unfold EStateM.bind at h
  split at h
  · next a s₁ hop => exact ⟨a, s₁, hop, h⟩
  · cases h

def session : Op σ (Session σ) := fun s => .ok s s

def ledger : Op σ Ledger := fun s => .ok s.ledger s

def catalog : Op σ Catalog := fun s => .ok s.catalog s

def modifyLedger (f : Ledger → Ledger) : Op σ Unit := fun s => .ok () { s with ledger := f s.ledger }

def setCatalog (c : Catalog) : Op σ Unit := fun s => .ok () { s with catalog := c }

def setSuspended (b : Bool) : Op σ Unit := fun s => .ok () { s with foreignKeysSuspended := b }

def warn (w : Warning) : Op σ Unit := fun s => .ok () (s.report (.warned w))

def note (n : Notice) : Op σ Unit := fun s => .ok () (s.report (.noted n))

/-- Looks at the signal. -/
def poll (signal : Signal) : Op σ Bool := fun s =>
  .ok (signal s.progress) { s with progress := { s.progress with polls := s.progress.polls + 1 } }

/-- Fails if the signal says so. -/
def checkSignal (signal : Signal) : Op σ Unit := do
  if ← poll signal then throw .cancelled

/-- Runs an operation and hands its error on as a value. -/
def observe {α : Type} (op : Op σ α) : Op σ (Except SchemaError α) := fun s =>
  match op s with
  | .ok a s => .ok (.ok a) s
  | .error e s => .ok (.error e) s

def ofExcept {α : Type} : Except SchemaError α → Op σ α
  | .ok a => fun s => .ok a s
  | .error e => fun s => .error e s

/-! ## Requests to the engine -/

/-- Makes a request that may change the engine's state. -/
def request {α : Type} (f : σ → α × σ) : Op σ α := fun s =>
  let (answer, engine) := f s.engine
  .ok answer { s with engine }

def ofEngine {α : Type} : Except EngineError α → Op σ α
  | .ok a => fun s => .ok a s
  | .error e => fun s => .error (.engine e) s

def logStatement (sql : String) : Op σ Unit := fun s => .ok () (s.logStatement sql)

variable [Engine σ]

/-- Executes a statement and hands its error on as a value. -/
def tryExecute (sql : String) : Op σ (Except EngineError Nat) := do
  logStatement sql
  request (Engine.execute sql)

/-- Executes a statement and counts the rows it changes. -/
def execute (sql : String) : Op σ Nat := do
  ofEngine (← tryExecute sql)

end Op

end SchemaEditor
