import SchemaEditor.Database.File
import SchemaEditor.Database.Rebuild
import SchemaEditor.Database.Transfer

/-!
# What an engine is taken to do

Operations hand text to an engine and know no more of it than the answer. What they come to is said in terms
of a view of the engine: its data, the savepoints that are open on it with the data they would bring back, and
the one setting that operations change. The laws are what the engine's documentation says of savepoints and
settings; of other statements they say nothing but that some, built from quoted names alone, touch neither.
-/

namespace SchemaEditor

/-- What can be seen of an engine's state. -/
structure EngineView (σ δ : Type) where
  /-- The schema and all rows. -/
  data : σ → δ
  /-- The open savepoints, the outermost first, with the data at the time they were opened. -/
  saved : σ → List (String × δ)
  /-- Whether tables are renamed as in old versions of the engine. -/
  legacyAlter : σ → Bool

namespace EngineView

variable {σ δ : Type} (v : EngineView σ δ)

def savepoints (s : σ) : List String := (v.saved s).map Prod.fst

/-- Savepoints and setting are as they were. -/
structure Keeps (s s' : σ) : Prop where
  saved : v.saved s' = v.saved s
  legacyAlter : v.legacyAlter s' = v.legacyAlter s

/-- All that can be seen is as it was. -/
structure Same (s s' : σ) : Prop extends v.Keeps s s' where
  data : v.data s' = v.data s

variable {v}

theorem Keeps.refl (s : σ) : v.Keeps s s := ⟨rfl, rfl⟩

theorem Keeps.trans {s₁ s₂ s₃ : σ} (h : v.Keeps s₁ s₂) (h' : v.Keeps s₂ s₃) : v.Keeps s₁ s₃ :=
  ⟨h'.saved.trans h.saved, h'.legacyAlter.trans h.legacyAlter⟩

theorem Same.refl (s : σ) : v.Same s s := ⟨.refl s, rfl⟩

theorem Same.trans {s₁ s₂ s₃ : σ} (h : v.Same s₁ s₂) (h' : v.Same s₂ s₃) : v.Same s₁ s₃ :=
  ⟨h.toKeeps.trans h'.toKeeps, h'.data.trans h.data⟩

end EngineView

/-- How a setting is written. -/
def flag (b : Bool) : String := if b then "1" else "0"

/-- A setting that was read is written back as it was. -/
theorem flag_of_flag (b : Bool) : (if flag b == "1" then "1" else "0") = flag b := by
  cases b <;> rfl

section
variable {σ δ : Type} [Engine σ] (v : EngineView σ δ)

/-- A text that neither opens nor settles savepoints and sets nothing, whether it fails or not. -/
def EngineView.Quiet (sql : String) : Prop := ∀ s, v.Keeps s (Engine.execute sql s).2

/-- A savepoint name finds the innermost savepoint of that name, in any case of its letters. -/
structure EngineView.Finds (s : σ) (name : String) (outer : List (String × δ)) (found : String × δ) : Prop where
  saved : ∃ inner, v.saved s = outer ++ found :: inner ∧ ∀ p ∈ inner, sameName p.1 name = false
  named : sameName found.1 name = true

/-- An engine with savepoints, settings and a schema that can be read. -/
structure Transactional : Prop where
  /-- A savepoint that cannot be opened leaves no trace. -/
  savepoint_error {name : String} {s s' : σ} {e : EngineError} :
    Engine.execute (savepointSql name) s = (.error e, s') → v.Same s s'
  savepoint_ok {name : String} {s s' : σ} {n : Nat} : Engine.execute (savepointSql name) s = (.ok n, s') →
    v.saved s' = v.saved s ++ [(name, v.data s)] ∧ v.data s' = v.data s ∧ v.legacyAlter s' = v.legacyAlter s
  release {name : String} {s : σ} {outer : List (String × δ)} {found : String × δ} : v.Finds s name outer found →
    ∃ n s', Engine.execute (releaseSql name) s = (.ok n, s') ∧
      v.saved s' = outer ∧ v.data s' = v.data s ∧ v.legacyAlter s' = v.legacyAlter s
  /-- The savepoint that is reverted stays open. -/
  rollback {name : String} {s : σ} {outer : List (String × δ)} {found : String × δ} : v.Finds s name outer found →
    ∃ n s', Engine.execute (rollbackSql name) s = (.ok n, s') ∧
      v.saved s' = outer ++ [found] ∧ v.data s' = found.2 ∧ v.legacyAlter s' = v.legacyAlter s
  readLegacyAlter (s : σ) :
    ∃ s', Engine.pragma "legacy_alter_table" s = (.ok (flag (v.legacyAlter s)), s') ∧ v.Same s s'
  setLegacyAlter (b : Bool) (s : σ) : ∃ n s', Engine.execute ("PRAGMA legacy_alter_table = " ++ flag b) s = (.ok n, s') ∧
    v.saved s' = v.saved s ∧ v.data s' = v.data s ∧ v.legacyAlter s' = b
  readForeignKeys (s : σ) : ∃ b s', Engine.pragma "foreign_keys" s = (.ok (flag b), s') ∧ v.Same s s'
  setForeignKeys (b : Bool) (s : σ) :
    ∃ n s', Engine.execute ("PRAGMA foreign_keys = " ++ flag b) s = (.ok n, s') ∧ v.Same s s'
  schema (s : σ) : ∃ rows, Engine.schema s = .ok rows
  copy (p : RebuildPlan) : v.Quiet p.copySql
  drop (table : String) : v.Quiet ("DROP TABLE " ++ quoteIdentifier table)
  rename (source target : String) : v.Quiet (renameTableSql source target)
  /-- A table for imported records has no texts but its names. -/
  createImported (name : String) (header : List String) (width : Nat) : v.Quiet (importedTable name header width).sql
  insertRow (table : String) (row : List (Option String)) (s : σ) : v.Keeps s (Engine.insertRow table row s).2

/-- What an engine is taken to do about foreign keys: the connection enforces them or not, and only the setting of that name
changes this, if no savepoint is open. -/
structure Enforcement {φ : Type} [Storage σ φ] (enforced : σ → Bool) (reads : String → Bool) : Prop where
  reads_flag (b : Bool) : reads (flag b) = b
  openFile (content : φ) (access : Access) :
    v.saved (Storage.openFile content access : σ) = [] ∧ enforced (Storage.openFile content access : σ) = access.foreignKeys
  read (e : σ) : ∃ e', Engine.pragma "foreign_keys" e = (.ok (flag (enforced e)), e') ∧ v.Same e e' ∧ enforced e' = enforced e
  set (name value : String) (hname : sameName name "foreign_keys" = true) (hpragma : Op.isPragmaName name = true)
    (hvalue : Op.isPragmaValue value = true) (e : σ) :
    ∃ n e', Engine.execute ("PRAGMA " ++ name ++ " = " ++ value) e = (.ok n, e') ∧ v.saved e' = v.saved e ∧
      enforced e' = if (v.saved e).isEmpty then reads value else enforced e
  /-- Other settings may be refused. -/
  setOther (name value : String) (hname : sameName name "foreign_keys" = false) (hpragma : Op.isPragmaName name = true)
    (hvalue : Op.isPragmaValue value = true) (e : σ) :
    v.saved (Engine.execute ("PRAGMA " ++ name ++ " = " ++ value) e).2 = v.saved e ∧
      enforced (Engine.execute ("PRAGMA " ++ name ++ " = " ++ value) e).2 = enforced e
  savepoint (name : String) (e : σ) : enforced (Engine.execute (savepointSql name) e).2 = enforced e
  release (name : String) (e : σ) : enforced (Engine.execute (releaseSql name) e).2 = enforced e
  rollback (name : String) (e : σ) : enforced (Engine.execute (rollbackSql name) e).2 = enforced e
  readLegacyAlter (e : σ) : enforced (Engine.pragma "legacy_alter_table" e).2 = enforced e
  copy (p : RebuildPlan) (e : σ) : enforced (Engine.execute p.copySql e).2 = enforced e
  drop (table : String) (e : σ) : enforced (Engine.execute ("DROP TABLE " ++ quoteIdentifier table) e).2 = enforced e
  rename (source target : String) (e : σ) : enforced (Engine.execute (renameTableSql source target) e).2 = enforced e
  createImported (name : String) (header : List String) (width : Nat) (e : σ) :
    enforced (Engine.execute (importedTable name header width).sql e).2 = enforced e
  insertRow (table : String) (row : List (Option String)) (e : σ) : enforced (Engine.insertRow table row e).2 = enforced e

omit [Engine σ] in
/-- The innermost savepoint is found by its own name. -/
theorem EngineView.finds_last {v : EngineView σ δ} {s : σ} {outer : List (String × δ)} {found : String × δ}
    (h : v.saved s = outer ++ [found]) : v.Finds s found.1 outer found :=
  ⟨⟨[], h, by simp⟩, sameName_refl found.1⟩

end

end SchemaEditor
