import SchemaEditor.Proofs.Engine.View

/-!
# Engines that keep a list of their statements

Any engine can be made to list the texts that it was given, in order, whatever came of them. The list is seen besides all
that is seen of the engine itself, which keeps the laws that it keeps.
-/

namespace SchemaEditor

structure Traced (σ : Type) where
  engine : σ
  /-- The texts so far, the first one first. -/
  executed : List String := []

variable {σ δ : Type}

namespace Traced

def after {α : Type} (s : Traced σ) (answer : α × σ) : α × Traced σ := (answer.1, { s with engine := answer.2 })

variable [Engine σ]

def execute (sql : String) (s : Traced σ) : Except EngineError Nat × Traced σ :=
  ((Engine.execute sql s.engine).1, { engine := (Engine.execute sql s.engine).2, executed := s.executed ++ [sql] })

instance : Engine (Traced σ) where
  execute := execute
  pragma name s := s.after (Engine.pragma name s.engine)
  schema s := Engine.schema s.engine
  viewColumns view s := Engine.viewColumns view s.engine
  queryColumns sql s := Engine.queryColumns sql s.engine
  queryRows sql s := s.after (Engine.queryRows sql s.engine)
  insertRow table row s := s.after (Engine.insertRow table row s.engine)
  violations s := Engine.violations s.engine

end Traced

namespace EngineView

variable (v : EngineView σ δ)

/-- What is seen of an engine is seen of it with its list. -/
def traced : EngineView (Traced σ) δ := ⟨fun s => v.data s.engine, fun s => v.saved s.engine, fun s => v.legacyAlter s.engine⟩

variable {v}

theorem Keeps.traced {e e' : σ} (h : v.Keeps e e') (executed executed' : List String) :
    v.traced.Keeps ⟨e, executed⟩ ⟨e', executed'⟩ := ⟨h.saved, h.legacyAlter⟩

theorem Same.traced {e e' : σ} (h : v.Same e e') (executed executed' : List String) :
    v.traced.Same ⟨e, executed⟩ ⟨e', executed'⟩ := ⟨h.toKeeps.traced executed executed', h.data⟩

variable [Engine σ]

theorem Quiet.traced {sql : String} (h : v.Quiet sql) : v.traced.Quiet sql := fun s => (h s.engine).traced s.executed _

omit [Engine σ] in
theorem Finds.traced {s : Traced σ} {name : String} {outer : List (String × δ)} {found : String × δ}
    (h : v.traced.Finds s name outer found) : v.Finds s.engine name outer found := ⟨h.saved, h.named⟩

end EngineView

namespace Traced

variable [Engine σ] {v : EngineView σ δ}

/-- What the engine answers is answered, and the text is listed. -/
theorem execute_of_engine {sql : String} {s : Traced σ} {r : Except EngineError Nat} {e : σ} (h : Engine.execute sql s.engine = (r, e)) :
    Engine.execute sql s = (r, { engine := e, executed := s.executed ++ [sql] }) := by
  show Traced.execute sql s = _
  rw [Traced.execute, h]

theorem engine_of_execute {sql : String} {s t : Traced σ} {r : Except EngineError Nat} (h : Engine.execute sql s = (r, t)) :
    Engine.execute sql s.engine = (r, t.engine) := by
  cases h
  rfl

theorem transactional (laws : Transactional v) : Transactional v.traced where
  savepoint_error h := (laws.savepoint_error (engine_of_execute h)).traced _ _
  savepoint_ok h := laws.savepoint_ok (engine_of_execute h)
  release h := by
    obtain ⟨n, e, he, hseen⟩ := laws.release h.traced
    exact ⟨n, _, execute_of_engine he, hseen⟩
  rollback h := by
    obtain ⟨n, e, he, hseen⟩ := laws.rollback h.traced
    exact ⟨n, _, execute_of_engine he, hseen⟩
  readLegacyAlter s := by
    obtain ⟨e, he, hsame⟩ := laws.readLegacyAlter s.engine
    refine ⟨{ s with engine := e }, ?_, hsame.traced s.executed s.executed⟩
    show s.after (Engine.pragma "legacy_alter_table" s.engine) = _
    rw [he]
    rfl
  setLegacyAlter b s := by
    obtain ⟨n, e, he, hseen⟩ := laws.setLegacyAlter b s.engine
    exact ⟨n, _, execute_of_engine he, hseen⟩
  readForeignKeys s := by
    obtain ⟨b, e, he, hsame⟩ := laws.readForeignKeys s.engine
    refine ⟨b, { s with engine := e }, ?_, hsame.traced s.executed s.executed⟩
    show s.after (Engine.pragma "foreign_keys" s.engine) = _
    rw [he]
    rfl
  setForeignKeys b s := by
    obtain ⟨n, e, he, hsame⟩ := laws.setForeignKeys b s.engine
    exact ⟨n, _, execute_of_engine he, hsame.traced s.executed _⟩
  schema s := laws.schema s.engine
  copy p := (laws.copy p).traced
  drop table := (laws.drop table).traced
  rename source target := (laws.rename source target).traced
  createImported name header width := (laws.createImported name header width).traced
  insertRow table row s := (laws.insertRow table row s.engine).traced s.executed s.executed

end Traced

end SchemaEditor
