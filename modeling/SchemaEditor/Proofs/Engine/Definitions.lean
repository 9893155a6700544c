import SchemaEditor.Proofs.Database.Listing
import SchemaEditor.Proofs.Engine.Tables
import SchemaEditor.Proofs.Table.Rereading

/-!
# Definitions as they are stored

An engine keeps the statement that made a table, without its final semicolon, and lists it with the table. If the table is
renamed in the old way, the statement keeps all but the name in it. This is said of the statements of one table or one plan, as
they are executed: a definition that brings other statements along may do anything.
-/

namespace SchemaEditor

variable {σ δ : Type}

/-- The row of a table that is listed with its statement. -/
def SchemaRow.ofTable (name sql : String) : SchemaRow := { kind := ObjectKind.table.tag, name, sql := some sql, tableName := name }

/-- The tables of a name that an engine lists. There may be several, in schemas of their own. -/
def tablesNamed [Engine σ] (e : σ) (name : String) : List SchemaRow :=
  match Engine.schema e with
  | .ok rows => rows.filter fun row => row.kind == ObjectKind.table.tag && sameName row.name name
  | .error _ => []

/-- The objects are listed by kind. -/
def ListsByKind (σ : Type) [Engine σ] : Prop :=
  ∀ (e : σ) (rows : List SchemaRow), Engine.schema e = .ok rows → rows.Pairwise fun a b => a.kind ≤ b.kind

/-- The table is listed with its statement as it is printed, but for the semicolon. -/
def Table.IsStored (σ : Type) [Engine σ] (t : Table) : Prop :=
  ∀ (e e' : σ) (n : Nat), Engine.execute t.sql e = (.ok n, e') →
    SchemaRow.ofTable t.name (t.storedAs (quoteIdentifier t.name)) ∈ tablesNamed e' t.name

/-- The engine takes the statements of a plan as they are meant, as far as definitions go. -/
structure RebuildPlan.IsStored [Engine σ] (v : EngineView σ δ) (p : RebuildPlan) (dependents : List SchemaObject) : Prop where
  /-- No table of the temporary name comes about but the new one. -/
  create {e e' : σ} {n : Nat} : Engine.execute p.rebuilt.sql e = (.ok n, e') → ∀ row ∈ tablesNamed e' p.temporary,
    row = .ofTable p.temporary (p.rebuilt.storedAs (quoteIdentifier p.temporary)) ∨ row ∈ tablesNamed e p.temporary
  copy {e e' : σ} {n : Nat} : Engine.execute p.copySql e = (.ok n, e') → tablesNamed e' p.temporary ⊆ tablesNamed e p.temporary
  drop {e e' : σ} {n : Nat} : Engine.execute ("DROP TABLE " ++ quoteIdentifier p.table) e = (.ok n, e') →
    tablesNamed e' p.temporary ⊆ tablesNamed e p.temporary
  /-- There is a table that is renamed, and if it is the new one, its statement is as before with the new name. -/
  rename {e e' : σ} {n : Nat} : v.legacyAlter e = true → Engine.execute (renameTableSql p.temporary p.table) e = (.ok n, e') →
    ∃ row ∈ tablesNamed e p.temporary, row = .ofTable p.temporary (p.rebuilt.storedAs (quoteIdentifier p.temporary)) →
      .ofTable p.table (p.rebuilt.storedAs (quoteWith '"' p.table)) ∈ tablesNamed e' p.table
  /-- What is made again leaves the table as it is. -/
  dependents : ∀ o ∈ dependents, ∀ e : σ,
    .ofTable p.table (p.rebuilt.storedAs (quoteWith '"' p.table)) ∈ tablesNamed e p.table →
      .ofTable p.table (p.rebuilt.storedAs (quoteWith '"' p.table)) ∈ tablesNamed (Engine.execute o.sql e).2 p.table

section
variable [Engine σ]

theorem mem_tablesNamed {e : σ} {rows : List SchemaRow} (h : Engine.schema e = .ok rows) {row : SchemaRow} {name : String} :
    row ∈ tablesNamed e name ↔ row ∈ rows ∧ row.kind = ObjectKind.table.tag ∧ sameName row.name name = true := by
  simp [tablesNamed, h]

theorem tablesNamed_of_data {v : EngineView σ δ} (reading : v.ReadsData) {e e' : σ} (h : v.data e' = v.data e) (name : String) :
    tablesNamed e' name = tablesNamed e name := by
  rw [tablesNamed, tablesNamed, reading.schema h]

end

end SchemaEditor
