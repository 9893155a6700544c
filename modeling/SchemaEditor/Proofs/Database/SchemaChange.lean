import SchemaEditor.Proofs.Database.Atomicity
import SchemaEditor.Proofs.Engine.Journal
import SchemaEditor.Store.Connection

/-!
# Changes of the schema

A call that changes the schema is made as a whole or not at all. What SQL its arguments carry is its caller's
affair: a type or a default that ends the statement and begins another is executed as it stands.
-/

namespace SchemaEditor

variable {σ δ : Type}

/-- A call that changes the schema, with its arguments. -/
inductive SchemaChange where
  | createTableFrom (t : Table)
  | addColumn (table : String) (f : Field)
  | transformColumn (c : ColumnChange) (signal : Signal)
  | renameColumn (table column name : String) (signal : Signal)
  | modifyColumn (table column : String) (f : Field) (signal : Signal)
  | moveColumn (table column : String) (offset : Int) (signal : Signal)
  | dropColumn (table column : String) (signal : Signal)
  | renameTable (source target : String)
  | importCsv (table : String) (lines : List Csv.Line) (o : Csv.Options) (signal : Signal)

namespace SchemaChange

/-- The savepoint of the change itself. -/
def savepoint : SchemaChange → String
  | createTableFrom _ => "oxide_create_table"
  | addColumn .. => "oxide_add_column"
  | transformColumn .. | renameColumn .. | modifyColumn .. | moveColumn .. | dropColumn .. => "oxide_transform"
  | renameTable .. => "oxide_rename_table"
  | importCsv .. => "oxide_csv_import"

variable [Engine σ]

def run : SchemaChange → Op σ Unit
  | createTableFrom t => Op.createTableFrom t
  | addColumn table f => Op.addColumn table f
  | transformColumn c signal => do let _ ← Op.transformColumn c signal
  | renameColumn table column name signal => do let _ ← Op.renameColumn table column name signal
  | modifyColumn table column f signal => do let _ ← Op.modifyColumn table column f signal
  | moveColumn table column offset signal => do let _ ← Op.moveColumn table column offset signal
  | dropColumn table column signal => do let _ ← Op.dropColumn table column signal
  | renameTable source target => Op.renameTable source target
  | importCsv table lines o signal => do let _ ← Op.importCsv table lines o signal

omit [Engine σ] in
/-- The change of a column that a call comes to, if the column is found that it starts from. -/
def columnChange? (catalog : Catalog) : SchemaChange → Option (ColumnChange × Signal)
  | transformColumn c signal => some (c, signal)
  | renameColumn table column name signal =>
    (catalog.column? table column).toOption.map fun f => ({ table, column, replacement := some (f.renamed name) }, signal)
  | modifyColumn table column f signal => some ({ table, column, replacement := some f }, signal)
  | moveColumn table column offset signal =>
    (catalog.column? table column).toOption.map fun f => ({ table, column, replacement := some f, offset }, signal)
  | dropColumn table column signal => some ({ table, column, replacement := none }, signal)
  | _ => none

/-- The SQL that a change of a column brings along: the new definition, and that of the dependents that are made again. -/
def columnTexts (catalog : Catalog) (c : ColumnChange) : List String :=
  match RebuildPlan.make catalog c with
  | .ok plan => plan.rebuilt.sql :: (catalog.dependentsOf plan.table).map SchemaObject.sql
  | .error _ => []

omit [Engine σ] in
/-- The SQL that a call brings along. -/
def texts (catalog : Catalog) (change : SchemaChange) : List String :=
  match change.columnChange? catalog with
  | some (c, _) => columnTexts catalog c
  | none =>
    match change with
    | createTableFrom t => [t.sql]
    | addColumn table f => [addColumnSql table f]
    | _ => []

/-- The SQL that the change executes opens and settles no savepoints and sets nothing. -/
def IsQuiet (v : EngineView σ δ) (catalog : Catalog) (change : SchemaChange) : Prop :=
  match change with
  | createTableFrom t => v.Quiet t.sql
  | addColumn table f => v.Quiet (addColumnSql table f)
  | change => ∀ c signal, change.columnChange? catalog = some (c, signal) → Op.QuietChange v catalog c

variable {v : EngineView σ δ}

theorem savepoint_ne_restorePoint (c : SchemaChange) : c.savepoint ≠ restorePoint := by
  cases c <;> simp [savepoint, restorePoint]

theorem columnChange?_rename {catalog : Catalog} {table column : String} {f : Field} (hf : catalog.column? table column = .ok f)
    (name : String) (signal : Signal) : (renameColumn table column name signal).columnChange? catalog =
      some ({ table, column, replacement := some (f.renamed name) }, signal) := by
  rw [columnChange?, hf]
  rfl

theorem columnChange?_move {catalog : Catalog} {table column : String} {f : Field} (hf : catalog.column? table column = .ok f)
    (offset : Int) (signal : Signal) : (moveColumn table column offset signal).columnChange? catalog =
      some ({ table, column, replacement := some f, offset }, signal) := by
  rw [columnChange?, hf]
  rfl

theorem IsQuiet.quietChange {change : SchemaChange} {catalog : Catalog} (h : change.IsQuiet v catalog) {c : ColumnChange}
    {signal : Signal} (hc : change.columnChange? catalog = some (c, signal)) : Op.QuietChange v catalog c := by
  cases change with
  | createTableFrom | addColumn => cases hc
  | _ => exact h c signal hc

theorem columnChange?_renameColumn {catalog : Catalog} {table column name : String} {signal signal' : Signal} {c : ColumnChange}
    (h : (renameColumn table column name signal).columnChange? catalog = some (c, signal')) :
    ∃ f, catalog.column? table column = .ok f ∧ c = { table, column, replacement := some (f.renamed name) } ∧ signal' = signal := by
  rw [columnChange?] at h
  cases hf : catalog.column? table column with
  | error e => rw [hf] at h; cases h
  | ok f => rw [hf] at h; cases h; exact ⟨f, rfl, rfl, rfl⟩

theorem columnChange?_moveColumn {catalog : Catalog} {table column : String} {offset : Int} {signal signal' : Signal}
    {c : ColumnChange} (h : (moveColumn table column offset signal).columnChange? catalog = some (c, signal')) :
    ∃ f, catalog.column? table column = .ok f ∧ c = { table, column, replacement := some f, offset } ∧ signal' = signal := by
  rw [columnChange?] at h
  cases hf : catalog.column? table column with
  | error e => rw [hf] at h; cases h
  | ok f => rw [hf] at h; cases h; exact ⟨f, rfl, rfl, rfl⟩

/-- A call that comes to a change of a column makes that change. -/
theorem run_of_columnChange? {change : SchemaChange} {s : Session σ} {c : ColumnChange} {signal : Signal}
    (h : change.columnChange? s.catalog = some (c, signal)) :
    change.run s = (do let _ ← Op.transformColumn c signal : Op σ Unit) s := by
  cases change with
  | transformColumn | modifyColumn | dropColumn => cases h; rfl
  | renameColumn table column name =>
    obtain ⟨f, hf, rfl, rfl⟩ := columnChange?_renameColumn h
    show EStateM.bind (EStateM.bind (Op.ofExcept (s.catalog.column? table column)) _) _ s = _
    rw [hf]
    rfl
  | moveColumn table column offset =>
    obtain ⟨f, hf, rfl, rfl⟩ := columnChange?_moveColumn h
    show EStateM.bind (EStateM.bind (Op.ofExcept (s.catalog.column? table column)) _) _ s = _
    rw [hf]
    rfl
  | createTableFrom | addColumn | renameTable | importCsv => cases h

/-! ## How a call goes -/

/-- What a call does under its savepoint, unless it rebuilds a table. -/
inductive Does : SchemaChange → {α : Type} → Op σ α → Prop where
  | createTable (t : Table) : Does (createTableFrom t) (Op.execute t.sql)
  | addColumn (table : String) (f : Field) : Does (addColumn table f) (Op.execute (addColumnSql table f))
  | renameTable (source target : String) : Does (renameTable source target) (Op.executeRename source target)
  | insertRows {table : String} {lines : List Csv.Line} {o : Csv.Options} {signal : Signal} (width : Nat) (rows : List (List String)) :
    Does (importCsv table lines o signal) (Op.insertRows table width signal rows)
  | importTable {table : String} {lines : List Csv.Line} {o : Csv.Options} {signal : Signal} (header : List String) (width : Nat)
    (rows : List (List String)) : Does (importCsv table lines o signal) (do
      let _ ← Op.execute (importedTable table header width).sql
      Op.insertRows table width signal rows)

/-- A call ends as the change under its savepoint ends, or as it began. -/
theorem ends_run (change : SchemaChange) {s : Session σ} {P E : Session σ → Prop}
    (hP : ∀ u w : Session σ, P u → u.Alike w → P w) (hidle : ∀ t, s.Alike t → P t) (hrefused : ∀ t, s.Alike t → E t)
    (hchange : ∀ {α : Type} (body : Op σ α), change.Does body → ∀ t, s.Alike t →
      (Op.change change.savepoint body).Ends t (fun _ => P) fun _ => E)
    (htransform : ∀ c signal, change.columnChange? s.catalog = some (c, signal) →
      (Op.transformColumn c signal).Ends s (fun _ => P) fun _ => E) :
    (change.run).Ends s (fun _ => P) fun _ => E := by
  cases hc : change.columnChange? s.catalog with
  | some pair =>
    obtain ⟨c, signal⟩ := pair
    have hend : (do let _ ← Op.transformColumn c signal : Op σ Unit).Ends s (fun _ => P) fun _ => E :=
      (htransform c signal hc).bind fun _ _ => id
    unfold Op.Ends at hend ⊢
    rwa [run_of_columnChange? hc]
  | none =>
  cases change with
  | createTableFrom t => exact Op.ends_createTableFrom hP (hrefused s (.refl s)) (hchange _ (.createTable t) s (.refl s))
  | addColumn table f => exact Op.ends_addColumn hP (hrefused s (.refl s)) (hchange _ (.addColumn table f) s (.refl s))
  | renameTable source target =>
    exact Op.ends_renameTable hP (hrefused s (.refl s)) (hchange _ (.renameTable source target) s (.refl s))
  | importCsv table lines o signal =>
    have himport : (Op.importCsv table lines o signal).Ends s (fun _ => P) fun _ => E :=
      Op.ends_importCsv_of hP hidle hrefused (fun width rows => hchange _ (.insertRows width rows)) fun header width rows =>
        hchange _ (.importTable header width rows)
    exact himport.bind fun _ _ => id
  | transformColumn | modifyColumn | dropColumn => cases hc
  | renameColumn table column | moveColumn table column =>
    -- the column is not found that the change starts from
    have hcolumn : ∃ e, s.catalog.column? table column = .error e := by
      rw [columnChange?] at hc
      cases hf : s.catalog.column? table column with
      | error e => exact ⟨e, rfl⟩
      | ok f => rw [hf] at hc; cases hc
    obtain ⟨e, he⟩ := hcolumn
    refine Op.ends_bind (Op.ends_catalog (Op.ends_bind ?_))
    rw [he]
    exact hrefused s (.refl s)

/-- What a call does keeps to a relation that allows its texts. -/
theorem Does.preserves {R : Session σ → Session σ → Prop} [Session.IsFrame R] (hwork : Session.AllowsWork R) {change : SchemaChange}
    {α : Type} {body : Op σ α} (h : change.Does body) {catalog : Catalog} (htexts : ∀ sql ∈ change.texts catalog, Session.Allows R sql) :
    body.Preserves R := by
  cases h with
  | createTable t => exact Op.preserves_execute (htexts t.sql (by simp [texts, columnChange?]))
  | addColumn table f => exact Op.preserves_execute (htexts (addColumnSql table f) (by simp [texts, columnChange?]))
  | renameTable source target => exact Op.preserves_executeRename (hwork.rename source target)
  | insertRows width rows => exact Op.preserves_insertRows hwork _ width _ rows
  | @importTable table _ _ _ header width rows =>
    exact (Op.preserves_execute (hwork.createImported table header width)).bind fun _ => Op.preserves_insertRows hwork _ width _ rows

theorem quietChange_iff {catalog : Catalog} {c : ColumnChange} :
    Op.QuietChange v catalog c ↔ ∀ sql ∈ columnTexts catalog c, v.Quiet sql := by
  unfold Op.QuietChange columnTexts
  cases RebuildPlan.make catalog c with
  | error e => simp
  | ok plan =>
    constructor
    · intro h
      simpa using ⟨(h plan rfl).rebuilt, (h plan rfl).dependents⟩
    · intro h plan' hplan
      cases hplan
      have hquiet := List.forall_mem_cons.mp h
      exact ⟨hquiet.1, fun o ho => hquiet.2 o.sql (List.mem_map_of_mem ho)⟩

theorem texts_of_columnChange? {change : SchemaChange} {catalog : Catalog} {c : ColumnChange} {signal : Signal}
    (hc : change.columnChange? catalog = some (c, signal)) : change.texts catalog = columnTexts catalog c := by
  unfold texts
  rw [hc]

/-- The SQL of a call is quiet if each of its texts is. -/
theorem isQuiet_iff {change : SchemaChange} {catalog : Catalog} :
    change.IsQuiet v catalog ↔ ∀ sql ∈ change.texts catalog, v.Quiet sql := by
  have hcolumn (pair : Option (ColumnChange × Signal)) :
      (∀ c signal, pair = some (c, signal) → Op.QuietChange v catalog c) ↔
        ∀ sql ∈ (match pair with | some (c, _) => columnTexts catalog c | none => []), v.Quiet sql := by
    cases pair with
    | none => simp
    | some pair =>
      obtain ⟨c, signal⟩ := pair
      simp [← quietChange_iff]
  cases change with
  | createTableFrom t => simp [IsQuiet, texts, columnChange?]
  | addColumn table f => simp [IsQuiet, texts, columnChange?]
  | _ => exact hcolumn _

/-- A call makes its change or none. -/
theorem ends_run_made (laws : Transactional v) (change : SchemaChange) {s : Session σ} (hs : s.Agrees v)
    (hq : change.IsQuiet v s.catalog) : (change.run).Ends s (fun _ t => s.Made v t) fun _ t => s.Unmade v t := by
  refine ends_run change (fun u w hu hw => hu.still (.refl s) hw.still) (fun t ht => (ht.still.unmade hs).toMade)
    (fun t ht => ht.still.unmade hs) (fun body hbody t ht => ?_) fun c signal hc => ?_
  · have hsteady : body.IsSteady v :=
      hbody.preserves (Op.allowsWork_steady laws) fun sql hsql => Op.allows_of_quiet (isQuiet_iff.mp hq sql hsql)
    have hchange := Op.ends_change_steady laws change.savepoint_ne_restorePoint hsteady (ht.still.open hs.open).agrees
    exact hchange.mono (fun _ u hu => hu.still ht.still (.refl u)) fun _ u hu => hu.still ht.still (.refl u)
  · have htransform := Op.ends_transformColumn laws (c := c) signal hs (Q := fun _ _ => True) fun plan hplan t _ =>
      (Op.isSteady_rebuild laws (hq.quietChange hc plan hplan) signal t).mono (fun _ _ hu => ⟨hu, trivial⟩) fun _ _ hu => hu
    exact htransform.mono (fun _ _ ht => ht.1) fun _ _ ht => ht

theorem isAtomic_run (laws : Transactional v) (change : SchemaChange) {s : Session σ} (hs : s.Agrees v)
    (hq : change.IsQuiet v s.catalog) : (change.run : Op σ Unit).IsAtomicFrom v s :=
  (ends_run_made laws change hs hq).mono (fun _ _ ht => ht.kept hs) fun _ _ ht => ht.reverted hs

omit [Engine σ] in
/-- Only the restore point can be open after a change and not before. -/
theorem isActive_savepoint {c : SchemaChange} {s t : Session σ} (h : s.AtMostRestorePoint t)
    (ht : t.ledger.isActive c.savepoint = true) : s.ledger.isActive c.savepoint = true := by
  rcases h with h | h
  · simpa [Ledger.isActive, h] using ht
  · simpa [Ledger.isActive, h, c.savepoint_ne_restorePoint] using ht

/-- A change that fails leaves the data, the catalog and the setting as they were, and of the savepoints at most
the restore point remains open. So it is with the savepoints when it succeeds. If its savepoint cannot be opened,
not even the restore point remains. -/
theorem all_or_nothing (laws : Transactional v) (c : SchemaChange) {s : Session σ} (hs : s.Agrees v)
    (hq : c.IsQuiet v s.catalog) :
    (∀ e t, c.run s = .error e t → s.Reverted v t ∧
      (t.ledger.isActive c.savepoint = true → s.ledger.isActive c.savepoint = true)) ∧
    (∀ t, c.run s = .ok () t → s.Kept v t) ∧
    (∀ e t, Op.beginOperation c.savepoint s = .error e t → t.ledger.active = s.ledger.active ∧
      v.saved t.engine = v.saved s.engine ∧ v.data t.engine = v.data s.engine) := by
  have hrun := isAtomic_run laws c hs hq
  refine ⟨fun e t ht => ?_, fun t ht => hrun.ok ht, fun e t ht => ?_⟩
  · have hreverted : s.Reverted v t := hrun.error ht
    exact ⟨hreverted, isActive_savepoint hreverted.restorePoint⟩
  · have hback := (Op.ends_beginOperation laws c.savepoint_ne_restorePoint hs).error ht
    exact ⟨hback.active.trans hs.symm, hback.saved, hback.data⟩

end SchemaChange

/-! ## Runs -/

/-- The session that an operation leaves when it fails. -/
def Op.failed? {α : Type} (op : Op σ α) (s : Session σ) : Option (Session σ) :=
  match op s with
  | .ok .. => none
  | .error _ t => some t

theorem Op.failed?_eq_some {α : Type} {op : Op σ α} {s t : Session σ} (h : op.failed? s = some t) :
    ∃ e, op s = .error e t := by
  unfold failed? at h
  split at h
  · cases h
  · next e u herror => exact ⟨e, by rw [herror, Option.some.inj h]⟩

/-- The session that an operation leaves when it succeeds. -/
def Op.done? {α : Type} (op : Op σ α) (s : Session σ) : Option (Session σ) :=
  match op s with
  | .ok _ t => some t
  | .error .. => none

theorem Op.done?_eq_some {α : Type} {op : Op σ α} {s t : Session σ} (h : op.done? s = some t) : ∃ a, op s = .ok a t := by
  unfold done? at h
  split at h
  · next a u hok => exact ⟨a, by rw [hok, Option.some.inj h]⟩
  · cases h

namespace SchemaChange

/-- A session whose engine refuses the new column. -/
def refusing : Session Journal where
  engine := { refused := [addColumnSql "hero" { name := "note" }] }
  catalog := { objects := [{ kind := .table, name := "hero", tableName := "hero", sql := "CREATE TABLE hero (id)", fields := [] }] }

theorem all_or_nothing_refused :
    ∃ e t, (addColumn "hero" { name := "note" }).run refusing = .error e t ∧ refusing.Reverted Journal.view t ∧
      t.ledger.active = ["oxide_restore_point"] := by
  have hagrees : refusing.Agrees Journal.view := rfl
  have hquiet : (addColumn "hero" { name := "note" }).IsQuiet Journal.view refusing.catalog :=
    Journal.quiet_of_head (c := 'A') (by decide) (by decide)
  have hactive : (Op.failed? (addColumn "hero" { name := "note" }).run refusing).map (·.ledger.active) =
      some ["oxide_restore_point"] := by decide
  obtain ⟨t, ht, hactive⟩ := Option.map_eq_some_iff.mp hactive
  obtain ⟨e, ht⟩ := Op.failed?_eq_some ht
  exact ⟨e, t, ht, ((all_or_nothing Journal.transactional _ hagrees hquiet).1 e t ht).1, hactive⟩

/-- What can be seen of a store. -/
def storeView : EngineView Store.State Store.Content where
  data := Store.State.content
  saved s := (s.savepoints.map fun p => (p.name, p.content)).reverse
  legacyAlter := Store.State.legacyAlter

/-- A session with the table `hero`. -/
def opened : Session Store.State :=
  match Op.createTable "hero" [{ name := "id", sqlType := "integer" }] { engine := { access := { isFile := false } } } with
  | .ok _ s => s
  | .error _ s => s

/-- A setting that the SQL of a type brings along survives the failure of the change. -/
theorem not_all_or_nothing_of_setting :
    opened.Agrees storeView ∧
      ∃ e t, (addColumn "hero" { name := "note", sqlType := "text; PRAGMA legacy_alter_table = 1; x" }).run opened = .error e t ∧
        storeView.legacyAlter t.engine ≠ storeView.legacyAlter opened.engine := by
  have hrun : opened.ledger.active = storeView.savepoints opened.engine ∧ (Op.failed?
      (addColumn "hero" { name := "note", sqlType := "text; PRAGMA legacy_alter_table = 1; x" }).run opened).map
        (storeView.legacyAlter ·.engine) = some (!storeView.legacyAlter opened.engine) := by decide +kernel
  obtain ⟨hagrees, hlegacy⟩ := hrun
  obtain ⟨t, ht, hlegacy⟩ := Option.map_eq_some_iff.mp hlegacy
  obtain ⟨e, ht⟩ := Op.failed?_eq_some ht
  exact ⟨hagrees, e, t, ht, by simp [hlegacy]⟩

end SchemaChange

end SchemaEditor
