import SchemaEditor.Proofs.Database.Change

/-!
# What the catalog lists

Reading the catalog comes to the objects of the engine's rows, in their order. A snapshot is fresh if reading the catalog
again would give the same. It stays so while neither the snapshot nor the data changes.
-/

namespace SchemaEditor

variable {σ δ : Type} [Engine σ]

namespace SchemaRow

/-- The columns of a row's object, as they are read from its SQL or told by the engine. -/
def fields (e : σ) (kind : ObjectKind) (name sql : String) : List Field :=
  match kind with
  | .table => (Table.parseLenient sql).fields
  | .view =>
    match Engine.viewColumns name e with
    | .ok columns => columns.map fun (name, sqlType) => { name, sqlType }
    | .error _ => []
  | .index | .trigger => []

/-- The object of a row, if its kind is known. -/
def object? (e : σ) (row : SchemaRow) : Option SchemaObject :=
  (ObjectKind.ofTag? row.kind).map fun kind =>
    let sql := withoutReturns (row.sql.getD "")
    { kind, name := row.name, tableName := row.tableName, sql, fields := fields e kind row.name sql }

end SchemaRow

/-- What is read of the schema comes from the data alone. -/
structure EngineView.ReadsData (v : EngineView σ δ) : Prop where
  schema {e e' : σ} : v.data e' = v.data e → Engine.schema e' = Engine.schema e
  viewColumns {e e' : σ} (view : String) : v.data e' = v.data e → Engine.viewColumns view e' = Engine.viewColumns view e

theorem EngineView.ReadsData.object? {v : EngineView σ δ} (reading : v.ReadsData) {e e' : σ} (h : v.data e' = v.data e)
    (row : SchemaRow) : row.object? e' = row.object? e := by
  have hfields (kind : ObjectKind) (name sql : String) : SchemaRow.fields e' kind name sql = SchemaRow.fields e kind name sql := by
    cases kind with
    | view => simp only [SchemaRow.fields, reading.viewColumns name h]
    | _ => rfl
  simp only [SchemaRow.object?, hfields]

namespace Op

/-! ## Reading -/

theorem ends_viewFields (view : String) (s : Session σ) :
    (viewFields view).Ends s (fun fields t => s.Alike t ∧ fields = SchemaRow.fields s.engine .view view "") fun _ _ => False := by
  refine ends_session ?_
  unfold SchemaRow.fields
  cases Engine.viewColumns view s.engine with
  | ok columns => exact ends_pure ⟨.refl s, rfl⟩
  | error e => exact ends_bind (ends_of_ok rfl (ends_pure ⟨⟨rfl, rfl, rfl, rfl⟩, rfl⟩))

theorem ends_fieldsOf (kind : ObjectKind) (name sql : String) (s : Session σ) :
    (fieldsOf kind name sql).Ends s (fun fields t => s.Alike t ∧ fields = SchemaRow.fields s.engine kind name sql) fun _ _ => False := by
  cases kind with
  | table =>
    by_cases hempty : (Table.parseLenient sql).fields.isEmpty = true
    · show (if (Table.parseLenient sql).fields.isEmpty = true then _ else _ : Op σ _).Ends s _ _
      rw [if_pos hempty]
      exact ends_bind (ends_of_ok rfl (ends_pure ⟨⟨rfl, rfl, rfl, rfl⟩, rfl⟩))
    · show (if (Table.parseLenient sql).fields.isEmpty = true then _ else _ : Op σ _).Ends s _ _
      rw [if_neg hempty]
      exact ends_pure ⟨.refl s, rfl⟩
  | view => exact ends_viewFields name s
  | index => exact ends_pure ⟨.refl s, rfl⟩
  | trigger => exact ends_pure ⟨.refl s, rfl⟩

theorem ends_objectOf (row : SchemaRow) (s : Session σ) :
    (objectOf row).Ends s (fun object t => s.Alike t ∧ object = row.object? s.engine) fun _ _ => False := by
  unfold objectOf SchemaRow.object?
  cases ObjectKind.ofTag? row.kind with
  | none => exact ends_bind (ends_of_ok rfl (ends_pure ⟨⟨rfl, rfl, rfl, rfl⟩, rfl⟩))
  | some kind =>
    refine ends_bind ((ends_fieldsOf kind row.name _ s).mono ?_ fun _ _ => id)
    rintro fields t ⟨ht, rfl⟩
    exact ends_pure ⟨ht, rfl⟩

/-- Whoever is not told to stop reads the objects of all rows. -/
theorem ends_readObjects (signal : Signal) (rows : List SchemaRow) (s : Session σ) :
    (readObjects signal rows).Ends s (fun objects t => s.Alike t ∧ objects = rows.filterMap (SchemaRow.object? s.engine))
      fun _ t => s.Alike t := by
  induction rows generalizing s with
  | nil => exact ends_pure ⟨.refl s, rfl⟩
  | cons row rows ih =>
    refine ends_bind ((ends_checkSignal signal s).mono (fun _ t ht => ?_) fun _ _ => id)
    refine ends_bind ((ends_objectOf row t).mono ?_ fun _ _ => False.elim)
    rintro object u ⟨hu, rfl⟩
    have htu := ht.trans hu
    refine ends_bind ((ih u).mono ?_ fun _ _ => htu.trans)
    rintro objects w ⟨hw, rfl⟩
    refine ends_pure ⟨htu.trans hw, ?_⟩
    rw [htu.engine, ht.engine, List.filterMap_cons]
    cases row.object? s.engine <;> rfl

theorem ends_readCatalog (signal : Signal) {s : Session σ} {rows : List SchemaRow} (hrows : Engine.schema s.engine = .ok rows) :
    (readCatalog signal).Ends s (fun catalog t => s.Alike t ∧ catalog.objects = rows.filterMap (SchemaRow.object? s.engine))
      fun _ t => s.Alike t := by
  refine ends_session ?_
  rw [hrows]
  refine ends_bind (ends_of_ok rfl (ends_bind ?_))
  exact (ends_readObjects signal rows s).mono (fun _ _ => id) fun _ _ => id

/-- Without a signal to stop the catalog is read if the engine's rows are. -/
theorem readCatalog_never {s : Session σ} {rows : List SchemaRow} (hrows : Engine.schema s.engine = .ok rows) :
    ∃ catalog t, readCatalog Signal.never s = .ok catalog t ∧ s.Alike t ∧
      catalog.objects = rows.filterMap (SchemaRow.object? s.engine) := by
  have hreads : (readCatalog Signal.never).Ends s (fun _ _ => True) fun _ _ => False := by
    refine ends_session ?_
    rw [hrows]
    refine ends_bind (ends_of_ok rfl (ends_bind ?_))
    exact (onlyReads_readObjects rows s).mono (fun _ _ _ => trivial) fun _ _ => id
  have hend : (readCatalog Signal.never).Ends s
      (fun catalog t => s.Alike t ∧ catalog.objects = rows.filterMap (SchemaRow.object? s.engine)) fun _ _ => False :=
    ((ends_readCatalog Signal.never hrows).and hreads).mono (fun _ _ h => h.1) fun _ _ h => h.2
  obtain ⟨catalog, t, hrun, ht⟩ := hend.exists_ok
  exact ⟨catalog, t, hrun, ht⟩

end Op

/-! ## Fresh snapshots -/

namespace Session

/-- Reading the catalog now would give the snapshot. -/
def IsFresh (s : Session σ) : Prop := ∃ t, Op.readCatalog Signal.never s = .ok s.catalog t

theorem isFresh_iff {s : Session σ} :
    s.IsFresh ↔ ∃ rows, Engine.schema s.engine = .ok rows ∧ s.catalog.objects = rows.filterMap (SchemaRow.object? s.engine) := by
  constructor
  · rintro ⟨t, ht⟩
    cases hrows : Engine.schema s.engine with
    | error e =>
      have hstops : (Op.readCatalog Signal.never).Ends s (fun _ _ => False) fun _ _ => True := by
        refine Op.ends_session ?_
        rw [hrows]
        exact Op.ends_bind (Op.ends_of_error rfl trivial)
      exact (hstops.ok ht).elim
    | ok rows =>
      obtain ⟨catalog, u, hrun, -, hobjects⟩ := Op.readCatalog_never hrows
      rw [ht] at hrun
      cases hrun
      exact ⟨rows, rfl, hobjects⟩
  · rintro ⟨rows, hrows, hobjects⟩
    obtain ⟨catalog, t, hrun, -, hread⟩ := Op.readCatalog_never hrows
    have hcatalog : catalog = s.catalog := congrArg Catalog.mk (hread.trans hobjects.symm)
    exact ⟨t, hcatalog ▸ hrun⟩

/-- A snapshot is fresh for as long as the data it was taken of. -/
theorem IsFresh.of_data {v : EngineView σ δ} (reading : v.ReadsData) {s t : Session σ} (h : s.IsFresh)
    (hdata : v.data t.engine = v.data s.engine) (hcatalog : t.catalog = s.catalog) : t.IsFresh := by
  obtain ⟨rows, hrows, hobjects⟩ := isFresh_iff.mp h
  have hsame : SchemaRow.object? t.engine = SchemaRow.object? s.engine := funext (reading.object? hdata)
  exact isFresh_iff.mpr ⟨rows, (reading.schema hdata).trans hrows, by rw [hcatalog, hsame, hobjects]⟩

theorem IsFresh.alike {s t : Session σ} (h : s.IsFresh) (ht : s.Alike t) : t.IsFresh := by
  rw [isFresh_iff, ht.engine, ht.catalog]
  exact isFresh_iff.mp h

theorem IsFresh.still {v : EngineView σ δ} (reading : v.ReadsData) {s t : Session σ} (h : s.IsFresh) (ht : s.Still v t) :
    t.IsFresh :=
  h.of_data reading ht.engine.data ht.catalog

end Session

/-- A catalog that could be read anew is fresh; one that could not is the old one. -/
theorem Op.ends_refreshCatalog_fresh (signal : Signal) (s : Session σ) :
    (refreshCatalog signal).Ends s (fun _ t => t.IsFresh ∧ t.engine = s.engine ∧ t.ledger = s.ledger) fun _ t => s.Alike t := by
  refine ends_bind ?_
  cases hrows : Engine.schema s.engine with
  | error e =>
    refine ends_session ?_
    rw [hrows]
    exact ends_bind (ends_of_error rfl (.refl s))
  | ok rows =>
    refine (ends_readCatalog signal hrows).mono (fun catalog t ht => ?_) fun _ _ => id
    obtain ⟨ht, hobjects⟩ := ht
    refine ends_bind (ends_of_ok rfl (ends_pure ⟨Session.isFresh_iff.mpr ⟨rows, ?_, ?_⟩, ht.engine, ht.ledger⟩))
    · exact (congrArg Engine.schema ht.engine).trans hrows
    · exact hobjects.trans (by rw [← ht.engine])

end SchemaEditor
