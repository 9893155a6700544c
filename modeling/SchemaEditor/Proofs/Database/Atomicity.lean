import SchemaEditor.Proofs.Database.Change

/-!
# Changes of the schema are all or nothing

Each operation that changes the schema does its work in steady steps under a savepoint of its own. So it is
made as a whole or reverted as a whole, wherever it stops. This rests on the texts it executes: one that brings
statements for savepoints or settings along is beyond what a savepoint can revert.
-/

namespace SchemaEditor

variable {σ δ : Type}

namespace Op

variable [Engine σ] {v : EngineView σ δ}

/-! ## Settings -/

theorem ends_pragma {name a : String} (hname : isPragmaName name = true) {s : Session σ} {u : σ}
    (hu : Engine.pragma name s.engine = (.ok a, u)) {P : String → Session σ → Prop} {E : SchemaError → Session σ → Prop}
    (h : P a { s.logStatement ("PRAGMA " ++ name) with engine := u }) : (pragma name).Ends s P E := by
  have hcheck : (checkPragmaName name : Op σ Unit) s = .ok () s := by
    rw [checkPragmaName, hname]
    rfl
  have hrequest : request (Engine.pragma name) (s.logStatement ("PRAGMA " ++ name)) =
      .ok (.ok a) { s.logStatement ("PRAGMA " ++ name) with engine := u } := by
    show Op.request _ _ = _
    unfold request
    rw [show (s.logStatement ("PRAGMA " ++ name)).engine = s.engine from rfl, hu]
  refine ends_bind (ends_of_ok hcheck (ends_bind (ends_of_ok rfl (ends_bind (ends_of_ok hrequest ?_)))))
  exact h

theorem ends_readLegacyAlter (laws : Transactional v) (s : Session σ) {E : SchemaError → Session σ → Prop} :
    (pragma "legacy_alter_table").Ends s
      (fun a t => a = flag (v.legacyAlter s.engine) ∧ s.Steady v t ∧ v.data t.engine = v.data s.engine) E := by
  obtain ⟨u, hu, hsame⟩ := laws.readLegacyAlter s.engine
  exact ends_pragma (by decide) hu ⟨rfl, ⟨hsame.toKeeps, rfl, rfl, rfl⟩, hsame.data⟩

theorem ends_suspendForeignKeys (laws : Transactional v) (s : Session σ) :
    (suspendForeignKeys).Ends s (fun _ t => s.Still v t) fun _ t => s.Still v t := by
  obtain ⟨b, u, hu, hsame⟩ := laws.readForeignKeys s.engine
  refine ends_bind (ends_pragma (by decide) hu ?_)
  cases b with
  | false => exact ⟨hsame, rfl, rfl⟩
  | true =>
    refine ends_session ?_
    generalize hs' : ({ s.logStatement ("PRAGMA " ++ "foreign_keys") with engine := u } : Session σ) = s'
    have hstill : s.Still v s' := by
      subst hs'
      exact ⟨hsame, rfl, rfl⟩
    by_cases hdirty : s'.isDirty = true
    · rw [if_pos hdirty]
      exact hstill
    · rw [if_neg hdirty]
      obtain ⟨n, w, hw, hsame'⟩ := laws.setForeignKeys false s'.engine
      exact ends_bind (ends_execute_ok hw (hstill.trans ⟨hsame', rfl, rfl⟩))

/-! ## Steps -/

theorem allows_of_quiet {sql : String} (h : v.Quiet sql) : Session.Allows (Session.Steady v) sql :=
  fun s => ⟨h s.engine, rfl, rfl, rfl⟩

theorem allowsWork_steady (laws : Transactional v) : Session.AllowsWork (Session.Steady v) where
  copy p := allows_of_quiet (laws.copy p)
  drop table := allows_of_quiet (laws.drop table)
  rename source target := allows_of_quiet (laws.rename source target)
  createImported name header width := allows_of_quiet (laws.createImported name header width)
  insertRow table row s := ⟨laws.insertRow table row s.engine, rfl, rfl, rfl⟩

/-- The setting is as it was once the rebuilt table has its name, or could not get it. -/
theorem isSteady_renameRebuilt (laws : Transactional v) (source target : String) :
    (renameRebuilt source target : Op σ Unit).IsSteady v := by
  intro s
  refine (ends_readLegacyAlter laws s).bind ?_
  rintro a s₁ ⟨rfl, h₁, -⟩
  obtain ⟨n, u, hu, hsaved, -, hset⟩ := laws.setLegacyAlter true s₁.engine
  refine ends_bind (ends_execute_ok hu ?_)
  rw [flag_of_flag]
  -- whatever the renaming came to, the setting is written back before its error is told
  have hback : ∀ (r : Except SchemaError Unit) (s₃ : Session σ), Session.Steady v
      { s₁.logStatement ("PRAGMA legacy_alter_table = " ++ flag true) with engine := u } s₃ →
      (execute ("PRAGMA legacy_alter_table = " ++ flag (v.legacyAlter s.engine)) >>= fun _ => ofExcept r).Ends s₃
        (fun _ t => s.Steady v t) fun _ t => s.Steady v t := by
    intro r s₃ h₃
    obtain ⟨m, w, hw, hsaved', -, hset'⟩ := laws.setLegacyAlter (v.legacyAlter s.engine) s₃.engine
    have hsteady : s.Steady v { s₃.logStatement ("PRAGMA legacy_alter_table = " ++ flag (v.legacyAlter s.engine)) with engine := w } := by
      refine ⟨⟨?_, hset'⟩, h₃.ledger.trans h₁.ledger, h₃.catalog.trans h₁.catalog, h₃.suspended.trans h₁.suspended⟩
      exact hsaved'.trans (h₃.engine.saved.trans (hsaved.trans h₁.engine.saved))
    exact ends_bind (ends_execute_ok hw (ends_ofExcept (fun _ _ => hsteady) fun _ _ => hsteady))
  have hrename := preserves_executeRename ((allowsWork_steady laws).rename source target)
    { s₁.logStatement ("PRAGMA legacy_alter_table = " ++ flag true) with engine := u }
  exact ends_bind (Ends.observe (hrename.mono (fun a => hback (.ok a)) fun e => hback (.error e)))

end Op

/-- Neither the new definition nor what is made again brings statements for savepoints or settings along. -/
structure RebuildPlan.IsQuiet (v : EngineView σ δ) [Engine σ] (p : RebuildPlan) (dependents : List SchemaObject) : Prop where
  rebuilt : v.Quiet p.rebuilt.sql
  dependents : ∀ o ∈ dependents, v.Quiet o.sql

namespace Op

variable [Engine σ] {v : EngineView σ δ}

theorem isSteady_rebuild (laws : Transactional v) {p : RebuildPlan} {dependents : List SchemaObject}
    (h : p.IsQuiet v dependents) (signal : Signal) : (rebuild p dependents signal : Op σ _).IsSteady v :=
  preserves_rebuild (allowsWork_steady laws) (isSteady_renameRebuilt laws p.temporary p.table) (allows_of_quiet h.rebuilt)
    (fun o ho => allows_of_quiet (h.dependents o ho)) signal

theorem ends_change_steady (laws : Transactional v) {α : Type} {savepoint : String} (hne : savepoint ≠ restorePoint)
    {body : Op σ α} (hbody : body.IsSteady v) {s : Session σ} (hs : s.Agrees v) :
    (change savepoint body).Ends s (fun _ t => s.Made v t) fun _ t => s.Unmade v t := by
  refine (ends_change laws hne hs (Q := fun _ _ => True) fun t _ _ => ?_).mono (fun _ _ ht => ht.1) fun _ _ ht => ht
  exact (hbody t).mono (fun _ _ hu => ⟨hu, trivial⟩) fun _ _ hu => hu

/-! ## Operations -/

/-- An operation that makes its change or none. -/
def IsAtomicFrom {α : Type} (v : EngineView σ δ) (op : Op σ α) (s : Session σ) : Prop :=
  op.Ends s (fun _ t => s.Kept v t) fun _ t => s.Reverted v t

/-- What a rebuild executes brings nothing along, wherever the catalog leads. -/
def QuietChange (v : EngineView σ δ) (catalog : Catalog) (c : ColumnChange) : Prop :=
  ∀ plan, RebuildPlan.make catalog c = .ok plan → plan.IsQuiet v (catalog.dependentsOf plan.table)

/-! Each operation is a change under a savepoint, with some looking around before and after it. So it ends as the change does,
in conditions that do not depend on what is counted and reported. -/

section
variable {s : Session σ} {P E : Session σ → Prop}

theorem ends_createTableFrom {t : Table} (hP : ∀ u w : Session σ, P u → u.Alike w → P w) (hrefused : E s)
    (hchange : (change "oxide_create_table" (execute t.sql)).Ends s (fun _ => P) fun _ => E) :
    (createTableFrom t).Ends s (fun _ => P) fun _ => E := by
  unfold createTableFrom
  cases hvalid : t.validate with
  | error e => exact hrefused
  | ok =>
    refine ends_bind (ends_of_ok rfl ?_)
    by_cases hempty : t.fields.isEmpty = true
    · rw [if_pos hempty]
      exact hrefused
    · rw [if_neg hempty]
      refine hchange.bind fun _ u hu => ?_
      exact (onlyReads_note _ u).mono (fun _ w => hP u w hu) fun _ _ => False.elim

omit [Engine σ] in
/-- An operation on a table goes on if the catalog lists the table. -/
theorem ends_checkTable {name : String} {P : Unit → Session σ → Prop} {E : SchemaError → Session σ → Prop}
    (hok : P () s) (herror : ∀ e, E e s) : (checkTable name).Ends s P E := by
  refine ends_catalog ?_
  by_cases hnone : (s.catalog.table? name).isNone = true
  · rw [if_pos hnone]
    exact herror _
  · rw [if_neg hnone]
    exact hok

theorem ends_addColumn {table : String} {f : Field} (hP : ∀ u w : Session σ, P u → u.Alike w → P w) (hrefused : E s)
    (hchange : (change "oxide_add_column" (execute (addColumnSql table f))).Ends s (fun _ => P) fun _ => E) :
    (addColumn table f).Ends s (fun _ => P) fun _ => E := by
  refine ends_bind (ends_checkTable ?_ fun _ => hrefused)
  by_cases hname : f.name = ""
  · rw [if_pos hname]
    exact hrefused
  rw [if_neg hname]
  by_cases hkey : (f.primaryKey || f.unique) = true
  · rw [if_pos hkey]
    exact hrefused
  rw [if_neg hkey]
  refine hchange.bind fun _ u hu => ?_
  exact (onlyReads_note _ u).mono (fun _ w => hP u w hu) fun _ _ => False.elim

theorem ends_renameTable {source target : String} (hP : ∀ u w : Session σ, P u → u.Alike w → P w) (hrefused : E s)
    (hchange : (change "oxide_rename_table" (executeRename source target)).Ends s (fun _ => P) fun _ => E) :
    (renameTable source target).Ends s (fun _ => P) fun _ => E := by
  refine ends_bind (ends_checkTable ?_ fun _ => hrefused)
  refine hchange.bind fun _ u hu => ?_
  exact (onlyReads_note _ u).mono (fun _ w => hP u w hu) fun _ _ => False.elim

omit [Engine σ] in
/-- Decoding counts its looks at the signal, and has no other effect. -/
theorem ends_decode (lines : List Csv.Line) (o : Csv.Options) (signal : Signal) (s : Session σ) :
    (decode lines o signal).Ends s (fun _ t => s.Alike t) fun _ t => s.Alike t := by
  have hend : (∃ d n, decode lines o signal s = .ok d { s with progress := { s.progress with polls := s.progress.polls + n } }) ∨
      ∃ e, decode lines o signal s = .error e s := by
    unfold decode
    simp only
    split
    · next d _ => exact .inl ⟨d, _, rfl⟩
    · exact .inr ⟨_, rfl⟩
    · exact .inr ⟨_, rfl⟩
  rcases hend with ⟨d, n, hok⟩ | ⟨e, herror⟩
  · exact ends_of_ok hok ⟨rfl, rfl, rfl, rfl⟩
  · exact ends_of_error herror (.refl s)

omit [Engine σ] in
/-- The table that an import makes, if it makes one, has the names of the header and nothing else. -/
theorem ends_tableForImport (table : String) (header : List String) (width : Nat) (s : Session σ) :
    (tableForImport table header width).Ends s
      (fun created t => t = s ∧ ∀ t, created = some t → t = importedTable table header width) fun _ t => t = s := by
  refine ends_catalog ?_
  cases s.catalog.table? table with
  | some object =>
    by_cases hwidth : object.fields.length ≠ width
    · show (if object.fields.length ≠ width then _ else _ : Op σ _).Ends s _ _
      rw [if_pos hwidth]
      exact ends_throw rfl
    · show (if object.fields.length ≠ width then _ else _ : Op σ _).Ends s _ _
      rw [if_neg hwidth]
      exact ends_pure ⟨rfl, by simp⟩
  | none =>
    refine ends_bind (ends_ofExcept (fun _ _ => ?_) fun _ _ => rfl)
    exact ends_pure ⟨rfl, fun t ht => (Option.some.inj ht).symm⟩

/-- What an import does under its savepoint: it inserts rows, or makes a table and inserts them. -/
theorem ends_importCsv_of {table : String} {lines : List Csv.Line} {o : Csv.Options} {signal : Signal}
    (hP : ∀ u w : Session σ, P u → u.Alike w → P w) (hidle : ∀ t, s.Alike t → P t) (hrefused : ∀ t, s.Alike t → E t)
    (hinsert : ∀ width rows t, s.Alike t →
      (change "oxide_csv_import" (insertRows table width signal rows)).Ends t (fun _ => P) fun _ => E)
    (hcreate : ∀ header width rows t, s.Alike t → (change "oxide_csv_import" do
      let _ ← execute (importedTable table header width).sql
      insertRows table width signal rows).Ends t (fun _ => P) fun _ => E) :
    (importCsv table lines o signal).Ends s (fun _ => P) fun _ => E := by
  refine ends_bind ((ends_decode lines o signal s).mono (fun decoded s₁ h₁ => ?_) fun _ => hrefused)
  by_cases hempty : decoded.isEmpty = true
  · rw [if_pos hempty]
    exact hidle s₁ h₁
  rw [if_neg hempty]
  generalize splitHeader o.header decoded.rows = split
  obtain ⟨header, rows⟩ := split
  refine ends_bind ((ends_tableForImport table header decoded.columns s₁).mono ?_ ?_)
  · rintro created s₂ ⟨rfl, hcreated⟩
    have hreport (body : Op σ Unit) (hbody : (change "oxide_csv_import" body).Ends s₂ (fun _ => P) fun _ => E) :
        (change "oxide_csv_import" body >>= fun _ => note (.importedCsv table rows.length) >>= fun _ => pure rows.length).Ends s₂
          (fun _ => P) fun _ => E := by
      refine hbody.bind fun _ u hu => ?_
      have hend : (note (.importedCsv table rows.length) >>= fun _ => pure rows.length : Op σ Nat).OnlyReads :=
        (onlyReads_note _).bind fun _ => onlyReads_pure _
      exact (hend u).mono (fun _ w => hP u w hu) fun _ _ => False.elim
    cases created with
    | none => exact hreport _ (hinsert decoded.columns rows s₂ h₁)
    | some t =>
      refine hreport _ ?_
      rw [hcreated t rfl]
      exact hcreate header decoded.columns rows s₂ h₁
  · rintro e t rfl
    exact hrefused t h₁

end

/-- A column is changed as the rebuilding of its table goes, with foreign keys suspended before it and back after it. -/
theorem ends_transformColumn_of {c : ColumnChange} {signal : Signal} {s : Session σ} {P : RebuildReport → Session σ → Prop}
    {E : SchemaError → Session σ → Prop} (hP : ∀ (r : RebuildReport) (u w : Session σ), P r u → u.Alike w → P r w)
    (hrefused : ∀ e t, s.Alike t → E e t)
    (hrebuild : ∀ plan, RebuildPlan.make s.catalog c = .ok plan → ∀ t, s.Alike t →
      (suspendForeignKeys).Ends t
        (fun _ u => (change "oxide_transform" (rebuild plan (s.catalog.dependentsOf plan.table) signal)).Ends u
          (fun lost w => (resumeForeignKeys).Ends w (fun _ => P { lost, discarded := plan.discarded }) E)
          fun e w => (resumeForeignKeys).Ends w (fun _ => E e) E) E) :
    (transformColumn c signal).Ends s P E := by
  refine ends_catalog ?_
  cases hplan : RebuildPlan.make s.catalog c with
  | error e => exact hrefused e s (.refl s)
  | ok plan =>
  refine ends_bind (ends_of_ok rfl (ends_catalog (ends_bind ?_)))
  refine (ends_checkSignal signal s).mono (fun _ t ht => ?_) fun e t => hrefused e t
  refine ends_bind ((hrebuild plan hplan t ht).mono (fun _ u hu => ?_) fun _ _ => id)
  refine ends_bind (Ends.observe (hu.mono (fun lost w hw => ?_) fun e w hw => ?_))
  · refine hw.bind fun _ x hx => ends_bind (ends_of_ok rfl ?_)
    have hwarn := onlyReads_forM (σ := σ) (fun clause => onlyReads_warn (.clauseDropped plan.table clause)) plan.discarded x
    refine ends_bind (hwarn.mono (fun _ y hy => ?_) fun _ _ => False.elim)
    exact hP _ x _ hx (hy.trans ⟨rfl, rfl, rfl, rfl⟩)
  · exact hw.bind fun _ x hx => hx

/-- A change of a column ends as its rebuilding does. -/
theorem ends_transformColumn (laws : Transactional v) {c : ColumnChange} (signal : Signal) {s : Session σ}
    (hs : s.Agrees v) {Q : RebuildPlan → δ → Prop}
    (hrebuild : ∀ plan, RebuildPlan.make s.catalog c = .ok plan → ∀ t : Session σ, v.data t.engine = v.data s.engine →
      (rebuild plan (s.catalog.dependentsOf plan.table) signal).Ends t
        (fun _ u => t.Steady v u ∧ Q plan (v.data u.engine)) fun _ u => t.Steady v u) :
    (transformColumn c signal).Ends s
      (fun _ t => s.Made v t ∧ ∃ plan, RebuildPlan.make s.catalog c = .ok plan ∧ Q plan (v.data t.engine))
      fun _ t => s.Unmade v t := by
  refine ends_transformColumn_of ?_ (fun _ t ht => ht.still.unmade hs) fun plan hplan t ht => ?_
  · rintro - u w ⟨hmade, plan, hplan, hq⟩ hw
    exact ⟨hmade.still (.refl s) hw.still, plan, hplan, by rwa [hw.engine]⟩
  refine (ends_suspendForeignKeys laws t).mono (fun _ u hu => ?_) fun _ u hu => (ht.still.trans hu).unmade hs
  have hstill : s.Still v u := ht.still.trans hu
  have hchange := ends_change laws (show "oxide_transform" ≠ restorePoint by decide) (hstill.open hs.open).agrees (Q := fun _ => Q plan)
    fun w hw _ => hrebuild plan hplan w (hw.trans hstill.engine.data)
  refine hchange.mono (fun lost w hw => ?_) fun e w hw => ?_
  · refine (ends_resumeForeignKeys laws w).mono (fun _ x hx => ⟨hw.1.still hstill hx, plan, hplan, ?_⟩) fun _ _ => id
    rw [hx.engine.data]
    exact hw.2
  · exact (ends_resumeForeignKeys laws w).mono (fun _ x hx => hw.still hstill hx) fun _ _ hx => hw.still hstill hx

end Op

end SchemaEditor
