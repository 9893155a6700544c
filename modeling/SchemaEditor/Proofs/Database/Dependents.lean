import SchemaEditor.Proofs.Database.Values
import SchemaEditor.Proofs.Engine.Tables
import SchemaEditor.Proofs.Engine.Traced

/-!
# What becomes of indices and triggers

A rebuild drops the table, and all that belongs to it goes along. The dependents that the catalog finds are made again from
their SQL, each once and in the order of the catalog, and one that cannot be made again is told. An index or trigger with the
name of its table is not among them: it is lost, and not told.
-/

namespace SchemaEditor

variable {σ δ : Type}

/-! ## Dependents of the catalog -/

/-- The indices and triggers of a table that have SQL to make them again, whatever their names. -/
def Catalog.ownedBy (c : Catalog) (table : String) : List SchemaObject :=
  c.objects.filter fun o => (o.kind == .index || o.kind == .trigger) && sameName o.tableName table && o.sql != ""

/-- Tables and views belong to themselves. -/
def Catalog.OwnThemselves (c : Catalog) : Prop :=
  ∀ o ∈ c.objects, o.kind = .table ∨ o.kind = .view → o.tableName = o.name

namespace Catalog

variable {c : Catalog}

theorem dependentsOf_eq (h : c.OwnThemselves) (table : String) :
    c.dependentsOf table = (c.ownedBy table).filter fun o => !sameName o.name table := by
  unfold dependentsOf ownedBy
  rw [List.filter_filter]
  refine List.filter_congr fun o ho => ?_
  have hne : (ObjectKind.index != ObjectKind.table) = true ∧ (ObjectKind.trigger != ObjectKind.table) = true := ⟨rfl, rfl⟩
  cases hkind : o.kind with
  | table => simp
  | view =>
    have hname := h o ho (.inr hkind)
    cases hsame : sameName o.name table <;> simp [hname, hsame]
  | index => simp [hne.1, Bool.and_comm, Bool.and_left_comm]
  | trigger => simp [hne.2, Bool.and_comm, Bool.and_left_comm]

/-- All that belongs to a table is found exactly if none of it has the table's name. -/
theorem dependentsOf_eq_ownedBy_iff (h : c.OwnThemselves) (table : String) :
    c.dependentsOf table = c.ownedBy table ↔ ∀ o ∈ c.ownedBy table, sameName o.name table = false := by
  rw [dependentsOf_eq h, List.filter_eq_self]
  simp

end Catalog

/-! ## What the engine makes again -/

namespace SchemaObject

/-- The row of an index or trigger in the engine's list, if the catalog has its SQL as it is stored there. -/
def row (o : SchemaObject) : SchemaRow := { kind := o.kind.tag, name := o.name, sql := some o.sql, tableName := o.tableName }

/-- The engine has an object of this kind and name on its table. -/
def IsIn (o : SchemaObject) (rows : List SchemaRow) : Prop :=
  ∃ row ∈ rows, row.kind = o.kind.tag ∧ row.name = o.name ∧ sameName row.tableName o.tableName = true

instance (o : SchemaObject) (rows : List SchemaRow) : Decidable (o.IsIn rows) := inferInstanceAs (Decidable (∃ row ∈ rows, _))

/-- The same object on another table. -/
def movedTo (o : SchemaObject) (table : String) : SchemaObject := { o with tableName := table }

end SchemaObject

/-- The engine takes the statements of a plan as they are meant, as far as they concern what belongs to the table: dropping the
table drops it, and its own SQL makes it again, under its name, and nothing else. The temporary table starts with nothing and
gets nothing until it is renamed. The catalog may have SQL with carriage returns left out, and what that makes is not known. -/
structure RebuildPlan.Remakes [Engine σ] (v : EngineView σ δ) (schemaOf : δ → List SchemaRow) (p : RebuildPlan)
    (owned : List SchemaObject) (start : δ) : Prop where
  fresh : ∀ o ∈ owned, ¬(o.movedTo p.temporary).IsIn (schemaOf start)
  steps {step : RebuildStep × String} (hstep : step ∈ p.steps) (e : σ) : ∀ o ∈ owned,
    (o.movedTo p.temporary).IsIn (schemaOf (v.data (Engine.execute step.2 e).2)) → (o.movedTo p.temporary).IsIn (schemaOf (v.data e))
  drop {e e' : σ} {n : Nat} (h : Engine.execute ("DROP TABLE " ++ quoteIdentifier p.table) e = (.ok n, e')) :
    ∀ o ∈ owned, ¬o.IsIn (schemaOf (v.data e'))
  rename {e e' : σ} {n : Nat} (h : Engine.execute (renameTableSql p.temporary p.table) e = (.ok n, e')) : ∀ o ∈ owned,
    o.IsIn (schemaOf (v.data e')) → o.IsIn (schemaOf (v.data e)) ∨ (o.movedTo p.temporary).IsIn (schemaOf (v.data e))
  make {o : SchemaObject} {e e' : σ} {n : Nat} (ho : o ∈ owned) (hstored : o.row ∈ schemaOf start)
    (h : Engine.execute o.sql e = (.ok n, e')) : o.IsIn (schemaOf (v.data e'))
  keep {o : SchemaObject} (ho : o ∈ owned) (e : σ) : ∀ q ∈ owned,
    q.IsIn (schemaOf (v.data e)) → q.IsIn (schemaOf (v.data (Engine.execute o.sql e).2))
  add {o : SchemaObject} (ho : o ∈ owned) (hstored : o.row ∈ schemaOf start) (e : σ) : ∀ q ∈ owned,
    q.IsIn (schemaOf (v.data (Engine.execute o.sql e).2)) → q.IsIn (schemaOf (v.data e)) ∨ sameName q.name o.name = true

theorem RebuildPlan.Remakes.traced [Engine σ] {v : EngineView σ δ} {schemaOf : δ → List SchemaRow} {p : RebuildPlan}
    {owned : List SchemaObject} {start : δ} (h : p.Remakes v schemaOf owned start) : p.Remakes v.traced schemaOf owned start where
  fresh := h.fresh
  steps hstep e := h.steps hstep e.engine
  drop hdrop := h.drop (Traced.engine_of_execute hdrop)
  rename hrename := h.rename (Traced.engine_of_execute hrename)
  make ho hstored hmake := h.make ho hstored (Traced.engine_of_execute hmake)
  keep ho e := h.keep ho e.engine
  add ho hstored e := h.add ho hstored e.engine

/-- What has been made again of the `objects`, and what has been told as lost. -/
structure Restored (stored : List SchemaRow) (owned objects : List SchemaObject) (lost : List LostDependent)
    (rows rows' : List SchemaRow) : Prop where
  told : (lost.map LostDependent.object).Sublist objects
  keep : ∀ q ∈ owned, q.IsIn rows → q.IsIn rows'
  made : ∀ o ∈ objects, o.row ∈ stored → o.IsIn rows' ∨ o ∈ lost.map LostDependent.object
  only : (∀ o ∈ objects, o.row ∈ stored) → ∀ q ∈ owned, q.IsIn rows' → q.IsIn rows ∨ ∃ o ∈ objects, sameName q.name o.name = true

section
variable {stored rows rows₁ rows' : List SchemaRow} {owned objects : List SchemaObject} {lost : List LostDependent} {o : SchemaObject}

theorem Restored.nil : Restored stored owned [] [] rows rows := ⟨List.nil_sublist _, fun _ _ => id, by simp, fun _ _ _ => .inl⟩

/-- One more object is made first, if its SQL is executed. -/
theorem Restored.cons (h : Restored stored owned objects lost rows₁ rows') (hkeep : ∀ q ∈ owned, q.IsIn rows → q.IsIn rows₁)
    (hadd : o.row ∈ stored → ∀ q ∈ owned, q.IsIn rows₁ → q.IsIn rows ∨ sameName q.name o.name = true) (told : List LostDependent)
    (htold : told.map LostDependent.object = [] ∨ told.map LostDependent.object = [o]) (ho : o ∈ owned)
    (hmade : o.row ∈ stored → o.IsIn rows₁ ∨ o ∈ told.map LostDependent.object) :
    Restored stored owned (o :: objects) (told ++ lost) rows rows' where
  told := by
    rw [List.map_append]
    rcases htold with hnone | hsome
    · rw [hnone]
      exact h.told.cons o
    · rw [hsome]
      exact h.told.cons_cons o
  keep q hq hrows := h.keep q hq (hkeep q hq hrows)
  made q hq hstored := by
    rw [List.map_append, List.mem_append]
    rcases List.mem_cons.mp hq with rfl | hq
    · rcases hmade hstored with hmade | htold
      · exact .inl (h.keep q ho hmade)
      · exact .inr (.inl htold)
    · exact (h.made q hq hstored).imp_right .inr
  only hstored q hq hrows' := by
    have hrest := h.only (fun r hr => hstored r (List.mem_cons_of_mem o hr)) q hq hrows'
    rcases hrest with hrows₁ | ⟨r, hr, hsame⟩
    · exact (hadd (hstored o List.mem_cons_self) q hq hrows₁).imp_right fun hsame => ⟨o, List.mem_cons_self, hsame⟩
    · exact .inr ⟨r, List.mem_cons_of_mem o hr, hsame⟩

end

namespace Op

variable [Engine σ] {v : EngineView σ δ} {schemaOf : δ → List SchemaRow} {p : RebuildPlan} {owned objects : List SchemaObject} {start : δ}

theorem ends_restoreDependents_restored (hremakes : p.Remakes v schemaOf owned start) (hsubset : objects ⊆ owned) (table : String)
    (s : Session σ) {E : SchemaError → Session σ → Prop} :
    (restoreDependents table objects).Ends s
      (fun lost t => Restored (schemaOf start) owned objects lost (schemaOf (v.data s.engine)) (schemaOf (v.data t.engine))) E := by
  induction objects generalizing s with
  | nil => exact Restored.nil
  | cons o objects ih =>
    have ho : o ∈ owned := hsubset List.mem_cons_self
    have hrest (t : Session σ) := ih (fun q hq => hsubset (List.mem_cons_of_mem o hq)) t
    refine ends_bind (ends_of_ok (tryExecute_eq o.sql s) ?_)
    have hkeep := hremakes.keep ho s.engine
    have hadd (hstored : o.row ∈ schemaOf start) := hremakes.add ho hstored s.engine
    cases hr : Engine.execute o.sql s.engine with
    | mk r e =>
      rw [hr] at hkeep hadd
      cases r with
      | ok n =>
        refine (hrest _).mono (fun lost t ht => ?_) fun _ _ => id
        exact ht.cons hkeep hadd [] (.inl rfl) ho fun hstored => .inl (hremakes.make ho hstored hr)
      | error error =>
        refine ends_bind (ends_of_ok rfl (ends_bind ((hrest _).mono (fun lost t ht => ?_) fun _ _ => id)))
        exact ht.cons hkeep hadd [{ object := o, error }] (.inr rfl) ho fun _ => .inr (by simp)

end Op

/-- Nothing comes to the temporary table. -/
def Session.LeavesTemporary (v : EngineView σ δ) (schemaOf : δ → List SchemaRow) (p : RebuildPlan) (owned : List SchemaObject)
    (s t : Session σ) : Prop :=
  ∀ o ∈ owned, (o.movedTo p.temporary).IsIn (schemaOf (v.data t.engine)) → (o.movedTo p.temporary).IsIn (schemaOf (v.data s.engine))

instance (v : EngineView σ δ) (schemaOf : δ → List SchemaRow) (p : RebuildPlan) (owned : List SchemaObject) :
    Session.IsFrame (Session.LeavesTemporary v schemaOf p owned) where
  alike h := fun o _ ht => by rwa [h.engine] at ht
  trans h h' := fun o ho hu => h o ho (h' o ho hu)

namespace Op

variable [Engine σ] {v : EngineView σ δ} {schemaOf : δ → List SchemaRow} {p : RebuildPlan} {owned objects : List SchemaObject} {start : δ}

/-- Once the table is dropped and the new one has its name, nothing is there that belongs to the table. -/
theorem ends_rebuild_restored (laws : Transactional v) (hremakes : p.Remakes v schemaOf owned start) (hsubset : objects ⊆ owned)
    (signal : Signal) {s : Session σ} (hs : v.data s.engine = start) :
    (rebuild p objects signal).Ends s
      (fun lost t => ∃ rows, (∀ o ∈ owned, ¬o.IsIn rows) ∧
        Restored (schemaOf start) owned objects lost rows (schemaOf (v.data t.engine))) fun _ _ => True := by
  have hdrop : (runSteps signal p.steps).Ends s (fun _ t => ∀ o ∈ owned, ¬o.IsIn (schemaOf (v.data t.engine))) fun _ _ => True :=
    ends_runSteps_cons fun _ _ _ => ends_runSteps_cons fun _ _ _ => ends_runSteps_cons fun _ _ hdrop => hremakes.drop hdrop
  have hleaves := preserves_runSteps (R := Session.LeavesTemporary v schemaOf p owned)
    (fun step hstep (t : Session σ) => hremakes.steps hstep t.engine) signal s
  refine ends_rebuild_of ((hdrop.and hleaves).mono (fun _ _ ht => ht) fun _ _ _ => trivial) fun s₁ s₂ h₁ h₂ => ?_
  refine (ends_renameRebuilt laws p.temporary p.table s₂).bind ?_
  rintro - s₃ ⟨n, u, u', hu, -, hrename, hdata⟩
  have hnone : ∀ o ∈ owned, ¬o.IsIn (schemaOf (v.data s₃.engine)) := by
    intro o ho hin
    rw [hdata] at hin
    have hbefore := hremakes.rename hrename o ho hin
    rw [hu, h₂.engine] at hbefore
    rcases hbefore with hin | hin
    · exact h₁.1 o ho hin
    · have hin := h₁.2 o ho hin
      rw [hs] at hin
      exact hremakes.fresh o ho hin
  exact (ends_restoreDependents_restored hremakes hsubset p.table s₃).mono (fun _ _ h₄ => ⟨_, hnone, h₄⟩) fun _ _ => id

end Op

/-! ## What is executed -/

/-- The statements that a rebuild makes of names, settings and the new definition. -/
inductive RebuildPlan.IsOwn (p : RebuildPlan) : String → Prop where
  | create : IsOwn p p.rebuilt.sql
  | copy : IsOwn p p.copySql
  | drop : IsOwn p ("DROP TABLE " ++ quoteIdentifier p.table)
  | rename : IsOwn p (renameTableSql p.temporary p.table)
  | savepoint (name : String) : IsOwn p (savepointSql name)
  | release (name : String) : IsOwn p (releaseSql name)
  | rollback (name : String) : IsOwn p (rollbackSql name)
  | legacyAlter (b : Bool) : IsOwn p ("PRAGMA legacy_alter_table = " ++ flag b)
  | foreignKeys (b : Bool) : IsOwn p ("PRAGMA foreign_keys = " ++ flag b)

namespace Session

/-- From `s` to `t` only statements of the rebuild itself were executed. -/
def Extends (p : RebuildPlan) (s t : Session (Traced σ)) : Prop :=
  ∃ texts, t.engine.executed = s.engine.executed ++ texts ∧ ∀ text ∈ texts, p.IsOwn text

variable {p : RebuildPlan}

instance : IsFrame (Extends p : Session (Traced σ) → Session (Traced σ) → Prop) where
  alike h := ⟨[], by simp [h.engine], by simp⟩
  trans := by
    rintro s t u ⟨texts, ht, hown⟩ ⟨texts', hu, hown'⟩
    exact ⟨texts ++ texts', by rw [hu, ht, List.append_assoc], by simpa [or_imp, forall_and] using ⟨hown, hown'⟩⟩

variable [Engine σ]

theorem allows_own {sql : String} (h : p.IsOwn sql) : Allows (Extends (σ := σ) p) sql := fun _ => ⟨[sql], rfl, by simpa using h⟩

instance : IsEngineFrame (Extends (σ := σ) p) where
  ledger _ _ := ⟨[], by simp, by simp⟩
  catalog _ _ := ⟨[], by simp, by simp⟩
  savepoint name := allows_own (.savepoint name)
  release name := allows_own (.release name)
  rollback name := allows_own (.rollback name)
  readLegacyAlter _ := ⟨[], by simp [Engine.pragma, Traced.after], by simp⟩
  setLegacyAlter b := allows_own (.legacyAlter b)

end Session

namespace Op

variable [Engine σ] {p : RebuildPlan} {objects : List SchemaObject}

/-- The SQL of each object is executed once, in order. -/
theorem ends_restoreDependents_executed (table : String) (objects : List SchemaObject) (s : Session (Traced σ))
    {E : SchemaError → Session (Traced σ) → Prop} :
    (restoreDependents table objects).Ends s
      (fun _ t => t.engine.executed = s.engine.executed ++ objects.map SchemaObject.sql) E := by
  induction objects generalizing s with
  | nil => exact (List.append_nil _).symm
  | cons o objects ih =>
    have hrest {t u : Session (Traced σ)} (ht : t.engine.executed = s.engine.executed ++ [o.sql])
        (hu : u.engine.executed = t.engine.executed ++ objects.map SchemaObject.sql) :
        u.engine.executed = s.engine.executed ++ (o :: objects).map SchemaObject.sql := by
      rw [hu, ht, List.append_assoc]
      rfl
    refine ends_bind (ends_of_ok (tryExecute_eq o.sql s) ?_)
    cases (Engine.execute o.sql s.engine).1 with
    | ok n => exact (ih _).mono (fun _ _ => hrest rfl) fun _ _ => id
    | error e => exact ends_bind (ends_of_ok rfl (ends_bind ((ih _).mono (fun _ _ => hrest rfl) fun _ _ => id)))

theorem ends_rebuild_executed (signal : Signal) (s : Session (Traced σ)) :
    (rebuild p objects signal).Ends s
      (fun _ t => ∃ u, s.Extends p u ∧ t.engine.executed = u.engine.executed ++ objects.map SchemaObject.sql) fun _ _ => True := by
  have hsteps : ∀ step ∈ p.steps, Session.Allows (Session.Extends (σ := σ) p) step.2 := by
    intro step hstep
    simp only [RebuildPlan.steps, List.mem_cons, List.not_mem_nil, or_false] at hstep
    rcases hstep with rfl | rfl | rfl
    · exact Session.allows_own .create
    · exact Session.allows_own .copy
    · exact Session.allows_own .drop
  refine ends_rebuild_of ((preserves_runSteps hsteps signal s).mono (fun _ _ ht => ht) fun _ _ _ => trivial) fun s₁ s₂ h₁ h₂ => ?_
  have hrename := preserves_renameRebuilt (σ := Traced σ) (Session.allows_own (RebuildPlan.IsOwn.rename (p := p))) s₂
  refine (hrename.mono (fun _ _ ht => ht) fun _ _ _ => trivial).bind fun _ s₃ h₃ => ?_
  have hextends : s.Extends p s₃ := Session.IsFrame.trans h₁ (Session.IsFrame.trans (Session.IsFrame.alike h₂) h₃)
  exact (ends_restoreDependents_executed p.table objects s₃).mono (fun _ _ h₄ => ⟨s₃, hextends, h₄⟩) fun _ _ => id

end Op

/-! ## Changes of columns -/

/-- What becomes of the indices and triggers of a table that is rebuilt. `rows` and `rows'` are the objects of the engine before and
after it, `texts` what was executed meanwhile. -/
structure RebuildPlan.Accounts (p : RebuildPlan) (catalog : Catalog) (texts : List String) (rows rows' : List SchemaRow)
    (report : RebuildReport) : Prop where
  /-- The SQL of each is executed once, between statements of the rebuild itself. -/
  executed : ∃ before after, texts = before ++ (catalog.dependentsOf p.table).map SchemaObject.sql ++ after ∧
    (∀ text ∈ before, p.IsOwn text) ∧ ∀ text ∈ after, p.IsOwn text
  told : (report.lost.map LostDependent.object).Sublist (catalog.dependentsOf p.table)
  remade : ∀ o ∈ catalog.dependentsOf p.table, o.row ∈ rows → o.IsIn rows' ∨ o ∈ report.lost.map LostDependent.object
  /-- What has the name of the table is gone, and not told. -/
  missing : (∀ o ∈ catalog.dependentsOf p.table, o.row ∈ rows) → ∀ o ∈ catalog.ownedBy p.table,
    sameName o.name p.table = true → ¬o.IsIn rows' ∧ o ∉ report.lost.map LostDependent.object

namespace RebuildPlan

variable {p : RebuildPlan} {catalog : Catalog} {texts : List String} {rows rows' : List SchemaRow} {report : RebuildReport}

theorem mem_dependentsOf (h : catalog.OwnThemselves) {table : String} {o : SchemaObject} :
    o ∈ catalog.dependentsOf table ↔ o ∈ catalog.ownedBy table ∧ sameName o.name table = false := by
  rw [Catalog.dependentsOf_eq h, List.mem_filter]
  simp

/-- A clean report means that all is there, exactly if nothing had the name of the table. -/
theorem Accounts.clean_iff (h : p.Accounts catalog texts rows rows' report) (hown : catalog.OwnThemselves)
    (hclean : report.isClean = true) (hstored : ∀ o ∈ catalog.ownedBy p.table, o.row ∈ rows) :
    (∀ o ∈ catalog.ownedBy p.table, o.IsIn rows') ↔ ∀ o ∈ catalog.ownedBy p.table, sameName o.name p.table = false := by
  have hlost : report.lost = [] := by
    unfold RebuildReport.isClean at hclean
    simpa using (Bool.and_eq_true_iff.mp hclean).1
  constructor
  · intro hall o ho
    by_contra hsame
    have hstored' (q : SchemaObject) (hq : q ∈ catalog.dependentsOf p.table) := hstored q ((mem_dependentsOf hown).mp hq).1
    exact (h.missing hstored' o ho (by simpa using hsame)).1 (hall o ho)
  · intro hnames o ho
    rcases h.remade o ((mem_dependentsOf hown).mpr ⟨ho, hnames o ho⟩) (hstored o ho) with hin | htold
    · exact hin
    · simp [hlost] at htold

/-- All that was made again has another name than the table. -/
theorem missing_of_restored (hown : catalog.OwnThemselves) {lost : List LostDependent} {dropped : List SchemaRow}
    (hnone : ∀ o ∈ catalog.ownedBy p.table, ¬o.IsIn dropped)
    (h : Restored rows (catalog.ownedBy p.table) (catalog.dependentsOf p.table) lost dropped rows')
    (hstored : ∀ o ∈ catalog.dependentsOf p.table, o.row ∈ rows) {o : SchemaObject} (ho : o ∈ catalog.ownedBy p.table)
    (hsame : sameName o.name p.table = true) : ¬o.IsIn rows' ∧ o ∉ lost.map LostDependent.object := by
  have hother {q : SchemaObject} (hq : q ∈ catalog.dependentsOf p.table) : sameName o.name q.name = false := by
    have hq := ((mem_dependentsOf hown).mp hq).2
    by_contra hname
    have hname : foldCase o.name = foldCase q.name := sameName_iff.mp (by simpa using hname)
    rw [sameName_iff.mpr (hname.symm.trans (sameName_iff.mp hsame))] at hq
    cases hq
  constructor
  · intro hin
    rcases h.only hstored o ho hin with hin | ⟨q, hq, hname⟩
    · exact hnone o ho hin
    · rw [hother hq] at hname
      cases hname
  · intro htold
    have hself := hother (h.told.subset htold)
    rw [sameName_refl] at hself
    cases hself

end RebuildPlan

namespace Op

variable [Engine σ] {v : EngineView σ δ} {schemaOf : δ → List SchemaRow} {c : ColumnChange}

/-- The setting for foreign keys is read and set by statements of the rebuild itself. -/
theorem preserves_suspendForeignKeys_own (p : RebuildPlan) : (suspendForeignKeys : Op (Traced σ) Unit).Preserves (Session.Extends p) :=
  preserves_suspendForeignKeys (fun _ => ⟨[], by simp [Engine.pragma, Traced.after], by simp⟩) (Session.allows_own (.foreignKeys false))
    fun _ _ => ⟨[], by simp, by simp⟩

theorem preserves_resumeForeignKeys_own (p : RebuildPlan) : (resumeForeignKeys : Op (Traced σ) Unit).Preserves (Session.Extends p) :=
  preserves_resumeForeignKeys (Session.allows_own (.foreignKeys true)) fun _ _ => ⟨[], by simp, by simp⟩

/-- Indices and triggers of a rebuilt table are made again or told, but for those that have the name of the table. -/
theorem ends_transformColumn_accounts (laws : Transactional v) {s : Session (Traced σ)} (hs : s.Agrees v.traced)
    (hown : s.catalog.OwnThemselves) (hq : QuietChange v s.catalog c)
    (hremakes : ∀ plan, RebuildPlan.make s.catalog c = .ok plan →
      plan.Remakes v schemaOf (s.catalog.ownedBy plan.table) (v.data s.engine.engine)) (signal : Signal) :
    (transformColumn c signal).Ends s
      (fun report t => ∃ plan texts, RebuildPlan.make s.catalog c = .ok plan ∧ t.engine.executed = s.engine.executed ++ texts ∧
        plan.Accounts s.catalog texts (schemaOf (v.data s.engine.engine)) (schemaOf (v.data t.engine.engine)) report)
      fun _ _ => True := by
  refine ends_transformColumn_of ?_ (fun _ _ _ => trivial) fun plan hplan t ht => ?_
  · intro report u w hu hw
    rwa [hw.engine]
  have hquiet := hq plan hplan
  have htraced : plan.IsQuiet v.traced (s.catalog.dependentsOf plan.table) :=
    ⟨hquiet.rebuilt.traced, fun o ho => (hquiet.dependents o ho).traced⟩
  have hsubset : s.catalog.dependentsOf plan.table ⊆ s.catalog.ownedBy plan.table := fun o ho =>
    ((RebuildPlan.mem_dependentsOf hown).mp ho).1
  have laws' := Traced.transactional laws
  refine ((ends_suspendForeignKeys laws' t).and (preserves_suspendForeignKeys_own plan t)).mono (fun _ u hu => ?_) fun _ _ _ => trivial
  obtain ⟨hstill, htu⟩ := hu
  have hagrees : u.Agrees v.traced := ((ht.still.trans hstill).open hs.open).agrees
  have hdata : v.data u.engine.engine = v.data s.engine.engine := (ht.still.trans hstill).engine.data
  -- the body: the table is rebuilt, and its dependents are made again at the end
  have hchange := ends_change_framed laws' (R := Session.Extends plan) (show "oxide_transform" ≠ restorePoint by decide) hagrees
    (F := fun _ _ => True) fun w hw _ _ =>
      ((isSteady_rebuild laws' htraced signal w).and
        ((ends_rebuild_restored laws' (hremakes plan hplan).traced hsubset signal (hw.trans hdata)).and
          (ends_rebuild_executed signal w))).mono (fun _ _ h => h) fun _ _ h => ⟨h.1, trivial⟩
  have hresume (w : Session (Traced σ)) :=
    (ends_resumeForeignKeys laws' w (E := fun _ _ => True)).and (preserves_resumeForeignKeys_own plan w)
  refine hchange.mono (fun lost w hw => (hresume w).mono (fun _ r hr => ?_) fun _ _ _ => trivial) fun e w _ =>
    (hresume w).mono (fun _ _ _ => trivial) fun _ _ _ => trivial
  obtain ⟨-, x, y, hux, ⟨⟨dropped, hnone, hrestored⟩, z, hxz, hexecuted⟩, hyw, hdata'⟩ := hw
  have hrows : v.traced.data r.engine = v.traced.data y.engine := hr.1.engine.data.trans hdata'
  rw [← hrows] at hrestored
  have hsz : s.Extends plan z := Session.IsFrame.trans (Session.IsFrame.alike ht) (Session.IsFrame.trans htu (Session.IsFrame.trans hux hxz))
  have hyr : y.Extends plan r := Session.IsFrame.trans hyw hr.2
  obtain ⟨before, hbefore, hownBefore⟩ := hsz
  obtain ⟨after, hafter, hownAfter⟩ := hyr
  refine ⟨plan, before ++ (s.catalog.dependentsOf plan.table).map SchemaObject.sql ++ after, hplan, ?_, ?_⟩
  · rw [hafter, hexecuted, hbefore]
    simp
  · exact ⟨⟨before, after, rfl, hownBefore, hownAfter⟩, hrestored.told, hrestored.made, fun hstored o ho hsame =>
      RebuildPlan.missing_of_restored hown hnone hrestored hstored ho hsame⟩

/-- The indices and triggers of a rebuilt table are made again, each once and in the order of the catalog, or told. One that has
the name of the table is neither. So after a clean report all are there exactly if none had that name. -/
theorem accounts_for_dependents (laws : Transactional v) (hschema : ∀ e : σ, Engine.schema e = .ok (schemaOf (v.data e)))
    {s : Session (Traced σ)} (hs : s.Agrees v.traced) (hown : s.catalog.OwnThemselves) (hq : QuietChange v s.catalog c)
    (hremakes : ∀ plan, RebuildPlan.make s.catalog c = .ok plan →
      plan.Remakes v schemaOf (s.catalog.ownedBy plan.table) (v.data s.engine.engine)) (signal : Signal) :
    (∀ table, s.catalog.dependentsOf table = (s.catalog.ownedBy table).filter fun o => !sameName o.name table) ∧
    ∀ report t, transformColumn c signal s = .ok report t → ∃ plan texts rows rows', RebuildPlan.make s.catalog c = .ok plan ∧
      t.engine.executed = s.engine.executed ++ texts ∧ Engine.schema s.engine = .ok rows ∧ Engine.schema t.engine = .ok rows' ∧
      plan.Accounts s.catalog texts rows rows' report ∧
      (report.isClean = true → (∀ o ∈ s.catalog.ownedBy plan.table, o.row ∈ rows) →
        ((∀ o ∈ s.catalog.ownedBy plan.table, o.IsIn rows') ↔
          ∀ o ∈ s.catalog.ownedBy plan.table, sameName o.name plan.table = false)) := by
  refine ⟨fun table => Catalog.dependentsOf_eq hown table, fun report t ht => ?_⟩
  obtain ⟨plan, texts, hplan, htexts, haccounts⟩ := (ends_transformColumn_accounts laws hs hown hq hremakes signal).ok ht
  exact ⟨plan, texts, _, _, hplan, htexts, hschema _, hschema _, haccounts, haccounts.clean_iff hown⟩

end Op

/-! ## Tables take plans as they are meant -/

namespace Tables

variable {sql : String} {statement : Statement} {d d' : Tables} {n : Nat} {o : SchemaObject}

/-- What a statement makes of the indices and triggers. -/
def Statement.onDependents (sql : String) (rows : List SchemaRow) : Statement → List SchemaRow
  | .create _ | .copy .. => rows
  | .drop name => rows.filter fun row => !sameName row.tableName name
  | .rename source target => rows.map (moved source target)
  | .attach kind name table => rows ++ [{ kind := kind.tag, name, sql := some sql, tableName := table }]

theorem dependents_of_perform (h : perform sql d statement = .ok (n, d')) : d'.dependents = statement.onDependents sql d.dependents := by
  cases statement with
  | create t =>
    rw [perform] at h
    split at h
    · cases h
    · cases h
      rfl
  | drop name =>
    rw [perform] at h
    split at h
    · cases h
    · cases h
      rfl
  | rename source target =>
    rw [perform] at h
    split at h
    · cases h
    split at h
    · cases h
    · cases h
      rfl
  | copy target columns source =>
    rw [perform] at h
    split at h
    · cases h
      rfl
    · cases h
    · cases h
  | attach kind name table =>
    rw [perform] at h
    split at h
    · cases h
    split at h
    · cases h
    · cases h
      rfl

/-- A statement that fails changes nothing. -/
theorem dependents_apply (hsql : statement? sql = some statement) (d : Tables) :
    (apply sql d).2.dependents = d.dependents ∨ (apply sql d).2.dependents = statement.onDependents sql d.dependents := by
  unfold apply
  rw [hsql]
  dsimp only
  split
  · next heq => exact .inr (dependents_of_perform heq)
  · exact .inl rfl

/-- An index or trigger is listed if it is among the dependents. -/
theorem isIn_schema_iff (ho : o.kind = .index ∨ o.kind = .trigger) (d : Tables) :
    o.IsIn (Repository.schema d) ↔ o.IsIn d.dependents := by
  have hmem (row : SchemaRow) : row ∈ Repository.schema d ↔ row ∈ d.stored.map schemaRow ∨ row ∈ d.dependents := by
    rw [← List.mem_append]
    exact (List.perm_insertionSort _ _).mem_iff
  constructor
  · rintro ⟨row, hrow, hkind, hrest⟩
    rcases (hmem row).mp hrow with hrow | hrow
    · obtain ⟨t, -, rfl⟩ := List.mem_map.mp hrow
      have hne : ObjectKind.table.tag ≠ ObjectKind.index.tag ∧ ObjectKind.table.tag ≠ ObjectKind.trigger.tag := by decide
      rcases ho with ho | ho
      · rw [ho] at hkind
        exact absurd hkind hne.1
      · rw [ho] at hkind
        exact absurd hkind hne.2
    · exact ⟨row, hrow, hkind, hrest⟩
  · rintro ⟨row, hrow, hrest⟩
    exact ⟨row, (hmem row).mpr (.inr hrow), hrest⟩

theorem isIn_mono {rows rows' : List SchemaRow} (h : rows ⊆ rows') (hin : o.IsIn rows) : o.IsIn rows' := by
  obtain ⟨row, hrow, hrest⟩ := hin
  exact ⟨row, h hrow, hrest⟩

/-- The texts of a plan are read as the statements they are meant to be. -/
structure Reads (p : RebuildPlan) (owned : List SchemaObject) : Prop where
  create : ∃ t, statement? p.rebuilt.sql = some (.create t)
  copy : ∃ target columns source, statement? p.copySql = some (.copy target columns source)
  drop : statement? ("DROP TABLE " ++ quoteIdentifier p.table) = some (.drop p.table)
  rename : statement? (renameTableSql p.temporary p.table) = some (.rename p.temporary p.table)
  objects : ∀ o ∈ owned, sameName o.tableName p.table = true ∧ (o.kind = .index ∨ o.kind = .trigger) ∧ o.sql.toList.head? = some 'C' ∧
    statement? o.sql = some (.attach o.kind o.name o.tableName)

/-- Texts that the shell hands on. -/
def IsHandedOn (sql : String) : Prop := ∃ c, sql.toList.head? = some c ∧ c ≠ 'S' ∧ c ≠ 'R' ∧ c ≠ 'P'

/-- What the shell hands on the tables carry out. -/
theorem perform_of_execute (hhead : IsHandedOn sql) (hsql : statement? sql = some statement) {e e' : Shell Tables}
    (h : Engine.execute sql e = (.ok n, e')) : perform sql e.data statement = .ok (n, e'.data) := by
  obtain ⟨c, hhead, hc⟩ := hhead
  have happly : Engine.execute sql e = Shell.apply sql e := Shell.execute_eq_apply hhead hc e
  rw [happly, Shell.apply, show Repository.apply sql e.data = apply sql e.data from rfl, apply, hsql] at h
  dsimp only at h
  cases hr : perform sql e.data statement with
  | ok result => rw [hr] at h; cases h; rfl
  | error error => rw [hr] at h; cases h

theorem dependents_of_execute (hhead : IsHandedOn sql) (hsql : statement? sql = some statement) {e e' : Shell Tables}
    (h : Engine.execute sql e = (.ok n, e')) : e'.data.dependents = statement.onDependents sql e.data.dependents :=
  dependents_of_perform (perform_of_execute hhead hsql h)

theorem dependents_execute (hhead : IsHandedOn sql) (hsql : statement? sql = some statement) (e : Shell Tables) :
    (Engine.execute sql e).2.data.dependents = e.data.dependents ∨
      (Engine.execute sql e).2.data.dependents = statement.onDependents sql e.data.dependents := by
  obtain ⟨c, hhead, hc⟩ := hhead
  have happly : Engine.execute sql e = Shell.apply sql e := Shell.execute_eq_apply hhead hc e
  rw [happly]
  exact dependents_apply hsql e.data

/-- The statements that come before the renaming attach nothing. -/
theorem Reads.subset {p : RebuildPlan} {owned : List SchemaObject} (h : Reads p owned) {step : RebuildStep × String}
    (hstep : step ∈ p.steps) (e : Shell Tables) : (Engine.execute step.2 e).2.data.dependents ⊆ e.data.dependents := by
  have hsubset {sql : String} {statement : Statement} (hhead : IsHandedOn sql) (hsql : statement? sql = some statement)
      (hless : statement.onDependents sql e.data.dependents ⊆ e.data.dependents) :
      (Engine.execute sql e).2.data.dependents ⊆ e.data.dependents := by
    rcases dependents_execute hhead hsql e with heq | heq
    · rw [heq]
      exact List.Subset.refl _
    · rwa [heq]
  obtain ⟨t, hcreate⟩ := h.create
  obtain ⟨target, columns, source, hcopy⟩ := h.copy
  simp only [RebuildPlan.steps, List.mem_cons, List.not_mem_nil, or_false] at hstep
  rcases hstep with rfl | rfl | rfl
  · exact hsubset ⟨'C', Journal.head?_sql _, by decide⟩ hcreate (List.Subset.refl _)
  · exact hsubset ⟨'I', Journal.head?_copySql p, by decide⟩ hcopy (List.Subset.refl _)
  · exact hsubset ⟨'D', Journal.head?_drop p.table, by decide⟩ h.drop (List.filter_subset_self _)

theorem remakes {p : RebuildPlan} {owned : List SchemaObject} (h : Reads p owned) {start : Tables}
    (hfresh : ∀ o ∈ owned, ¬(o.movedTo p.temporary).IsIn (Repository.schema start)) :
    p.Remakes Shell.view Repository.schema owned start where
  fresh := hfresh
  steps {step} hstep e o ho hin := by
    have hkind : (o.movedTo p.temporary).kind = .index ∨ (o.movedTo p.temporary).kind = .trigger := (h.objects o ho).2.1
    exact (isIn_schema_iff hkind _).mpr (isIn_mono (h.subset hstep e) ((isIn_schema_iff hkind _).mp hin))
  drop {e e' n} hdrop o ho hin := by
    obtain ⟨hsame, hkind, -⟩ := h.objects o ho
    obtain ⟨row, hrow, -, -, htable⟩ := (isIn_schema_iff hkind _).mp hin
    have heq := dependents_of_execute ⟨'D', Journal.head?_drop p.table, by decide⟩ h.drop hdrop
    rw [show Shell.view.data e' = e'.data from rfl, heq] at hrow
    have hother := (List.mem_filter.mp hrow).2
    have hnamed : sameName row.tableName p.table = true :=
      sameName_iff.mpr ((sameName_iff.mp htable).trans (sameName_iff.mp hsame))
    simp [hnamed] at hother
  rename {e e' n} hrename o ho hin := by
    obtain ⟨-, hkind, -⟩ := h.objects o ho
    obtain ⟨row, hrow, hsame⟩ := (isIn_schema_iff hkind _).mp hin
    have heq := dependents_of_execute ⟨'A', Journal.head?_renameTableSql p.temporary p.table, by decide⟩ h.rename hrename
    rw [show Shell.view.data e' = e'.data from rfl, heq] at hrow
    obtain ⟨old, hold, rfl⟩ := List.mem_map.mp hrow
    unfold moved at hsame
    split at hsame
    · next hmoved =>
      right
      exact (isIn_schema_iff (o := o.movedTo p.temporary) hkind _).mpr ⟨old, hold, hsame.1, hsame.2.1, hmoved⟩
    · left
      exact (isIn_schema_iff hkind _).mpr ⟨old, hold, hsame⟩
  make {o e e' n} ho _ hmake := by
    obtain ⟨-, hkind, hhead, hsql⟩ := h.objects o ho
    have heq := dependents_of_execute ⟨'C', hhead, by decide⟩ hsql hmake
    refine (isIn_schema_iff hkind _).mpr ?_
    rw [show Shell.view.data e' = e'.data from rfl, heq]
    exact ⟨_, List.mem_append_right _ (List.mem_singleton_self _), rfl, rfl, sameName_refl _⟩
  keep {o} ho e q hq hin := by
    obtain ⟨-, -, hhead, hsql⟩ := h.objects o ho
    have hkind := (h.objects q hq).2.1
    refine (isIn_schema_iff hkind _).mpr (isIn_mono ?_ ((isIn_schema_iff hkind _).mp hin))
    rcases dependents_execute ⟨'C', hhead, by decide⟩ hsql e with heq | heq
    · exact heq ▸ List.Subset.refl _
    · exact heq ▸ List.subset_append_left _ _
  add {o} ho _ e q hq hin := by
    obtain ⟨-, -, hhead, hsql⟩ := h.objects o ho
    have hkind := (h.objects q hq).2.1
    have hin := (isIn_schema_iff hkind _).mp hin
    rcases dependents_execute ⟨'C', hhead, by decide⟩ hsql e with heq | heq
    · left
      exact (isIn_schema_iff hkind _).mpr (heq ▸ hin)
    · obtain ⟨row, hrow, hsame⟩ := hin
      rw [show Shell.view.data (Engine.execute o.sql e).2 = (Engine.execute o.sql e).2.data from rfl, heq] at hrow
      rcases List.mem_append.mp hrow with hrow | hrow
      · left
        exact (isIn_schema_iff hkind _).mpr ⟨row, hrow, hsame⟩
      · right
        rw [List.mem_singleton.mp hrow] at hsame
        rw [← hsame.2.1]
        exact sameName_refl _

end Tables

namespace Op

/-- A session with the table `t`, which has an index and a trigger of its own name. -/
def namesake : Session (Traced (Shell Tables)) where
  engine := { engine := { data := {
    stored := [{ definition := { name := "t", fields := [{ name := "a" }, { name := "b" }] }, sql := "CREATE TABLE t (a, b)" }]
    dependents := [
      { kind := "index", name := "i", sql := some "CREATE INDEX i ON t (a)", tableName := "t" },
      { kind := "trigger", name := "t", sql := some "CREATE TRIGGER t AFTER INSERT ON t BEGIN SELECT 1; END", tableName := "t" }] } } }
  catalog := { objects := [
    { kind := .index, name := "i", tableName := "t", sql := "CREATE INDEX i ON t (a)", fields := [] },
    { kind := .table, name := "t", tableName := "t", sql := "CREATE TABLE t (a, b)", fields := [{ name := "a" }, { name := "b" }] },
    { kind := .trigger, name := "t", tableName := "t", sql := "CREATE TRIGGER t AFTER INSERT ON t BEGIN SELECT 1; END", fields := [] }] }

/-- The second column of `t` gets another name. -/
def namesakeChange : ColumnChange where
  table := "t"
  column := "b"
  replacement := some { name := "c" }

def namesakePlan : RebuildPlan where
  table := "t"
  temporary := "oxide_transform_new_table"
  rebuilt := { name := "oxide_transform_new_table", fields := [{ name := "a" }, { name := "c" }] }
  columns := ["a", "b"]
  discarded := []

theorem make_namesake {plan : RebuildPlan} (h : RebuildPlan.make namesake.catalog namesakeChange = .ok plan) : plan = namesakePlan := by
  have hmake : RebuildPlan.make namesake.catalog namesakeChange = .ok namesakePlan := by decide +kernel
  cases hmake.symm.trans h
  rfl

theorem reads_namesake : Tables.Reads namesakePlan (namesake.catalog.ownedBy "t") where
  create := ⟨_, Tables.statement?_sql (Table.canonical_of_fields (by decide) (by decide) (by decide))⟩
  copy := ⟨"oxide_transform_new_table", ["a", "b"], "t", by decide⟩
  drop := by decide
  rename := by decide
  objects := by decide

/-- The report is clean, and the trigger is gone. -/
theorem accounts_for_dependents_namesake : ∃ report t rows', transformColumn namesakeChange Signal.never namesake = .ok report t ∧
    report.isClean = true ∧ Engine.schema t.engine = .ok rows' ∧ ¬∀ o ∈ namesake.catalog.ownedBy "t", o.IsIn rows' := by
  have hown : namesake.catalog.OwnThemselves := by unfold Catalog.OwnThemselves; decide
  have hquiet : QuietChange (Shell.view (δ := Tables)) namesake.catalog namesakeChange := by
    intro plan hplan
    rw [make_namesake hplan]
    refine ⟨Shell.quiet_of_head (Journal.head?_sql _) (by decide), ?_⟩
    have hdependents : namesake.catalog.dependentsOf "t" =
        [{ kind := .index, name := "i", tableName := "t", sql := "CREATE INDEX i ON t (a)", fields := [] }] := by decide
    intro o ho
    rw [show namesakePlan.table = "t" from rfl, hdependents, List.mem_singleton] at ho
    rw [ho]
    exact Shell.quiet_of_head (c := 'C') (by decide) (by decide)
  have hremakes (plan : RebuildPlan) (hplan : RebuildPlan.make namesake.catalog namesakeChange = .ok plan) :
      plan.Remakes Shell.view Repository.schema (namesake.catalog.ownedBy plan.table) (Shell.view.data namesake.engine.engine) := by
    rw [make_namesake hplan]
    exact Tables.remakes reads_namesake (by decide)
  have hclean : (match transformColumn namesakeChange Signal.never namesake with
      | .ok report _ => report.isClean
      | .error .. => false) = true := by decide +kernel
  split at hclean
  · next report t hrun =>
    have hagrees : namesake.Agrees (Shell.view (δ := Tables)).traced := rfl
    obtain ⟨plan, texts, rows, rows', hplan, -, hrows, hrows', -, hiff⟩ :=
      (accounts_for_dependents Shell.transactional (fun _ => rfl) hagrees hown hquiet hremakes Signal.never).2 report t hrun
    cases make_namesake hplan
    cases hrows
    refine ⟨report, t, rows', hrun, hclean, hrows', fun hall => ?_⟩
    have hnames := (hiff hclean (by decide)).mp hall
    exact absurd hnames (by decide)
  · cases hclean

end Op

end SchemaEditor
