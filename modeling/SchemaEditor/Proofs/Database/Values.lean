import SchemaEditor.Proofs.Database.Plans
import SchemaEditor.Proofs.Database.SchemaChange
import SchemaEditor.Proofs.Engine.Rows

/-!
# Rebuilt tables keep their values

The engine copies rows as the plan's statement says: the value at each place comes from the column that is named
there. As a plan names the columns in the order in which they come to the new table, each value stays under the
name of its column, and the values of a column that is renamed go with it.
-/

namespace SchemaEditor

variable {σ δ : Type}

/-! ## Rows that are copied -/

/-- The row keeps its values: each column that is not changed has its value, and so has the changed column if nothing but
its name was changed. -/
structure ColumnChange.KeepsRow (c : ColumnChange) (t : Table) (old new : TableRows) (row copy : List Value) : Prop where
  others : ∀ a ∈ t.fields, a.isNamed c.column = false → ∀ x, old.value? row a.name = some x → new.value? copy a.name = some x
  changed : ∀ a f, t.field? c.column = some a → c.replacement = some f → f = a.renamed f.name →
    ∀ x, old.value? row c.column = some x → new.value? copy f.name = some x

theorem RebuildPlan.Arranges.keepsRow {p : RebuildPlan} {t : Table} {c : ColumnChange} {i j : Nat} (h : p.Arranges t c i j)
    (hd : Distinct p.rebuilt.fields) {old : TableRows} {rows : List (List Value)} {row copy : List Value}
    (hcopy : p.CopiesRow t old row copy) : c.KeepsRow t old { columns := p.rebuilt.fieldNames, rows } row copy where
  others a ha hnamed x hx := by
    obtain ⟨m, hm⟩ := List.mem_iff_getElem?.mp ha
    have hne : m ≠ i := by
      rintro rfl
      obtain ⟨b, hb, hfound, -⟩ := Table.field?_of_find? h.find
      cases hm.symm.trans hb
      rw [hfound] at hnamed
      cases hnamed
    obtain ⟨k, hk, hcolumn⟩ := h.kept hne hm
    rw [Table.fieldNames, TableRows.value?_of_place hd hk]
    exact hcopy k a a hk ha hcolumn rfl x hx
  changed a f ha hf hrenamed x hx := by
    obtain ⟨b, hb, hfound, hfield⟩ := Table.field?_of_find? h.find
    cases ha.symm.trans hfield
    obtain ⟨k, hk, hcolumn⟩ := h.changed hf hb
    rw [Table.fieldNames, TableRows.value?_of_place hd hk]
    exact hcopy k f a hk (List.mem_of_getElem? hb) hcolumn hrenamed x ((old.value?_congr row hfound).trans hx)

/-! ## Rebuilding -/

namespace Op

variable [Engine σ] {v : EngineView σ δ}

/-- A step that is carried out is carried out by the engine. -/
theorem ends_runSteps_cons {signal : Signal} {step : RebuildStep} {sql : String} {steps : List (RebuildStep × String)}
    {s : Session σ} {P : Unit → Session σ → Prop}
    (h : ∀ n t, Engine.execute sql s.engine = (.ok n, t.engine) → (runSteps signal steps).Ends t P fun _ _ => True) :
    (runSteps signal ((step, sql) :: steps)).Ends s P fun _ _ => True := by
  refine ends_bind ((ends_checkSignal signal s).mono (fun _ s₁ h₁ => ?_) fun _ _ _ => trivial)
  refine ends_bind (ends_of_ok (tryExecute_eq sql s₁) ?_)
  rw [h₁.engine]
  cases hr : Engine.execute sql s.engine with
  | mk r u =>
    cases r with
    | error e => trivial
    | ok n => exact h n _ hr

/-- The data of the rebuilt table under its name are those that renaming in the old way made of it. -/
theorem ends_renameRebuilt (laws : Transactional v) (source target : String) (s : Session σ) :
    (renameRebuilt source target).Ends s
      (fun _ t => ∃ n u u', v.data u = v.data s.engine ∧ v.legacyAlter u = true ∧
        Engine.execute (renameTableSql source target) u = (.ok n, u') ∧ v.data t.engine = v.data u') fun _ _ => True := by
  refine (ends_readLegacyAlter laws s).bind ?_
  rintro a s₁ ⟨rfl, -, hdata⟩
  obtain ⟨n, u, hu, -, hdata', hlegacy⟩ := laws.setLegacyAlter true s₁.engine
  refine ends_bind (ends_execute_ok hu ?_)
  rw [flag_of_flag]
  have hrename : (executeRename source target).Ends
      { s₁.logStatement ("PRAGMA legacy_alter_table = " ++ flag true) with engine := u }
      (fun _ t => ∃ n, Engine.execute (renameTableSql source target) u = (.ok n, t.engine)) fun _ _ => True := by
    refine ends_bind (ends_of_ok (tryExecute_eq (renameTableSql source target) _) ?_)
    dsimp only
    cases hr : Engine.execute (renameTableSql source target) u with
    | mk r w =>
      cases r with
      | error e => trivial
      | ok m => exact ⟨m, rfl⟩
  refine ends_bind (Ends.observe (hrename.mono ?_ fun e t _ => ?_))
  · rintro - t ⟨m, ht⟩
    obtain ⟨l, w, hw, -, hdata'', -⟩ := laws.setLegacyAlter (v.legacyAlter s.engine) t.engine
    exact ends_bind (ends_execute_ok hw ⟨m, u, t.engine, hdata'.trans hdata, hlegacy, ht, hdata''⟩)
  · obtain ⟨l, w, hw, -⟩ := laws.setLegacyAlter (v.legacyAlter s.engine) t.engine
    exact ends_bind (ends_execute_ok hw trivial)

/-- What each dependent keeps, whether it can be made again or not, is kept when all are. -/
theorem ends_restoreDependents {P : σ → Prop} {objects : List SchemaObject} (h : ∀ o ∈ objects, ∀ e, P e → P (Engine.execute o.sql e).2)
    (table : String) {s : Session σ} (hs : P s.engine) :
    (restoreDependents table objects).Ends s (fun _ t => P t.engine) fun _ _ => True := by
  induction objects generalizing s with
  | nil => exact hs
  | cons o objects ih =>
    have hstep := h o List.mem_cons_self s.engine hs
    have hrest (t : Session σ) (ht : t.engine = (Engine.execute o.sql s.engine).2) :
        (restoreDependents table objects).Ends t (fun _ u => P u.engine) fun _ _ => True :=
      ih (fun p hp => h p (List.mem_cons_of_mem o hp)) (ht ▸ hstep)
    refine ends_bind (ends_of_ok (tryExecute_eq o.sql s) ?_)
    cases (Engine.execute o.sql s.engine).1 with
    | error e => exact ends_bind (ends_of_ok rfl (ends_bind ((hrest _ rfl).mono (fun _ _ hu => hu) fun _ _ => id)))
    | ok n => exact hrest _ rfl

theorem ends_checkForeignKeys (s : Session σ) : (checkForeignKeys).Ends s (fun _ t => t = s) fun _ t => t = s := by
  refine ends_session ?_
  cases Engine.violations s.engine with
  | error e => exact ends_throw rfl
  | ok vs => cases vs with
    | nil => exact ends_pure rfl
    | cons w vs => exact ends_throw rfl

/-- The steps of a rebuild, and what comes after them. The check of foreign keys at its end changes nothing. -/
theorem ends_rebuild_of {p : RebuildPlan} {dependents : List SchemaObject} {signal : Signal} {s : Session σ}
    {P : Session σ → Prop} {Q : List LostDependent → Session σ → Prop}
    (hsteps : (runSteps signal p.steps).Ends s (fun _ => P) fun _ _ => True)
    (hrest : ∀ t u, P t → t.Alike u →
      (do renameRebuilt p.temporary p.table; restoreDependents p.table dependents : Op σ _).Ends u Q fun _ _ => True) :
    (rebuild p dependents signal).Ends s Q fun _ _ => True := by
  refine hsteps.bind fun _ s₁ h₁ => ?_
  refine ends_bind ((ends_checkSignal signal s₁).mono (fun _ s₂ h₂ => ?_) fun _ _ _ => trivial)
  rw [← bind_assoc]
  refine (hrest s₁ s₂ h₁ h₂).bind fun lost s₃ h₃ => ends_session ?_
  by_cases hsuspended : s₃.foreignKeysSuspended = true
  · rw [if_pos hsuspended]
    refine ends_bind ((ends_checkForeignKeys s₃).mono ?_ fun _ _ _ => trivial)
    rintro - s₄ rfl
    exact h₃
  · rw [if_neg hsuspended]
    exact h₃

/-- The rebuilt table is the one that was made and filled. -/
theorem ends_rebuild_carries (laws : Transactional v) {γ : Type} {look : δ → String → Option γ} {p : RebuildPlan}
    {dependents : List SchemaObject} {made : γ} {copied : γ → γ → γ → Prop} (h : p.Carries v look dependents made copied)
    (signal : Signal) {s : Session σ} {old : γ} (hold : look (v.data s.engine) p.table = some old) :
    (rebuild p dependents signal).Ends s
      (fun _ u => ∃ filled, copied old made filled ∧ look (v.data u.engine) p.table = some filled) fun _ _ => True := by
  have hsteps : (runSteps signal p.steps).Ends s
      (fun _ u => ∃ filled, copied old made filled ∧ look (v.data u.engine) p.temporary = some filled) fun _ _ => True := by
    refine ends_runSteps_cons fun _ s₁ h₁ => ends_runSteps_cons fun _ s₂ h₂ => ends_runSteps_cons fun _ s₃ h₃ => ?_
    obtain ⟨hnew, hkeep⟩ := h.create h₁
    obtain ⟨filled, hfilled, htemporary⟩ := h.copy h₂ (hkeep.trans hold) hnew
    exact ⟨filled, hfilled, (h.drop h₃).trans htemporary⟩
  refine ends_rebuild_of hsteps ?_
  rintro s₁ s₂ ⟨filled, hfilled, htemporary⟩ h₂
  refine (ends_renameRebuilt laws p.temporary p.table s₂).bind ?_
  rintro - s₃ ⟨n, u, u', hu, -, hrename, hdata⟩
  have hdependents : ∀ o ∈ dependents, ∀ e : σ, look (v.data e) p.table = look (v.data s₃.engine) p.table →
      look (v.data (Engine.execute o.sql e).2) p.table = look (v.data s₃.engine) p.table := fun o ho e => (h.dependents o ho e).trans
  refine (ends_restoreDependents hdependents p.table rfl).mono (fun lost s₄ h₄ => ⟨filled, hfilled, ?_⟩) fun _ _ => id
  rw [h₄, hdata, h.rename hrename, hu, h₂.engine, htemporary]

/-- The rebuilt table has a copy of each row. -/
theorem ends_rebuild (laws : Transactional v) {contents : δ → String → Option TableRows} {p : RebuildPlan} {t : Table}
    {dependents : List SchemaObject} (h : p.IsFaithful v contents t dependents) (signal : Signal) {s : Session σ}
    {old : TableRows} (hold : contents (v.data s.engine) p.table = some old) :
    (rebuild p dependents signal).Ends s
      (fun _ u => ∃ copies, List.Forall₂ (p.CopiesRow t old) old.rows copies ∧
        contents (v.data u.engine) p.table = some { columns := p.rebuilt.fieldNames, rows := copies }) fun _ _ => True := by
  refine (ends_rebuild_carries laws h.carries signal hold).mono ?_ fun _ _ => id
  rintro - u ⟨filled, ⟨copies, hcopies, rfl⟩, htable⟩
  exact ⟨copies, hcopies, htable⟩

omit [Engine σ] in
theorem ofExcept_ok {α : Type} {r : Except SchemaError α} {s s' : Session σ} {a : α} (h : ofExcept r s = .ok a s') :
    r = .ok a ∧ s' = s := by
  cases r with
  | ok b => cases h; exact ⟨rfl, rfl⟩
  | error e => cases h

/-- Only what was planned is carried out. -/
theorem make_of_transformColumn {c : ColumnChange} {signal : Signal} {s u : Session σ} {r : RebuildReport}
    (h : transformColumn c signal s = .ok r u) : ∃ plan, RebuildPlan.make s.catalog c = .ok plan := by
  obtain ⟨catalog, s₁, hcatalog, h⟩ := bind_ok h
  cases hcatalog
  obtain ⟨plan, s₂, hplan, -⟩ := bind_ok h
  exact ⟨plan, (ofExcept_ok hplan).1⟩

/-- A plan that was made keeps all values when it is carried out. -/
theorem ends_transformColumn_values (laws : Transactional v) {contents : δ → String → Option TableRows} {c : ColumnChange}
    (signal : Signal) {s : Session σ} (hs : s.Agrees v) (hq : QuietChange v s.catalog c) {t : Table} {discarded : List String}
    (ht : s.catalog.definition? c.table = .ok (t, discarded))
    (hfaithful : ∀ plan, RebuildPlan.make s.catalog c = .ok plan →
      plan.IsFaithful v contents t (s.catalog.dependentsOf plan.table))
    {old : TableRows} (hold : contents (v.data s.engine) t.name = some old) :
    (transformColumn c signal).Ends s
      (fun _ u => ∃ new, contents (v.data u.engine) t.name = some new ∧ List.Forall₂ (c.KeepsRow t old new) old.rows new.rows)
      fun _ _ => True := by
  have hend := ends_transformColumn (c := c) laws signal hs
    (Q := fun plan d => ∃ copies, List.Forall₂ (plan.CopiesRow t old) old.rows copies ∧
      contents d plan.table = some { columns := plan.rebuilt.fieldNames, rows := copies }) fun plan hplan u hu => ?_
  · refine hend.mono ?_ fun _ _ _ => trivial
    rintro - u ⟨-, plan, hplan, copies, hcopies, hnew⟩
    obtain ⟨t', discarded', i, j, ht', htable, harranges, -, hvalid⟩ := RebuildPlan.arranges_of_make hplan
    cases ht.symm.trans ht'
    rw [htable] at hnew
    exact ⟨_, hnew, hcopies.imp fun row copy hcopy => harranges.keepsRow (Table.valid_of_validate hvalid).distinct hcopy⟩
  · obtain ⟨t', discarded', i, j, ht', htable, -⟩ := RebuildPlan.arranges_of_make hplan
    cases ht.symm.trans ht'
    have hsource : contents (v.data u.engine) plan.table = some old := by rw [hu, htable, hold]
    have hcopies := ends_rebuild laws (hfaithful plan hplan) signal hsource
    exact ((isSteady_rebuild laws (hq plan hplan) signal u).and hcopies).mono (fun _ _ h => h) fun _ _ h => h.1

end Op

/-! ## Every change of a column -/

theorem Catalog.definition?_of_column? {catalog : Catalog} {table column : String} {f : Field}
    (h : catalog.column? table column = .ok f) :
    ∃ t discarded, catalog.definition? table = .ok (t, discarded) ∧ t.field? column = some f := by
  simp only [column?, bind, Except.bind] at h
  cases hdefinition : catalog.definition? table with
  | error e => rw [hdefinition] at h; cases h
  | ok pair =>
    obtain ⟨t, discarded⟩ := pair
    rw [hdefinition] at h
    dsimp only at h
    cases hfield : t.field? column with
    | none => rw [hfield] at h; cases h
    | some g => rw [hfield] at h; cases h; exact ⟨t, discarded, rfl, hfield⟩

namespace SchemaChange

/-- The row keeps its values through a call: a column that is renamed has its values under the new name, and one that is
moved has them as before. -/
structure KeepsRow (change : SchemaChange) (c : ColumnChange) (t : Table) (old new : TableRows) (row copy : List Value) : Prop
    extends c.KeepsRow t old new row copy where
  renamed {table column name : String} {signal : Signal} :
    change = renameColumn table column name signal → ∀ x, old.value? row column = some x → new.value? copy name = some x
  moved {table column : String} {offset : Int} {signal : Signal} :
    change = moveColumn table column offset signal → ∀ x, old.value? row column = some x → new.value? copy column = some x

theorem keepsRow {change : SchemaChange} {catalog : Catalog} {c : ColumnChange} {signal : Signal}
    (hc : change.columnChange? catalog = some (c, signal)) {t : Table} {discarded : List String}
    (ht : catalog.definition? c.table = .ok (t, discarded)) {old new : TableRows} {row copy : List Value}
    (h : c.KeepsRow t old new row copy) : change.KeepsRow c t old new row copy where
  toKeepsRow := h
  renamed {_ _ name _} hchange := by
    subst hchange
    obtain ⟨f, hf, rfl, -⟩ := columnChange?_renameColumn hc
    obtain ⟨t', discarded', ht', hfield⟩ := Catalog.definition?_of_column? hf
    cases ht.symm.trans ht'
    exact h.changed f (f.renamed name) hfield rfl rfl
  moved {_ column _ _} hchange := by
    subst hchange
    obtain ⟨f, hf, rfl, -⟩ := columnChange?_moveColumn hc
    obtain ⟨t', discarded', ht', hfield⟩ := Catalog.definition?_of_column? hf
    cases ht.symm.trans ht'
    have hnamed : f.isNamed column = true := by
      unfold Table.field? at hfield
      simpa using List.find?_some hfield
    rw [← new.value?_congr copy hnamed]
    exact h.changed f f hfield rfl rfl

variable [Engine σ] {v : EngineView σ δ}

/-- A column that would leave its table stays where it is, and nothing is executed. -/
theorem run_of_moveOutside {change : SchemaChange} {s : Session σ} {c : ColumnChange} {signal : Signal}
    (hc : change.columnChange? s.catalog = some (c, signal)) {t : Table} {discarded : List String} {i : Nat}
    (ht : s.catalog.definition? c.table = .ok (t, discarded)) (hi : t.find? c.column = some i)
    (hout : ¬(0 ≤ (i : Int) + c.offset ∧ (i : Int) + c.offset < t.fields.length)) :
    change.run s = .error (.moveOutside c.column c.offset) s := by
  have hmake : RebuildPlan.make s.catalog c = .error (.moveOutside c.column c.offset) := by
    simp only [RebuildPlan.make, bind, Except.bind, ht, hi, RebuildPlan.placeAt?_eq_none.mpr hout]
    rfl
  rw [run_of_columnChange? hc]
  show EStateM.bind (EStateM.bind (Op.ofExcept (RebuildPlan.make s.catalog c)) _) _ s = _
  rw [hmake]
  rfl

/-- A change of a column that is made gives each place of the rebuilt table one column of the old one. If its SQL holds no
further statements, the rows are copied, and each value stays with its column. A column that would leave its table stays. -/
theorem keeps_values (laws : Transactional v) (contents : δ → String → Option TableRows) {change : SchemaChange}
    {s : Session σ} {c : ColumnChange} {signal : Signal} (hc : change.columnChange? s.catalog = some (c, signal)) :
    (∀ u, change.run s = .ok () u → ∃ t discarded plan i j, s.catalog.definition? c.table = .ok (t, discarded) ∧
      RebuildPlan.make s.catalog c = .ok plan ∧ plan.Arranges t c i j ∧
      (s.Agrees v → change.IsQuiet v s.catalog → plan.IsFaithful v contents t (s.catalog.dependentsOf plan.table) →
        ∀ old, contents (v.data s.engine) t.name = some old → ∃ new, contents (v.data u.engine) t.name = some new ∧
          new.rows.length = old.rows.length ∧ List.Forall₂ (change.KeepsRow c t old new) old.rows new.rows)) ∧
    (∀ t discarded i, s.catalog.definition? c.table = .ok (t, discarded) → t.find? c.column = some i →
      ¬(0 ≤ (i : Int) + c.offset ∧ (i : Int) + c.offset < t.fields.length) →
      change.run s = .error (.moveOutside c.column c.offset) s) := by
  refine ⟨fun u hu => ?_, fun t discarded i ht hi hout => run_of_moveOutside hc ht hi hout⟩
  rw [run_of_columnChange? hc] at hu
  obtain ⟨r, u', hrun, hpure⟩ := Op.bind_ok hu
  cases hpure
  obtain ⟨plan, hplan⟩ := Op.make_of_transformColumn hrun
  obtain ⟨t, discarded, i, j, ht, -, harranges, -⟩ := RebuildPlan.arranges_of_make hplan
  refine ⟨t, discarded, plan, i, j, ht, hplan, harranges, fun hs hq hfaithful old hold => ?_⟩
  have hvalues := Op.ends_transformColumn_values laws signal hs (hq.quietChange hc) ht (fun plan' hplan' => ?_) hold
  · obtain ⟨new, hnew, hrows⟩ := hvalues.ok hrun
    exact ⟨new, hnew, hrows.length_eq.symm, hrows.imp fun _ _ => keepsRow hc ht⟩
  · cases hplan.symm.trans hplan'
    exact hfaithful

/-- A session with the table `hero`, which has two columns. -/
def heroes : Session Journal where
  engine := {}
  catalog := { objects := [
    { kind := .table, name := "hero", tableName := "hero", sql := "CREATE TABLE hero (id integer, name text)", fields := [] }] }

/-- The rows of `hero`. -/
def heroRows : TableRows where
  columns := ["id", "name"]
  rows := [[.integer 1, .text "a"], [.integer 2, .text "b"]]

/-- The plan that gives the second column of `hero` a new definition. -/
def heroPlan (f : Field) : RebuildPlan where
  table := "hero"
  temporary := "oxide_transform_new_table"
  rebuilt := { name := "oxide_transform_new_table", fields := [{ name := "id", sqlType := "integer" }, f] }
  columns := ["id", "name"]
  discarded := []

def heroContents (f : Field) (texts : List String) : String → Option TableRows :=
  Journal.contents (heroPlan f) (Function.update (fun _ => none) "hero" (some heroRows)) texts

/-- The columns of `hero` keep their values when one of them is renamed. -/
theorem keeps_values_alias :
    ∃ u new, (renameColumn "hero" "name" "alias" .never).run heroes = .ok () u ∧
      heroContents { name := "alias", sqlType := "text" } u.engine.applied "hero" = some new ∧
      new.rows.length = 2 ∧ List.Forall₂ (fun row copy => ∀ x, heroRows.value? row "name" = some x → new.value? copy "alias" = some x)
        heroRows.rows new.rows := by
  have hcolumn : heroes.catalog.column? "hero" "name" = .ok { name := "name", sqlType := "text" } := by decide +kernel
  have hdefinition : heroes.catalog.definition? "hero" = .ok
      ({ name := "hero", fields := [{ name := "id", sqlType := "integer" }, { name := "name", sqlType := "text" }] }, []) := by
    decide +kernel
  have hmake : RebuildPlan.make heroes.catalog
      { table := "hero", column := "name", replacement := some (Field.renamed { name := "name", sqlType := "text" } "alias") } =
        .ok (heroPlan { name := "alias", sqlType := "text" }) := by decide +kernel
  have hdependents : heroes.catalog.dependentsOf "hero" = [] := by decide
  have hc := columnChange?_rename hcolumn "alias" .never
  have hquiet : (renameColumn "hero" "name" "alias" .never).IsQuiet Journal.view heroes.catalog := by
    intro c signal h plan hplan
    cases hc.symm.trans h
    cases hmake.symm.trans hplan
    exact ⟨Journal.quiet_of_head (Journal.head?_sql _) (by decide), by rw [show (heroPlan _).table = "hero" from rfl, hdependents]; simp⟩
  have hfaithful : (heroPlan { name := "alias", sqlType := "text" }).IsFaithful Journal.view
      (heroContents { name := "alias", sqlType := "text" })
      { name := "hero", fields := [{ name := "id", sqlType := "integer" }, { name := "name", sqlType := "text" }] } [] :=
    Journal.isFaithful_contents (by decide) (by decide +kernel) (by decide +kernel)
  have hdone : (Op.done? (renameColumn "hero" "name" "alias" .never).run heroes).isSome = true := by decide +kernel
  obtain ⟨u, hu⟩ := Option.isSome_iff_exists.mp hdone
  obtain ⟨_, hrun⟩ := Op.done?_eq_some hu
  obtain ⟨t, discarded, plan, i, j, ht, hplan, -, hvalues⟩ :=
    (keeps_values Journal.transactional (heroContents { name := "alias", sqlType := "text" }) hc).1 u hrun
  cases hdefinition.symm.trans ht
  cases hmake.symm.trans hplan
  rw [show (heroPlan _).table = "hero" from rfl, hdependents] at hvalues
  obtain ⟨new, hnew, hlength, hrows⟩ := hvalues rfl hquiet hfaithful heroRows rfl
  exact ⟨u, new, hrun, hnew, hlength, hrows.imp fun _ _ h => h.renamed rfl⟩

/-- A definition that brings a deletion along. -/
def emptying : Field := { name := "name", sqlType := "text); DELETE FROM hero; CREATE TABLE junk (x" }

/-- The rows are lost if the new definition brings their deletion along. -/
theorem not_keeps_values_emptying :
    heroContents emptying heroes.engine.applied "hero" = some heroRows ∧
      ∃ u new, (modifyColumn "hero" "name" emptying .never).run heroes = .ok () u ∧
        heroContents emptying u.engine.applied "hero" = some new ∧ new.rows.length ≠ heroRows.rows.length := by
  have hlost : ((Op.done? (modifyColumn "hero" "name" emptying .never).run heroes).bind
      fun u => heroContents emptying u.engine.applied "hero") = some { columns := ["id", "name"], rows := [] } := by decide +kernel
  obtain ⟨u, hu, hnew⟩ := Option.bind_eq_some_iff.mp hlost
  obtain ⟨_, hrun⟩ := Op.done?_eq_some hu
  exact ⟨rfl, u, _, hrun, hnew, by decide⟩

end SchemaChange

end SchemaEditor
