import SchemaEditor.Proofs.Database.Dependents
import SchemaEditor.Proofs.Database.Freshness
import SchemaEditor.Proofs.Database.Values
import SchemaEditor.Proofs.Engine.Definitions
import SchemaEditor.Proofs.FreshName

/-!
# The catalog describes the table that was meant

A table that is made or rebuilt is described by the catalog as it was meant: what is printed of it, stored by the engine, listed,
and read back has the same columns and the same key. The rebuilt table was made under another name, and only its name was
replaced since. This rests on statements that do what they are made for. Of the indices and triggers that are made again
nothing is known but their text, and that need not be the text they were first made with.
-/

namespace SchemaEditor

variable {σ δ : Type}

/-! ## Entries -/

/-- The catalog has an entry for the table, and that is read as a table with the same columns and the same key. By its name the
entry is found if no index and no other table has the name. -/
def Catalog.Describes (c : Catalog) (t : Table) : Prop :=
  ∃ o ∈ c.objects, o.kind = .table ∧ o.name = t.name ∧ o.fields = t.fields ∧
    (∃ u, Table.parse o.sql = .ok u ∧ u.name = t.name ∧ u.Restates t) ∧
    ((∀ other ∈ c.objects, other.kind = .index ∨ other.kind = .table → sameName other.name t.name = true → other = o) →
      c.table? t.name = some o)

namespace ObjectKind

/-- Only indices and tables are listed up to the last table. -/
theorem eq_index_or_table {kind : ObjectKind} (h : kind.tag ≤ ObjectKind.table.tag) : kind = .index ∨ kind = .table := by
  cases kind with
  | index => exact .inl rfl
  | table => exact .inr rfl
  | view => exact absurd h (by decide)
  | trigger => exact absurd h (by decide)

theorem ofTag?_eq_some {s : String} {kind : ObjectKind} (h : ofTag? s = some kind) : kind.tag = s := by
  simpa using List.find?_some h

end ObjectKind

variable [Engine σ] {v : EngineView σ δ}

theorem SchemaRow.object?_eq_some {e : σ} {row : SchemaRow} {o : SchemaObject} (h : row.object? e = some o) :
    o.kind.tag = row.kind ∧ o.name = row.name := by
  obtain ⟨kind, hkind, rfl⟩ := Option.map_eq_some_iff.mp h
  exact ⟨ObjectKind.ofTag?_eq_some hkind, rfl⟩

/-- An entry that no index and no other table shares its name with is the one that is found. -/
theorem Catalog.table?_of_sole {c : Catalog} {e : σ} {rows : List SchemaRow} (hobjects : c.objects = rows.filterMap (SchemaRow.object? e))
    (hordered : rows.Pairwise fun a b => a.kind ≤ b.kind) {o : SchemaObject} (ho : o ∈ c.objects) (hkind : o.kind = .table)
    (hsole : ∀ other ∈ c.objects, other.kind = .index ∨ other.kind = .table → sameName other.name o.name = true → other = o) :
    c.table? o.name = some o := by
  have hkinds : c.objects.Pairwise fun a b => a.kind.tag ≤ b.kind.tag := by
    rw [hobjects, List.pairwise_filterMap]
    refine hordered.imp fun {a b} hab x hx y hy => ?_
    rw [(SchemaRow.object?_eq_some hx).1, (SchemaRow.object?_eq_some hy).1]
    exact hab
  have hget : c.get? o.name = some o := by
    cases hfind : c.get? o.name with
    | none => exact absurd (sameName_refl o.name) (List.find?_eq_none.mp hfind o ho)
    | some other =>
      obtain ⟨hnamed, before, behind, hsplit, hbefore⟩ := List.find?_eq_some_iff_append.mp hfind
      rw [hsplit, List.mem_append, List.mem_cons] at ho
      rcases ho with ho | rfl | ho
      · simpa using hbefore o ho
      · rfl
      · rw [hsplit] at hkinds
        have hle := (List.pairwise_cons.mp (List.pairwise_append.mp hkinds).2.1).1 o ho
        rw [hkind] at hle
        have hother : other ∈ c.objects := by
          rw [hsplit]
          exact List.mem_append_right _ List.mem_cons_self
        rw [hsole other hother (ObjectKind.eq_index_or_table hle) (by simpa using hnamed)]
  rw [table?, hget]
  simp [hkind]

/-- A table that is listed with its print is described, if what it is listed with can be read. -/
theorem Session.describes_of_listed (hordered : ListsByKind σ) {s : Session σ} (hfresh : s.IsFresh) {t : Table} {q : Char}
    (hq : q = '"' ∨ q = '\x60') (hne : t.fields ≠ []) (hv : t.Valid) (hfields : ∀ f ∈ t.fields, f.Canonical) (hreturn : '\r' ∉ t.sql.toList)
    {name : String} (hlisted : .ofTable t.name (t.storedAs (quoteWith q t.name)) ∈ tablesNamed s.engine name) :
    s.catalog.Describes t := by
  obtain ⟨rows, hrows, hobjects⟩ := Session.isFresh_iff.mp hfresh
  have hread := Table.parse_storedAs_reread hq hne hv hfields
  have hsql := withoutReturns_eq_self (Table.not_mem_storedAs hreturn hq)
  generalize t.storedAs (quoteWith q t.name) = sql at hlisted hread hsql
  have hcolumns : (Table.parseLenient sql).fields = t.fields := by
    rw [Table.parseLenient, hread]
    rfl
  let o : SchemaObject := { kind := .table, name := t.name, tableName := t.name, sql, fields := t.fields }
  have ho : o ∈ s.catalog.objects := by
    rw [hobjects, List.mem_filterMap]
    refine ⟨.ofTable t.name sql, ((mem_tablesNamed hrows).mp hlisted).1, ?_⟩
    have htag : ObjectKind.ofTag? ObjectKind.table.tag = some .table := by decide
    rw [SchemaRow.object?, show (SchemaRow.ofTable t.name sql).kind = ObjectKind.table.tag from rfl, htag]
    simp only [Option.map_some, SchemaRow.ofTable, Option.getD_some, hsql, SchemaRow.fields, hcolumns, o]
  refine ⟨o, ho, rfl, rfl, rfl, ⟨t.reread, hread, rfl, Table.restates_reread hv⟩, fun hsole => ?_⟩
  have hfound : s.catalog.table? o.name = some o := Catalog.table?_of_sole hobjects (hordered _ _ hrows) ho rfl hsole
  exact hfound

/-! ## Rebuilding -/

/-- The rebuilt table under its own name. -/
def RebuildPlan.outcome (p : RebuildPlan) : Table := { p.rebuilt with name := p.table }

namespace Op

/-- The rebuilt table has the statement that the plan makes it with, under its own name. -/
theorem ends_rebuild_stored (laws : Transactional v) (reading : v.ReadsData) {p : RebuildPlan} {dependents : List SchemaObject}
    (h : p.IsStored v dependents) (signal : Signal) {s : Session σ} (hfree : tablesNamed s.engine p.temporary = []) :
    (rebuild p dependents signal).Ends s
      (fun _ u => .ofTable p.table (p.rebuilt.storedAs (quoteWith '"' p.table)) ∈ tablesNamed u.engine p.table) fun _ _ => True := by
  -- if the old table has the temporary name, the new one is dropped in its place, and nothing is left to be renamed
  have hsteps : (runSteps signal p.steps).Ends s (fun _ u => ∀ row ∈ tablesNamed u.engine p.temporary,
      row = .ofTable p.temporary (p.rebuilt.storedAs (quoteIdentifier p.temporary))) fun _ _ => True := by
    refine ends_runSteps_cons fun _ s₁ h₁ => ends_runSteps_cons fun _ s₂ h₂ => ends_runSteps_cons fun _ s₃ h₃ => ?_
    intro row hrow
    have hmade := h.create h₁ row (h.copy h₂ (h.drop h₃ hrow))
    rw [hfree] at hmade
    exact hmade.resolve_right List.not_mem_nil
  refine ends_rebuild_of hsteps fun s₁ s₂ h₁ h₂ => ?_
  refine (ends_renameRebuilt laws p.temporary p.table s₂).bind ?_
  rintro - s₃ ⟨n, u, u', hu, hlegacy, hrename, hdata⟩
  obtain ⟨row, hrow, hrenamed⟩ := h.rename hlegacy hrename
  rw [tablesNamed_of_data reading hu, h₂.engine] at hrow
  have hlisted := hrenamed (h₁ row hrow)
  rw [← tablesNamed_of_data reading hdata] at hlisted
  exact ends_restoreDependents h.dependents p.table hlisted

/-- Nothing is listed under a name that is free in a fresh snapshot. -/
theorem tablesNamed_eq_nil {s : Session σ} (hfresh : s.IsFresh) {name : String} (hfree : s.catalog.contains name = false) :
    tablesNamed s.engine name = [] := by
  obtain ⟨rows, hrows, hobjects⟩ := Session.isFresh_iff.mp hfresh
  refine List.eq_nil_iff_forall_not_mem.mpr fun row hrow => ?_
  obtain ⟨hrow, hkind, hnamed⟩ := (mem_tablesNamed hrows).mp hrow
  have htag : ObjectKind.ofTag? row.kind = some .table := by
    rw [hkind]
    decide
  have hobject : (row.object? s.engine).isSome = true := by rw [SchemaRow.object?, htag]; rfl
  obtain ⟨o, ho⟩ := Option.isSome_iff_exists.mp hobject
  have hmem : o ∈ s.catalog.objects := hobjects ▸ List.mem_filterMap.mpr ⟨row, hrow, ho⟩
  have hnone : s.catalog.get? name = none := by simpa [Catalog.contains] using hfree
  refine absurd hnamed (List.find?_eq_none.mp hnone o hmem ∘ ?_)
  rw [(SchemaRow.object?_eq_some ho).2]
  exact id

theorem ends_transformColumn_stored (laws : Transactional v) (reading : v.ReadsData) {c : ColumnChange} (signal : Signal) {s : Session σ}
    (hs : s.Agrees v) (hfresh : s.IsFresh) (hq : QuietChange v s.catalog c) (hstored : ∀ plan, RebuildPlan.make s.catalog c = .ok plan →
      plan.IsStored v (s.catalog.dependentsOf plan.table)) :
    (transformColumn c signal).Ends s
      (fun _ u => ∀ plan, RebuildPlan.make s.catalog c = .ok plan →
        .ofTable plan.table (plan.rebuilt.storedAs (quoteWith '"' plan.table)) ∈ tablesNamed u.engine plan.table) fun _ _ => True := by
  have hend := ends_transformColumn (c := c) laws signal hs
    (Q := fun plan d => ∃ e : σ, v.data e = d ∧
      .ofTable plan.table (plan.rebuilt.storedAs (quoteWith '"' plan.table)) ∈ tablesNamed e plan.table) fun plan hplan u hu => ?_
  · refine hend.mono ?_ fun _ _ _ => trivial
    rintro - u ⟨-, plan, hplan, e, he, hlisted⟩ plan' hplan'
    cases hplan.symm.trans hplan'
    rwa [tablesNamed_of_data reading he] at hlisted
  · have hfree : tablesNamed u.engine plan.temporary = [] := by
      rw [tablesNamed_of_data reading hu]
      exact tablesNamed_eq_nil hfresh (RebuildPlan.temporary_free hplan)
    have hlisted := ends_rebuild_stored laws reading (hstored plan hplan) signal hfree
    exact ((isSteady_rebuild laws (hq plan hplan) signal u).and hlisted).mono (fun _ w hw => ⟨hw.1, w.engine, rfl, hw.2⟩) fun _ _ hw => hw.1

end Op

/-! ## Calls -/

namespace SchemaChange

/-- The table that a call is to make, or is to make of another one. -/
def intended? (catalog : Catalog) (change : SchemaChange) : Option Table :=
  match change with
  | createTableFrom t => some t
  | change => (change.columnChange? catalog).bind fun pair => (RebuildPlan.make catalog pair.1).toOption.map RebuildPlan.outcome

/-- The engine takes the statements of a call as they are meant, as far as the definition of its table goes. -/
def IsStored (v : EngineView σ δ) (catalog : Catalog) (change : SchemaChange) : Prop :=
  match change with
  | createTableFrom t => t.IsStored σ
  | change => ∀ c signal, change.columnChange? catalog = some (c, signal) → ∀ plan, RebuildPlan.make catalog c = .ok plan →
    plan.IsStored v (catalog.dependentsOf plan.table)

theorem intended?_cases {catalog : Catalog} {change : SchemaChange} {t : Table} (h : change.intended? catalog = some t) :
    change = createTableFrom t ∨ ∃ c signal plan, change.columnChange? catalog = some (c, signal) ∧
      RebuildPlan.make catalog c = .ok plan ∧ t = plan.outcome := by
  have hcolumn (pair : Option (ColumnChange × Signal))
      (hpair : pair.bind (fun pair => (RebuildPlan.make catalog pair.1).toOption.map RebuildPlan.outcome) = some t) :
      ∃ c signal plan, pair = some (c, signal) ∧ RebuildPlan.make catalog c = .ok plan ∧ t = plan.outcome := by
    obtain ⟨⟨c, signal⟩, rfl, hmap⟩ := Option.bind_eq_some_iff.mp hpair
    obtain ⟨plan, hplan, rfl⟩ := Option.map_eq_some_iff.mp hmap
    cases hmake : RebuildPlan.make catalog c with
    | error e => rw [hmake] at hplan; cases hplan
    | ok made => rw [hmake] at hplan; cases hplan; exact ⟨c, signal, _, rfl, hmake, rfl⟩
  cases change with
  | createTableFrom u => cases h; exact .inl rfl
  | _ => exact .inr (hcolumn _ h)

theorem IsStored.plan {change : SchemaChange} {catalog : Catalog} (h : change.IsStored v catalog) {c : ColumnChange} {signal : Signal}
    (hc : change.columnChange? catalog = some (c, signal)) (plan : RebuildPlan) (hplan : RebuildPlan.make catalog c = .ok plan) :
    plan.IsStored v (catalog.dependentsOf plan.table) := by
  cases change with
  | createTableFrom => cases hc
  | _ => exact h c signal hc plan hplan

/-- Only a valid table with columns is made. -/
theorem valid_of_createTableFrom {t : Table} {s u : Session σ} (h : Op.createTableFrom t s = .ok () u) : t.Valid ∧ t.fields ≠ [] := by
  have hend : (Op.createTableFrom t).Ends s (fun _ _ => t.Valid ∧ t.fields ≠ []) fun _ _ => True := by
    unfold Op.createTableFrom
    cases hvalid : t.validate with
    | error e => trivial
    | ok =>
      refine Op.ends_bind (Op.ends_of_ok rfl ?_)
      by_cases hempty : t.fields.isEmpty = true
      · rw [if_pos hempty]
        trivial
      · rw [if_neg hempty]
        exact Op.ends_of_forall_ok fun _ _ _ => ⟨Table.valid_of_validate hvalid, by simpa using hempty⟩
  exact hend.ok h

theorem ends_createTableFrom_stored (laws : Transactional v) (reading : v.ReadsData) {t : Table} {s : Session σ} (hs : s.Agrees v)
    (hq : v.Quiet t.sql) (hstored : t.IsStored σ) :
    (Op.createTableFrom t).Ends s
      (fun _ u => .ofTable t.name (t.storedAs (quoteIdentifier t.name)) ∈ tablesNamed u.engine t.name) fun _ _ => True := by
  refine Op.ends_createTableFrom (P := fun u : Session σ => .ofTable t.name (t.storedAs (quoteIdentifier t.name)) ∈ tablesNamed u.engine t.name)
    (E := fun _ => True) (fun u w hu hw => by rwa [hw.engine]) trivial ?_
  have hchange := Op.ends_change laws (show "oxide_create_table" ≠ restorePoint by decide) hs
    (Q := fun _ d => ∃ e : σ, v.data e = d ∧ .ofTable t.name (t.storedAs (quoteIdentifier t.name)) ∈ tablesNamed e t.name)
    fun u _ _ => show (Op.execute t.sql).Ends u _ _ from ?_
  · refine hchange.mono ?_ fun _ _ _ => trivial
    rintro - u ⟨-, e, he, hlisted⟩
    rwa [tablesNamed_of_data reading he] at hlisted
  · have hlisted : (Op.execute t.sql).Ends u
        (fun _ w => .ofTable t.name (t.storedAs (quoteIdentifier t.name)) ∈ tablesNamed w.engine t.name) fun _ _ => True :=
      Op.ends_execute (fun n e he => hstored _ _ n he) fun _ _ _ => trivial
    exact ((Op.preserves_execute (Op.allows_of_quiet hq) u).and hlisted).mono (fun _ w hw => ⟨hw.1, w.engine, rfl, hw.2⟩) fun _ _ hw => hw.1

end SchemaChange

/-! ## Tables take plans as they are meant -/

namespace Tables

variable {e e' : Shell Tables} {name : String} {row : SchemaRow}

theorem mem_tablesNamed_iff : row ∈ tablesNamed e name ↔
    (row ∈ e.data.stored.map schemaRow ∨ row ∈ e.data.dependents) ∧ row.kind = ObjectKind.table.tag ∧ sameName row.name name = true := by
  rw [mem_tablesNamed (show Engine.schema e = .ok (Repository.schema e.data) from rfl), ← List.mem_append]
  exact and_congr (List.perm_insertionSort _ _).mem_iff Iff.rfl

theorem tablesNamed_subset (hstored : e'.data.stored.map schemaRow ⊆ e.data.stored.map schemaRow)
    (hdependents : e'.data.dependents ⊆ e.data.dependents) : tablesNamed e' name ⊆ tablesNamed e name := by
  intro row hrow
  obtain ⟨hmem, hnamed⟩ := mem_tablesNamed_iff.mp hrow
  exact mem_tablesNamed_iff.mpr ⟨hmem.imp (fun h => hstored h) fun h => hdependents h, hnamed⟩

theorem listsByKind : ListsByKind (Shell Tables) := by
  rintro e _ ⟨⟩
  exact pairwise_kind_schema e.data

/-- What is made again is an index or a trigger, and stands beside the tables. -/
theorem tablesNamed_attach {sql : String} (hhead : sql.toList.head? = some 'C') {kind : ObjectKind} {object table : String}
    (hsql : statement? sql = some (.attach kind object table)) (hrow : row ∈ tablesNamed e name) :
    row ∈ tablesNamed (Engine.execute sql e).2 name := by
  obtain ⟨hmem, hnamed⟩ := mem_tablesNamed_iff.mp hrow
  refine mem_tablesNamed_iff.mpr ⟨?_, hnamed⟩
  have happly : Engine.execute sql e = Shell.apply sql e := Shell.execute_eq_apply hhead (by decide) e
  have hdata : (Engine.execute sql e).2.data = (apply sql e.data).2 := by rw [happly]; rfl
  rw [hdata, apply, hsql]
  dsimp only
  split
  · next heq =>
    rw [perform] at heq
    split at heq
    · cases heq
    split at heq
    · cases heq
    · cases heq
      exact hmem.imp id (List.mem_append_left _)
  · exact hmem

/-- Copying rows leaves the definitions alone. -/
theorem map_schemaRow_modify (d : Tables) (name : String) (rows : StoredTable → List (List Value)) :
    (d.modify name fun t => { t with rows := rows t }).stored.map schemaRow = d.stored.map schemaRow := by
  rw [modify, List.map_map]
  refine List.map_congr_left fun t _ => ?_
  rw [Function.comp_apply]
  split <;> rfl

/-- Tables store the print of a valid table whose columns can be read. -/
theorem isStored {p : RebuildPlan} {dependents : List SchemaObject} (h : Reads p dependents) (hname : p.rebuilt.name = p.temporary)
    (hne : p.rebuilt.fields ≠ []) (hv : p.rebuilt.Valid) (hfields : ∀ f ∈ p.rebuilt.fields, f.Canonical) :
    p.IsStored (Shell.view (δ := Tables)) dependents where
  create {e e' n} hexec row hrow := by
    have hsql := statement?_of_parse (Table.parse_sql_reread hne hv hfields)
    have hperform := perform_of_execute ⟨'C', Journal.head?_sql _, by decide⟩ hsql hexec
    rw [perform] at hperform
    split at hperform
    · cases hperform
    · have hdata := (Prod.mk.inj (Except.ok.inj hperform)).2
      obtain ⟨hmem, hnamed⟩ := mem_tablesNamed_iff.mp hrow
      rw [← hdata, List.map_append, List.mem_append, List.map_singleton, List.mem_singleton] at hmem
      rcases hmem with (hmem | rfl) | hmem
      · exact .inr (mem_tablesNamed_iff.mpr ⟨.inl hmem, hnamed⟩)
      · rw [← hname, ← storedSql_sql]
        exact .inl rfl
      · exact .inr (mem_tablesNamed_iff.mpr ⟨.inr hmem, hnamed⟩)
  copy {e e' n} hexec := by
    obtain ⟨target, columns, source, hcopy⟩ := h.copy
    have hperform := perform_of_execute ⟨'I', Journal.head?_copySql p, by decide⟩ hcopy hexec
    rw [perform] at hperform
    split at hperform
    · have hdata := (Prod.mk.inj (Except.ok.inj hperform)).2
      refine tablesNamed_subset ?_ ?_
      · rw [← hdata, map_schemaRow_modify]
        exact List.Subset.refl _
      · rw [← hdata]
        exact List.Subset.refl _
    · cases hperform
    · cases hperform
  drop {e e' n} hexec := by
    have hperform := perform_of_execute ⟨'D', Journal.head?_drop p.table, by decide⟩ h.drop hexec
    rw [perform] at hperform
    split at hperform
    · cases hperform
    · have hdata := (Prod.mk.inj (Except.ok.inj hperform)).2
      refine tablesNamed_subset ?_ ?_
      · rw [← hdata]
        exact List.map_subset _ (List.filter_subset_self _)
      · rw [← hdata]
        exact List.filter_subset_self _
  rename {e e' n} _ hexec := by
    have hperform := perform_of_execute ⟨'A', Journal.head?_renameTableSql p.temporary p.table, by decide⟩ h.rename hexec
    rw [perform] at hperform
    split at hperform
    · cases hperform
    · next hsource =>
      split at hperform
      · cases hperform
      · have hdata := (Prod.mk.inj (Except.ok.inj hperform)).2
        obtain ⟨t, ht⟩ := Option.ne_none_iff_exists'.mp fun hnone => hsource (Option.isNone_iff_eq_none.mpr hnone)
        have hmem : t ∈ e.data.stored := List.mem_of_find?_eq_some ht
        have hnamed : sameName t.definition.name p.temporary = true := named_of_find? ht
        refine ⟨schemaRow t, mem_tablesNamed_iff.mpr ⟨.inl (List.mem_map_of_mem hmem), rfl, hnamed⟩, fun hmade => ?_⟩
        have hsql : t.sql = p.rebuilt.storedAs (quoteIdentifier p.temporary) := Option.some.inj (congrArg SchemaRow.sql hmade)
        have hread := Table.parse_storedAs_reread (q := '\x60') (.inr rfl) hne hv hfields
        have hrespelled : respelled p.table t.sql = p.rebuilt.storedAs (quoteWith '"' p.table) := by
          rw [respelled, hsql, ← hname, quoteIdentifier, hread]
          exact congrArg (fun tail => "CREATE TABLE " ++ quoteWith '"' p.table ++ tail) (Table.tail_reread hv.distinct)
        refine mem_tablesNamed_iff.mpr ⟨.inl ?_, rfl, sameName_refl p.table⟩
        rw [← hdata, modify, List.map_map]
        refine List.mem_map.mpr ⟨t, hmem, ?_⟩
        rw [Function.comp_apply, if_pos hnamed, ← hrespelled]
        rfl
  dependents o ho e hrow := tablesNamed_attach (h.objects o ho).2.2.1 (h.objects o ho).2.2.2 hrow

end Tables

namespace SchemaChange

/-! ## A key whose first column moves -/

/-- A session with a table that is found by a key in an order of its own, and with an index. -/
def keyed : Session (Shell Tables) where
  engine := { data := {
    stored := [{
      definition := {
        name := "t"
        fields := [{ name := "a", primaryKey := true }, { name := "b", primaryKey := true }]
        rowidColumn := "a", withoutRowid := true, keyOrder := ["b", "a"] }
      sql := "CREATE TABLE t (a, b, PRIMARY KEY (b, a)) WITHOUT ROWID" }]
    dependents := [{ kind := "index", name := "i", sql := some "CREATE INDEX i ON t (b)", tableName := "t" }] } }
  catalog := { objects := [
    { kind := .index, name := "i", tableName := "t", sql := "CREATE INDEX i ON t (b)", fields := [] },
    { kind := .table, name := "t", tableName := "t"
      sql := "CREATE TABLE t (a, b, PRIMARY KEY (b, a)) WITHOUT ROWID"
      fields := [{ name := "a", primaryKey := true }, { name := "b", primaryKey := true }] }] }

/-- Its columns change places. -/
def crossingChange : ColumnChange where
  table := "t"
  column := "a"
  replacement := some { name := "a", primaryKey := true }
  offset := 1

def crossing : SchemaChange := transformColumn crossingChange .never

def crossingPlan : RebuildPlan where
  table := "t"
  temporary := "oxide_transform_new_table"
  rebuilt := {
    name := "oxide_transform_new_table"
    fields := [{ name := "b", primaryKey := true }, { name := "a", primaryKey := true }]
    rowidColumn := "a", withoutRowid := true, keyOrder := ["b", "a"] }
  columns := ["b", "a"]
  discarded := []

theorem make_crossing : RebuildPlan.make keyed.catalog crossingChange = .ok crossingPlan := by decide +kernel

theorem dependentsOf_keyed : keyed.catalog.dependentsOf "t" =
    [{ kind := .index, name := "i", tableName := "t", sql := "CREATE INDEX i ON t (b)", fields := [] }] := by
  decide

theorem isStored_crossing : crossing.IsStored (Shell.view (δ := Tables)) keyed.catalog := by
  rintro c signal ⟨⟩ plan hplan
  cases make_crossing.symm.trans hplan
  have hne : crossingPlan.rebuilt.fields ≠ [] := by decide
  have hvalid := Table.valid_of_validate (show crossingPlan.rebuilt.validate = .ok () by decide)
  have hfields : ∀ f ∈ crossingPlan.rebuilt.fields, f.Canonical := by decide
  have hreads : Tables.Reads crossingPlan (keyed.catalog.dependentsOf "t") := {
    create := ⟨_, Tables.statement?_of_parse (Table.parse_sql_reread hne hvalid hfields)⟩
    copy := ⟨"oxide_transform_new_table", ["b", "a"], "t", by decide⟩
    drop := by decide
    rename := by decide
    objects := by
      rw [dependentsOf_keyed]
      decide }
  exact Tables.isStored hreads rfl hne hvalid hfields

/-- A trigger that subtracts a negative number. Without the carriage return a comment begins there, and what was text before is
the end of the trigger and a change of its table. -/
def commented : String := "CREATE TRIGGER g DELETE ON t BEGIN SELECT 1 -\r-'\n;END;ALTER TABLE t ADD COLUMN c;--';END"

/-- A session that makes a table and the trigger. -/
def commentedSession : Session Store.State :=
  Session.blank.moment [.statement "CREATE TABLE t (a)" false, .statement commented false, .refresh .never] 3

end SchemaChange

end SchemaEditor
