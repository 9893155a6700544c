import SchemaEditor.Proofs.Database.Values
import SchemaEditor.Proofs.Engine.Schemas
import SchemaEditor.Proofs.FreshName

/-!
# Where a rebuilt table comes to be

The statements of a rebuild name their tables without a schema. The old table is looked up, and may be a temporary one; the
new one is made in the file. So a table of the file stays there, and a temporary table is written to the file.
-/

namespace SchemaEditor

variable {σ δ γ : Type} [Engine σ] {v : EngineView σ δ} {layout : δ → Layout γ}

namespace Op

/-- The steps of a rebuild and the renaming, one after the other. -/
theorem ends_rebuild_placed (laws : Transactional v) {p : RebuildPlan} {dependents : List SchemaObject}
    (h : p.IsPlaced v layout dependents) (signal : Signal) {s : Session σ}
    (hfree : ∀ place, (layout (v.data s.engine)).table? place p.temporary = none) :
    (rebuild p dependents signal).Ends s
      (fun _ u => ∃ place new, ((layout (v.data s.engine)).table? place p.table).isSome = true ∧
        (∀ other, other ≠ place → (layout (v.data s.engine)).table? other p.table = none) ∧
        layout (v.data u.engine) = (layout (v.data s.engine)).rebuilt p.table new) fun _ _ => True := by
  have hsteps : (runSteps signal p.steps).Ends s
      (fun _ u => ∃ l₁ l₂, (layout (v.data s.engine)).Creates l₁ p.temporary ∧ l₁.Fills l₂ p.temporary p.table ∧
        l₂.Drops (layout (v.data u.engine)) p.table) fun _ _ => True := by
    refine ends_runSteps_cons fun _ s₁ h₁ => ends_runSteps_cons fun _ s₂ h₂ => ends_runSteps_cons fun _ s₃ h₃ => ?_
    exact ⟨_, _, h.create h₁, h.copy h₂, h.drop h₃⟩
  refine ends_rebuild_of hsteps ?_
  rintro s₁ s₂ ⟨l₁, l₂, hcreate, hfill, hdrop⟩ h₂
  refine (ends_renameRebuilt laws p.temporary p.table s₂).bind ?_
  rintro - s₃ ⟨n, u, u', hu, -, hrename, hdata⟩
  have hrenamed := h.rename hrename
  rw [hu, h₂.engine, ← hdata] at hrenamed
  obtain ⟨place, new, hfound, hothers, hlayout⟩ := Layout.rebuilt_of_steps hfree hcreate hfill hdrop hrenamed
  have hdependents : ∀ o ∈ dependents, ∀ e : σ, layout (v.data e) = layout (v.data s₃.engine) →
      layout (v.data (Engine.execute o.sql e).2) = layout (v.data s₃.engine) := fun o ho e => (h.dependents o ho e).trans
  refine (ends_restoreDependents hdependents p.table rfl).mono (fun lost s₄ h₄ => ?_) fun _ _ => id
  exact ⟨place, new, hfound, hothers, h₄.trans hlayout⟩

end Op

namespace SchemaChange

variable (layout) in
/-- A change of a column takes its table out of the schema it is in and makes it in the file; all other tables stay where they
are. So no table leaves its schema if and only if the table was in the file. -/
theorem staysPut_iff_of_run (laws : Transactional v) {change : SchemaChange} {s u : Session σ} {c : ColumnChange} {signal : Signal}
    (hc : change.columnChange? s.catalog = some (c, signal)) (hs : s.Agrees v) (hq : change.IsQuiet v s.catalog)
    (hlisted : ∀ place name, ((layout (v.data s.engine)).table? place name).isSome = true → s.catalog.contains name = true)
    (hplaced : ∀ plan, RebuildPlan.make s.catalog c = .ok plan →
      plan.IsPlaced v layout (s.catalog.dependentsOf plan.table))
    (hu : change.run s = .ok () u) :
    ∃ plan place new, RebuildPlan.make s.catalog c = .ok plan ∧ ((layout (v.data s.engine)).table? place plan.table).isSome = true ∧
      (∀ other, other ≠ place → (layout (v.data s.engine)).table? other plan.table = none) ∧
      layout (v.data u.engine) = (layout (v.data s.engine)).rebuilt plan.table new ∧
      ((layout (v.data s.engine)).StaysPut (layout (v.data u.engine)) ↔ place = .main) := by
  rw [run_of_columnChange? hc] at hu
  obtain ⟨r, u', hrun, hpure⟩ := Op.bind_ok hu
  cases hpure
  have hend := Op.ends_transformColumn laws (c := c) signal hs
    (Q := fun plan d => ∃ place new, ((layout (v.data s.engine)).table? place plan.table).isSome = true ∧
      (∀ other, other ≠ place → (layout (v.data s.engine)).table? other plan.table = none) ∧
      layout d = (layout (v.data s.engine)).rebuilt plan.table new) fun plan hplan w hw => ?_
  · obtain ⟨-, plan, hplan, place, new, hfound, hothers, hlayout⟩ := hend.ok hrun
    refine ⟨plan, place, new, hplan, hfound, hothers, hlayout, ?_⟩
    rw [hlayout]
    exact Layout.staysPut_rebuilt_iff hfound hothers
  · have hfree : ∀ place, (layout (v.data w.engine)).table? place plan.temporary = none := by
      intro place
      by_contra hsome
      rw [hw] at hsome
      have hcontains := hlisted place plan.temporary (Option.isSome_iff_ne_none.mpr hsome)
      rw [RebuildPlan.temporary_free hplan] at hcontains
      cases hcontains
    have hrebuilt := Op.ends_rebuild_placed laws (hplaced plan hplan) signal hfree
    rw [hw] at hrebuilt
    exact ((Op.isSteady_rebuild laws (hq.quietChange hc plan hplan) signal w).and hrebuilt).mono (fun _ _ h => h) fun _ _ h => h.1

/-! ## A temporary table -/

/-- A session with a table in the file and a temporary one. -/
def scratching : Session (Shell Schemas) where
  engine := { data := {
    main := { stored := [{ definition := { name := "hero", fields := [{ name := "id" }] }, sql := "CREATE TABLE hero (id)" }] }
    temp := { stored := [{
      definition := { name := "scratch", fields := [{ name := "a" }, { name := "b" }] }
      sql := "CREATE TABLE scratch (a, b)"
      rows := [[.integer 1, .text "x"]] }] } } }
  catalog := { objects := [
    { kind := .table, name := "hero", tableName := "hero", sql := "CREATE TABLE hero (id)", fields := [{ name := "id" }] },
    { kind := .table, name := "scratch", tableName := "scratch", sql := "CREATE TABLE scratch (a, b)",
      fields := [{ name := "a" }, { name := "b" }] }] }

/-- The plan that drops the second column of the temporary table. -/
def scratchPlan : RebuildPlan where
  table := "scratch"
  temporary := "oxide_transform_new_table"
  rebuilt := { name := "oxide_transform_new_table", fields := [{ name := "a" }] }
  columns := ["a"]
  discarded := []

theorem listed_scratching (place : Schema) (name : String) (h : (scratching.engine.data.layout.table? place name).isSome = true) :
    scratching.catalog.contains name = true := by
  have hnamed : ∃ o ∈ scratching.catalog.objects, sameName o.name name = true := by
    obtain ⟨x, hx⟩ := Option.isSome_iff_exists.mp h
    obtain ⟨t, ht, -⟩ := Option.map_eq_some_iff.mp hx
    have hmem := List.mem_of_find?_eq_some ht
    have hname : sameName t.definition.name name = true := by simpa using List.find?_some ht
    cases place with
    | main =>
      obtain rfl := List.mem_singleton.mp hmem
      exact ⟨_, List.mem_cons_self, hname⟩
    | temp =>
      obtain rfl := List.mem_singleton.mp hmem
      exact ⟨_, List.mem_cons_of_mem _ (List.mem_singleton_self _), hname⟩
  obtain ⟨o, ho, hname⟩ := hnamed
  rw [Catalog.contains, Option.isSome_iff_ne_none]
  intro hnone
  have hno := List.find?_eq_none.mp hnone o ho
  exact hno hname

/-- The temporary table is in the file afterwards, with its row. -/
theorem staysPut_iff_of_run_scratch : ∃ u, (dropColumn "scratch" "b" .never).run scratching = .ok () u ∧
    u.engine.data.layout.table? .main "scratch" = some { columns := ["a"], rows := [[.integer 1]] } ∧
    ¬scratching.engine.data.layout.StaysPut u.engine.data.layout := by
  have hdone : ((Op.done? (dropColumn "scratch" "b" .never).run scratching).bind fun u =>
      u.engine.data.main.contents "scratch") = some { columns := ["a"], rows := [[.integer 1]] } := by decide +kernel
  obtain ⟨u, hu, hrows⟩ := Option.bind_eq_some_iff.mp hdone
  obtain ⟨_, hrun⟩ := Op.done?_eq_some hu
  have hmake : RebuildPlan.make scratching.catalog { table := "scratch", column := "b", replacement := none } = .ok scratchPlan := by
    decide +kernel
  have hdependents : scratching.catalog.dependentsOf scratchPlan.table = [] := by decide
  have hplaced : scratchPlan.IsPlaced Shell.view Schemas.layout [] :=
    Schemas.isPlaced (Tables.statement?_sql (Table.canonical_of_fields (by decide) (by decide) (by decide))) rfl (by decide +kernel)
      (by decide) (by decide) (by decide)
  have hquiet : (dropColumn "scratch" "b" .never).IsQuiet (Shell.view (δ := Schemas)) scratching.catalog := by
    rintro c signal ⟨⟩ plan hplan
    cases hmake.symm.trans hplan
    exact ⟨Shell.quiet_of_head (Journal.head?_sql _) (by decide), by simp [hdependents]⟩
  obtain ⟨plan, place, new, hplan, hfound, -, -, hiff⟩ := staysPut_iff_of_run Schemas.layout Shell.transactional
    (c := { table := "scratch", column := "b", replacement := none }) rfl (show scratching.Agrees (Shell.view (δ := Schemas)) from rfl)
    hquiet listed_scratching (fun plan hmade => by
      cases hmake.symm.trans hmade
      rw [hdependents]
      exact hplaced) hrun
  refine ⟨u, hrun, hrows, ?_⟩
  intro hstays
  cases hiff.mp hstays
  cases hmake.symm.trans hplan
  -- the file has no table of the name
  have hnone : scratching.engine.data.layout.table? .main scratchPlan.table = none := by decide
  rw [show Shell.view.data scratching.engine = scratching.engine.data from rfl, hnone] at hfound
  cases hfound

end SchemaChange

end SchemaEditor
