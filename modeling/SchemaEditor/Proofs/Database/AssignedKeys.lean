import SchemaEditor.Proofs.Database.Values
import SchemaEditor.Proofs.Engine.Counters

/-!
# Keys that are assigned after a rebuild

A rebuilt table is a new table, whose keys are counted from those that are copied into it. What the old table had counted
beyond these is not known any more: the key of a row that was deleted last is assigned again.
-/

namespace SchemaEditor

variable {σ δ : Type}

/-- The column stays as it is: another one is changed, or it is moved. -/
def ColumnChange.Leaves (c : ColumnChange) (t : Table) (a : Field) : Prop :=
  a.isNamed c.column = false ∨ t.field? c.column = some a ∧ c.replacement = some a

namespace RebuildPlan.Arranges

variable {p : RebuildPlan} {t : Table} {c : ColumnChange} {i j : Nat} {a : Field}

/-- A column that stays as it is is a column of the rebuilt table. -/
theorem mem_rebuilt (h : p.Arranges t c i j) (ha : a ∈ t.fields) (hleaves : c.Leaves t a) : a ∈ p.rebuilt.fields := by
  obtain ⟨b, hb, hfound, hfield⟩ := Table.field?_of_find? h.find
  rcases hleaves with hother | ⟨hcolumn, hreplacement⟩
  · obtain ⟨m, hm⟩ := List.mem_iff_getElem?.mp ha
    have hne : m ≠ i := by
      rintro rfl
      cases hm.symm.trans hb
      rw [hfound] at hother
      cases hother
    obtain ⟨k, hk, -⟩ := h.kept hne hm
    exact List.mem_of_getElem? hk
  · cases hfield.symm.trans hcolumn
    obtain ⟨k, hk, -⟩ := h.changed hreplacement hb
    exact List.mem_of_getElem? hk

variable {old filled : CountedRows}

/-- A copy has the key of its row. -/
theorem key?_copy (h : p.Arranges t c i j) (hd : Distinct p.rebuilt.fields) (ha : a ∈ t.fields) (hleaves : c.Leaves t a)
    {row copy : List Value} (hcopy : p.CopiesRow t old.toTableRows row copy) {n : Int} (hn : old.key? a.name row = some n) :
    (CountedRows.fresh p.rebuilt.fieldNames).key? a.name copy = some n := by
  have hvalue : old.value? row a.name = some (.integer n) := by
    rw [CountedRows.key?] at hn
    split at hn
    · next m hm => cases hn; exact hm
    · cases hn
  have hkeeps : c.KeepsRow t old.toTableRows { columns := p.rebuilt.fieldNames, rows := [] } row copy := h.keepsRow hd hcopy
  have hkept : ({ columns := p.rebuilt.fieldNames, rows := [] } : TableRows).value? copy a.name = some (.integer n) := by
    rcases hleaves with hother | ⟨hcolumn, hreplacement⟩
    · exact hkeeps.others a ha hother _ hvalue
    · have hnamed : a.isNamed c.column = true := by
        unfold Table.field? at hcolumn
        simpa using List.find?_some hcolumn
      exact hkeeps.changed a a hcolumn hreplacement rfl _ ((old.value?_congr row hnamed).symm.trans hvalue)
  rw [CountedRows.key?, CountedRows.fresh]
  dsimp only
  rw [hkept]

/-- The keys are copied, and no others are counted. -/
theorem counts_keys (h : p.Arranges t c i j) (hd : Distinct p.rebuilt.fields) (ha : a ∈ t.fields) (hauto : a.autoIncrement = true)
    (hleaves : c.Leaves t a) (hold : old.IsCounted a.name)
    (hfilled : p.CountsCopies t old (.fresh p.rebuilt.fieldNames) filled) :
    filled.keys a.name = old.keys a.name ∧ filled.counter = largest (old.keys a.name) := by
  obtain ⟨copies, hcopies, hcounted⟩ := hfilled
  let key? := (CountedRows.fresh p.rebuilt.fieldNames).key? a.name
  have hkeyed (rows) (hrows : ∀ row ∈ rows, ∃ n, old.key? a.name row = some n) (copies)
      (hcopies : List.Forall₂ (p.CopiesRow t old.toTableRows) rows copies) :
      (∀ copy ∈ copies, ∃ n, key? copy = some n) ∧ copies.filterMap key? = rows.filterMap (old.key? a.name) := by
    induction hcopies with
    | nil => exact ⟨nofun, rfl⟩
    | @cons row copy rows copies hcopy hcopies ih =>
      obtain ⟨n, hn⟩ := hrows row List.mem_cons_self
      have hkey : key? copy = some n := h.key?_copy hd ha hleaves hcopy hn
      obtain ⟨hall, hkeys⟩ := ih fun row hrow => hrows row (List.mem_cons_of_mem _ hrow)
      refine ⟨List.forall_mem_cons.mpr ⟨⟨n, hkey⟩, hall⟩, ?_⟩
      rw [List.filterMap_cons, List.filterMap_cons, hkey, hn, hkeys]
  obtain ⟨hall, hkeys⟩ := hkeyed old.rows hold.keyed copies hcopies
  have hinserted := CountedRows.foldl_insert (Int.le_refl 0) hall
  rw [hcounted a (h.mem_rebuilt ha hleaves) hauto, hinserted]
  have hcounter := largest_nonneg (old.keys a.name)
  have hkeys' : copies.filterMap ((CountedRows.fresh p.rebuilt.fieldNames).key? a.name) = old.keys a.name := hkeys
  refine ⟨hkeys, ?_⟩
  rw [hkeys']
  exact Int.max_eq_right hcounter

end RebuildPlan.Arranges

namespace SchemaChange

variable [Engine σ] {v : EngineView σ δ}

/-- After a change of a column the keys of a table that counts them are counted from the rows it has: the next key is one more
than the largest of theirs, and rows are inserted with it. It is the next key of the table as it was exactly if no larger key
was ever held. -/
theorem nextKey_of_run (laws : Transactional v) (counted : δ → String → Option CountedRows) {change : SchemaChange}
    {s u : Session σ} {c : ColumnChange} {signal : Signal} (hc : change.columnChange? s.catalog = some (c, signal))
    (hs : s.Agrees v) (hq : change.IsQuiet v s.catalog) {t : Table} {discarded : List String}
    (ht : s.catalog.definition? c.table = .ok (t, discarded)) {a : Field} (ha : a ∈ t.fields) (hauto : a.autoIncrement = true)
    (hleaves : c.Leaves t a)
    (hcounts : ∀ plan, RebuildPlan.make s.catalog c = .ok plan → plan.IsCounted v counted t (s.catalog.dependentsOf plan.table))
    {columns : List String} {events : List RowEvent} {old : CountedRows} (hold : old = (CountedRows.fresh columns).after a.name events)
    (htable : counted (v.data s.engine) t.name = some old) (hu : change.run s = .ok () u) :
    old.nextKey = largest ((CountedRows.fresh columns).held a.name events) + 1 ∧
    ∃ new, counted (v.data u.engine) t.name = some new ∧ new.keys a.name = old.keys a.name ∧
      new.nextKey = largest (old.keys a.name) + 1 ∧
      (∀ row, new.value? row a.name = some .null → (new.insert a.name row).keys a.name = old.keys a.name ++ [new.nextKey]) ∧
      (new.nextKey = old.nextKey ↔ largest (old.keys a.name) = largest ((CountedRows.fresh columns).held a.name events)) := by
  subst hold
  rw [run_of_columnChange? hc] at hu
  obtain ⟨r, u', hrun, hpure⟩ := Op.bind_ok hu
  cases hpure
  have hend := Op.ends_transformColumn laws (c := c) signal hs
    (Q := fun plan d => ∃ filled, plan.CountsCopies t ((CountedRows.fresh columns).after a.name events)
      (.fresh plan.rebuilt.fieldNames) filled ∧ counted d plan.table = some filled) fun plan hplan w hw => ?_
  · obtain ⟨-, plan, hplan, filled, hfilled, hnew⟩ := hend.ok hrun
    obtain ⟨t', discarded', i, j, ht', hname, harranges, -, hvalid⟩ := RebuildPlan.arranges_of_make hplan
    cases ht.symm.trans ht'
    have hcounter : ((CountedRows.fresh columns).after a.name events).counter = largest ((CountedRows.fresh columns).held a.name events) :=
      CountedRows.counter_fresh columns events
    obtain ⟨hkeys, hfilledCounter⟩ := harranges.counts_keys (Table.valid_of_validate hvalid).distinct ha hauto hleaves
      (CountedRows.isCounted_after (CountedRows.isCounted_fresh columns) events) hfilled
    refine ⟨by rw [CountedRows.nextKey, hcounter], filled, hname ▸ hnew, hkeys, ?_, fun row hrow => ?_, ?_⟩
    · rw [CountedRows.nextKey, hfilledCounter]
    · rw [CountedRows.keys_insert_of_null hrow, hkeys]
    · rw [CountedRows.nextKey, CountedRows.nextKey, hfilledCounter, hcounter]
      omega
  · obtain ⟨t', discarded', i, j, ht', hname, -⟩ := RebuildPlan.arranges_of_make hplan
    cases ht.symm.trans ht'
    have hcarried := Op.ends_rebuild_carries laws (hcounts plan hplan) signal (s := w) (by rw [hw, hname, htable])
    exact ((Op.isSteady_rebuild laws (hq.quietChange hc plan hplan) signal w).and hcarried).mono (fun _ _ h => h) fun _ _ h => h.1

/-- The table `hero`, which counts its keys. -/
def countingHero : Table where
  name := "hero"
  fields := [
    { name := "id", sqlType := "integer", primaryKey := true, autoIncrement := true },
    { name := "name", sqlType := "text" }]

/-- A session with that table. -/
def counting : Session Journal where
  engine := {}
  catalog := { objects := [
    { kind := .table, name := "hero", tableName := "hero", fields := [],
      sql := "CREATE TABLE hero (id integer PRIMARY KEY AUTOINCREMENT, name text)" }] }

/-- The plan that drops the last column. -/
def nameless : RebuildPlan where
  table := "hero"
  temporary := "oxide_transform_new_table"
  rebuilt := { countingHero with name := "oxide_transform_new_table", fields := countingHero.fields.take 1 }
  columns := ["id"]
  discarded := []

/-- Two rows came, and the last one went again. -/
def departure : List RowEvent :=
  [.insert [.null, .text "a"], .insert [.null, .text "b"], .delete fun row => row.head? == some (.integer 2)]

def countedHero : CountedRows := (CountedRows.fresh ["id", "name"]).after "id" departure

/-- The counted rows after the texts of a journal. -/
def heroCounts (texts : List String) : String → Option CountedRows :=
  Journal.looked nameless (.fresh nameless.rebuilt.fieldNames)
    (fun old new => (old.rows.map (Journal.copyRow nameless old.toTableRows)).foldl (CountedRows.insert "id") new)
    (Function.update (fun _ => none) "hero" (some countedHero)) texts

theorem isCounted_heroCounts : nameless.IsCounted Journal.view heroCounts countingHero [] :=
  Journal.isCounted_looked (by decide) countingHero (by decide) _

/-- The column is dropped, and the next key is one more than that of the row that stayed. -/
theorem run_nameless : ∃ u new, (dropColumn "hero" "name" .never).run counting = .ok () u ∧
    heroCounts u.engine.applied "hero" = some new ∧ new.nextKey = 2 := by
  have hdropped : ((Op.done? (dropColumn "hero" "name" .never).run counting).bind fun u => heroCounts u.engine.applied "hero").map
      CountedRows.nextKey = some 2 := by decide +kernel
  obtain ⟨new, hnew, hnext⟩ := Option.map_eq_some_iff.mp hdropped
  obtain ⟨u, hu, hnew⟩ := Option.bind_eq_some_iff.mp hnew
  obtain ⟨_, hrun⟩ := Op.done?_eq_some hu
  exact ⟨u, new, hrun, hnew, hnext⟩

/-- The row that stayed keeps its key, and a new row comes after it. -/
theorem nextKey_of_run_nameless :
    ∃ u new, (dropColumn "hero" "name" .never).run counting = .ok () u ∧ heroCounts u.engine.applied "hero" = some new ∧
      new.keys "id" = [1] ∧
      ∀ row, new.value? row "id" = some .null → (new.insert "id" row).keys "id" = [1, 2] := by
  have hdefinition : counting.catalog.definition? "hero" = .ok (countingHero, []) := by decide +kernel
  have hmake : RebuildPlan.make counting.catalog { table := "hero", column := "name", replacement := none } = .ok nameless := by
    decide +kernel
  have hdependents : counting.catalog.dependentsOf nameless.table = [] := by decide
  have hplan : ∀ plan, RebuildPlan.make counting.catalog { table := "hero", column := "name", replacement := none } = .ok plan →
      plan = nameless := fun plan h => by rw [hmake] at h; cases h; rfl
  have hquiet : (dropColumn "hero" "name" .never).IsQuiet Journal.view counting.catalog := by
    intro c signal h plan hmade
    cases h
    obtain rfl := hplan plan hmade
    exact ⟨Journal.quiet_of_head (Journal.head?_sql _) (by decide), by simp [hdependents]⟩
  have hagrees : counting.Agrees Journal.view := rfl
  obtain ⟨u, -, hrun, -⟩ := run_nameless
  have hkeys := nextKey_of_run Journal.transactional heroCounts (c := { table := "hero", column := "name", replacement := none }) rfl
    hagrees hquiet hdefinition (a := { name := "id", sqlType := "integer", primaryKey := true, autoIncrement := true }) (by decide)
    rfl (.inl (by decide)) (fun plan hmade => by rw [hplan plan hmade, hdependents]; exact isCounted_heroCounts)
    (show countedHero = (CountedRows.fresh ["id", "name"]).after "id" departure from rfl) rfl hrun
  obtain ⟨-, new, hnew, hkeys, hnext, hinsert, -⟩ := hkeys
  have hold : countedHero.keys "id" = [1] := by decide
  rw [hold] at hkeys hnext hinsert
  rw [show new.nextKey = 2 from hnext] at hinsert
  exact ⟨u, new, hrun, hnew, hkeys, hinsert⟩

/-- The key of the row that went is assigned again. -/
theorem not_nextKey_nameless :
    nameless.IsCounted Journal.view heroCounts countingHero [] ∧ heroCounts counting.engine.applied "hero" = some countedHero ∧
      countedHero.nextKey = 3 ∧
      ∃ u new, (dropColumn "hero" "name" .never).run counting = .ok () u ∧ heroCounts u.engine.applied "hero" = some new ∧
        new.nextKey = 2 :=
  ⟨isCounted_heroCounts, rfl, by decide, run_nameless⟩

end SchemaChange

end SchemaEditor
