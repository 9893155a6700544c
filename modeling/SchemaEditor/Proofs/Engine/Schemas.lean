import Mathlib.Data.List.Find
import SchemaEditor.Proofs.Engine.Tables

/-!
# The schemas of a connection

A connection has the schema of its file and a temporary one, which is gone when it is closed. A name that comes without a
schema is looked up in the temporary one first, and a table that is made under such a name comes to the file, unless the
statement says otherwise.
-/

namespace SchemaEditor

inductive Schema where
  | main
  | temp
deriving DecidableEq, Repr

/-- The tables of the schemas, whatever is looked at of a table. Names are the same in any case of their letters. -/
@[ext]
structure Layout (γ : Type) where
  table? : Schema → String → Option γ
  table?_congr (place : Schema) {a b : String} : sameName a b = true → table? place a = table? place b

namespace Layout

variable {γ : Type} {l l' l₀ l₁ l₂ l₃ l₄ : Layout γ} {place other : Schema} {name table temporary n : String} {x : Option γ}

/-- The schema in which a name is found. -/
def placeOf? (l : Layout γ) (name : String) : Option Schema :=
  if (l.table? .temp name).isSome then some .temp else if (l.table? .main name).isSome then some .main else none

/-- Puts a table in a schema, or takes it away. -/
def put (l : Layout γ) (place : Schema) (name : String) (x : Option γ) : Layout γ where
  table? p n := if p = place ∧ sameName n name = true then x else l.table? p n
  table?_congr p {a b} h := by
    rw [sameName_congr h, l.table?_congr p h]

/-! ## What statements do -/

/-- A table is made in the file. -/
def Creates (l l' : Layout γ) (name : String) : Prop := ∃ made, l' = l.put .main name (some made)

/-- A table is filled from another one. -/
def Fills (l l' : Layout γ) (name source : String) : Prop :=
  (l.placeOf? source).isSome ∧ ∃ place filled, l.placeOf? name = some place ∧ l' = l.put place name (some filled)

def Drops (l l' : Layout γ) (name : String) : Prop := ∃ place, l.placeOf? name = some place ∧ l' = l.put place name none

/-- A table gets a name that is free in its schema. -/
def Renames (l l' : Layout γ) (source target : String) : Prop :=
  ∃ place x, l.placeOf? source = some place ∧ l.table? place source = some x ∧ l.table? place target = none ∧
    l' = (l.put place source none).put place target (some x)

/-- The tables after a rebuild: the rebuilt table is in the file, wherever the old one was. -/
def rebuilt (l : Layout γ) (name : String) (new : γ) : Layout γ := (l.put .temp name none).put .main name (some new)

/-- No table leaves its schema, and none comes to the file. -/
structure StaysPut (l l' : Layout γ) : Prop where
  temp {name : String} : (l.table? .temp name).isSome = true → (l'.table? .temp name).isSome = true
  main {name : String} : (l.table? .main name).isSome = true → (l'.table? .main name).isSome = true
  none_new {name : String} : (l'.table? .main name).isSome = true → (l.table? .main name).isSome = true

/-! ## Putting -/

theorem table?_put (l : Layout γ) (place other : Schema) (name n : String) (x : Option γ) :
    (l.put place name x).table? other n = if other = place ∧ sameName n name = true then x else l.table? other n := rfl

theorem table?_put_self (l : Layout γ) (place : Schema) (h : sameName n name = true) (x : Option γ) :
    (l.put place name x).table? place n = x := if_pos ⟨rfl, h⟩

theorem table?_put_of_place (l : Layout γ) (h : other ≠ place) (x : Option γ) :
    (l.put place name x).table? other n = l.table? other n := if_neg fun hboth => h hboth.1

theorem table?_put_of_name (l : Layout γ) (h : sameName n name = false) (x : Option γ) :
    (l.put place name x).table? other n = l.table? other n := if_neg fun hboth => by
  rw [h] at hboth
  cases hboth.2

theorem placeOf?_of_temp (h : (l.table? .temp name).isSome = true) : l.placeOf? name = some .temp := if_pos h

theorem placeOf?_of_main (htemp : l.table? .temp name = none) (hmain : (l.table? .main name).isSome = true) :
    l.placeOf? name = some .main := by
  rw [placeOf?, htemp, if_neg (by simp), if_pos hmain]

theorem table?_of_placeOf? (h : l.placeOf? name = some place) : (l.table? place name).isSome = true := by
  unfold placeOf? at h
  split at h
  · cases h
    assumption
  · split at h
    · cases h
      assumption
    · cases h

/-! ## Rebuilding -/

/-- What is put in the file for a while leaves nothing behind. -/
theorem rebuilt_eq {made filled : γ} (hfree : ∀ place, l.table? place temporary = none)
    (hother : place = .main → l.table? .temp table = none) :
    (((((l.put .main temporary (some made)).put .main temporary (some filled)).put place table none).put .main temporary none).put
      .main table (some filled)) = l.rebuilt table filled := by
  ext1
  funext p n
  simp only [rebuilt, table?_put]
  by_cases htable : sameName n table = true
  · cases p with
    | main => simp [htable]
    | temp =>
      cases place with
      | main =>
        have hnone : l.table? .temp n = none := by rw [l.table?_congr .temp htable, hother rfl]
        simp [htable, hnone]
      | temp => simp [htable]
  · by_cases htemporary : sameName n temporary = true
    · have hnone : l.table? p n = none := by rw [l.table?_congr p htemporary, hfree]
      cases p with
      | main => simp [htable, htemporary, hnone]
      | temp => simp [htable, hnone]
    · simp [htable, htemporary]

/-- The statements of a rebuild take the table from the one schema it is in and bring it to the file. -/
theorem rebuilt_of_steps (hfree : ∀ place, l₀.table? place temporary = none) (hcreate : l₀.Creates l₁ temporary)
    (hfill : l₁.Fills l₂ temporary table) (hdrop : l₂.Drops l₃ table) (hrename : l₃.Renames l₄ temporary table) :
    ∃ place new, (l₀.table? place table).isSome = true ∧ (∀ other, other ≠ place → l₀.table? other table = none) ∧
      l₄ = l₀.rebuilt table new := by
  obtain ⟨made, h₁⟩ := hcreate
  obtain ⟨-, place₁, filled, hplace₁, h₂⟩ := hfill
  obtain ⟨place, hplace, h₃⟩ := hdrop
  obtain ⟨place₂, x, hplace₂, hx, hnone, h₄⟩ := hrename
  -- the temporary name is no name of the table, which would not be free when it is renamed
  have hne : sameName temporary table = false := by
    by_contra h
    rw [Bool.not_eq_false] at h
    rw [table?_congr _ place₂ h, hnone] at hx
    cases hx
  have hne' : sameName table temporary = false := by rw [sameName_comm, hne]
  have hself := sameName_refl temporary
  have hmade : l₁.placeOf? temporary = some .main := by
    rw [h₁]
    apply placeOf?_of_main
    · rw [table?_put_of_place _ (by simp), hfree]
    · rw [table?_put_self _ _ hself]
      rfl
  cases hmade.symm.trans hplace₁
  have hkept (p : Schema) : l₂.table? p table = l₀.table? p table := by
    rw [h₂, table?_put_of_name _ hne', h₁, table?_put_of_name _ hne']
  have hfound : (l₀.table? place table).isSome = true := by
    rw [← hkept]
    exact table?_of_placeOf? hplace
  have hfilled : l₃.table? .main temporary = some filled := by
    rw [h₃, table?_put_of_name _ hne, h₂, table?_put_self _ _ hself]
  have hmain : l₃.placeOf? temporary = some .main := by
    apply placeOf?_of_main
    · rw [h₃, table?_put_of_name _ hne, h₂, table?_put_of_place _ (by simp), h₁, table?_put_of_place _ (by simp), hfree]
    · rw [hfilled]
      rfl
  cases hmain.symm.trans hplace₂
  cases hfilled.symm.trans hx
  have hothers : ∀ other, other ≠ place → l₀.table? other table = none := by
    intro other hother
    cases place with
    | main =>
      cases other with
      | main => exact absurd rfl hother
      | temp =>
        by_contra h
        have htemp : l₂.placeOf? table = some .temp := by
          apply placeOf?_of_temp
          rw [hkept]
          exact Option.isSome_iff_ne_none.mpr h
        cases htemp.symm.trans hplace
    | temp =>
      cases other with
      | main => rwa [h₃, table?_put_of_place _ (by simp), hkept] at hnone
      | temp => exact absurd rfl hother
  refine ⟨place, filled, hfound, hothers, ?_⟩
  rw [h₄, h₃, h₂, h₁]
  apply rebuilt_eq hfree
  rintro rfl
  exact hothers .temp (by simp)

/-- A rebuilt table stays in its schema if and only if that is the file. -/
theorem staysPut_rebuilt_iff {new : γ} (hfound : (l.table? place table).isSome = true)
    (hothers : ∀ other, other ≠ place → l.table? other table = none) :
    l.StaysPut (l.rebuilt table new) ↔ place = .main := by
  have hself := sameName_refl table
  constructor
  · intro h
    cases place with
    | main => rfl
    | temp =>
      have hgone := h.temp hfound
      rw [rebuilt, table?_put_of_place _ (by simp), table?_put_self _ _ hself] at hgone
      cases hgone
  · rintro rfl
    have hnone := hothers .temp (by simp)
    have htemp (name : String) : (l.rebuilt table new).table? .temp name = l.table? .temp name := by
      rw [rebuilt, table?_put_of_place _ (by simp)]
      by_cases h : sameName name table = true
      · rw [table?_put_self _ _ h, l.table?_congr .temp h, hnone]
      · rw [table?_put_of_name _ (by simpa using h)]
    have hmain (name : String) : ((l.rebuilt table new).table? .main name).isSome = (l.table? .main name).isSome := by
      rw [rebuilt]
      by_cases h : sameName name table = true
      · rw [table?_put_self _ _ h, l.table?_congr .main h, hfound]
        rfl
      · rw [table?_put_of_name _ (by simpa using h), table?_put_of_place _ (by simp)]
    exact {
      temp := by
        intro name hname
        rwa [htemp]
      main := by
        intro name hname
        rwa [hmain]
      none_new := by
        intro name hname
        rwa [hmain] at hname }

end Layout

/-! ## Plans -/

/-- The engine takes the statements of a plan as they are meant, with names that have no schema: the new table is made in the
file, and the other names are looked up. What is made again leaves the tables where they are. -/
structure RebuildPlan.IsPlaced {σ δ γ : Type} [Engine σ] (v : EngineView σ δ) (layout : δ → Layout γ) (p : RebuildPlan)
    (dependents : List SchemaObject) : Prop where
  create {s s' : σ} {n : Nat} : Engine.execute p.rebuilt.sql s = (.ok n, s') →
    (layout (v.data s)).Creates (layout (v.data s')) p.temporary
  copy {s s' : σ} {n : Nat} : Engine.execute p.copySql s = (.ok n, s') →
    (layout (v.data s)).Fills (layout (v.data s')) p.temporary p.table
  drop {s s' : σ} {n : Nat} : Engine.execute ("DROP TABLE " ++ quoteIdentifier p.table) s = (.ok n, s') →
    (layout (v.data s)).Drops (layout (v.data s')) p.table
  rename {s s' : σ} {n : Nat} : Engine.execute (renameTableSql p.temporary p.table) s = (.ok n, s') →
    (layout (v.data s)).Renames (layout (v.data s')) p.temporary p.table
  dependents : ∀ o ∈ dependents, ∀ s : σ, layout (v.data (Engine.execute o.sql s).2) = layout (v.data s)

/-! ## One schema -/

namespace Tables

variable {d d' : Tables} {sql name source target a b : String} {k : Nat}

/-- Appends rows to a table. -/
def fill (d : Tables) (name : String) (rows : List (List Value)) : Tables :=
  d.modify name fun t => { t with rows := t.rows ++ rows }

/-- What is looked at of a table. -/
def rowsOf (t : StoredTable) : TableRows := { columns := t.definition.fieldNames, rows := t.rows }

theorem contents_eq (d : Tables) (name : String) : d.contents name = (d.find? name).map rowsOf := rfl

theorem find?_congr (d : Tables) (h : sameName a b = true) : d.find? a = d.find? b := by
  rw [find?, find?, funext fun t : StoredTable => sameName_congr_right h t.definition.name]

theorem contents_of_create {t : Table} (h : perform sql d (.create t) = .ok (k, d')) (n : String) :
    d'.contents n = if sameName n t.name then some { columns := t.fieldNames, rows := [] } else d.contents n := by
  rw [perform] at h
  split at h
  · cases h
  · next hfree =>
    cases h
    rw [contents_eq, contents_eq, find?, List.find?_append]
    by_cases hn : sameName n t.name = true
    · have hnone : d.find? n = none := by simpa [find?_congr d hn] using hfree
      rw [if_pos hn, show d.stored.find? (fun t => sameName t.definition.name n) = none from hnone]
      simp [rowsOf, sameName_comm t.name, hn]
    · rw [if_neg hn]
      simp [find?, sameName_comm t.name, hn]

theorem contents_of_drop (h : perform sql d (.drop name) = .ok (k, d')) (n : String) :
    d'.contents n = if sameName n name then none else d.contents n := by
  rw [perform] at h
  split at h
  · cases h
  · cases h
    rw [contents_eq, contents_eq, find?, List.find?_filter]
    by_cases hn : sameName n name = true
    · rw [if_pos hn]
      simp [sameName_congr_right hn]
    · have hsame (t : StoredTable) : decide ((!sameName t.definition.name name) = true ∧ sameName t.definition.name n = true) =
          sameName t.definition.name n := by
        by_cases ht : sameName t.definition.name n = true
        · simp [ht, sameName_congr ht, hn]
        · simp [ht]
      rw [if_neg hn]
      simp only [hsame]
      rfl

/-- A change of a table is seen under its name only, if it leaves the name. -/
theorem contents_fill {old : TableRows} (hold : d.contents name = some old) (rows : List (List Value)) (n : String) :
    (d.fill name rows).contents n = if sameName n name then some { old with rows := old.rows ++ rows } else d.contents n := by
  have hdefinition (t : StoredTable) :
      (if sameName t.definition.name name then { t with rows := t.rows ++ rows } else t).definition = t.definition := by
    split <;> rfl
  have hfind : (d.fill name rows).find? n =
      (d.find? n).map fun t => if sameName t.definition.name name then { t with rows := t.rows ++ rows } else t := by
    rw [find?, fill, modify, List.find?_map]
    simp only [Function.comp_def, hdefinition]
    rfl
  rw [contents_eq, contents_eq, hfind, Option.map_map]
  by_cases hn : sameName n name = true
  · rw [if_pos hn, find?_congr d hn]
    obtain ⟨t, ht, rfl⟩ := Option.map_eq_some_iff.mp ((contents_eq d name).symm.trans hold)
    rw [ht, Option.map_some, Function.comp_apply, if_pos (named_of_find? ht)]
    rfl
  · rw [if_neg hn]
    cases ht : d.find? n with
    | none => rfl
    | some t =>
      have hno : ¬sameName t.definition.name name = true := by
        rwa [sameName_congr (named_of_find? ht)]
      rw [Option.map_some, Option.map_some, Function.comp_apply, if_neg hno]

theorem contents_of_rename (h : perform sql d (.rename source target) = .ok (k, d')) :
    d.contents target = none ∧ ∃ x, d.contents source = some x ∧
      ∀ n, d'.contents n = if sameName n target then some x else if sameName n source then none else d.contents n := by
  rw [perform] at h
  split at h
  · cases h
  split at h
  · cases h
  · next hsource htarget =>
    cases h
    have hnone : d.find? target = none := by simpa using htarget
    obtain ⟨t, ht⟩ := Option.ne_none_iff_exists'.mp (show d.find? source ≠ none by simpa using hsource)
    refine ⟨by rw [contents_eq, hnone, Option.map_none], rowsOf t, by rw [contents_eq, ht, Option.map_some], ?_⟩
    intro n
    have hrows (u : StoredTable) : rowsOf (if sameName u.definition.name source then renamed target u else u) = rowsOf u := by
      split <;> rfl
    have hother (u : StoredTable) (hu : u ∈ d.stored) : sameName u.definition.name target = false := by
      simpa using List.find?_eq_none.mp hnone u hu
    rw [contents_eq, find?, modify, List.find?_map, Option.map_map]
    simp only [Function.comp_def, hrows]
    -- which tables are found under `n`, once the name is the new one
    have hfound {q : StoredTable → Bool} (hq : ∀ u ∈ d.stored,
        sameName (if sameName u.definition.name source then renamed target u else u).definition.name n = q u) :
        d.stored.find? (fun u => sameName (if sameName u.definition.name source then renamed target u else u).definition.name n) =
          d.stored.find? q := List.find?_congr hq
    by_cases htargeted : sameName n target = true
    · have hq (u : StoredTable) (hu : u ∈ d.stored) :
          sameName (if sameName u.definition.name source then renamed target u else u).definition.name n =
            sameName u.definition.name source := by
        by_cases hu' : sameName u.definition.name source = true
        · rw [if_pos hu', hu', sameName_comm]
          exact htargeted
        · rw [if_neg hu', sameName_congr_right htargeted, hother u hu]
          simpa using hu'
      rw [if_pos htargeted, hfound hq, show d.stored.find? (fun u => sameName u.definition.name source) = some t from ht]
      rfl
    · have hno : sameName target n = false := by
        rw [sameName_comm]
        simpa using htargeted
      rw [if_neg htargeted]
      by_cases hsourced : sameName n source = true
      · have hq (u : StoredTable) (_ : u ∈ d.stored) :
            sameName (if sameName u.definition.name source then renamed target u else u).definition.name n = false := by
          by_cases hu' : sameName u.definition.name source = true
          · rw [if_pos hu']
            exact hno
          · rw [if_neg hu', sameName_congr_right hsourced]
            simpa using hu'
        rw [if_pos hsourced, hfound hq]
        simp
      · have hq (u : StoredTable) (_ : u ∈ d.stored) :
            sameName (if sameName u.definition.name source then renamed target u else u).definition.name n =
              sameName u.definition.name n := by
          by_cases hu' : sameName u.definition.name source = true
          · rw [if_pos hu', sameName_congr hu', sameName_comm source]
            have hfalse : sameName n source = false := by simpa using hsourced
            exact hno.trans hfalse.symm
          · rw [if_neg hu']
        rw [if_neg hsourced, hfound hq]
        rfl

end Tables

/-! ## A repository with two schemas -/

structure Schemas where
  main : Tables := {}
  temp : Tables := {}
deriving DecidableEq, Repr

namespace Schemas

def tables (d : Schemas) : Schema → Tables
  | .main => d.main
  | .temp => d.temp

def withTables (d : Schemas) (place : Schema) (tables : Tables) : Schemas :=
  match place with
  | .main => { d with main := tables }
  | .temp => { d with temp := tables }

def layout (d : Schemas) : Layout TableRows where
  table? place := (d.tables place).contents
  table?_congr place a b h := by rw [Tables.contents, Tables.contents, Tables.find?_congr _ h]

/-- The schema in which a name is looked up, also if it is not found. -/
def placeOf (d : Schemas) (name : String) : Schema := (d.layout.placeOf? name).getD .main

/-- Whether a statement makes a temporary table. -/
def isTemporary (sql : String) : Bool :=
  ((tokenize sql)[1]?.bind Token.keyword?).any fun k => k == .temp || k == .temporary

/-- Carries a statement out in one schema. -/
def performIn (sql : String) (d : Schemas) (place : Schema) (statement : Tables.Statement) : Except EngineError (Nat × Schemas) :=
  (Tables.perform sql (d.tables place) statement).map fun r => (r.1, d.withTables place r.2)

def perform (sql : String) (d : Schemas) : Tables.Statement → Except EngineError (Nat × Schemas)
  | .create t => d.performIn sql (if isTemporary sql then .temp else .main) (.create t)
  | .drop name => d.performIn sql (d.placeOf name) (.drop name)
  | .rename source target => d.performIn sql (d.placeOf source) (.rename source target)
  | .copy target columns source =>
    match (d.tables (d.placeOf source)).contents source, (d.tables (d.placeOf target)).find? target with
    | some old, some _ =>
      let copies := old.rows.map fun row => columns.map fun name => (old.value? row name).getD .null
      .ok (copies.length, d.withTables (d.placeOf target) ((d.tables (d.placeOf target)).fill target copies))
    | none, _ => .error (Tables.missing source)
    | _, none => .error (Tables.missing target)
  | .attach kind name table => d.performIn sql (d.placeOf table) (.attach kind name table)

def apply (sql : String) (d : Schemas) : Except EngineError Nat × Schemas :=
  match Tables.statement? sql with
  | none => (.error { text := "syntax error" }, d)
  | some statement =>
    match perform sql d statement with
    | .ok (n, d') => (.ok n, d')
    | .error e => (.error e, d)

/-- The table that a query asks for. -/
def query (sql : String) (d : Schemas) : Except EngineError TableRows :=
  match Tables.quoted? ("SELECT * FROM ".toList ++ ['\x60']) sql.toList with
  | none => .error { text := "syntax error" }
  | some (name, _) => Tables.query sql (d.tables (d.placeOf name))

instance : Repository Schemas where
  default := {}
  apply := apply
  insertRow table row d :=
    let r := Tables.insertRow table row (d.tables (d.placeOf table))
    (r.1, d.withTables (d.placeOf table) r.2)
  schema d := (Repository.schema d.main ++ Repository.schema d.temp).insertionSort fun a b => Tables.precedes a b
  columns sql d := (query sql d).map TableRows.columns
  rows sql d :=
    match query sql d with
    | .ok r => { rows := r.rows }
    | .error e => { rows := [], failure := some e }

/-! ## Its statements -/

variable {d d' : Schemas} {place : Schema} {sql name : String} {statement : Tables.Statement} {k : Nat}

/-- A change of one schema leaves the other one alone. -/
theorem layout_withTables {tables : Tables} {l : Layout TableRows} (hplace : ∀ n, tables.contents n = l.table? place n)
    (hother : ∀ other n, other ≠ place → l.table? other n = d.layout.table? other n) : (d.withTables place tables).layout = l := by
  ext1
  funext p n
  cases p with
  | main =>
    cases place with
    | main => exact hplace n
    | temp => exact (hother .main n (by simp)).symm
  | temp =>
    cases place with
    | main => exact (hother .temp n (by simp)).symm
    | temp => exact hplace n

theorem layout_put {tables : Tables} {x : Option TableRows}
    (h : ∀ n, tables.contents n = if sameName n name then x else (d.tables place).contents n) :
    (d.withTables place tables).layout = d.layout.put place name x := by
  apply layout_withTables
  · intro n
    rw [h, Layout.table?_put]
    simp only [true_and]
    rfl
  · intro other n hother
    rw [Layout.table?_put_of_place _ hother]

theorem performIn_ok (h : d.performIn sql place statement = .ok (k, d')) :
    ∃ tables, Tables.perform sql (d.tables place) statement = .ok (k, tables) ∧ d' = d.withTables place tables := by
  unfold performIn at h
  cases hperform : Tables.perform sql (d.tables place) statement with
  | error e =>
    rw [hperform] at h
    cases h
  | ok r =>
    rw [hperform] at h
    cases h
    exact ⟨r.2, rfl, rfl⟩

/-- What is found in the schema in which it is looked up is found. -/
theorem placeOf?_of_contents {x : TableRows} (h : (d.tables (d.placeOf name)).contents name = some x) :
    d.layout.placeOf? name = some (d.placeOf name) := by
  unfold placeOf at h ⊢
  cases hplace : d.layout.placeOf? name with
  | some place => rfl
  | none =>
    rw [hplace] at h
    have hmain : (d.layout.table? .main name).isSome = true := Option.isSome_of_eq_some h
    unfold Layout.placeOf? at hplace
    rw [if_pos hmain] at hplace
    split at hplace
    · cases hplace
    · cases hplace

/-- What the shell hands on is carried out. -/
theorem perform_of_execute {c : Char} (hhead : sql.toList.head? = some c) (hc : c ≠ 'S' ∧ c ≠ 'R' ∧ c ≠ 'P')
    (hsql : Tables.statement? sql = some statement) {e e' : Shell Schemas} (h : Engine.execute sql e = (.ok k, e')) :
    perform sql e.data statement = .ok (k, e'.data) := by
  have happly : Engine.execute sql e = Shell.apply sql e := Shell.execute_eq_apply hhead hc e
  rw [happly, Shell.apply, show Repository.apply sql e.data = apply sql e.data from rfl, apply, hsql] at h
  dsimp only at h
  cases hr : perform sql e.data statement with
  | ok result =>
    rw [hr] at h
    cases h
    rfl
  | error error =>
    rw [hr] at h
    cases h

theorem creates_of_perform {t : Table} (hfile : isTemporary sql = false) (h : perform sql d (.create t) = .ok (k, d')) :
    d.layout.Creates d'.layout t.name := by
  rw [perform, hfile, if_neg Bool.false_ne_true] at h
  obtain ⟨tables, htables, rfl⟩ := performIn_ok h
  exact ⟨_, layout_put (Tables.contents_of_create htables)⟩

theorem drops_of_perform (h : perform sql d (.drop name) = .ok (k, d')) : d.layout.Drops d'.layout name := by
  obtain ⟨tables, htables, rfl⟩ := performIn_ok h
  have hfound : ∃ x, (d.tables (d.placeOf name)).contents name = some x := by
    rw [Tables.perform] at htables
    split at htables
    · cases htables
    · next hsome =>
      obtain ⟨t, ht⟩ := Option.ne_none_iff_exists'.mp (show (d.tables (d.placeOf name)).find? name ≠ none by simpa using hsome)
      exact ⟨_, by rw [Tables.contents_eq, ht, Option.map_some]⟩
  obtain ⟨x, hx⟩ := hfound
  exact ⟨_, placeOf?_of_contents hx, layout_put (Tables.contents_of_drop htables)⟩

theorem renames_of_perform {source target : String} (h : perform sql d (.rename source target) = .ok (k, d')) :
    d.layout.Renames d'.layout source target := by
  obtain ⟨tables, htables, rfl⟩ := performIn_ok h
  obtain ⟨hnone, x, hx, hcontents⟩ := Tables.contents_of_rename htables
  refine ⟨_, x, placeOf?_of_contents hx, hx, hnone, ?_⟩
  apply layout_withTables
  · intro n
    rw [hcontents, Layout.table?_put, Layout.table?_put]
    simp only [true_and]
    rfl
  · intro other n hother
    rw [Layout.table?_put_of_place _ hother, Layout.table?_put_of_place _ hother]

theorem fills_of_perform {target source : String} {columns : List String} (h : perform sql d (.copy target columns source) = .ok (k, d')) :
    d.layout.Fills d'.layout target source := by
  rw [perform] at h
  split at h
  · next old t hold ht =>
    cases h
    have htarget : (d.tables (d.placeOf target)).contents target = some (Tables.rowsOf t) := by
      rw [Tables.contents_eq, ht, Option.map_some]
    constructor
    · rw [placeOf?_of_contents hold]
      rfl
    · exact ⟨_, _, placeOf?_of_contents htarget, layout_put (Tables.contents_fill htarget _)⟩
  · cases h
  · cases h

/-- The tables of two schemas take a plan whose texts are read as they are meant. -/
theorem isPlaced {p : RebuildPlan} {t : Table} (hcreate : Tables.statement? p.rebuilt.sql = some (.create t))
    (hname : t.name = p.temporary) (hfile : isTemporary p.rebuilt.sql = false)
    (hcopy : Tables.statement? p.copySql = some (.copy p.temporary p.columns p.table))
    (hdrop : Tables.statement? ("DROP TABLE " ++ quoteIdentifier p.table) = some (.drop p.table))
    (hrename : Tables.statement? (renameTableSql p.temporary p.table) = some (.rename p.temporary p.table)) :
    p.IsPlaced Shell.view layout [] where
  create h := hname ▸ creates_of_perform hfile (perform_of_execute (Journal.head?_sql _) (by decide) hcreate h)
  copy h := fills_of_perform (perform_of_execute (Journal.head?_copySql p) (by decide) hcopy h)
  drop h := drops_of_perform (perform_of_execute (Journal.head?_drop p.table) (by decide) hdrop h)
  rename h := renames_of_perform (perform_of_execute (Journal.head?_renameTableSql _ _) (by decide) hrename h)
  dependents := nofun

end Schemas

end SchemaEditor
