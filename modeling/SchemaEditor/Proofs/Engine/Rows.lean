import SchemaEditor.Proofs.Engine.Journal
import SchemaEditor.Proofs.Table.Names
import SchemaEditor.Sql.Script

/-!
# The rows of an engine

What an engine does to rows when it carries out a plan. This is said of the statements of one plan, as they are
executed: a definition that brings other statements along may do anything. A journal can be read as rows, and takes
a plan as it is meant unless its texts delete rows.
-/

namespace SchemaEditor

variable {σ δ : Type}

/-- What a table holds. -/
structure TableRows where
  columns : List String
  rows : List (List Value)
deriving DecidableEq, Repr

namespace TableRows

/-- The value of a row in the column of a name. -/
def value? (r : TableRows) (row : List Value) (name : String) : Option Value :=
  (r.columns.findIdx? fun column => sameName column name).bind fun k => row[k]?

theorem value?_congr (r : TableRows) (row : List Value) {a b : String} (h : sameName a b = true) :
    r.value? row a = r.value? row b := by
  rw [value?, value?, funext (sameName_congr_right h)]

/-- In a table without two columns of a name each column is found at its place. -/
theorem value?_of_place {fs : List Field} (hd : Distinct fs) {rows : List (List Value)} {k : Nat} {f : Field}
    (hf : fs[k]? = some f) (row : List Value) :
    ({ columns := fs.map Field.name, rows } : TableRows).value? row f.name = row[k]? := by
  have hfind : (fs.map Field.name).findIdx? (fun column => sameName column f.name) = some k := by
    obtain ⟨hk, rfl⟩ := List.getElem?_eq_some_iff.mp hf
    rw [List.findIdx?_eq_some_iff_getElem]
    refine ⟨by rwa [List.length_map], by simp, fun m hm hsame => ?_⟩
    rw [List.getElem_map] at hsame
    have hlength : (fs.map fun g => foldCase g.name).length = fs.length := List.length_map _
    have hfolded : (fs.map fun g => foldCase g.name)[m] = (fs.map fun g => foldCase g.name)[k] := by
      rw [List.getElem_map, List.getElem_map]
      exact sameName_iff.mp hsame
    exact Nat.ne_of_lt hm (hd.getElem_inj_iff.mp hfolded)
  rw [value?, hfind]
  rfl

end TableRows

/-! ## Plans -/

/-- The row is copied place by place: a column that has the definition of the one its values come from, whatever its
name, takes them as they are. -/
def RebuildPlan.CopiesRow (p : RebuildPlan) (t : Table) (old : TableRows) (row copy : List Value) : Prop :=
  ∀ (k : Nat) (f a : Field), p.rebuilt.fields[k]? = some f → a ∈ t.fields → p.columns[k]? = some a.name →
    f = a.renamed f.name → ∀ x, old.value? row a.name = some x → copy[k]? = some x

/-- The engine takes the statements of a plan as they are meant: the new definition makes an empty table, copying copies
row by row, and what is made again leaves the rows alone. -/
structure RebuildPlan.IsFaithful [Engine σ] (v : EngineView σ δ) (contents : δ → String → Option TableRows)
    (p : RebuildPlan) (t : Table) (dependents : List SchemaObject) : Prop where
  create {s s' : σ} {n : Nat} : Engine.execute p.rebuilt.sql s = (.ok n, s') →
    contents (v.data s') p.temporary = some { columns := p.rebuilt.fieldNames, rows := [] } ∧
      contents (v.data s') p.table = contents (v.data s) p.table
  copy {s s' : σ} {n : Nat} {old new : TableRows} : Engine.execute p.copySql s = (.ok n, s') →
    contents (v.data s) p.table = some old → contents (v.data s) p.temporary = some new →
    ∃ copies, List.Forall₂ (p.CopiesRow t old) old.rows copies ∧
      contents (v.data s') p.temporary = some { new with rows := new.rows ++ copies }
  drop {s s' : σ} {n : Nat} : Engine.execute ("DROP TABLE " ++ quoteIdentifier p.table) s = (.ok n, s') →
    contents (v.data s') p.temporary = contents (v.data s) p.temporary
  rename {s s' : σ} {n : Nat} : Engine.execute (renameTableSql p.temporary p.table) s = (.ok n, s') →
    contents (v.data s') p.table = contents (v.data s) p.temporary
  dependents : ∀ o ∈ dependents, ∀ s : σ, contents (v.data (Engine.execute o.sql s).2) p.table = contents (v.data s) p.table

/-- The engine takes the statements of a plan as they are meant, whatever is looked at of its tables: the new definition makes a
table like `made`, copying adds to it what `copied` says, and what is made again leaves the table alone. -/
structure RebuildPlan.Carries [Engine σ] {γ : Type} (v : EngineView σ δ) (look : δ → String → Option γ) (p : RebuildPlan)
    (dependents : List SchemaObject) (made : γ) (copied : γ → γ → γ → Prop) : Prop where
  create {s s' : σ} {n : Nat} : Engine.execute p.rebuilt.sql s = (.ok n, s') →
    look (v.data s') p.temporary = some made ∧ look (v.data s') p.table = look (v.data s) p.table
  copy {s s' : σ} {n : Nat} {old new : γ} : Engine.execute p.copySql s = (.ok n, s') →
    look (v.data s) p.table = some old → look (v.data s) p.temporary = some new →
    ∃ filled, copied old new filled ∧ look (v.data s') p.temporary = some filled
  drop {s s' : σ} {n : Nat} : Engine.execute ("DROP TABLE " ++ quoteIdentifier p.table) s = (.ok n, s') →
    look (v.data s') p.temporary = look (v.data s) p.temporary
  rename {s s' : σ} {n : Nat} : Engine.execute (renameTableSql p.temporary p.table) s = (.ok n, s') →
    look (v.data s') p.table = look (v.data s) p.temporary
  dependents : ∀ o ∈ dependents, ∀ s : σ, look (v.data (Engine.execute o.sql s).2) p.table = look (v.data s) p.table

/-- Rows are one thing to look at. -/
theorem RebuildPlan.IsFaithful.carries [Engine σ] {v : EngineView σ δ} {contents : δ → String → Option TableRows} {p : RebuildPlan}
    {t : Table} {dependents : List SchemaObject} (h : p.IsFaithful v contents t dependents) :
    p.Carries v contents dependents { columns := p.rebuilt.fieldNames, rows := [] } fun old new filled =>
      ∃ copies, List.Forall₂ (p.CopiesRow t old) old.rows copies ∧ filled = { new with rows := new.rows ++ copies } where
  create := h.create
  copy hs hold hnew := by
    obtain ⟨copies, hcopies, hfilled⟩ := h.copy hs hold hnew
    exact ⟨_, ⟨copies, hcopies, rfl⟩, hfilled⟩
  drop := h.drop
  rename := h.rename
  dependents := h.dependents

/-! ## A journal that is read as rows -/

namespace Journal

/-- What a text of a plan does to the rows. -/
def carriedOut (p : RebuildPlan) (tables : String → Option TableRows) (text : String) : String → Option TableRows :=
  if text = p.rebuilt.sql then Function.update tables p.temporary (some { columns := p.rebuilt.fieldNames, rows := [] })
  else if text = p.copySql then
    match tables p.table, tables p.temporary with
    | some old, some new =>
      let copies := old.rows.map fun row => p.columns.map fun name => (old.value? row name).getD .null
      Function.update tables p.temporary (some { new with rows := new.rows ++ copies })
    | _, _ => tables
  else if text = "DROP TABLE " ++ quoteIdentifier p.table then Function.update tables p.table none
  else if text = renameTableSql p.temporary p.table then
    Function.update (Function.update tables p.table (tables p.temporary)) p.temporary none
  else tables

/-- Whether one of the statements of a text deletes all rows of a table. -/
def empties (table text : String) : Bool := (Script.statements text).contains ("DELETE FROM " ++ table)

def emptied (tables : String → Option TableRows) (table : String) : String → Option TableRows :=
  Function.update tables table ((tables table).map fun r => { r with rows := [] })

/-- The rows after the texts of a journal. -/
def contents (p : RebuildPlan) (start : String → Option TableRows) (texts : List String) : String → Option TableRows :=
  texts.foldl (fun tables text => carriedOut p (if empties p.table text then emptied tables p.table else tables) text) start

theorem contents_append {p : RebuildPlan} {start : String → Option TableRows} {texts : List String} {text : String}
    (h : empties p.table text = false) :
    contents p start (texts ++ [text]) = carriedOut p (contents p start texts) text := by
  rw [contents, List.foldl_append, List.foldl_cons, List.foldl_nil, h]
  rfl

/-- The texts of a plan differ in their first letters. -/
theorem ne_of_head {s t : String} {c d : Char} (hs : s.toList.head? = some c) (ht : t.toList.head? = some d) (h : c ≠ d) :
    s ≠ t := by
  rintro rfl
  exact h (Option.some.inj (hs.symm.trans ht))

/-- What a text of a plan does to tables, whatever is looked at of them. -/
def carried {γ : Type} (p : RebuildPlan) (made : γ) (copy : γ → γ → γ) (tables : String → Option γ) (text : String) : String → Option γ :=
  if text = p.rebuilt.sql then Function.update tables p.temporary (some made)
  else if text = p.copySql then
    match tables p.table, tables p.temporary with
    | some old, some new => Function.update tables p.temporary (some (copy old new))
    | _, _ => tables
  else if text = "DROP TABLE " ++ quoteIdentifier p.table then Function.update tables p.table none
  else if text = renameTableSql p.temporary p.table then
    Function.update (Function.update tables p.table (tables p.temporary)) p.temporary none
  else tables

/-- The tables after the texts of a journal. -/
def looked {γ : Type} (p : RebuildPlan) (made : γ) (copy : γ → γ → γ) (start : String → Option γ) (texts : List String) :
    String → Option γ :=
  texts.foldl (carried p made copy) start

/-- A row is copied place by place. -/
def copyRow (p : RebuildPlan) (old : TableRows) (row : List Value) : List Value :=
  p.columns.map fun name => (old.value? row name).getD .null

theorem copiesRow_copyRow (p : RebuildPlan) (t : Table) (old : TableRows) (row : List Value) : p.CopiesRow t old row (copyRow p old row) := by
  intro k f a _ _ hcolumn _ x hx
  rw [copyRow, List.getElem?_map, hcolumn, Option.map_some, hx]
  rfl

theorem forall₂_copyRow (p : RebuildPlan) (t : Table) (old : TableRows) :
    List.Forall₂ (p.CopiesRow t old) old.rows (old.rows.map (copyRow p old)) := by
  rw [List.forall₂_map_right_iff, List.forall₂_same]
  exact fun row _ => copiesRow_copyRow p t old row

theorem carriedOut_eq (p : RebuildPlan) :
    carriedOut p = carried p { columns := p.rebuilt.fieldNames, rows := [] } fun old new =>
      { new with rows := new.rows ++ old.rows.map (copyRow p old) } := by
  funext tables text
  unfold carriedOut carried
  cases tables p.table <;> cases tables p.temporary <;> rfl

section
variable {γ : Type} {p : RebuildPlan} {made : γ} {copy : γ → γ → γ} {tables : String → Option γ}

theorem carried_create : carried p made copy tables p.rebuilt.sql = Function.update tables p.temporary (some made) := if_pos rfl

theorem carried_copy {old new : γ} (hold : tables p.table = some old) (hnew : tables p.temporary = some new) :
    carried p made copy tables p.copySql = Function.update tables p.temporary (some (copy old new)) := by
  have hcreate := ne_of_head (head?_copySql p) (head?_sql p.rebuilt) (by decide)
  rw [carried, if_neg hcreate, if_pos rfl, hold, hnew]

theorem carried_drop : carried p made copy tables ("DROP TABLE " ++ quoteIdentifier p.table) = Function.update tables p.table none := by
  have hcreate := ne_of_head (head?_drop p.table) (head?_sql p.rebuilt) (by decide)
  have hcopy := ne_of_head (head?_drop p.table) (head?_copySql p) (by decide)
  rw [carried, if_neg hcreate, if_neg hcopy, if_pos rfl]

theorem carried_rename : carried p made copy tables (renameTableSql p.temporary p.table) =
    Function.update (Function.update tables p.table (tables p.temporary)) p.temporary none := by
  have hhead := head?_renameTableSql p.temporary p.table
  have hcreate := ne_of_head hhead (head?_sql p.rebuilt) (by decide)
  have hcopy := ne_of_head hhead (head?_copySql p) (by decide)
  have hdrop := ne_of_head hhead (head?_drop p.table) (by decide)
  rw [carried, if_neg hcreate, if_neg hcopy, if_neg hdrop, if_pos rfl]

end

theorem looked_append {γ : Type} (p : RebuildPlan) (made : γ) (copy : γ → γ → γ) (start : String → Option γ) (texts : List String)
    (text : String) : looked p made copy start (texts ++ [text]) = carried p made copy (looked p made copy start texts) text := by
  rw [looked, List.foldl_append]
  rfl

/-- A text that is no text on savepoints or settings and is carried out is listed. -/
theorem applied_of_execute {sql : String} {c : Char} (h : sql.toList.head? = some c) (hc : c ≠ 'S' ∧ c ≠ 'R' ∧ c ≠ 'P')
    {j j' : Journal} {n : Nat} (hrun : Engine.execute sql j = (.ok n, j')) : j'.applied = j.applied ++ [sql] := by
  rw [apply_ok ((execute_eq_apply h hc j).symm.trans hrun)]

/-- Whatever is looked at, a journal takes a plan as it is meant. -/
theorem carries_looked {γ : Type} {p : RebuildPlan} (hne : p.table ≠ p.temporary) (made : γ) (copy : γ → γ → γ)
    (start : String → Option γ) : p.Carries view (looked p made copy start) [] made fun old new filled => filled = copy old new where
  create {s s' n} h := by
    have happlied := applied_of_execute (head?_sql p.rebuilt) (by decide) h
    show looked p made copy start s'.applied p.temporary = _ ∧ looked p made copy start s'.applied p.table = _
    rw [happlied, looked_append, carried_create]
    exact ⟨Function.update_self .., Function.update_of_ne hne ..⟩
  copy {s s' n old new} h hold hnew := by
    have happlied := applied_of_execute (head?_copySql p) (by decide) h
    have hold : looked p made copy start s.applied p.table = some old := hold
    have hnew : looked p made copy start s.applied p.temporary = some new := hnew
    refine ⟨_, rfl, ?_⟩
    show looked p made copy start s'.applied p.temporary = _
    rw [happlied, looked_append, carried_copy hold hnew]
    exact Function.update_self ..
  drop {s s' n} h := by
    have happlied := applied_of_execute (head?_drop p.table) (by decide) h
    show looked p made copy start s'.applied p.temporary = _
    rw [happlied, looked_append, carried_drop]
    exact Function.update_of_ne hne.symm ..
  rename {s s' n} h := by
    have happlied := applied_of_execute (head?_renameTableSql p.temporary p.table) (by decide) h
    show looked p made copy start s'.applied p.table = _
    rw [happlied, looked_append, carried_rename]
    rw [Function.update_of_ne hne, Function.update_self]
    rfl
  dependents := by simp

/-- A plan is taken as it is meant if none of its texts deletes rows. -/
theorem isFaithful_contents {p : RebuildPlan} {start : String → Option TableRows} {t : Table} (hne : p.table ≠ p.temporary)
    (hsteps : ∀ step ∈ p.steps, empties p.table step.2 = false)
    (hrename : empties p.table (renameTableSql p.temporary p.table) = false) :
    p.IsFaithful view (contents p start) t [] where
  create {s s' n} h := by
    have happlied := applied_of_execute (head?_sql p.rebuilt) (by decide) h
    show contents p start s'.applied p.temporary = _ ∧ contents p start s'.applied p.table = _
    rw [happlied, contents_append (hsteps _ List.mem_cons_self), carriedOut_eq, carried_create]
    exact ⟨Function.update_self .., Function.update_of_ne hne ..⟩
  copy {s s' n old new} h hold hnew := by
    have happlied := applied_of_execute (head?_copySql p) (by decide) h
    have hold : contents p start s.applied p.table = some old := hold
    have hnew : contents p start s.applied p.temporary = some new := hnew
    refine ⟨_, forall₂_copyRow p t old, ?_⟩
    show contents p start s'.applied p.temporary = _
    rw [happlied, contents_append (hsteps (.copyData, p.copySql) (by simp [RebuildPlan.steps])), carriedOut_eq, carried_copy hold hnew]
    exact Function.update_self ..
  drop {s s' n} h := by
    have happlied := applied_of_execute (head?_drop p.table) (by decide) h
    show contents p start s'.applied p.temporary = _
    rw [happlied, contents_append (hsteps (.dropTable, "DROP TABLE " ++ quoteIdentifier p.table) (by simp [RebuildPlan.steps])),
      carriedOut_eq, carried_drop]
    exact Function.update_of_ne hne.symm ..
  rename {s s' n} h := by
    have happlied := applied_of_execute (head?_renameTableSql p.temporary p.table) (by decide) h
    show contents p start s'.applied p.table = _
    rw [happlied, contents_append hrename, carriedOut_eq, carried_rename]
    rw [Function.update_of_ne hne, Function.update_self]
    rfl
  dependents := by simp

end Journal

end SchemaEditor
