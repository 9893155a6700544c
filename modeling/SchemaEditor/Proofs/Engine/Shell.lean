import SchemaEditor.Proofs.Engine.Journal

/-!
# Savepoints and settings around a repository

A repository carries out statements on data of its own. The shell around it has the savepoints and the settings of a
connection: it takes the statements that concern these, and hands on all others. Whatever the repository is, the shell keeps
the laws of an engine.
-/

namespace SchemaEditor

/-- Data that can be changed and asked by statements, which know of no savepoints and settings. -/
class Repository (δ : Type) extends Inhabited δ where
  apply : String → δ → Except EngineError Nat × δ
  insertRow : String → List (Option String) → δ → Except EngineError Unit × δ
  schema : δ → List SchemaRow
  columns : String → δ → Except EngineError (List String)
  rows : String → δ → QueryResult

structure Shell (δ : Type) where
  data : δ
  saved : List (String × δ) := []
  legacyAlter : Bool := false
  foreignKeys : Bool := false

namespace Shell

variable {δ : Type}

/-! ## Settings -/

def settingHead : List Char := "PRAGMA ".toList

def settingMark : List Char := " = ".toList

/-- The name and the value of a setting that is set. -/
def setting? (sql : List Char) : Option (String × String) :=
  let rest := sql.drop settingHead.length
  let value := rest.dropWhile Op.isPragmaNameChar
  if settingHead.isPrefixOf sql && settingMark.isPrefixOf value then
    some (String.ofList (rest.takeWhile Op.isPragmaNameChar), String.ofList (value.drop settingMark.length))
  else none

/-- How a value is read that switches a setting on or off. -/
def reads (value : String) : Bool := ["1", "on", "true", "yes"].any fun on => sameName on value

def set (name value : String) (e : Shell δ) : Shell δ :=
  if sameName name "foreign_keys" then { e with foreignKeys := if e.saved.isEmpty then reads value else e.foreignKeys }
  else if sameName name "legacy_alter_table" then { e with legacyAlter := reads value }
  else e

def pragma (name : String) (e : Shell δ) : Except EngineError String × Shell δ :=
  if name = "foreign_keys" then (.ok (flag e.foreignKeys), e)
  else if name = "legacy_alter_table" then (.ok (flag e.legacyAlter), e)
  else (.ok "", e)

/-! ## Savepoints -/

def openSavepoint (name : String) (e : Shell δ) : Except EngineError Nat × Shell δ :=
  (.ok 0, { e with saved := e.saved ++ [(name, e.data)] })

def release (name : String) (e : Shell δ) : Except EngineError Nat × Shell δ :=
  match innermost? name e.saved with
  | some (outer, _) => (.ok 0, { e with saved := outer })
  | none => (.error { text := "no such savepoint" }, e)

def rollback (name : String) (e : Shell δ) : Except EngineError Nat × Shell δ :=
  match innermost? name e.saved with
  | some (outer, found) => (.ok 0, { e with saved := outer ++ [found], data := found.2 })
  | none => (.error { text := "no such savepoint" }, e)

variable [Repository δ]

/-- Hands a statement on to the repository. -/
def apply (sql : String) (e : Shell δ) : Except EngineError Nat × Shell δ :=
  ((Repository.apply sql e.data).1, { e with data := (Repository.apply sql e.data).2 })

def applySetting (sql : String) (e : Shell δ) : Except EngineError Nat × Shell δ :=
  match setting? sql.toList with
  | some (name, value) => (.ok 0, e.set name value)
  | none => apply sql e

def execute (sql : String) (e : Shell δ) : Except EngineError Nat × Shell δ :=
  match Journal.named? Journal.savepointHead sql.toList, Journal.named? Journal.releaseHead sql.toList,
    Journal.named? Journal.rollbackHead sql.toList with
  | some name, _, _ => openSavepoint name e
  | _, some name, _ => release name e
  | _, _, some name => rollback name e
  | _, _, _ => applySetting sql e

instance : Engine (Shell δ) where
  execute := execute
  pragma := pragma
  schema e := .ok (Repository.schema e.data)
  viewColumns view _ := .error { text := "no such view: " ++ view }
  queryColumns sql e := Repository.columns sql e.data
  queryRows sql e := (Repository.rows sql e.data, e)
  insertRow table row e := ((Repository.insertRow table row e.data).1, { e with data := (Repository.insertRow table row e.data).2 })
  violations _ := .ok []

/-- What is not released when the connection is closed is gone. -/
instance : Storage (Shell δ) δ where
  emptied e := { e with data := default }
  empty := default
  read _ := .error { text := "file is not a database" }
  openFile data access := { data, foreignKeys := access.foreignKeys }
  close e := (e.saved.head?.map Prod.snd).getD e.data

def view : EngineView (Shell δ) δ := ⟨data, saved, legacyAlter⟩

/-! ## Its texts -/

theorem execute_savepoint (name : String) (e : Shell δ) : execute (savepointSql name) e = openSavepoint name e := by
  unfold execute
  rw [Journal.named?_savepointSql]

theorem execute_release (name : String) (e : Shell δ) : execute (releaseSql name) e = release name e := by
  obtain ⟨hsavepoint, hrelease⟩ := Journal.named?_releaseSql name
  unfold execute
  rw [hsavepoint, hrelease]

theorem execute_rollback (name : String) (e : Shell δ) : execute (rollbackSql name) e = rollback name e := by
  obtain ⟨hsavepoint, hrelease, hrollback⟩ := Journal.named?_rollbackSql name
  unfold execute
  rw [hsavepoint, hrelease, hrollback]

theorem execute_of_head {sql : String} {c : Char} (h : sql.toList.head? = some c) (hc : c ≠ 'S' ∧ c ≠ 'R') (e : Shell δ) :
    execute sql e = applySetting sql e := by
  obtain ⟨hsavepoint, hrelease, hrollback⟩ := Journal.named?_of_head h hc
  unfold execute
  rw [hsavepoint, hrelease, hrollback]

theorem setting?_of_head {sql : String} {c : Char} (h : sql.toList.head? = some c) (hc : c ≠ 'P') : setting? sql.toList = none := by
  have hprefix : settingHead.isPrefixOf sql.toList = false := by
    obtain ⟨rest, hrest⟩ := List.head?_eq_some_iff.mp h
    rw [hrest, show settingHead = 'P' :: settingHead.tail from rfl, List.isPrefixOf, beq_false_of_ne (Ne.symm hc), Bool.false_and]
  rw [setting?, hprefix]
  rfl

theorem execute_eq_apply {sql : String} {c : Char} (h : sql.toList.head? = some c) (hc : c ≠ 'S' ∧ c ≠ 'R' ∧ c ≠ 'P')
    (e : Shell δ) : execute sql e = apply sql e := by
  rw [execute_of_head h ⟨hc.1, hc.2.1⟩, applySetting, setting?_of_head h hc.2.2]

/-- A statement that sets a setting. -/
theorem execute_setting (name value : String) (hname : Op.isPragmaName name = true) (e : Shell δ) :
    execute ("PRAGMA " ++ name ++ " = " ++ value) e = (.ok 0, e.set name value) := by
  have hhead : ("PRAGMA " ++ name ++ " = " ++ value).toList.head? = some 'P' :=
    Journal.head?_append (Journal.head?_append (Journal.head?_append (by decide)))
  have hchars : ∀ c ∈ name.toList, Op.isPragmaNameChar c = true := by
    unfold Op.isPragmaName at hname
    simpa using (Bool.and_eq_true_iff.mp hname).2
  have hparts (a b c d : String) : (a ++ b ++ c ++ d).toList = a.toList ++ (b.toList ++ (c.toList ++ d.toList)) := by simp
  have htext : ("PRAGMA " ++ name ++ " = " ++ value).toList = settingHead ++ (name.toList ++ (settingMark ++ value.toList)) :=
    hparts "PRAGMA " name " = " value
  -- the blank before the mark ends the name
  have htake : (settingMark ++ value.toList).takeWhile Op.isPragmaNameChar = [] := rfl
  have hdrop : (settingMark ++ value.toList).dropWhile Op.isPragmaNameChar = settingMark ++ value.toList := rfl
  have hsetting : setting? ("PRAGMA " ++ name ++ " = " ++ value).toList = some (name, value) := by
    rw [htext, setting?]
    have hstarts (cs ds : List Char) : cs.isPrefixOf (cs ++ ds) = true := List.isPrefixOf_iff_prefix.mpr (List.prefix_append cs ds)
    simp only [List.drop_left, List.dropWhile_append_of_pos hchars, List.takeWhile_append_of_pos hchars, htake, hdrop, hstarts,
      Bool.and_self, if_true, List.append_nil, String.ofList_toList]
  rw [execute_of_head hhead (by decide), applySetting, hsetting]

/-- What is handed on changes nothing but the data. -/
theorem keeps_apply (sql : String) (e : Shell δ) : view.Keeps e (apply sql e).2 := ⟨rfl, rfl⟩

theorem quiet_of_head {sql : String} {c : Char} (h : sql.toList.head? = some c) (hc : c ≠ 'S' ∧ c ≠ 'R' ∧ c ≠ 'P') :
    (view (δ := δ)).Quiet sql := by
  intro e
  show view.Keeps e (execute sql e).2
  rw [execute_eq_apply h hc]
  exact keeps_apply sql e

/-- A text without `setting?` leaves the settings alone. -/
theorem foreignKeys_execute {sql : String} (h : setting? sql.toList = none) (e : Shell δ) : (execute sql e).2.foreignKeys = e.foreignKeys := by
  unfold execute
  split
  · rfl
  · unfold release
    split <;> rfl
  · unfold rollback
    split <;> rfl
  · unfold applySetting
    rw [h]
    rfl

theorem leaves_foreignKeys {sql : String} {c : Char} (h : sql.toList.head? = some c) (hc : c ≠ 'P') (e : Shell δ) :
    (Engine.execute sql e).2.foreignKeys = e.foreignKeys := foreignKeys_execute (setting?_of_head h hc) e

/-- A text that starts with no letter of texts on savepoints and settings touches neither. -/
theorem quiet_of_startsElsewhere {sql : String} (h : Journal.startsElsewhere sql = true) :
    (view (δ := δ)).Quiet sql ∧ ∀ e : Shell δ, (Engine.execute sql e).2.foreignKeys = e.foreignKeys := by
  unfold Journal.startsElsewhere at h
  cases hhead : sql.toList.head? with
  | none => simp [hhead] at h
  | some c =>
    have hc : c ≠ 'S' ∧ c ≠ 'R' ∧ c ≠ 'P' := by simpa [hhead, and_assoc] using h
    exact ⟨quiet_of_head hhead hc, leaves_foreignKeys hhead hc.2.2⟩

/-! ## The laws -/

theorem transactional : Transactional (view (δ := δ)) where
  savepoint_error {name e e' error} h := by
    rw [show Engine.execute (savepointSql name) e = openSavepoint name e from execute_savepoint name e] at h
    cases h
  savepoint_ok {name e e' n} h := by
    rw [show Engine.execute (savepointSql name) e = openSavepoint name e from execute_savepoint name e] at h
    cases h
    exact ⟨rfl, rfl, rfl⟩
  release {name e outer found} h := by
    obtain ⟨⟨inner, hsaved, hinner⟩, hnamed⟩ := h
    have hfound : innermost? name e.saved = some (outer, found) := by
      rw [show e.saved = outer ++ found :: inner from hsaved]
      exact innermost?_append hnamed hinner
    refine ⟨0, { e with saved := outer }, ?_, rfl, rfl, rfl⟩
    show execute (releaseSql name) e = _
    rw [execute_release, release, hfound]
  rollback {name e outer found} h := by
    obtain ⟨⟨inner, hsaved, hinner⟩, hnamed⟩ := h
    have hfound : innermost? name e.saved = some (outer, found) := by
      rw [show e.saved = outer ++ found :: inner from hsaved]
      exact innermost?_append hnamed hinner
    refine ⟨0, { e with saved := outer ++ [found], data := found.2 }, ?_, rfl, rfl, rfl⟩
    show execute (rollbackSql name) e = _
    rw [execute_rollback, rollback, hfound]
  readLegacyAlter e := ⟨e, rfl, .refl e⟩
  setLegacyAlter b e := by
    refine ⟨0, { e with legacyAlter := b }, ?_, rfl, rfl, rfl⟩
    have hset : e.set "legacy_alter_table" (flag b) = { e with legacyAlter := b } := by cases b <;> rfl
    rw [← hset]
    exact execute_setting "legacy_alter_table" (flag b) (by decide) e
  readForeignKeys e := ⟨e.foreignKeys, e, rfl, .refl e⟩
  setForeignKeys b e := ⟨0, e.set "foreign_keys" (flag b), execute_setting "foreign_keys" (flag b) (by decide) e, ⟨rfl, rfl⟩, rfl⟩
  schema e := ⟨Repository.schema e.data, rfl⟩
  copy p := quiet_of_head (Journal.head?_copySql p) (by decide)
  drop table := quiet_of_head (Journal.head?_drop table) (by decide)
  rename source target := quiet_of_head (Journal.head?_renameTableSql source target) (by decide)
  createImported name header width := quiet_of_head (Journal.head?_sql _) (by decide)
  insertRow table row e := ⟨rfl, rfl⟩

theorem enforcement : Enforcement (view (δ := δ)) foreignKeys reads where
  reads_flag b := by cases b <;> decide
  openFile data access := ⟨rfl, rfl⟩
  read e := ⟨e, rfl, .refl e, rfl⟩
  set name value hname hpragma hvalue e := by
    refine ⟨0, e.set name value, execute_setting name value hpragma e, ?_, ?_⟩
    · simp [view, set, hname]
    · simp [view, set, hname]
  setOther name value hname hpragma hvalue e := by
    rw [show Engine.execute ("PRAGMA " ++ name ++ " = " ++ value) e = _ from execute_setting name value hpragma e]
    by_cases hlegacy : sameName name "legacy_alter_table" = true
    · simp [view, set, hname, hlegacy]
    · simp [view, set, hname, hlegacy]
  savepoint name e := leaves_foreignKeys (Journal.head?_savepointSql name) (by decide) e
  release name e := leaves_foreignKeys (Journal.head?_releaseSql name) (by decide) e
  rollback name e := leaves_foreignKeys (Journal.head?_rollbackSql name) (by decide) e
  readLegacyAlter e := rfl
  copy p e := leaves_foreignKeys (Journal.head?_copySql p) (by decide) e
  drop table e := leaves_foreignKeys (Journal.head?_drop table) (by decide) e
  rename source target e := leaves_foreignKeys (Journal.head?_renameTableSql source target) (by decide) e
  createImported name header width e := leaves_foreignKeys (Journal.head?_sql _) (by decide) e
  insertRow table row e := rfl

end Shell

end SchemaEditor
