import SchemaEditor.Proofs.Engine.View
import SchemaEditor.Proofs.Sql.Words

/-!
# A journal as an engine

The smallest engine that keeps the laws: its data is the list of texts it was given, it knows savepoints and one
setting, and it refuses the texts it is told to refuse. It shows that the laws can be kept.
-/

namespace SchemaEditor

/-- The innermost savepoint of a name, and those outside it. -/
def innermost? {α : Type} (name : String) : List (String × α) → Option (List (String × α) × (String × α))
  | [] => none
  | p :: ps =>
    match innermost? name ps with
    | some (outer, found) => some (p :: outer, found)
    | none => if sameName p.1 name then some ([], p) else none

theorem innermost?_append {α : Type} {name : String} {outer inner : List (String × α)} {found : String × α}
    (hnamed : sameName found.1 name = true) (hinner : ∀ p ∈ inner, sameName p.1 name = false) :
    innermost? name (outer ++ found :: inner) = some (outer, found) := by
  have hnone : innermost? name inner = none := by
    induction inner with
    | nil => rfl
    | cons p ps ih =>
      rw [innermost?, ih fun q hq => hinner q (List.mem_cons_of_mem p hq)]
      simp [hinner p List.mem_cons_self]
  induction outer with
  | nil => simp [innermost?, hnone, hnamed]
  | cons p ps ih => rw [List.cons_append, innermost?, ih]

theorem innermost?_eq_none {α : Type} {name : String} {saved : List (String × α)} (h : innermost? name saved = none) :
    ∀ p ∈ saved, sameName p.1 name = false := by
  induction saved with
  | nil => simp
  | cons q qs ih =>
    intro p hp
    rw [innermost?] at h
    cases hqs : innermost? name qs with
    | some r =>
      rw [hqs] at h
      cases h
    | none =>
      rw [hqs] at h
      rcases List.mem_cons.mp hp with rfl | hp
      · simpa using h
      · exact ih hqs p hp

theorem innermost?_eq_some {α : Type} {name : String} {saved outer : List (String × α)} {found : String × α}
    (h : innermost? name saved = some (outer, found)) :
    sameName found.1 name = true ∧ ∃ inner, saved = outer ++ found :: inner ∧ ∀ p ∈ inner, sameName p.1 name = false := by
  induction saved generalizing outer with
  | nil => cases h
  | cons p ps ih =>
    rw [innermost?] at h
    cases hps : innermost? name ps with
    | some r =>
      rw [hps] at h
      cases h
      obtain ⟨hnamed, inner, rfl, hinner⟩ := ih hps
      exact ⟨hnamed, inner, rfl, hinner⟩
    | none =>
      rw [hps] at h
      dsimp only at h
      split at h
      · next hnamed =>
        cases h
        exact ⟨hnamed, ps, rfl, innermost?_eq_none hps⟩
      · cases h

structure Journal where
  applied : List String := []
  saved : List (String × List String) := []
  legacyAlter : Bool := false
  foreignKeys : Bool := false
  /-- The texts that fail. -/
  refused : List String := []
deriving DecidableEq, Repr

namespace Journal

/-- The name in quotes behind `head`, if the text starts with it. -/
def named? (head sql : List Char) : Option String :=
  if head.isPrefixOf sql then some (String.ofList (quotation '"' (sql.drop head.length)).value) else none

def apply (text : String) (j : Journal) : Except EngineError Nat × Journal :=
  if j.refused.contains text then (.error { text := "refused" }, j)
  else (.ok 1, { j with applied := j.applied ++ [text] })

def openSavepoint (name : String) (j : Journal) : Except EngineError Nat × Journal :=
  (.ok 0, { j with saved := j.saved ++ [(name, j.applied)] })

def release (name : String) (j : Journal) : Except EngineError Nat × Journal :=
  match innermost? name j.saved with
  | some (outer, _) => (.ok 0, { j with saved := outer })
  | none => (.error { text := "no such savepoint" }, j)

def rollback (name : String) (j : Journal) : Except EngineError Nat × Journal :=
  match innermost? name j.saved with
  | some (outer, found) => (.ok 0, { j with saved := outer ++ [found], applied := found.2 })
  | none => (.error { text := "no such savepoint" }, j)

/-- The heads of the texts that concern savepoints. -/
def savepointHead : List Char := "SAVEPOINT ".toList ++ ['"']

def releaseHead : List Char := "RELEASE SAVEPOINT ".toList ++ ['"']

def rollbackHead : List Char := "ROLLBACK TO SAVEPOINT ".toList ++ ['"']

inductive Setting where
  | legacyAlter (on : Bool)
  | foreignKeys (on : Bool)
deriving DecidableEq, Repr

def setting? (sql : String) : Option Setting :=
  if sql = "PRAGMA legacy_alter_table = 1" then some (.legacyAlter true)
  else if sql = "PRAGMA legacy_alter_table = 0" then some (.legacyAlter false)
  else if sql = "PRAGMA foreign_keys = 1" then some (.foreignKeys true)
  else if sql = "PRAGMA foreign_keys = 0" then some (.foreignKeys false)
  else none

/-- Sets a setting, or does what is written in a text that sets none. -/
def applySetting (sql : String) (j : Journal) : Except EngineError Nat × Journal :=
  match setting? sql with
  | some (.legacyAlter on) => (.ok 0, { j with legacyAlter := on })
  | some (.foreignKeys on) => (.ok 0, { j with foreignKeys := on })
  | none => apply sql j

def execute (sql : String) (j : Journal) : Except EngineError Nat × Journal :=
  match named? savepointHead sql.toList, named? releaseHead sql.toList, named? rollbackHead sql.toList with
  | some name, _, _ => openSavepoint name j
  | _, some name, _ => release name j
  | _, _, some name => rollback name j
  | _, _, _ => applySetting sql j

def pragma (name : String) (j : Journal) : Except EngineError String × Journal :=
  if name = "legacy_alter_table" then (.ok (flag j.legacyAlter), j)
  else if name = "foreign_keys" then (.ok (flag j.foreignKeys), j)
  else (.ok "", j)

instance : Engine Journal where
  execute := execute
  pragma := pragma
  schema _ := .ok []
  viewColumns _ _ := .ok []
  queryColumns _ _ := .ok []
  queryRows _ j := ({ rows := [] }, j)
  insertRow table _ j := ((apply table j).1.map fun _ => (), (apply table j).2)
  violations _ := .ok []

def view : EngineView Journal (List String) := ⟨applied, saved, legacyAlter⟩

/-! ## Its texts -/

theorem named?_quoteSavepoint (head : List Char) (name : String) :
    named? head (head ++ (doubled '"' name.toList ++ ['"'])) = some name := by
  have hvalue := quotation_doubled '"' name.toList [] (by simp)
  rw [named?, if_pos (by simp), List.drop_left, hvalue]
  simp

theorem toList_quoteSavepoint (name : String) : (quoteSavepoint name).toList = '"' :: (doubled '"' name.toList ++ ['"']) := by
  simp [quoteSavepoint, quoteWith]

theorem toList_append_quoteSavepoint (head name : String) :
    (head ++ quoteSavepoint name).toList = head.toList ++ ['"'] ++ (doubled '"' name.toList ++ ['"']) := by
  rw [String.toList_append, toList_quoteSavepoint, List.append_cons]

theorem toList_savepointSql (name : String) :
    (savepointSql name).toList = savepointHead ++ (doubled '"' name.toList ++ ['"']) :=
  toList_append_quoteSavepoint "SAVEPOINT " name

theorem toList_releaseSql (name : String) :
    (releaseSql name).toList = releaseHead ++ (doubled '"' name.toList ++ ['"']) :=
  toList_append_quoteSavepoint "RELEASE SAVEPOINT " name

theorem toList_rollbackSql (name : String) :
    (rollbackSql name).toList = rollbackHead ++ (doubled '"' name.toList ++ ['"']) :=
  toList_append_quoteSavepoint "ROLLBACK TO SAVEPOINT " name

/-- A text that differs from a head in a character is none of its texts. -/
theorem named?_eq_none {head sql : List Char} (i : Nat) (h : i < head.length) (hi : sql[i]? ≠ some head[i]) :
    named? head sql = none := by
  rw [named?, if_neg]
  intro hprefix
  obtain ⟨rest, rfl⟩ := List.isPrefixOf_iff_prefix.mp hprefix
  exact hi (by rw [List.getElem?_append_left h, List.getElem?_eq_getElem h])

/-- What the texts on savepoints name, and what they do not. -/
theorem named?_savepointSql (name : String) : named? savepointHead (savepointSql name).toList = some name := by
  rw [toList_savepointSql, named?_quoteSavepoint]

theorem named?_releaseSql (name : String) :
    named? savepointHead (releaseSql name).toList = none ∧ named? releaseHead (releaseSql name).toList = some name := by
  have hsavepoint (cs : List Char) : named? savepointHead (releaseHead ++ cs) = none := by
    refine named?_eq_none 0 (by decide) ?_
    rw [List.getElem?_append_left (by decide)]
    decide
  rw [toList_releaseSql, named?_quoteSavepoint]
  exact ⟨hsavepoint _, rfl⟩

theorem named?_rollbackSql (name : String) :
    named? savepointHead (rollbackSql name).toList = none ∧ named? releaseHead (rollbackSql name).toList = none ∧
      named? rollbackHead (rollbackSql name).toList = some name := by
  have hsavepoint (cs : List Char) : named? savepointHead (rollbackHead ++ cs) = none := by
    refine named?_eq_none 0 (by decide) ?_
    rw [List.getElem?_append_left (by decide)]
    decide
  have hrelease (cs : List Char) : named? releaseHead (rollbackHead ++ cs) = none := by
    refine named?_eq_none 1 (by decide) ?_
    rw [List.getElem?_append_left (by decide)]
    decide
  rw [toList_rollbackSql, named?_quoteSavepoint]
  exact ⟨hsavepoint _, hrelease _, rfl⟩

/-- A text with another first letter names no savepoint. -/
theorem named?_of_head {sql : String} {c : Char} (h : sql.toList.head? = some c) (hc : c ≠ 'S' ∧ c ≠ 'R') :
    named? savepointHead sql.toList = none ∧ named? releaseHead sql.toList = none ∧ named? rollbackHead sql.toList = none := by
  have hfirst : sql.toList[0]? = some c := by rw [← List.head?_eq_getElem?, h]
  have hnone (head : List Char) (hlength : 0 < head.length) (hd : c ≠ head[0]) : named? head sql.toList = none :=
    named?_eq_none 0 hlength (by rw [hfirst]; exact fun he => hd (Option.some.inj he))
  exact ⟨hnone savepointHead (by decide) hc.1, hnone releaseHead (by decide) hc.2, hnone rollbackHead (by decide) hc.2⟩

theorem execute_savepoint (name : String) (j : Journal) : execute (savepointSql name) j = openSavepoint name j := by
  unfold execute
  rw [named?_savepointSql]

theorem execute_release (name : String) (j : Journal) : execute (releaseSql name) j = release name j := by
  obtain ⟨hsavepoint, hrelease⟩ := named?_releaseSql name
  unfold execute
  rw [hsavepoint, hrelease]

theorem execute_rollback (name : String) (j : Journal) : execute (rollbackSql name) j = rollback name j := by
  obtain ⟨hsavepoint, hrelease, hrollback⟩ := named?_rollbackSql name
  unfold execute
  rw [hsavepoint, hrelease, hrollback]

theorem execute_of_head {sql : String} {c : Char} (h : sql.toList.head? = some c) (hc : c ≠ 'S' ∧ c ≠ 'R') (j : Journal) :
    execute sql j = applySetting sql j := by
  obtain ⟨hsavepoint, hrelease, hrollback⟩ := named?_of_head h hc
  unfold execute
  rw [hsavepoint, hrelease, hrollback]

theorem execute_legacyAlter (b : Bool) (j : Journal) :
    execute ("PRAGMA legacy_alter_table = " ++ flag b) j = (.ok 0, { j with legacyAlter := b }) := by
  have hhead : ("PRAGMA legacy_alter_table = " ++ flag b).toList.head? = some 'P' := by cases b <;> decide
  have hsetting : setting? ("PRAGMA legacy_alter_table = " ++ flag b) = some (.legacyAlter b) := by cases b <;> decide
  rw [execute_of_head hhead (by decide), applySetting, hsetting]

theorem execute_foreignKeys (b : Bool) (j : Journal) :
    execute ("PRAGMA foreign_keys = " ++ flag b) j = (.ok 0, { j with foreignKeys := b }) := by
  have hhead : ("PRAGMA foreign_keys = " ++ flag b).toList.head? = some 'P' := by cases b <;> decide
  have hsetting : setting? ("PRAGMA foreign_keys = " ++ flag b) = some (.foreignKeys b) := by cases b <;> decide
  rw [execute_of_head hhead (by decide), applySetting, hsetting]

theorem apply_ok {text : String} {j j' : Journal} {n : Nat} (h : apply text j = (.ok n, j')) :
    j' = { j with applied := j.applied ++ [text] } := by
  unfold apply at h
  split at h
  · cases h
  · cases h; rfl

theorem keeps_apply (text : String) (j : Journal) : view.Keeps j (apply text j).2 := by
  unfold apply
  split <;> exact ⟨rfl, rfl⟩

theorem execute_eq_apply {sql : String} {c : Char} (h : sql.toList.head? = some c) (hc : c ≠ 'S' ∧ c ≠ 'R' ∧ c ≠ 'P')
    (j : Journal) : execute sql j = apply sql j := by
  have hsetting : setting? sql = none := by
    have hne {t : String} (ht : t.toList.head? = some 'P') : ¬sql = t := by
      rintro rfl
      exact hc.2.2 (Option.some.inj (h.symm.trans ht))
    rw [setting?, if_neg (hne (by decide)), if_neg (hne (by decide)), if_neg (hne (by decide)), if_neg (hne (by decide))]
  rw [execute_of_head h ⟨hc.1, hc.2.1⟩, applySetting, hsetting]

theorem quiet_of_head {sql : String} {c : Char} (h : sql.toList.head? = some c) (hc : c ≠ 'S' ∧ c ≠ 'R' ∧ c ≠ 'P') :
    view.Quiet sql := by
  intro j
  show view.Keeps j (execute sql j).2
  rw [execute_eq_apply h hc]
  exact keeps_apply sql j

/-- Whether a text starts with none of the letters of texts on savepoints and settings. -/
def startsElsewhere (sql : String) : Bool := (sql.toList.head?.map fun c => c != 'S' && c != 'R' && c != 'P').getD false

theorem quiet_of_startsElsewhere {sql : String} (h : startsElsewhere sql = true) : view.Quiet sql := by
  unfold startsElsewhere at h
  cases hhead : sql.toList.head? with
  | none => simp [hhead] at h
  | some c => exact quiet_of_head hhead (by simpa [hhead, and_assoc] using h)

theorem head?_append {s t : String} {c : Char} (h : s.toList.head? = some c) : (s ++ t).toList.head? = some c := by
  rw [String.toList_append, List.head?_append, h]
  rfl

theorem head?_savepointSql (name : String) : (savepointSql name).toList.head? = some 'S' := head?_append (by decide)

theorem head?_releaseSql (name : String) : (releaseSql name).toList.head? = some 'R' := head?_append (by decide)

theorem head?_rollbackSql (name : String) : (rollbackSql name).toList.head? = some 'R' := head?_append (by decide)

theorem head?_sql (t : Table) : t.sql.toList.head? = some 'C' := by
  unfold Table.sql
  split <;> exact head?_append (head?_append (head?_append (head?_append (head?_append (head?_append (by decide))))))

theorem head?_copySql (p : RebuildPlan) : p.copySql.toList.head? = some 'I' :=
  head?_append (head?_append (head?_append (head?_append (head?_append (by decide)))))

theorem head?_drop (table : String) : ("DROP TABLE " ++ quoteIdentifier table).toList.head? = some 'D' := head?_append (by decide)

theorem head?_renameTableSql (source target : String) : (renameTableSql source target).toList.head? = some 'A' :=
  head?_append (head?_append (head?_append (by decide)))

/-! ## The laws -/

theorem transactional : Transactional view where
  savepoint_error {name s s' e} h := by
    rw [show Engine.execute (savepointSql name) s = openSavepoint name s from execute_savepoint name s] at h
    cases h
  savepoint_ok {name s s' n} h := by
    rw [show Engine.execute (savepointSql name) s = openSavepoint name s from execute_savepoint name s] at h
    cases h
    exact ⟨rfl, rfl, rfl⟩
  release {name s outer found} h := by
    obtain ⟨⟨inner, hsaved, hinner⟩, hnamed⟩ := h
    have hfound : innermost? name s.saved = some (outer, found) := by
      rw [show s.saved = outer ++ found :: inner from hsaved]
      exact innermost?_append hnamed hinner
    refine ⟨0, { s with saved := outer }, ?_, rfl, rfl, rfl⟩
    show execute (releaseSql name) s = _
    rw [execute_release, release, hfound]
  rollback {name s outer found} h := by
    obtain ⟨⟨inner, hsaved, hinner⟩, hnamed⟩ := h
    have hfound : innermost? name s.saved = some (outer, found) := by
      rw [show s.saved = outer ++ found :: inner from hsaved]
      exact innermost?_append hnamed hinner
    refine ⟨0, { s with saved := outer ++ [found], applied := found.2 }, ?_, rfl, rfl, rfl⟩
    show execute (rollbackSql name) s = _
    rw [execute_rollback, rollback, hfound]
  readLegacyAlter s := ⟨s, rfl, .refl s⟩
  setLegacyAlter b s := ⟨0, { s with legacyAlter := b }, execute_legacyAlter b s, rfl, rfl, rfl⟩
  readForeignKeys s := ⟨s.foreignKeys, s, rfl, .refl s⟩
  setForeignKeys b s := ⟨0, { s with foreignKeys := b }, execute_foreignKeys b s, ⟨rfl, rfl⟩, rfl⟩
  schema s := ⟨[], rfl⟩
  copy p := quiet_of_head (head?_copySql p) (by decide)
  drop table := quiet_of_head (head?_drop table) (by decide)
  rename source target := quiet_of_head (head?_renameTableSql source target) (by decide)
  createImported name header width := quiet_of_head (head?_sql _) (by decide)
  insertRow table row s := keeps_apply table s

end Journal

end SchemaEditor
