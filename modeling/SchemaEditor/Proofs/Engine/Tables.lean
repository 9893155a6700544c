import Mathlib.Data.List.Sort
import Mathlib.Data.String.Basic
import SchemaEditor.Proofs.Engine.Rows
import SchemaEditor.Proofs.Engine.Shell
import SchemaEditor.Proofs.Table.RoundTrip

/-!
# Tables as a repository

Tables with their rows, and the indices and triggers that go with a table when it is dropped. They take the statements that
operations make of names, and simple definitions of indices and triggers; any other text is refused.
-/

namespace SchemaEditor

/-- A table with the text of its definition. -/
structure StoredTable where
  definition : Table
  sql : String
  rows : List (List Value) := []
deriving DecidableEq, Repr

structure Tables where
  stored : List StoredTable := []
  dependents : List SchemaRow := []
deriving DecidableEq, Repr

namespace Tables

def find? (d : Tables) (name : String) : Option StoredTable := d.stored.find? fun t => sameName t.definition.name name

def contents (d : Tables) (name : String) : Option TableRows :=
  (d.find? name).map fun t => { columns := t.definition.fieldNames, rows := t.rows }

/-- Changes the table of a name. -/
def modify (d : Tables) (name : String) (f : StoredTable → StoredTable) : Tables :=
  { d with stored := d.stored.map fun t => if sameName t.definition.name name then f t else t }

def missing (name : String) : EngineError := { text := "no such table: " ++ name }

/-! ## Statements -/

inductive Statement where
  | create (t : Table)
  | drop (name : String)
  | rename (source target : String)
  /-- Copies columns of a table to the end of another. -/
  | copy (target : String) (columns : List String) (source : String)
  /-- Makes an index or a trigger of a table. -/
  | attach (kind : ObjectKind) (name table : String)
deriving DecidableEq, Repr

/-- The name in quotes behind `head`, if the text starts with it, and what follows the name. -/
def quoted? (head sql : List Char) : Option (String × List Char) :=
  if head.isPrefixOf sql then
    let q := quotation '\x60' (sql.drop head.length)
    some (String.ofList q.value, q.rest)
  else none

/-- The further names of a list, at most `n` of them. -/
def moreNames : Nat → List Char → List String × List Char
  | 0, cs => ([], cs)
  | n + 1, cs =>
    match quoted? [',', '\x60'] cs with
    | none => ([], cs)
    | some (name, rest) => (name :: (moreNames n rest).1, (moreNames n rest).2)

def copy? (target : String) (cs : List Char) : Option Statement := do
  let (column, cs) ← quoted? (" SELECT ".toList ++ ['\x60']) cs
  let (columns, cs) := moreNames cs.length cs
  let (source, _) ← quoted? (" FROM ".toList ++ ['\x60']) cs
  return .copy target (column :: columns) source

/-- The words of a text between blanks. -/
def words (cs : List Char) : List String := (cs.splitOn ' ').map String.ofList

def attachHead (kind : ObjectKind) : List Char :=
  match kind with
  | .index => "CREATE INDEX ".toList
  | .trigger => "CREATE TRIGGER ".toList
  | _ => []

def attach? (kind : ObjectKind) (cs : List Char) : Option Statement :=
  if (attachHead kind).isPrefixOf cs then
    match words (cs.drop (attachHead kind).length) with
    | [] => none
    | name :: rest => (rest.dropWhile (· != "ON")).tail.head?.map fun table => .attach kind name table
  else none

def dropHead : List Char := "DROP TABLE ".toList ++ ['\x60']

def renameHead : List Char := "ALTER TABLE ".toList ++ ['\x60']

def renameMark : List Char := " RENAME TO ".toList ++ ['\x60']

def copyHead : List Char := "INSERT INTO ".toList ++ ['\x60']

def rename? (cs : List Char) : Option Statement := do
  let (source, rest) ← quoted? renameHead cs
  let (target, _) ← quoted? renameMark rest
  return .rename source target

def statement? (sql : String) : Option Statement :=
  let cs := sql.toList
  (((((quoted? dropHead cs).map fun (name, _) => .drop name).or (rename? cs)).or
    ((quoted? copyHead cs).bind fun (target, rest) => copy? target rest)).or
    ((attach? .index cs).or (attach? .trigger cs))).or
    ((Table.parse sql).toOption.map .create)

/-- The text of a definition as it is stored. -/
def storedSql (sql : String) : String := String.ofList ((sql.toList.reverse.dropWhile (· == ';')).reverse)

/-- The text with another name in it. -/
def respelled (name sql : String) : String :=
  match Table.parse sql with
  | .ok t => t.storedAs (quoteWith '"' name)
  | .error _ => sql

def renamed (name : String) (t : StoredTable) : StoredTable :=
  { t with definition := { t.definition with name }, sql := respelled name t.sql }

/-- An index or trigger goes with its table. -/
def moved (source target : String) (row : SchemaRow) : SchemaRow :=
  if sameName row.tableName source then { row with tableName := target } else row

def perform (sql : String) (d : Tables) : Statement → Except EngineError (Nat × Tables)
  | .create t =>
    if (d.find? t.name).isSome then .error { text := "table " ++ t.name ++ " already exists" }
    else .ok (0, { d with stored := d.stored ++ [{ definition := t, sql := storedSql sql }] })
  | .drop name =>
    if (d.find? name).isNone then .error (missing name)
    else .ok (0, { stored := d.stored.filter fun t => !sameName t.definition.name name
                   dependents := d.dependents.filter fun row => !sameName row.tableName name })
  | .rename source target =>
    if (d.find? source).isNone then .error (missing source)
    else if (d.find? target).isSome then .error { text := "there is already another table named " ++ target }
    else .ok (0, { stored := (d.modify source (renamed target)).stored, dependents := d.dependents.map (moved source target) })
  | .copy target columns source =>
    match d.contents source, d.find? target with
    | some old, some _ =>
      let copies := old.rows.map fun row => columns.map fun name => (old.value? row name).getD .null
      .ok (copies.length, d.modify target fun t => { t with rows := t.rows ++ copies })
    | none, _ => .error (missing source)
    | _, none => .error (missing target)
  | .attach kind name table =>
    if (d.find? table).isNone then .error (missing table)
    else if d.dependents.any (fun row => row.kind == kind.tag && sameName row.name name) then
      .error { text := kind.tag ++ " " ++ name ++ " already exists" }
    else .ok (0, { d with dependents := d.dependents ++ [{ kind := kind.tag, name, sql := some sql, tableName := table }] })

def apply (sql : String) (d : Tables) : Except EngineError Nat × Tables :=
  match statement? sql with
  | none => (.error { text := "syntax error" }, d)
  | some statement =>
    match perform sql d statement with
    | .ok (n, d') => (.ok n, d')
    | .error e => (.error e, d)

def valueOf : Option String → Value
  | some text => .text text
  | none => .null

def insertRow (table : String) (row : List (Option String)) (d : Tables) : Except EngineError Unit × Tables :=
  match d.find? table with
  | none => (.error (missing table), d)
  | some t =>
    if row.length = t.definition.fields.length then
      (.ok (), d.modify table fun t => { t with rows := t.rows ++ [row.map valueOf] })
    else (.error { text := "wrong number of values" }, d)

/-! ## Queries -/

def schemaRow (t : StoredTable) : SchemaRow :=
  { kind := ObjectKind.table.tag, name := t.definition.name, sql := some t.sql, tableName := t.definition.name }

/-- Whether one row comes before another in the list of objects. -/
def precedes (a b : SchemaRow) : Bool := a.kind < b.kind || (a.kind == b.kind && a.name ≤ b.name)

/-- The table that a query asks for. -/
def query (sql : String) (d : Tables) : Except EngineError TableRows :=
  match quoted? ("SELECT * FROM ".toList ++ ['\x60']) sql.toList with
  | none => .error { text := "syntax error" }
  | some (name, _) =>
    match d.contents name with
    | none => .error (missing name)
    | some r => .ok r

instance : Repository Tables where
  default := {}
  apply := apply
  insertRow := insertRow
  schema d := (d.stored.map schemaRow ++ d.dependents).insertionSort fun a b => precedes a b
  columns sql d := (query sql d).map TableRows.columns
  rows sql d :=
    match query sql d with
    | .ok r => { rows := r.rows }
    | .error e => { rows := [], failure := some e }

/-! ## Its order -/

theorem precedes_iff {a b : SchemaRow} : precedes a b = true ↔ a.kind < b.kind ∨ a.kind = b.kind ∧ a.name ≤ b.name := by
  simp [precedes]

instance : Std.Total fun a b : SchemaRow => precedes a b = true := by
  constructor
  intro a b
  simp only [precedes_iff]
  rcases lt_trichotomy a.kind b.kind with h | h | h
  · exact .inl (.inl h)
  · rcases le_total a.name b.name with hn | hn
    · exact .inl (.inr ⟨h, hn⟩)
    · exact .inr (.inr ⟨h.symm, hn⟩)
  · exact .inr (.inl h)

instance : IsTrans SchemaRow fun a b => precedes a b = true := by
  constructor
  intro a b c
  simp only [precedes_iff]
  rintro (h | ⟨h, hn⟩) (h' | ⟨h', hn'⟩)
  · exact .inl (lt_trans h h')
  · exact .inl (h' ▸ h)
  · exact .inl (h ▸ h')
  · exact .inr ⟨h.trans h', hn.trans hn'⟩

theorem pairwise_kind_schema (d : Tables) : (Repository.schema d).Pairwise fun a b => a.kind ≤ b.kind := by
  refine (List.pairwise_insertionSort (fun a b => precedes a b = true) (d.stored.map schemaRow ++ d.dependents)).imp fun h => ?_
  rcases precedes_iff.mp h with h | h
  · exact le_of_lt h
  · exact le_of_eq h.1

/-! ## Its texts -/

theorem quoted?_quoteIdentifier (head name : String) :
    quoted? (head.toList ++ ['\x60']) (head ++ quoteIdentifier name).toList = some (name, []) := by
  have hvalue := quotation_doubled '\x60' name.toList [] (by simp)
  have htext : (head ++ quoteIdentifier name).toList = head.toList ++ ['\x60'] ++ (doubled '\x60' name.toList ++ ['\x60']) := by
    rw [String.toList_append, List.append_assoc, quoteIdentifier, quoteWith, String.toList_ofList]
    rfl
  rw [htext, quoted?, if_pos (by simp), List.drop_left, hvalue]
  simp

theorem quoted?_of_head {head cs : List Char} {c d : Char} (hhead : head.head? = some c) (hcs : cs.head? = some d) (h : c ≠ d) :
    quoted? head cs = none := by
  obtain ⟨head, rfl⟩ := List.head?_eq_some_iff.mp hhead
  obtain ⟨cs, rfl⟩ := List.head?_eq_some_iff.mp hcs
  rw [quoted?, List.isPrefixOf, beq_false_of_ne h, Bool.false_and, if_neg Bool.false_ne_true]

theorem query_eq (name : String) (d : Tables) : query ("SELECT * FROM " ++ quoteIdentifier name) d =
    match d.contents name with
    | none => .error (missing name)
    | some r => .ok r := by
  rw [query, quoted?_quoteIdentifier "SELECT * FROM " name]

/-- The definition of a table is read as such. -/
theorem statement?_of_parse {t u : Table} (h : Table.parse t.sql = .ok u) : statement? t.sql = some (.create u) := by
  have hhead := Journal.head?_sql t
  have hindex (rest : List Char) : (attachHead .index).isPrefixOf ("CREATE TABLE".toList ++ rest) = false := rfl
  have htrigger (rest : List Char) : (attachHead .trigger).isPrefixOf ("CREATE TABLE".toList ++ rest) = false := rfl
  obtain ⟨rest, hrest⟩ : ∃ rest, t.sql.toList = "CREATE TABLE".toList ++ rest := ⟨_, Reader.toList_sql t⟩
  have hattach : attach? .index t.sql.toList = none ∧ attach? .trigger t.sql.toList = none := by
    rw [hrest, attach?, attach?, hindex, htrigger, if_neg Bool.false_ne_true, if_neg Bool.false_ne_true]
    exact ⟨rfl, rfl⟩
  have hdrop : quoted? dropHead t.sql.toList = none := quoted?_of_head (c := 'D') rfl hhead (by decide)
  have hcopy : quoted? copyHead t.sql.toList = none := quoted?_of_head (c := 'I') rfl hhead (by decide)
  have hrename : rename? t.sql.toList = none := by
    rw [rename?, quoted?_of_head (c := 'A') rfl hhead (by decide)]
    rfl
  unfold statement?
  dsimp only
  rw [hdrop, hrename, hcopy, hattach.1, hattach.2, h]
  rfl

theorem statement?_sql {t : Table} (h : t.Canonical) : statement? t.sql = some (.create t) :=
  statement?_of_parse (Table.parse_sql h).1

/-- What is stored of a print is all but the semicolon. -/
theorem storedSql_sql (t : Table) : storedSql t.sql = t.storedAs (quoteIdentifier t.name) := by
  have hend : ";".toList = [';'] := by decide
  obtain ⟨cs, c, hlast, hc⟩ : ∃ cs c, (t.storedAs (quoteIdentifier t.name)).toList = cs ++ [c] ∧ c ≠ ';' := by
    rw [Reader.toList_storedAs, Reader.optionText]
    by_cases hw : t.withoutRowid = true
    · have hoption : " WITHOUT ROWID".toList = " WITHOUT ROWI".toList ++ ['D'] := by decide
      rw [if_pos hw, hoption]
      simp only [← List.append_assoc]
      exact ⟨_, 'D', rfl, by decide⟩
    · rw [if_neg hw, List.append_nil, show ['\n', ')'] = ['\n'] ++ [')'] from rfl]
      simp only [← List.append_assoc]
      exact ⟨_, ')', rfl, by decide⟩
  have hkept : (cs ++ [c] ++ [';']).reverse.dropWhile (· == ';') = (cs ++ [c]).reverse := by simp [hc]
  rw [storedSql, Table.sql_eq_storedAs, String.toList_append, hend, hlast, hkept, List.reverse_reverse, ← hlast, String.ofList_toList]

/-! ## Its tables -/

theorem named_of_find? {d : Tables} {name : String} {t : StoredTable} (h : d.find? name = some t) :
    sameName t.definition.name name = true := by
  unfold find? at h
  simpa using List.find?_some h

theorem find?_modify {d : Tables} {name : String} {t : StoredTable} {f : StoredTable → StoredTable}
    (hf : ∀ t, (f t).definition = t.definition) (h : d.find? name = some t) : (d.modify name f).find? name = some (f t) := by
  have hkept (t : StoredTable) : (if sameName t.definition.name name then f t else t).definition = t.definition := by
    split
    · exact hf t
    · rfl
  rw [find?, modify, List.find?_map]
  simp only [Function.comp_def, hkept]
  rw [show d.stored.find? (fun t => sameName t.definition.name name) = some t from h, Option.map_some, if_pos (named_of_find? h)]

end Tables

end SchemaEditor
