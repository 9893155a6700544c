import SchemaEditor.Store.Flow
import SchemaEditor.Store.Scan
import SchemaEditor.Store.Window

/-!
# What names mean

Names in an expression mean columns of the sources of the query that it stands in, or else of the queries
around it. A name that means no column may be the label of a result.
-/

namespace SchemaEditor.Store

/-- A table as that which columns belong to. -/
structure Origin where
  temporary : Bool
  table : String

/-- Columns and rows. The order of the rows depends on what is asked for. -/
structure Relation where
  columns : List Column
  /-- The table that it is, if it is one. -/
  origin : Option Origin := none
  /-- The column that stands for the row number. -/
  rowColumn : Option Nat := none
  hasRowid : Bool := false
  /-- The columns of the queries around it that it uses. -/
  uses : List Use := []
  /-- The queries around it whose rows aggregates in it range over. -/
  aggregates : List Nat := []
  /-- What keeps its rows from being worked out, whichever columns are used. -/
  defect : Option Failure := none
  /-- The names of the columns as a result shows them. -/
  headings : List String := columns.map Column.name
  /-- The names of the columns as a query around it sees them. -/
  written : List String := columns.map Column.name
  /-- Whether its rows come in the order that is asked for. -/
  sorts : Demand → Bool := fun _ => false
  /-- Whether the value of a column in the first row is a part of a document. -/
  isPart : Nat → Env → Except Failure Bool := fun _ _ => .ok false
  read : Demand → Env → Flow Row

/-- Everything is used, in no order. -/
def Demand.everything (columns : List Column) : Demand := { used := List.range columns.length }

/-- The rows with all columns, one by one. -/
def Relation.flow (rel : Relation) (env : Env := []) : Flow Row := rel.read (.everything rel.columns) env

/-- What keeps its rows or columns from being worked out. -/
def Relation.anyDefect (rel : Relation) : Option Failure :=
  rel.defect.orElse fun _ => rel.columns.findSome? Column.defect

/-- Fails if its rows or columns cannot be worked out. -/
def Relation.checkSound (rel : Relation) : Except Failure Unit :=
  match rel.anyDefect with
  | some f => .error f
  | none => .ok ()

/-- All rows, with all columns. -/
def Relation.rows (rel : Relation) (env : Env := []) : Except Failure (List Row) := (rel.flow env).whole

/-! ## Scopes -/

/-- A source as names see it. -/
structure ScopeSource where
  name : Option String
  /-- Whether it has its name only where it stands. -/
  isLabelled : Bool := false
  origin : Option Origin := none
  /-- The schema that it is in, if it is in any. -/
  schema : Option String := none
  columns : List Column
  rowColumn : Option Nat := none
  hasRowid : Bool := false
  /-- How it is joined to the sources before it. -/
  kind : JoinKind := {}
  /-- The columns that are joined with those of the same name in sources before it. -/
  joined : List Nat := []
  /-- Whether names mean its columns only together with its own name. -/
  isGuarded : Bool := false

/-- The sources of a query, and the labels of its results. -/
structure Scope where
  sources : List ScopeSource
  labels : List (String × Meaning) := []

/-- Where an expression stands. -/
inductive Place where
  | query
  | check
  | indexTerm
  | indexFilter
  | generation
deriving DecidableEq

def Place.describe : Place → String
  | query => "queries"
  | check => "CHECK constraints"
  | indexTerm => "index expressions"
  | indexFilter => "partial index WHERE clauses"
  | generation => "generated columns"

/-- The counts that functions give. -/
structure Counts where
  changes : Nat := 0
  totalChanges : Nat := 0
  lastRowid : Int := 0

/-- What an expression can refer to. -/
structure Context where
  scopes : List Scope := []
  /-- Finds a table or view, with the schema that it is in, if it is in any. -/
  find : ObjectName → Except Failure (Option String × Relation)
  place : Place := .query
  /-- Whether aggregates can be used here. -/
  aggregates : Bool := false
  /-- Whether functions of windows can be used here. -/
  allowsWindows : Bool := false
  /-- The windows of the query that have names. -/
  windows : List (String × Except Failure WindowSpec) := []
  inTrigger : Bool := false
  counts : Counts := {}

/-- A context in which no tables are known. -/
def Context.isolated (place : Place) : Context := { find := fun n => .error (.noSuchTable n), place }

namespace Context

def enter (ctx : Context) (scope : Scope) : Context := { ctx with scopes := scope :: ctx.scopes, windows := [] }

/-- The context for terms that cannot name columns of the queries around their own. -/
def innermost (ctx : Context) : Context :=
  { ctx with scopes := ctx.scopes.take 1 ++ if ctx.inTrigger then (ctx.scopes.drop 1).getLast?.toList else [] }

/-- The context for expressions in which aggregates and windows can be used, or for those in which they cannot. -/
def allowing (ctx : Context) (aggregates : Bool) (allowsWindows : Bool := false) : Context :=
  { ctx with aggregates, allowsWindows }

/-- A context in which a name means a table before all others. It is worked out where it is used. -/
def withTable (ctx : Context) (name : String) (rel : Unit → Except Failure Relation) : Context :=
  let isMeant (n : ObjectName) : Bool := n.schema.isNone && sameName n.name name
  { ctx with find := fun n => if isMeant n then (rel ()).map fun rel => (none, rel) else ctx.find n }

/-- A context in which a name means a table that is being worked out. -/
def withCircle (ctx : Context) (name : String) : Context :=
  ctx.withTable name fun _ => .error (.invalid ("circular reference: " ++ name))

/-- A context in which names mean tables that may use one another, but not in a circle. Each is used at most `depth`
deep within others. -/
def withTables (tables : List (String × (Context → Except Failure Relation))) : (depth : Nat) → Context → Context
  | 0, ctx => tables.foldl (fun ctx (name, _) => ctx.withCircle name) ctx
  | depth + 1, ctx =>
    let inner := withTables tables depth ctx
    tables.foldl (fun ctx (name, table) => ctx.withTable name fun _ => table (inner.withCircle name)) ctx

/-- Fails where something cannot stand. -/
def forbid (ctx : Context) (places : List Place) (what : String) : Except Failure Unit :=
  if places.contains ctx.place then .error (.prohibited what ctx.place.describe) else .ok ()

/-- Fails outside of queries. -/
def onlyInQueries (ctx : Context) (what : String) : Except Failure Unit :=
  ctx.forbid [.check, .indexTerm, .indexFilter, .generation] what

end Context

/-! ## Looking up names -/

namespace ColumnName

def parts (n : ColumnName) : List String := n.schema.toList ++ n.table.toList ++ [n.name]

def shown (n : ColumnName) : String := ".".intercalate n.parts

end ColumnName

namespace ScopeSource

/-- Whether a name can mean a column of this source. -/
def answers (s : ScopeSource) (n : ColumnName) : Bool :=
  match n.table with
  | none => !s.isGuarded
  | some t =>
    let isInSchema := if s.isGuarded then n.schema.isNone else n.schema.all fun name => s.schema.any (sameName name)
    s.name.any (sameName t) && isInSchema

end ScopeSource

namespace Scope

/-- A column that a name can mean. -/
structure Match where
  source : ScopeSource
  column : Column
  use : Use

namespace Match

def meaning (m : Match) : Meaning := .ofColumn m.column m.use

def isJoined (m : Match) : Bool := m.source.joined.contains m.use.place

/-- What a name means that already means something, and that this column is joined to. A source that keeps all its
rows, and no others, decides. -/
def join (found : Meaning) (m : Match) : Meaning :=
  if !m.source.kind.keepsRight then found
  else if !m.source.kind.keepsLeft then m.meaning
  else found.merge [m.meaning]

end Match

/-- The columns of the sources that a name can mean. -/
def matching (s : Scope) (depth : Nat) (n : ColumnName) : List Match :=
  (s.sources.mapIdx fun k source =>
    if source.answers n then
      (Definition.find? source.columns n.name).bind fun i =>
        source.columns[i]?.map fun c => ⟨source, c, ⟨depth, k, i⟩⟩
    else none).filterMap id

/-- The sources whose row number a name can mean. -/
def numberedSources (s : Scope) (n : ColumnName) : List (Nat × ScopeSource) :=
  if !Definition.isRowNumber n.name then []
  else (s.sources.mapIdx fun k source => (k, source)).filter fun (_, source) => source.hasRowid && source.answers n

def rowNumber? (s : Scope) (depth : Nat) (n : ColumnName) : Except Failure (Option Meaning) :=
  match s.numberedSources n with
  | [] => .ok none
  | [(k, source)] =>
    match source.rowColumn.bind fun i => source.columns[i]?.map fun c => (i, c) with
    | some (i, c) => .ok (some (.ofColumn c ⟨depth, k, i⟩))
    | none => .ok (some (.ofRowid depth k))
  | _ => .error (.ambiguousColumn n.shown)

def label? (s : Scope) (depth : Nat) (n : ColumnName) : Option Meaning :=
  if n.table.isSome then none
  else (s.labels.find? fun (label, _) => sameName label n.name).map fun (_, m) =>
    { m.fromWithin depth with column := none, name := none, windows := m.windows }

def find (s : Scope) (depth : Nat) (numbered : Bool) (n : ColumnName) : Except Failure (Option Meaning) := do
  match s.matching depth n with
  | first :: others =>
    if !others.all Match.isJoined then throw (.ambiguousColumn n.shown)
    return some (others.foldl Match.join first.meaning)
  | [] =>
    let number ← if numbered then s.rowNumber? depth n else pure none
    return number.orElse fun _ => s.label? depth n

/-- Looks a name up in scopes, the innermost first. -/
def findIn (numbered : Bool) (n : ColumnName) : Nat → List Scope → Except Failure (Option Meaning)
  | _, [] => return none
  | depth, s :: outer => do
    match ← s.find depth numbered n with
    | some m => return some m
    | none => findIn numbered n (depth + 1) outer

end Scope

/-- The truth value that a bare word stands for. -/
def truthWord? (n : ColumnName) : Option Bool :=
  if n.table.isSome || n.loose then none
  else if sameName n.name "TRUE" then some true
  else if sameName n.name "FALSE" then some false
  else none

namespace Context

/-- Whether row numbers can be named here. -/
def seesRowNumbers (ctx : Context) : Bool := ctx.place != .indexTerm && ctx.place != .generation

def column? (ctx : Context) (n : ColumnName) : Except Failure (Option Meaning) :=
  Scope.findIn ctx.seesRowNumbers n 0 ctx.scopes

/-- What a name means. If there is no such column, it may be a truth value, or a text in double quotes. -/
def column (ctx : Context) (n : ColumnName) : Except Failure Meaning := do
  if n.table.isSome then ctx.forbid [.indexTerm, .generation] "the \".\" operator"
  match ← ctx.column? n with
  | some m =>
    if !m.windows.isEmpty && !ctx.allowsWindows then throw (.invalid ("misuse of aliased window function " ++ n.name))
    return m
  | none =>
    if n.table.isNone && n.loose then return .constant (.text n.name)
    match truthWord? n with
    | some b => return .constant (.ofTruth (some b))
    | none => throw (.noSuchColumn n.shown)

/-- The truth value that an expression is nothing but a word for. -/
def truth? (ctx : Context) : Expr → Except Failure (Option Bool)
  | .column n => do
    match ← ctx.column? n with
    | some _ => return none
    | none => return truthWord? n
  | _ => return none

end Context

/-! ## Columns of results -/

/-- Types with a name of the standard are shown in capitals. -/
def standardType (sqlType : String) : String :=
  if Definition.strictTypes.contains sqlType.toUpper then sqlType.toUpper else sqlType

/-- The type that a column of a result is shown with: that of the column it is, unless they differ in kind. -/
def resultType (declared : String) : Option Affinity → String
  | none => ""
  | some a =>
    if declared ≠ "" ∧ Affinity.ofType declared = a then standardType declared
    else
      match a with
      | .blob => "BLOB"
      | .text => "TEXT"
      | .numeric => "NUM"
      | .integer => "INT"
      | .real => "REAL"

/-- The column of a result that has this meaning. -/
def Meaning.result (m : Meaning) (name : String) : Column where
  name
  sqlType := resultType ((m.column.map Column.sqlType).getD "") m.affinity
  affinity := m.affinity
  collation := m.collation.getD .binary
  defect := m.defect

end SchemaEditor.Store
